import ConcurrentQueue.Library.Instants
import ConcurrentQueue.Spsc.HandOff

namespace ConcurrentQueue.Spsc

/-!
# Sequentially consistent runs

In such a run every load reads the newest message.  The totals behind the two
indices only grow, each by the steps of the side that owns it.
-/

variable {α : Type}

/-- The elements published in `tail_` and not yet released in `head_`. -/
def State.queued (state : State α) : Nat :=
  state.pushedTotal - state.poppedTotal

/-- The producer reads the newest message of whatever it loads. -/
def producerCurrent (state : State α) (action : Action α) : Prop :=
  match state.producer, action with
  | .checkClosed _, .load message => message = state.closed.newest
  | .refreshHead _, .load message => message = state.head.newest
  | _, _ => True

/-- The consumer reads the newest message of whatever it loads. -/
def consumerCurrent (state : State α) (action : Action α) : Prop :=
  match state.consumer, action with
  | .refreshTail _, .load message => message = state.tail.newest
  | .popClosed _, .load message => message = state.closed.newest
  | .loadClosed, .load message => message = state.closed.newest
  | _, _ => True

/-- An observer reads the newest message of whatever it loads. -/
def observerCurrent
    (state : State α)
    (thread : Nat)
    (action : Action α) : Prop :=
  match state.observers thread, action with
  | .loadClosed, .load message => message = state.closed.newest
  | .sizeHead, .load message => message = state.head.newest
  | .sizeTail _, .load message => message = state.tail.newest
  | _, _ => True

/-- Every load reads the newest message. -/
def sequential : StepGuard (State α) (Label α) :=
  fun state label =>
    match label.agent with
    | .producer => producerCurrent state label.action
    | .consumer => consumerCurrent state label.action
    | .observer thread => observerCurrent state thread label.action

instance (state : State α) (action : Action α) :
    Decidable (producerCurrent state action) :=
  decidable_of_bool
    (match state.producer, action with
      | .checkClosed _, .load message => message == state.closed.newest
      | .refreshHead _, .load message => message == state.head.newest
      | _, _ => true)
    (by unfold producerCurrent; split <;> simp)

instance (state : State α) (action : Action α) :
    Decidable (consumerCurrent state action) :=
  decidable_of_bool
    (match state.consumer, action with
      | .refreshTail _, .load message => message == state.tail.newest
      | .popClosed _, .load message => message == state.closed.newest
      | .loadClosed, .load message => message == state.closed.newest
      | _, _ => true)
    (by unfold consumerCurrent; split <;> simp)

instance (state : State α) (thread : Nat) (action : Action α) :
    Decidable (observerCurrent state thread action) :=
  decidable_of_bool
    (match state.observers thread, action with
      | .loadClosed, .load message => message == state.closed.newest
      | .sizeHead, .load message => message == state.head.newest
      | .sizeTail _, .load message => message == state.tail.newest
      | _, _ => true)
    (by unfold observerCurrent; split <;> simp)

instance :
    ∀ (state : State α) (label : Label α),
      Decidable (sequential state label)
  | state, ⟨.producer, action⟩ =>
      inferInstanceAs (Decidable (producerCurrent state action))
  | state, ⟨.consumer, action⟩ =>
      inferInstanceAs (Decidable (consumerCurrent state action))
  | state, ⟨.observer thread, action⟩ =>
      inferInstanceAs (Decidable (observerCurrent state thread action))

section Indices

variable {slots : Nat} {state next : State α}
variable {agent : Agent} {action : Action α}

/-- Only the consumer's index store writes `head_`. -/
theorem Step.head_eq
    (step : Step slots state agent action next)
    (notRelease :
      (⟨agent, action⟩ : Label α) ≠ ⟨.consumer, .store⟩) :
    next.head = state.head := by
  cases step with
  | producer own => exact own.head_eq
  | observer own => exact own.head_eq
  | consumer own =>
      cases own with
      | publishHead => exact absurd rfl notRelease
      | _ => rfl

/-- Only the producer's index store writes `tail_`. -/
theorem Step.tail_eq
    (step : Step slots state agent action next)
    (notPublication :
      (⟨agent, action⟩ : Label α) ≠ ⟨.producer, .store⟩) :
    next.tail = state.tail := by
  cases step with
  | consumer own => exact own.tail_eq
  | observer own => exact own.tail_eq
  | producer own =>
      cases own with
      | publishTail => exact absurd rfl notPublication
      | _ => rfl

/-- No step lowers the number of elements released. -/
theorem Step.poppedTotal_le
    (step : Step slots state agent action next) :
    state.poppedTotal ≤ next.poppedTotal := by
  by_cases isRelease : (⟨agent, action⟩ : Label α) = ⟨.consumer, .store⟩
  · cases isRelease
    cases step with
    | consumer own =>
        cases own
        simp [State.poppedTotal]
  · unfold State.poppedTotal
    rw [step.head_eq isRelease]

/-- No step lowers the number of elements published. -/
theorem Step.pushedTotal_le
    (step : Step slots state agent action next) :
    state.pushedTotal ≤ next.pushedTotal := by
  by_cases isPublication :
      (⟨agent, action⟩ : Label α) = ⟨.producer, .store⟩
  · cases isPublication
    cases step with
    | producer own =>
        cases own
        simp [State.pushedTotal]
  · unfold State.pushedTotal
    rw [step.tail_eq isPublication]

/-- Every store of `head_` releases some element. -/
theorem Step.poppedTotal_lt
    (step : Step slots state .consumer .store next)
    (tracked : Tracked state) :
    state.poppedTotal < next.poppedTotal := by
  have agrees := tracked.consumer
  cases step with
  | consumer own =>
      cases own with
      | publishHead isAt =>
          rw [isAt] at agrees
          obtain ⟨call, op, isCurrent, after, nonempty⟩ := agrees
          simp only [State.poppedTotal, State.publishHead,
            State.atConsumer, total_store]
          omega

/-- Every store of `tail_` publishes some element. -/
theorem Step.pushedTotal_lt
    (step : Step slots state .producer .store next)
    (tracked : Tracked state) :
    state.pushedTotal < next.pushedTotal := by
  have agrees := tracked.producer
  cases step with
  | producer own =>
      cases own with
      | publishTail isAt =>
          rw [isAt] at agrees
          obtain ⟨call, op, isCurrent, after, nonempty⟩ := agrees
          simp only [State.pushedTotal, State.publishTail,
            State.atProducer, total_store]
          omega

end Indices

section Runs

variable {slots : Nat} {first last : State α}
variable {guard : StepGuard (State α) (Label α)}
variable {labels : List (Label α)}

/-- The elements released over a run. -/
theorem poppedTotal_mono
    (run : Run (step? slots) guard first labels last) :
    first.poppedTotal ≤ last.poppedTotal :=
  run.monotone State.poppedTotal fun taken =>
    (Step.of_step? taken).poppedTotal_le

/-- The elements published over a run. -/
theorem pushedTotal_mono
    (run : Run (step? slots) guard first labels last) :
    first.pushedTotal ≤ last.pushedTotal :=
  run.monotone State.pushedTotal fun taken =>
    (Step.of_step? taken).pushedTotal_le

/-- A run without a release keeps `head_`. -/
theorem head_kept
    (run : Run (step? slots) guard first labels last)
    (noRelease : ∀ label ∈ labels, label ≠ ⟨.consumer, .store⟩) :
    last.head = first.head :=
  run.keeps State.head fun member taken =>
    (Step.of_step? taken).head_eq (noRelease _ member)

/-- A run without a publication keeps `tail_`. -/
theorem tail_kept
    (run : Run (step? slots) guard first labels last)
    (noPublication : ∀ label ∈ labels, label ≠ ⟨.producer, .store⟩) :
    last.tail = first.tail :=
  run.keeps State.tail fun member taken =>
    (Step.of_step? taken).tail_eq (noPublication _ member)

/-- A run that releases nothing has no store of `head_`. -/
theorem no_release
    [Inhabited α]
    {earlier : List (Label α)}
    (before : Run (step? slots) guard initial earlier first)
    (run : Run (step? slots) guard first labels last)
    (same : last.poppedTotal = first.poppedTotal) :
    ∀ label ∈ labels, label ≠ ⟨.consumer, .store⟩ := by
  intro label member isRelease
  subst isRelease
  obtain ⟨sooner, later, rfl⟩ := List.append_of_mem member
  obtain ⟨middle, opening, rest⟩ := run.split
  obtain ⟨after, _, taken, rest⟩ := rest.uncons
  have grows :=
    (Step.of_step? taken).poppedTotal_lt
      (Tracked.of_run (before.append opening))
  have sooner := poppedTotal_mono opening
  have later := poppedTotal_mono rest
  omega

/-- A run that publishes nothing has no store of `tail_`. -/
theorem no_publication
    [Inhabited α]
    {earlier : List (Label α)}
    (before : Run (step? slots) guard initial earlier first)
    (run : Run (step? slots) guard first labels last)
    (same : last.pushedTotal = first.pushedTotal) :
    ∀ label ∈ labels, label ≠ ⟨.producer, .store⟩ := by
  intro label member isPublication
  subst isPublication
  obtain ⟨sooner, later, rfl⟩ := List.append_of_mem member
  obtain ⟨middle, opening, rest⟩ := run.split
  obtain ⟨after, _, taken, rest⟩ := rest.uncons
  have grows :=
    (Step.of_step? taken).pushedTotal_lt
      (Tracked.of_run (before.append opening))
  have sooner := pushedTotal_mono opening
  have later := pushedTotal_mono rest
  omega

end Runs

end ConcurrentQueue.Spsc
