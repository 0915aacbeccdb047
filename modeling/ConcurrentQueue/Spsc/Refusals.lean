import ConcurrentQueue.Spsc.Closing

namespace ConcurrentQueue.Spsc

/-!
# When `push` and `pop` are refused

A blocking call returns `false` only after a load of `closed_` has returned
`true`: at once for a push, and after one more attempt for a pop.
-/

variable {α : Type}

/-- The result that an agent is about to return. -/
def State.returning? (state : State α) : Agent → Option (Result α)
  | .producer =>
      match state.producer with
      | .returning result => some result
      | _ => none
  | .consumer =>
      match state.consumer with
      | .returning result => some result
      | _ => none
  | .observer thread =>
      match state.observers thread with
      | .returning result => some result
      | _ => none

/-- The call that has not found room yet. -/
def ProducerPc.seeking : ProducerPc α → Option (Pusher α)
  | .checkClosed pusher => some pusher
  | .checkRoom pusher => some pusher
  | .refreshHead pusher => some pusher
  | _ => none

/-- The call that has not found data yet. -/
def ConsumerPc.seeking : ConsumerPc α → Option (Popper α)
  | .checkData popper => some popper
  | .refreshTail popper => some popper
  | .popClosed out => some (.pop out false)
  | _ => none

/-- What blocking calls that were refused say about the closed flag. -/
structure Refusals (state : State α) : Prop where
  latched :
    ∀ {message},
      state.closed.read? message = some true → state.closed.latest = true
  invoked : state.closed.latest = true → state.CloseInvoked
  sawClosed :
    ∀ {out},
      state.consumer.seeking = some (.pop out true) →
      state.closed.latest = true
  refused :
    ∀ {agent opened result},
      state.log.current agent = some opened →
      opened.op.isBlocking = true →
      state.returning? agent = some result →
      result.isRefusal = true →
      state.closed.latest = true
  completed :
    ∀ {call op marks result},
      state.log.Completed call op marks result →
      op.isBlocking = true →
      result.isRefusal = true →
      state.closed.latest = true

section Steps

variable {slots : Nat} {agent : Agent} {action : Action α}
variable {state next : State α}

/-- A step either leaves `closed_` alone or stores `true` in it. -/
theorem Step.closed_eq
    (step : Step slots state agent action next) :
    next.closed = state.closed ∨
      next.closed = state.closed.store (state.callOf agent) true := by
  cases step with
  | producer own => exact Or.inl own.closed_eq
  | consumer own => exact Or.inl own.closed_eq
  | observer own =>
      cases own with
      | storeClosed => exact Or.inr rfl
      | _ => exact Or.inl rfl

/-- A queue that is closed stays closed. -/
theorem Step.stays_closed
    (step : Step slots state agent action next)
    (isClosed : state.closed.latest = true) :
    next.closed.latest = true := by
  rcases step.closed_eq with same | stored
  · rw [same, isClosed]
  · rw [stored, Atomic.latest_store]

/-- A step of one agent decides no result of another. -/
theorem Step.returning?_other
    {other : Agent}
    (step : Step slots state agent action next)
    (different : other ≠ agent) :
    next.returning? other = state.returning? other := by
  unfold State.returning?
  cases step with
  | producer own =>
      cases other with
      | producer => exact absurd rfl different
      | consumer => simp only [own.consumer_eq]
      | observer => simp only [own.observers_eq]
  | consumer own =>
      cases other with
      | producer => simp only [own.producer_eq]
      | consumer => exact absurd rfl different
      | observer => simp only [own.observers_eq]
  | observer own =>
      cases other with
      | producer => simp only [own.producer_eq]
      | consumer => simp only [own.consumer_eq]
      | observer thread =>
          have apart : next.observers thread = state.observers thread := by
            apply own.observers_other
            rintro rfl
            exact different rfl
          simp only [apart]

/-- The step that completes a call returns the result decided before. -/
theorem Tracked.completed_returning
    (tracked : Tracked state)
    (step : Step slots state agent action next)
    {call : Nat}
    {op : Op α}
    {marks : List (Handover α)}
    {result : Result α}
    (completed : next.log.Completed call op marks result) :
    state.log.Completed call op marks result ∨
      state.log.current agent = some ⟨call, op, marks⟩ ∧
        state.returning? agent = some result := by
  have answers :
      ∀ {decided},
        state.returning? agent = some decided →
        Decided (state.log.current agent) decided →
        (state.log.respond agent decided).Completed call op marks
          result →
        state.log.Completed call op marks result ∨
          state.log.current agent = some ⟨call, op, marks⟩ ∧
            state.returning? agent = some result := by
    rintro decided returns ⟨owner, op', marks', isCurrent, _⟩ answered
    rcases (tracked.wellFormed.completed_respond isCurrent).mp answered
      with old | ⟨rfl, rfl, rfl, rfl⟩
    · exact Or.inl old
    · exact Or.inr ⟨isCurrent, returns⟩
  have invokes :
      ∀ {made},
        (state.log.invoke agent made).Completed call op marks result →
        state.log.Completed call op marks result :=
    fun later => tracked.wellFormed.completed_invoke.mp later
  cases step with
  | producer own =>
      have agrees := tracked.producer
      cases own with
      | invoke => exact Or.inl (invokes completed)
      | publishTail isAt =>
          rw [isAt] at agrees
          obtain ⟨owner, op', isCurrent, _⟩ := agrees
          exact Or.inl
            ((tracked.wellFormed.completed_mark isCurrent).mp completed)
      | respond isAt =>
          rw [isAt] at agrees
          exact answers (by simp [State.returning?, isAt]) agrees completed
      | _ => exact Or.inl completed
  | consumer own =>
      have agrees := tracked.consumer
      cases own with
      | invoke => exact Or.inl (invokes completed)
      | throwOut isAt | publishHead isAt =>
          rw [isAt] at agrees
          obtain ⟨owner, op', isCurrent, _⟩ := agrees
          exact Or.inl
            ((tracked.wellFormed.completed_mark isCurrent).mp completed)
      | respond isAt =>
          rw [isAt] at agrees
          exact answers (by simp [State.returning?, isAt]) agrees completed
      | _ => exact Or.inl completed
  | @observer thread _ _ own =>
      have agrees := tracked.observers thread
      cases own with
      | invoke => exact Or.inl (invokes completed)
      | respond isAt =>
          rw [isAt] at agrees
          exact answers (by simp [State.returning?, isAt]) agrees completed
      | _ => exact Or.inl completed

/-- What an observer decides to return is no refusal. -/
theorem ObserverStep.isRefusal_eq_false
    {thread : Nat}
    {result : Result α}
    (step : ObserverStep slots state thread action next)
    (returns : next.observers thread = .returning result) :
    result.isRefusal = false := by
  cases step with
  | @invoke op pc isAt starts =>
      simp only [State.atObserver, Function.update_self] at returns
      subst returns
      cases op <;> cases starts
      rfl
  | storeClosed | loadClosed | sizeTail =>
      simp only [State.atObserver, Function.update_self] at returns
      cases returns
      rfl
  | sizeHead | respond =>
      simp only [State.atObserver, Function.update_self] at returns
      cases returns

namespace Refusals

/-- A pop makes its last attempt only after it has read `true`. -/
theorem sawClosed_step
    (refusals : Refusals state)
    (step : Step slots state agent action next)
    {out : α}
    (attempts : next.consumer.seeking = some (.pop out true)) :
    state.closed.latest = true := by
  cases step with
  | producer own =>
      rw [own.consumer_eq] at attempts
      exact refusals.sawClosed attempts
  | observer own =>
      rw [own.consumer_eq] at attempts
      exact refusals.sawClosed attempts
  | consumer own =>
      cases own with
      | @invoke op pc isAt starts =>
          cases op <;> cases starts <;> try cases attempts
          simp only [State.atConsumer] at attempts
          split at attempts <;> cases attempts
      | noData isAt =>
          apply refusals.sawClosed
          rw [isAt]
          exact attempts
      | refreshedEmpty isAt =>
          rename_i popper message index fresh reads isEmpty
          rcases popper with ⟨before, _ | _⟩ | before | before <;>
            cases attempts
      | popClosed isAt reads =>
          cases attempts
          exact refusals.latched reads
      | moveOut =>
          simp only [State.atConsumer, ConsumerPc.afterMove] at attempts
          split at attempts <;> cases attempts
      | _ => cases attempts

/-- A push decides to be refused only where it has read `true`. -/
theorem producer_step
    (refusals : Refusals state)
    (tracked : Tracked state)
    (step : ProducerStep slots state action next)
    {opened : OpenCall (Op α) (Handover α)}
    {result : Result α}
    (isCurrent : next.log.current .producer = some opened)
    (blocking : opened.op.isBlocking = true)
    (returns : next.producer = .returning result)
    (isRefusal : result.isRefusal = true) :
    state.closed.latest = true := by
  have agrees := tracked.producer
  cases step with
  | @invoke op pc isAt starts =>
      cases op <;> cases starts <;> try cases returns
      simp only [State.atProducer] at returns
      split at returns <;> cases returns
      cases isRefusal
  | refused isAt reads => exact refusals.latched reads
  | @refreshedFull pusher message index isAt =>
      rw [isAt] at agrees
      obtain ⟨call, op, isOpen, ran, _⟩ := agrees
      cases isOpen.symm.trans isCurrent
      have runs := ran.1
      cases pusher with
      | push => cases returns
      | tryPush =>
          cases op <;> simp only [Pusher.Runs] at runs
          cases blocking
      | tryPushN =>
          cases returns
          cases isRefusal
  | moveIn =>
      simp only [State.atProducer, ProducerPc.afterMove] at returns
      split at returns <;> cases returns
  | throwIn =>
      cases returns
      cases isRefusal
  | @publishTail pusher =>
      cases pusher <;> cases returns <;> cases isRefusal
  | _ => cases returns

/-- A pop decides to be refused only where it has read `true`. -/
theorem consumer_step
    (refusals : Refusals state)
    (tracked : Tracked state)
    (step : ConsumerStep slots state action next)
    {opened : OpenCall (Op α) (Handover α)}
    {result : Result α}
    (isCurrent : next.log.current .consumer = some opened)
    (blocking : opened.op.isBlocking = true)
    (returns : next.consumer = .returning result)
    (isRefusal : result.isRefusal = true) :
    state.closed.latest = true := by
  have agrees := tracked.consumer
  cases step with
  | @invoke op pc isAt starts =>
      cases op <;> cases starts <;> try cases returns
      simp only [State.atConsumer] at returns
      split at returns <;> cases returns
      cases isRefusal
  | @refreshedEmpty popper message index isAt =>
      rw [isAt] at agrees
      obtain ⟨call, op, isOpen, ran, _⟩ := agrees
      cases isOpen.symm.trans isCurrent
      have runs := ran.1
      rcases popper with ⟨out, _ | _⟩ | out | out
      case pop.false => cases returns
      case pop.true =>
          apply refusals.sawClosed
          rw [isAt]
          rfl
      case tryPop =>
          cases op <;> simp only [Popper.Runs] at runs
          cases blocking
      case tryPopN =>
          cases returns
          cases isRefusal
  | moveOut =>
      simp only [State.atConsumer, ConsumerPc.afterMove] at returns
      split at returns <;> cases returns
  | throwOut | loadClosed =>
      cases returns
      cases isRefusal
  | @publishHead popper =>
      cases popper <;> cases returns <;> cases isRefusal
  | _ => cases returns

/-- A blocking call decides to be refused only where it has read `true`. -/
theorem refused_step
    (refusals : Refusals state)
    (tracked : Tracked state)
    (step : Step slots state agent action next)
    {opened : OpenCall (Op α) (Handover α)}
    {result : Result α}
    (isCurrent : next.log.current agent = some opened)
    (blocking : opened.op.isBlocking = true)
    (returns : next.returning? agent = some result)
    (isRefusal : result.isRefusal = true) :
    state.closed.latest = true := by
  unfold State.returning? at returns
  cases step with
  | producer own =>
      simp only at returns
      split at returns
      · cases returns
        rename_i isAt
        exact refusals.producer_step tracked own isCurrent blocking isAt
          isRefusal
      · cases returns
  | consumer own =>
      simp only at returns
      split at returns
      · cases returns
        rename_i isAt
        exact refusals.consumer_step tracked own isCurrent blocking isAt
          isRefusal
      · cases returns
  | @observer thread _ _ own =>
      simp only at returns
      split at returns
      · cases returns
        rename_i isAt
        cases own.isRefusal_eq_false isAt ▸ isRefusal
      · cases returns

/-- The flag is stored by a call of `close()`. -/
theorem invoked_step
    (refusals : Refusals state)
    (tracked : Tracked state)
    (step : Step slots state agent action next)
    (isClosed : next.closed.latest = true) :
    next.CloseInvoked := by
  have earlier : state.CloseInvoked := by
    cases step with
    | producer own =>
        rw [own.closed_eq] at isClosed
        exact refusals.invoked isClosed
    | consumer own =>
        rw [own.closed_eq] at isClosed
        exact refusals.invoked isClosed
    | @observer thread _ _ own =>
        cases own with
        | storeClosed isAt =>
            have agrees := tracked.observers thread
            rw [isAt] at agrees
            obtain ⟨call, isCurrent⟩ := agrees
            exact
              ⟨_, call, tracked.wellFormed.currentInvoked isCurrent⟩
        | _ => exact refusals.invoked isClosed
  obtain ⟨closer, close, member⟩ := earlier
  exact ⟨closer, close, (tracked.history_sublist step).subset member⟩

theorem step
    (refusals : Refusals state)
    (tracked : Tracked state)
    (step : Step slots state agent action next) :
    Refusals next where
  latched := by
    intro message reads
    rcases step.closed_eq with same | stored
    · rw [same] at reads ⊢
      exact refusals.latched reads
    · rw [stored, Atomic.latest_store]
  invoked := refusals.invoked_step tracked step
  sawClosed := fun attempts =>
    step.stays_closed (refusals.sawClosed_step step attempts)
  refused := by
    intro other opened result isCurrent blocking returns isRefusal
    apply step.stays_closed
    by_cases own : other = agent
    · subst own
      exact refusals.refused_step tracked step isCurrent blocking returns
        isRefusal
    · rw [step.returning?_other own] at returns
      rw [tracked.current_other step own] at isCurrent
      exact refusals.refused isCurrent blocking returns isRefusal
  completed := by
    intro call op marks result completed blocking isRefusal
    apply step.stays_closed
    rcases tracked.completed_returning step completed with
      old | ⟨isCurrent, returns⟩
    · exact refusals.completed old blocking isRefusal
    · exact refusals.refused isCurrent blocking returns isRefusal

/-- In the initial state nothing has been refused. -/
theorem initial [Inhabited α] : Refusals (Spsc.initial : State α) where
  latched := by
    intro message reads
    cases message <;> cases reads
  invoked := nofun
  sawClosed := nofun
  refused := nofun
  completed := by
    rintro call op marks result ⟨thread, invoked, _⟩
    cases invoked

/-- Refusals are explained in every reachable state. -/
theorem of_run
    [Inhabited α]
    {guard : StepGuard (State α) (Label α)}
    {labels : List (Label α)}
    (run : Run (step? slots) guard Spsc.initial labels state) :
    Refusals state :=
  run.invariant_of Tracked.of_run Refusals.initial
    fun tracked _ refusals _ taken =>
      refusals.step tracked (Step.of_step? taken)

end Refusals

end Steps

/--
A `push` or `pop` returns `false` only where `close()` was called and its flag
is set, whatever the loads of the two sides have read before.
-/
theorem ring_refused_only_when_closed
    [Inhabited α]
    {slots : Nat}
    {labels : List (Label α)}
    {state : State α}
    {call : Nat}
    {op : Op α}
    {marks : List (Handover α)}
    {result : Result α}
    (run : Run (step? slots) unrestricted initial labels state)
    (completed : state.log.Completed call op marks result)
    (blocking : op.isBlocking = true)
    (isRefusal : result.isRefusal = true) :
    state.closed.latest = true ∧ state.CloseInvoked := by
  have refusals : Refusals state := Refusals.of_run run
  have isClosed := refusals.completed completed blocking isRefusal
  exact ⟨isClosed, refusals.invoked isClosed⟩

/-- A pop finds nothing, reads that the queue is closed, and tries again. -/
def lastAttemptSchedule : List (Label Nat) :=
  [⟨.observer 0, .invoke .close⟩, ⟨.observer 0, .store⟩,
    ⟨.consumer, .invoke (.pop 5)⟩, ⟨.consumer, .check⟩,
    ⟨.consumer, .load 0⟩, ⟨.consumer, .load 1⟩, ⟨.consumer, .check⟩,
    ⟨.consumer, .load 0⟩, ⟨.consumer, .respond⟩]

theorem ring_refused_only_when_closed_pop :
    ∃ state,
      replay? (step? 2) unrestricted initial lastAttemptSchedule =
          some state ∧
        state.log.Completed 1 (.pop 5) [] (.popped false 5) ∧
        state.closed.latest = true ∧ state.CloseInvoked := by
  have replayed :
      ∃ state,
        replay? (step? 2) unrestricted initial lastAttemptSchedule =
            some state ∧
          state.log.history[1]? = some (.invoke .consumer 1 (.pop 5)) ∧
          state.log.history[2]? =
            some (.respond .consumer 1 (.popped false 5)) ∧
          state.log.marksOf 1 = [] :=
    ⟨_, rfl, rfl, rfl, rfl⟩
  obtain ⟨state, accepted, invoked, returned, noMarks⟩ := replayed
  have completed :
      state.log.Completed 1 (.pop 5) [] (.popped false 5) :=
    ⟨.consumer, List.mem_of_getElem? invoked,
      List.mem_of_getElem? returned, noMarks⟩
  exact ⟨state, accepted, completed,
    ring_refused_only_when_closed (Run.of_replay? accepted) completed rfl
      rfl⟩

end ConcurrentQueue.Spsc
