import ConcurrentQueue.Spsc.CachedChecks

namespace ConcurrentQueue.Spsc

/-!
# Throwing move assignments in `SpscQueue`

A single push or pop either moves its element and then stores its index, or
its move throws and it returns at once.  A call that leaves by an exception
therefore stores nothing and assigns one slot.
-/

variable {α : Type}

/-- A step leaves everything of the ring but one slot. -/
structure OnlySlot (slot : Nat) (state next : State α) : Prop where
  head : next.head = state.head
  tail : next.tail = state.tail
  closed : next.closed = state.closed
  buffer : ∀ index, index ≠ slot → next.buffer index = state.buffer index

/-- The producer has moved its element, or its call cannot throw any more. -/
def ProducerPc.Committed : ProducerPc α → Prop
  | .moveIn _ _ moved _ => moved ≠ []
  | .publishTail _ _ _ => True
  | .returning result => result.isException = false
  | _ => False

/-- The consumer has moved its element, or its call cannot throw any more. -/
def ConsumerPc.Committed : ConsumerPc α → Prop
  | .moveOut _ _ moved _ => moved ≠ []
  | .publishHead _ _ _ => True
  | .returning result => result.isException = false
  | _ => False

section Committed

variable {slots index count : Nat} {state next : State α}
variable {action : Action α} {moved : List α}

/-- After one element the producer cannot throw any more. -/
theorem ProducerPc.committed_afterMove
    (some : moved ≠ [])
    (pusher : Pusher α) :
    (ProducerPc.afterMove slots pusher index moved count).Committed := by
  unfold ProducerPc.afterMove
  split
  · exact some
  · trivial

theorem ConsumerPc.committed_afterMove
    (some : moved ≠ [])
    (popper : Popper α) :
    (ConsumerPc.afterMove slots popper index moved count).Committed := by
  unfold ConsumerPc.afterMove
  split
  · exact some
  · trivial

theorem Pusher.not_exception_accepted (pusher : Pusher α) :
    (pusher.accepted count).isException = false := by
  cases pusher <;> rfl

theorem Popper.not_exception_delivered (popper : Popper α) :
    (popper.delivered count).isException = false := by
  cases popper <;> rfl

/-- A producer that cannot throw any more does not throw. -/
theorem ProducerPc.Committed.step
    (committed : state.producer.Committed)
    (tracked : Tracked state)
    (notAnswer : action ≠ .respond)
    (step : ProducerStep slots state action next) :
    next.producer.Committed := by
  have agrees := tracked.producer
  cases step with
  | respond => exact absurd rfl notAnswer
  | moveIn => exact ProducerPc.committed_afterMove (by simp) _
  | publishTail => exact Pusher.not_exception_accepted _
  | throwIn isAt mayThrow =>
      rw [isAt] at committed agrees
      obtain ⟨call, op, isCurrent, after, more, bound⟩ := agrees
      exact absurd (Pusher.moved_eq_nil mayThrow after more bound) committed
  | invoke isAt | refused isAt | admitted isAt | room isAt | noRoom isAt
  | refreshedRoom isAt | refreshedFull isAt =>
      rw [isAt] at committed
      exact False.elim committed

/-- A consumer that cannot throw any more does not throw. -/
theorem ConsumerPc.Committed.step
    (committed : state.consumer.Committed)
    (tracked : Tracked state)
    (notAnswer : action ≠ .respond)
    (step : ConsumerStep slots state action next) :
    next.consumer.Committed := by
  have agrees := tracked.consumer
  cases step with
  | respond => exact absurd rfl notAnswer
  | moveOut => exact ConsumerPc.committed_afterMove (by simp) _
  | publishHead => exact Popper.not_exception_delivered _
  | throwOut isAt mayThrow =>
      rw [isAt] at committed agrees
      obtain ⟨call, op, isCurrent, after, more, bound⟩ := agrees
      exact absurd (Popper.moved_eq_nil mayThrow after more bound) committed
  | invoke isAt | data isAt | noData isAt | refreshedData isAt
  | refreshedEmpty isAt | popClosed isAt | loadClosed isAt =>
      rw [isAt] at committed
      exact False.elim committed

/-- A step of the producer that may still throw assigns one slot. -/
theorem ProducerStep.only_slot
    (tracked : Tracked state)
    (indices : Indices slots state)
    (uncommitted : ¬ next.producer.Committed)
    (step : ProducerStep slots state action next) :
    OnlySlot state.tail.latest state next := by
  have agrees := tracked.producer
  have within := indices.producer
  cases step with
  | moveIn =>
      exact absurd (ProducerPc.committed_afterMove (by simp) _) uncommitted
  | publishTail =>
      exact absurd (Pusher.not_exception_accepted _) uncommitted
  | throwIn isAt mayThrow =>
      rw [isAt] at agrees within
      obtain ⟨call, op, isCurrent, after, more, bound⟩ := agrees
      have nothing := Pusher.moved_eq_nil mayThrow after more bound
      have isIndex := within.1
      rw [nothing] at isIndex
      refine ⟨rfl, rfl, rfl, fun other notSlot => ?_⟩
      refine Function.update_of_ne ?_ _ _
      rw [isIndex]
      exact indices.tail.latest_eq ▸ notSlot
  | _ => exact ⟨rfl, rfl, rfl, fun _ _ => rfl⟩

/-- A step of the consumer that may still throw assigns one slot. -/
theorem ConsumerStep.only_slot
    (tracked : Tracked state)
    (indices : Indices slots state)
    (uncommitted : ¬ next.consumer.Committed)
    (step : ConsumerStep slots state action next) :
    OnlySlot state.head.latest state next := by
  have agrees := tracked.consumer
  have within := indices.consumer
  cases step with
  | moveOut =>
      exact absurd (ConsumerPc.committed_afterMove (by simp) _) uncommitted
  | publishHead =>
      exact absurd (Popper.not_exception_delivered _) uncommitted
  | throwOut isAt mayThrow =>
      rw [isAt] at agrees within
      obtain ⟨call, op, isCurrent, after, more, bound⟩ := agrees
      have nothing := Popper.moved_eq_nil mayThrow after more bound
      have isIndex := within.1
      rw [nothing] at isIndex
      refine ⟨rfl, rfl, rfl, fun other notSlot => ?_⟩
      refine Function.update_of_ne ?_ _ _
      rw [isIndex]
      exact indices.head.latest_eq ▸ notSlot
  | _ => exact ⟨rfl, rfl, rfl, fun _ _ => rfl⟩

end Committed

section Exceptions

variable [Inhabited α] {slots : Nat} {op : Op α} {result : Result α}
variable {earlier during : List (Label α)} {invoked last : State α}

/-- Once the producer cannot throw any more, its call does not throw. -/
theorem ProducerPc.Committed.of_run
    {labels later : List (Label α)}
    {state : State α}
    (reached : Run (step? slots) unrestricted initial labels state)
    (run : Run (step? slots) unrestricted state later last)
    (unanswered : ∀ label ∈ later, label ≠ ⟨.producer, .respond⟩)
    (committed : state.producer.Committed) :
    last.producer.Committed := by
  induction run with
  | start =>
      exact committed
  | @snoc _ middle _ label shorter _ taken inductionHypothesis =>
      have soFar := inductionHypothesis fun label member =>
        unanswered label (List.mem_append_left _ member)
      have tracked : Tracked middle :=
        Tracked.of_run (reached.append shorter)
      have notAnswer := unanswered label (by simp)
      rcases label with ⟨agent, action⟩
      cases Step.of_step? taken with
      | producer own =>
          refine soFar.step tracked ?_ own
          rintro rfl
          exact notAnswer rfl
      | consumer own =>
          rw [own.producer_eq]
          exact soFar
      | observer own =>
          rw [own.producer_eq]
          exact soFar

/-- Once the consumer cannot throw any more, its call does not throw. -/
theorem ConsumerPc.Committed.of_run
    {labels later : List (Label α)}
    {state : State α}
    (reached : Run (step? slots) unrestricted initial labels state)
    (run : Run (step? slots) unrestricted state later last)
    (unanswered : ∀ label ∈ later, label ≠ ⟨.consumer, .respond⟩)
    (committed : state.consumer.Committed) :
    last.consumer.Committed := by
  induction run with
  | start =>
      exact committed
  | @snoc _ middle _ label shorter _ taken inductionHypothesis =>
      have soFar := inductionHypothesis fun label member =>
        unanswered label (List.mem_append_left _ member)
      have tracked : Tracked middle :=
        Tracked.of_run (reached.append shorter)
      have notAnswer := unanswered label (by simp)
      rcases label with ⟨agent, action⟩
      cases Step.of_step? taken with
      | consumer own =>
          refine soFar.step tracked ?_ own
          rintro rfl
          exact notAnswer rfl
      | producer own =>
          rw [own.consumer_eq]
          exact soFar
      | observer own =>
          rw [own.consumer_eq]
          exact soFar

/-- A push that leaves by an exception assigns one slot in all its steps. -/
theorem push_only_slot
    (wide : 1 < slots)
    (small : slots ≤ SizeT.halfRange)
    (window :
      CallWindow slots unrestricted .producer op earlier during invoked last)
    (returns : last.producer = .returning result)
    (raises : result.isException = true) :
    EachStep (step? slots) unrestricted invoked during
      fun state label next =>
        label.agent = .producer →
        OnlySlot state.tail.latest state next := by
  intro sooner label later state next shape run taken isOwn
  have runs := window.runs
  rw [shape] at runs
  obtain ⟨_, rest⟩ := runs.after run taken
  have atState := window.reached.append run
  have unanswered : ∀ label ∈ later, label ≠ ⟨.producer, .respond⟩ :=
    fun label member => window.unclosed label (by simp [shape, member])
  have uncommitted : ¬ next.producer.Committed := by
    intro committed
    have atLast :=
      committed.of_run (atState.snoc trivial taken) rest unanswered
    rw [returns] at atLast
    simp [ProducerPc.Committed, raises] at atLast
  obtain ⟨agent, action⟩ := label
  subst isOwn
  cases Step.of_step? taken with
  | producer own =>
      exact own.only_slot (Tracked.of_run atState)
        (Indices.of_run wide small atState) uncommitted

/-- A pop that leaves by an exception assigns one slot in all its steps. -/
theorem pop_only_slot
    (wide : 1 < slots)
    (small : slots ≤ SizeT.halfRange)
    (window :
      CallWindow slots unrestricted .consumer op earlier during invoked last)
    (returns : last.consumer = .returning result)
    (raises : result.isException = true) :
    EachStep (step? slots) unrestricted invoked during
      fun state label next =>
        label.agent = .consumer →
        OnlySlot state.head.latest state next := by
  intro sooner label later state next shape run taken isOwn
  have runs := window.runs
  rw [shape] at runs
  obtain ⟨_, rest⟩ := runs.after run taken
  have atState := window.reached.append run
  have unanswered : ∀ label ∈ later, label ≠ ⟨.consumer, .respond⟩ :=
    fun label member => window.unclosed label (by simp [shape, member])
  have uncommitted : ¬ next.consumer.Committed := by
    intro committed
    have atLast :=
      committed.of_run (atState.snoc trivial taken) rest unanswered
    rw [returns] at atLast
    simp [ConsumerPc.Committed, raises] at atLast
  obtain ⟨agent, action⟩ := label
  subst isOwn
  cases Step.of_step? taken with
  | consumer own =>
      exact own.only_slot (Tracked.of_run atState)
        (Indices.of_run wide small atState) uncommitted

end Exceptions

end ConcurrentQueue.Spsc
