import ConcurrentQueue.Library.Potential
import ConcurrentQueue.Spsc.Sequential

namespace ConcurrentQueue.Spsc

/-!
# `SpscQueue` is wait-free

A call that does not wait for the other side returns after a number of its own
steps that only depends on its span, whatever the other agents do in the
meantime and however stale its loads are.
-/

variable {α : Type}

/-- The steps of a call between its invocation and its response. -/
def ownSteps : Op α → Nat
  | .tryPush _ => 5
  | .tryPushN items => items.length + 4
  | .tryPop _ => 4
  | .tryPopN out => out.length + 3
  | .close | .closed => 1
  | .size => 2
  | _ => 0

/-- The steps that the producer has left before it may return. -/
def ProducerPc.ownLeft : ProducerPc α → Nat
  | .checkClosed pusher => pusher.operands.length + 4
  | .checkRoom pusher => pusher.operands.length + 3
  | .refreshHead pusher => pusher.operands.length + 2
  | .moveIn _ _ moved count => count - moved.length + 1
  | .publishTail _ _ _ => 1
  | .idle | .returning _ => 0

/-- The steps that the consumer has left before it may return. -/
def ConsumerPc.ownLeft : ConsumerPc α → Nat
  | .checkData popper => popper.operands.length + 3
  | .refreshTail popper => popper.operands.length + 2
  | .moveOut _ _ moved count => count - moved.length + 1
  | .publishHead _ _ _ => 1
  | .loadClosed => 1
  | .popClosed _ | .idle | .returning _ => 0

/-- The steps that an observer has left before it may return. -/
def ObserverPc.ownLeft : ObserverPc α → Nat
  | .storeClosed | .loadClosed | .sizeTail _ => 1
  | .sizeHead => 2
  | .idle | .returning _ => 0

/-- The steps that an agent has left before it may return. -/
def State.ownLeft (state : State α) : Agent → Nat
  | .producer => state.producer.ownLeft
  | .consumer => state.consumer.ownLeft
  | .observer thread => (state.observers thread).ownLeft

section Steps

variable {slots : Nat} {state next : State α} {action : Action α}

/-- A push that waits for nothing makes one attempt. -/
theorem ProducerStep.goesOn
    (step : ProducerStep slots state action next)
    (tracked : Tracked state)
    {opened : OpenCall (Op α) (Handover α)}
    (isCurrent : state.log.current .producer = some opened)
    (noWaiting : opened.op.isBlocking = false)
    (pusher : Pusher α) :
    next.producer ≠ .checkClosed pusher := by
  have agrees := tracked.producer
  intro restarts
  cases step with
  | invoke isAt =>
      rw [isAt] at agrees
      cases agrees.symm.trans isCurrent
  | @refreshedFull own message index isAt =>
      rw [isAt] at agrees
      obtain ⟨call, op, isOpen, ran, _⟩ := agrees
      cases isOpen.symm.trans isCurrent
      have runs := ran.1
      cases own with
      | push value =>
          cases op <;> simp only [Pusher.Runs] at runs
          cases noWaiting
      | tryPush | tryPushN => cases restarts
  | moveIn =>
      simp only [State.atProducer, ProducerPc.afterMove] at restarts
      split at restarts <;> cases restarts
  | _ => cases restarts

/-- A push has more steps left before than after, unless it starts over. -/
theorem ProducerStep.ownLeft_lt
    (step : ProducerStep slots state action next)
    (tracked : Tracked state)
    {opened : OpenCall (Op α) (Handover α)}
    (isCurrent : state.log.current .producer = some opened)
    (goesOn : ∀ pusher, next.producer ≠ .checkClosed pusher)
    (noResponse : action ≠ .respond) :
    next.producer.ownLeft < state.producer.ownLeft := by
  have agrees := tracked.producer
  cases step with
  | invoke isAt =>
      rw [isAt] at agrees
      cases agrees.symm.trans isCurrent
  | refused isAt =>
      rw [isAt]
      simp [ProducerPc.ownLeft]
  | admitted isAt | noRoom isAt =>
      rw [isAt]
      simp [ProducerPc.ownLeft]
  | room isAt hasRoom | refreshedRoom isAt _ _ hasRoom =>
      rw [isAt] at agrees ⊢
      obtain ⟨call, op, _, ran, nonempty⟩ := agrees
      have bounds := Pusher.count_bounds ran nonempty hasRoom
      rw [← ran.operands_eq] at bounds
      simp only [State.atProducer, State.cacheHead, ProducerPc.ownLeft,
        List.length_nil]
      omega
  | @refreshedFull pusher message index isAt =>
      rw [isAt]
      cases pusher with
      | push value => exact absurd rfl (goesOn _)
      | tryPush | tryPushN =>
          simp [Pusher.afterFull, ProducerPc.ownLeft]
  | moveIn isAt =>
      rw [isAt] at agrees ⊢
      obtain ⟨call, op, _, ran, more, _⟩ := agrees
      simp only [State.atProducer, ProducerPc.afterMove,
        List.length_append, List.length_singleton]
      split <;> simp only [ProducerPc.ownLeft, List.length_append,
        List.length_singleton] <;> omega
  | throwIn isAt | publishTail isAt =>
      rw [isAt]
      simp [ProducerPc.ownLeft]
  | respond => exact absurd rfl noResponse

/-- A pop that waits for nothing does not look whether it may end. -/
theorem Tracked.goesOn
    (tracked : Tracked state)
    {opened : OpenCall (Op α) (Handover α)}
    (isCurrent : state.log.current .consumer = some opened)
    (noWaiting : opened.op.isBlocking = false)
    (out : α) :
    state.consumer ≠ .popClosed out := by
  have agrees := tracked.consumer
  intro isAt
  rw [isAt] at agrees
  obtain ⟨call, isOpen⟩ := agrees
  cases isOpen.symm.trans isCurrent
  cases noWaiting

/-- A pop has more steps left before than after, unless it starts over. -/
theorem ConsumerStep.ownLeft_lt
    (step : ConsumerStep slots state action next)
    (tracked : Tracked state)
    {opened : OpenCall (Op α) (Handover α)}
    (isCurrent : state.log.current .consumer = some opened)
    (goesOn : ∀ out, state.consumer ≠ .popClosed out)
    (noResponse : action ≠ .respond) :
    next.consumer.ownLeft < state.consumer.ownLeft := by
  have agrees := tracked.consumer
  cases step with
  | invoke isAt =>
      rw [isAt] at agrees
      cases agrees.symm.trans isCurrent
  | noData isAt =>
      rw [isAt]
      simp [ConsumerPc.ownLeft]
  | data isAt hasData | refreshedData isAt _ _ hasData =>
      rw [isAt] at agrees ⊢
      obtain ⟨call, op, _, ran, nonempty⟩ := agrees
      have bounds := Popper.count_bounds ran nonempty hasData
      rw [← ran.operands_eq] at bounds
      simp only [State.atConsumer, State.cacheTail, ConsumerPc.ownLeft,
        List.length_nil]
      omega
  | @refreshedEmpty popper message index isAt =>
      rw [isAt] at agrees ⊢
      obtain ⟨call, op, isOpen, ran, _⟩ := agrees
      rcases popper with ⟨out, _ | _⟩ | out | out <;>
        simp [Popper.afterEmpty, ConsumerPc.ownLeft]
  | popClosed isAt => exact absurd isAt (goesOn _)
  | moveOut isAt =>
      rw [isAt] at agrees ⊢
      obtain ⟨call, op, _, ran, more, _⟩ := agrees
      simp only [State.atConsumer, ConsumerPc.afterMove,
        List.length_append, List.length_singleton]
      split <;> simp only [ConsumerPc.ownLeft, List.length_append,
        List.length_singleton] <;> omega
  | throwOut isAt | publishHead isAt | loadClosed isAt =>
      rw [isAt]
      simp [ConsumerPc.ownLeft]
  | respond => exact absurd rfl noResponse

theorem ObserverStep.ownLeft_lt
    {thread : Nat}
    (step : ObserverStep slots state thread action next)
    (tracked : Tracked state)
    {opened : OpenCall (Op α) (Handover α)}
    (isCurrent : state.log.current (.observer thread) = some opened)
    (noResponse : action ≠ .respond) :
    (next.observers thread).ownLeft <
      (state.observers thread).ownLeft := by
  have agrees := tracked.observers thread
  cases step with
  | invoke isAt =>
      rw [isAt] at agrees
      cases agrees.symm.trans isCurrent
  | storeClosed isAt | loadClosed isAt | sizeHead isAt | sizeTail isAt =>
      rw [isAt]
      simp [ObserverPc.ownLeft]
  | respond => exact absurd rfl noResponse

/-- Own steps bring a call that waits for nothing closer to its return. -/
theorem Step.ownLeft_lt
    {agent : Agent}
    (step : Step slots state agent action next)
    (tracked : Tracked state)
    {opened : OpenCall (Op α) (Handover α)}
    (isCurrent : state.log.current agent = some opened)
    (noWaiting : opened.op.isBlocking = false)
    (noResponse : action ≠ .respond) :
    next.ownLeft agent < state.ownLeft agent := by
  cases step with
  | producer own =>
      exact own.ownLeft_lt tracked isCurrent
        (own.goesOn tracked isCurrent noWaiting) noResponse
  | consumer own =>
      exact own.ownLeft_lt tracked isCurrent
        (tracked.goesOn isCurrent noWaiting) noResponse
  | observer own => exact own.ownLeft_lt tracked isCurrent noResponse

/-- The steps of the others change nothing of that. -/
theorem Step.ownLeft_eq
    {agent other : Agent}
    (step : Step slots state agent action next)
    (different : other ≠ agent) :
    next.ownLeft other = state.ownLeft other := by
  cases step with
  | producer own =>
      cases other with
      | producer => exact absurd rfl different
      | consumer => simp only [State.ownLeft, own.consumer_eq]
      | observer thread => simp only [State.ownLeft, own.observers_eq]
  | consumer own =>
      cases other with
      | producer => simp only [State.ownLeft, own.producer_eq]
      | consumer => exact absurd rfl different
      | observer thread => simp only [State.ownLeft, own.observers_eq]
  | observer own =>
      cases other with
      | producer => simp only [State.ownLeft, own.producer_eq]
      | consumer => simp only [State.ownLeft, own.consumer_eq]
      | observer thread =>
          have apart : next.observers thread = state.observers thread := by
            apply own.observers_other
            rintro rfl
            exact different rfl
          simp only [State.ownLeft, apart]

/-- Only a response ends a call. -/
theorem Tracked.log_of_unanswered
    {agent : Agent}
    (tracked : Tracked state)
    (step : Step slots state agent action next)
    (noResponse : action ≠ .respond)
    {opened : OpenCall (Op α) (Handover α)}
    (isCurrent : state.log.current agent = some opened) :
    next.log = state.log ∨
      ∃ handover, next.log = state.log.mark agent handover := by
  cases step with
  | producer own =>
      cases own with
      | invoke isAt =>
          have agrees := tracked.producer
          rw [isAt] at agrees
          cases agrees.symm.trans isCurrent
      | publishTail => exact Or.inr ⟨_, rfl⟩
      | respond => exact absurd rfl noResponse
      | _ => exact Or.inl rfl
  | consumer own =>
      cases own with
      | invoke isAt =>
          have agrees := tracked.consumer
          rw [isAt] at agrees
          cases agrees.symm.trans isCurrent
      | throwOut | publishHead => exact Or.inr ⟨_, rfl⟩
      | respond => exact absurd rfl noResponse
      | _ => exact Or.inl rfl
  | @observer thread _ _ own =>
      cases own with
      | invoke isAt =>
          have agrees := tracked.observers thread
          rw [isAt] at agrees
          cases agrees.symm.trans isCurrent
      | respond => exact absurd rfl noResponse
      | _ => exact Or.inl rfl

/-- Until it returns a call stays the call it is. -/
theorem Tracked.op_step
    {mover agent : Agent}
    (tracked : Tracked state)
    (step : Step slots state mover action next)
    (unanswered : (⟨mover, action⟩ : Label α) ≠ ⟨agent, .respond⟩)
    {opened : OpenCall (Op α) (Handover α)}
    (isCurrent : state.log.current agent = some opened) :
    ∃ later,
      next.log.current agent = some later ∧ later.op = opened.op := by
  by_cases own : agent = mover
  · subst own
    have noResponse : action ≠ .respond := by
      rintro rfl
      exact unanswered rfl
    rcases tracked.log_of_unanswered step noResponse isCurrent with
      same | ⟨handover, shape⟩
    · rw [same]
      exact ⟨opened, isCurrent, rfl⟩
    · rw [shape, state.log.mark_of_current isCurrent]
      exact ⟨_, Function.update_self _ _ _, rfl⟩
  · rw [tracked.current_other step own]
    exact ⟨opened, isCurrent, rfl⟩

/-- A push that does not wait takes four steps and one for each element. -/
theorem Pusher.ownSteps_eq
    {pusher : Pusher α}
    {op : Op α}
    (runs : pusher.Runs op)
    (noWaiting : op.isBlocking = false) :
    ownSteps op = op.operands.length + 4 := by
  cases pusher <;> cases op <;> simp only [Pusher.Runs] at runs
  case push.push => cases noWaiting
  case tryPush.tryPush | tryPushN.tryPushN => rfl

/-- A pop that does not wait takes three steps and one for each element. -/
theorem Popper.ownSteps_eq
    {popper : Popper α}
    {op : Op α}
    (runs : popper.Runs op)
    (noWaiting : op.isBlocking = false) :
    ownSteps op = op.operands.length + 3 := by
  cases popper <;> cases op <;> simp only [Popper.Runs] at runs
  case pop.pop => cases noWaiting
  case tryPop.tryPop | tryPopN.tryPopN => rfl

/-- A call of the producer has a step left for each element and four more. -/
theorem Tracked.producer_ownLeft
    (tracked : Tracked state)
    {opened : OpenCall (Op α) (Handover α)}
    (isCurrent : state.log.current .producer = some opened) :
    state.producer.ownLeft = 0 ∨
      (∃ pusher : Pusher α, pusher.Runs opened.op) ∧
        state.producer.ownLeft ≤ opened.op.operands.length + 4 := by
  have agrees := tracked.producer
  cases isAt : state.producer with
  | idle | returning => exact Or.inl rfl
  | checkClosed pusher | checkRoom pusher | refreshHead pusher =>
      rw [isAt] at agrees
      obtain ⟨call, op, isOpen, ran, _⟩ := agrees
      cases isOpen.symm.trans isCurrent
      refine Or.inr ⟨⟨pusher, ran.1⟩, ?_⟩
      simp only [ProducerPc.ownLeft, ran.operands_eq]
      omega
  | moveIn pusher index moved count =>
      rw [isAt] at agrees
      obtain ⟨call, op, isOpen, ran, more, bound⟩ := agrees
      cases isOpen.symm.trans isCurrent
      refine Or.inr ⟨⟨pusher, ran.1⟩, ?_⟩
      simp only [ProducerPc.ownLeft]
      omega
  | publishTail pusher index moved =>
      rw [isAt] at agrees
      obtain ⟨call, op, isOpen, ran, _⟩ := agrees
      cases isOpen.symm.trans isCurrent
      refine Or.inr ⟨⟨pusher, ran.1⟩, ?_⟩
      simp only [ProducerPc.ownLeft]
      omega

/-- A pop of the consumer has a step left for each element and three more. -/
theorem Tracked.consumer_ownLeft
    (tracked : Tracked state)
    {opened : OpenCall (Op α) (Handover α)}
    (isCurrent : state.log.current .consumer = some opened) :
    state.consumer.ownLeft = 0 ∨
      (opened.op = .closed ∧ state.consumer.ownLeft = 1) ∨
      (∃ popper : Popper α, popper.Runs opened.op) ∧
        state.consumer.ownLeft ≤ opened.op.operands.length + 3 := by
  have agrees := tracked.consumer
  cases isAt : state.consumer with
  | idle | returning | popClosed => exact Or.inl rfl
  | checkData popper | refreshTail popper =>
      rw [isAt] at agrees
      obtain ⟨call, op, isOpen, ran, _⟩ := agrees
      cases isOpen.symm.trans isCurrent
      refine Or.inr (Or.inr ⟨⟨popper, ran.1⟩, ?_⟩)
      simp only [ConsumerPc.ownLeft, ran.operands_eq]
      omega
  | moveOut popper index moved count =>
      rw [isAt] at agrees
      obtain ⟨call, op, isOpen, ran, more, bound⟩ := agrees
      cases isOpen.symm.trans isCurrent
      refine Or.inr (Or.inr ⟨⟨popper, ran.1⟩, ?_⟩)
      simp only [ConsumerPc.ownLeft]
      omega
  | publishHead popper index moved =>
      rw [isAt] at agrees
      obtain ⟨call, op, isOpen, ran, _⟩ := agrees
      cases isOpen.symm.trans isCurrent
      refine Or.inr (Or.inr ⟨⟨popper, ran.1⟩, ?_⟩)
      simp only [ConsumerPc.ownLeft]
      omega
  | loadClosed =>
      rw [isAt] at agrees
      obtain ⟨call, isOpen⟩ := agrees
      cases isOpen.symm.trans isCurrent
      exact Or.inr (Or.inl ⟨rfl, rfl⟩)

theorem Tracked.observer_ownLeft_le
    (tracked : Tracked state)
    {thread : Nat}
    {opened : OpenCall (Op α) (Handover α)}
    (isCurrent : state.log.current (.observer thread) = some opened) :
    (state.observers thread).ownLeft ≤ ownSteps opened.op := by
  have agrees := tracked.observers thread
  cases isAt : state.observers thread with
  | idle | returning => exact Nat.zero_le _
  | storeClosed | loadClosed | sizeHead | sizeTail =>
      rw [isAt] at agrees
      obtain ⟨call, isOpen⟩ := agrees
      cases isOpen.symm.trans isCurrent
      simp [ObserverPc.ownLeft, ownSteps]

/-- A call in progress has no more steps left than it may take. -/
theorem Tracked.ownLeft_le
    (tracked : Tracked state)
    {agent : Agent}
    {opened : OpenCall (Op α) (Handover α)}
    (isCurrent : state.log.current agent = some opened)
    (noWaiting : opened.op.isBlocking = false) :
    state.ownLeft agent ≤ ownSteps opened.op := by
  cases agent with
  | producer =>
      simp only [State.ownLeft]
      rcases tracked.producer_ownLeft isCurrent with
        atEnd | ⟨⟨pusher, runs⟩, bound⟩
      · rw [atEnd]
        exact Nat.zero_le _
      · rw [Pusher.ownSteps_eq runs noWaiting]
        exact bound
  | consumer =>
      simp only [State.ownLeft]
      rcases tracked.consumer_ownLeft isCurrent with
        atEnd | ⟨isClosed, single⟩ | ⟨⟨popper, runs⟩, bound⟩
      · rw [atEnd]
        exact Nat.zero_le _
      · rw [isClosed, single]
        exact Nat.le_refl 1
      · rw [Popper.ownSteps_eq runs noWaiting]
        exact bound
  | observer thread => exact tracked.observer_ownLeft_le isCurrent

end Steps

/-- What it means that no call depends on the steps of another agent. -/
structure WaitFree (slots : Nat) (state : State α) : Prop where
  /-- A call in progress can always take a step, and not only by throwing. -/
  enabled :
    ∀ {agent opened},
      state.log.current agent = some opened →
      ∃ action next,
        Label.isThrow ⟨agent, action⟩ = false ∧
          step? slots state ⟨agent, action⟩ = some next
  /-- A call that waits for nothing returns within so many of its steps. -/
  bounded :
    ∀ {agent opened during last},
      state.log.current agent = some opened →
      opened.op.isBlocking = false →
      Run (step? slots) unrestricted state during last →
      (∀ label ∈ during, label ≠ ⟨agent, .respond⟩) →
      during.countP (fun label => label.agent == agent) ≤
        ownSteps opened.op

section Bounds

variable {slots : Nat} {state last : State α}

/-- The own steps of a call that has not returned are bounded. -/
theorem Tracked.countP_le
    (tracked : Tracked state)
    {agent : Agent}
    {opened : OpenCall (Op α) (Handover α)}
    (isCurrent : state.log.current agent = some opened)
    (noWaiting : opened.op.isBlocking = false)
    {during : List (Label α)}
    (run : Run (step? slots) unrestricted state during last)
    (unanswered : ∀ label ∈ during, label ≠ ⟨agent, .respond⟩) :
    during.countP (fun label => label.agent == agent) ≤
      ownSteps opened.op := by
  let Known : State α → Prop := fun state =>
    Tracked state ∧
      ∃ later,
        state.log.current agent = some later ∧ later.op = opened.op
  have start : Known state := ⟨tracked, opened, isCurrent, rfl⟩
  have kept :
      ∀ {state next label},
        Known state →
        label ≠ ⟨agent, .respond⟩ →
        step? slots state label = some next →
        Known next := by
    rintro state next label ⟨tracked, later, isCurrent, sameOp⟩ answer taken
    have step := Step.of_step? taken
    obtain ⟨further, isOpen, stillOp⟩ :=
      tracked.op_step step answer isCurrent
    exact ⟨tracked.step step, further, isOpen, stillOp.trans sameOp⟩
  have pays :
      ∀ {state next label},
        Known state →
        label ≠ ⟨agent, .respond⟩ →
        step? slots state label = some next →
        Pays (fun label : Label α => label.agent == agent)
          (fun state => state.ownLeft agent) (fun _ => 0)
          state label next := by
    rintro state next ⟨mover, action⟩ ⟨tracked, later, isCurrent, sameOp⟩
      answer taken
    have step := Step.of_step? taken
    simp only [Pays, Nat.add_zero]
    by_cases own : mover = agent
    · subst own
      rw [← sameOp] at noWaiting
      have noResponse : action ≠ .respond := by
        rintro rfl
        exact answer rfl
      have less : next.ownLeft mover < state.ownLeft mover :=
        step.ownLeft_lt tracked isCurrent noWaiting noResponse
      simp only [beq_self_eq_true, Bool.toNat_true]
      omega
    · have same := step.ownLeft_eq (Ne.symm own)
      simp [own, same]
  obtain ⟨_, paid⟩ :=
    Run.countP_add_le _ _ _ start kept pays (run.guarded unanswered)
  have enough := tracked.ownLeft_le isCurrent noWaiting
  omega

/-- There is something to be moved while the span is not used up. -/
theorem Pusher.exists_take?
    {pusher : Pusher α}
    {index : Nat}
    (inBounds : index < pusher.operands.length)
    (husk : α) :
    ∃ value left, pusher.take? index husk = some (value, left) := by
  cases pusher with
  | push value | tryPush value => exact ⟨value, _, rfl⟩
  | tryPushN items =>
      simp only [Pusher.operands] at inBounds
      exact ⟨items[index], _, by simp [Pusher.take?, inBounds]; rfl⟩

/-- The producer can always go on with its call. -/
theorem Tracked.producer_enabled
    (tracked : Tracked state)
    (indices : Indices slots state)
    {opened : OpenCall (Op α) (Handover α)}
    (isCurrent : state.log.current .producer = some opened) :
    ∃ action next,
      Label.isThrow ⟨.producer, action⟩ = false ∧
        sequential state ⟨.producer, action⟩ ∧
        ProducerStep slots state action next := by
  have agrees := tracked.producer
  cases isAt : state.producer with
  | idle =>
      rw [isAt] at agrees
      cases agrees.symm.trans isCurrent
  | checkClosed pusher =>
      have reads := state.closed.read?_newest
      cases isFlag : state.closed.latest <;> rw [isFlag] at reads
      · exact ⟨_, _, rfl,
          by simp [sequential, producerCurrent, isAt], .admitted isAt reads⟩
      · exact ⟨_, _, rfl,
          by simp [sequential, producerCurrent, isAt], .refused isAt reads⟩
  | checkRoom pusher =>
      cases hasRoom :
          pusher.hasRoom slots state.headCache state.tail.latest
      · exact ⟨_, _, rfl,
          by simp [sequential, producerCurrent, isAt], .noRoom isAt hasRoom⟩
      · exact ⟨_, _, rfl,
          by simp [sequential, producerCurrent, isAt], .room isAt hasRoom⟩
  | refreshHead pusher =>
      have reads := state.head.read?_newest
      have fresh := indices.head.seenBound
      cases hasRoom :
          pusher.hasRoom slots state.head.latest state.tail.latest
      · exact ⟨_, _, rfl,
          by simp [sequential, producerCurrent, isAt],
          .refreshedFull isAt fresh reads hasRoom⟩
      · exact ⟨_, _, rfl,
          by simp [sequential, producerCurrent, isAt],
          .refreshedRoom isAt fresh reads hasRoom⟩
  | moveIn pusher index moved count =>
      rw [isAt] at agrees
      obtain ⟨call, op, _, ran, more, bound⟩ := agrees
      have inBounds : moved.length < pusher.operands.length := by
        have sameLength := ran.2.1
        omega
      obtain ⟨value, left, taken⟩ :=
        Pusher.exists_take? inBounds pusher.operands[moved.length]
      exact ⟨_, _, rfl,
        by simp [sequential, producerCurrent, isAt], .moveIn isAt taken⟩
  | publishTail pusher index moved =>
      exact ⟨_, _, rfl,
        by simp [sequential, producerCurrent, isAt], .publishTail isAt⟩
  | returning result =>
      exact ⟨_, _, rfl,
        by simp [sequential, producerCurrent, isAt], .respond isAt⟩

theorem Tracked.consumer_enabled
    (tracked : Tracked state)
    (indices : Indices slots state)
    {opened : OpenCall (Op α) (Handover α)}
    (isCurrent : state.log.current .consumer = some opened) :
    ∃ action next,
      Label.isThrow ⟨.consumer, action⟩ = false ∧
        sequential state ⟨.consumer, action⟩ ∧
        ConsumerStep slots state action next := by
  have agrees := tracked.consumer
  cases isAt : state.consumer with
  | idle =>
      rw [isAt] at agrees
      cases agrees.symm.trans isCurrent
  | checkData popper =>
      cases hasData :
          popper.hasData slots state.tailCache state.head.latest
      · exact ⟨_, _, rfl,
          by simp [sequential, consumerCurrent, isAt], .noData isAt hasData⟩
      · exact ⟨_, _, rfl,
          by simp [sequential, consumerCurrent, isAt], .data isAt hasData⟩
  | refreshTail popper =>
      have reads := state.tail.read?_newest
      have fresh := indices.tail.seenBound
      cases hasData :
          popper.hasData slots state.tail.latest state.head.latest
      · exact ⟨_, _, rfl,
          by simp [sequential, consumerCurrent, isAt],
          .refreshedEmpty isAt fresh reads hasData⟩
      · exact ⟨_, _, rfl,
          by simp [sequential, consumerCurrent, isAt],
          .refreshedData isAt fresh reads hasData⟩
  | popClosed out =>
      exact ⟨_, _, rfl,
        by simp [sequential, consumerCurrent, isAt],
        .popClosed isAt state.closed.read?_newest⟩
  | moveOut popper index moved count =>
      exact ⟨.move (state.buffer index), _, rfl,
        by simp [sequential, consumerCurrent, isAt], .moveOut isAt⟩
  | publishHead popper index moved =>
      exact ⟨_, _, rfl,
        by simp [sequential, consumerCurrent, isAt], .publishHead isAt⟩
  | loadClosed =>
      exact ⟨_, _, rfl,
        by simp [sequential, consumerCurrent, isAt],
        .loadClosed isAt state.closed.read?_newest⟩
  | returning result =>
      exact ⟨_, _, rfl,
        by simp [sequential, consumerCurrent, isAt], .respond isAt⟩

theorem Tracked.observer_enabled
    (tracked : Tracked state)
    {thread : Nat}
    {opened : OpenCall (Op α) (Handover α)}
    (isCurrent : state.log.current (.observer thread) = some opened) :
    ∃ action next,
      Label.isThrow ⟨.observer thread, action⟩ = false ∧
        sequential state ⟨.observer thread, action⟩ ∧
        step? slots state ⟨.observer thread, action⟩ = some next := by
  have agrees := tracked.observers thread
  cases isAt : state.observers thread with
  | idle =>
      rw [isAt] at agrees
      cases agrees.symm.trans isCurrent
  | storeClosed =>
      exact ⟨.store, _, rfl,
        by simp [sequential, observerCurrent, isAt],
        by simp [step?, observerStep?, isAt]; rfl⟩
  | loadClosed =>
      exact ⟨.load state.closed.newest, _, rfl,
        by simp [sequential, observerCurrent, isAt], by
        simp [step?, observerStep?, isAt, Atomic.read?_newest]; rfl⟩
  | sizeHead =>
      exact ⟨.load state.head.newest, _, rfl,
        by simp [sequential, observerCurrent, isAt], by
        simp [step?, observerStep?, isAt, Atomic.read?_newest]; rfl⟩
  | sizeTail head =>
      exact ⟨.load state.tail.newest, _, rfl,
        by simp [sequential, observerCurrent, isAt], by
        simp [step?, observerStep?, isAt, Atomic.read?_newest]; rfl⟩
  | returning result =>
      exact ⟨.respond, _, rfl,
        by simp [sequential, observerCurrent, isAt],
        by simp [step?, observerStep?, isAt]; rfl⟩

end Bounds

/--
Every call that does not wait for the other side, single or bulk, returns
within a number of its own steps that depends on its span only; and no call is
ever stuck.
-/
theorem ring_wait_free
    [Inhabited α]
    {elementSize capacity slots : Nat}
    (built : ringSlots elementSize capacity = .ok slots)
    {labels : List (Label α)}
    {state : State α}
    (run : Run (step? slots) unrestricted initial labels state) :
    WaitFree slots state := by
  obtain ⟨_, wide, small⟩ := ringSlots_ok built
  have tracked : Tracked state := Tracked.of_run run
  have indices : Indices slots state := Indices.of_run wide small run
  constructor
  · intro agent opened isCurrent
    cases agent with
    | producer =>
        obtain ⟨action, next, calm, _, step⟩ :=
          tracked.producer_enabled indices isCurrent
        exact ⟨action, next, calm, step.taken⟩
    | consumer =>
        obtain ⟨action, next, calm, _, step⟩ :=
          tracked.consumer_enabled indices isCurrent
        exact ⟨action, next, calm, step.taken⟩
    | observer thread =>
        obtain ⟨action, next, calm, _, taken⟩ :=
          tracked.observer_enabled isCurrent
        exact ⟨action, next, calm, taken⟩
  · intro agent opened during last isCurrent noWaiting later unanswered
    exact tracked.countP_le isCurrent noWaiting later unanswered

/-- The producer is about to check for room while the consumer pops. -/
def overlappingSchedule : List (Label Nat) :=
  [⟨.producer, .invoke (.tryPushN [7, 8])⟩, ⟨.producer, .load 0⟩,
    ⟨.consumer, .invoke (.tryPop 5)⟩, ⟨.consumer, .check⟩]

theorem ring_wait_free_overlapping :
    ∃ state,
      replay? (step? 3) unrestricted initial overlappingSchedule =
          some state ∧
        state.log.current .producer = some ⟨0, .tryPushN [7, 8], []⟩ ∧
        WaitFree 3 state := by
  have replayed :
      ∃ state,
        replay? (step? 3) unrestricted initial overlappingSchedule =
            some state ∧
          state.log.current .producer = some ⟨0, .tryPushN [7, 8], []⟩ :=
    ⟨_, rfl, rfl⟩
  have built : ringSlots 8 2 = .ok 3 := by
    rfl
  obtain ⟨state, accepted, isOpen⟩ := replayed
  exact ⟨state, accepted, isOpen,
    ring_wait_free built (Run.of_replay? accepted)⟩

end ConcurrentQueue.Spsc
