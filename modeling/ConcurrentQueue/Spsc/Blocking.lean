import ConcurrentQueue.Spsc.CachedChecks
import ConcurrentQueue.Spsc.Refusals
import ConcurrentQueue.Spsc.WaitFree

namespace ConcurrentQueue.Spsc

/-!
# When `push` and `pop` wait

While the other side does not move, a blocking call returns after a few steps
unless the queue is open and full, or open and empty.  There it goes round its
loops for as long as nobody else moves.
-/

variable {α : Type}

/-- Steps of one agent, every load of which reads the newest message. -/
def alone (agent : Agent) : StepGuard (State α) (Label α) :=
  fun state label => label.agent = agent ∧ sequential state label

instance
    (agent : Agent)
    (state : State α)
    (label : Label α) :
    Decidable (alone agent state label) :=
  inferInstanceAs (Decidable (label.agent = agent ∧ sequential state label))

/-- There is nothing that a blocking call can do but wait for the others. -/
def State.Blocks (slots : Nat) (state : State α) : Op α → Prop
  | .push _ =>
      state.closed.latest = false ∧
        next slots state.tail.latest = state.head.latest
  | .pop _ =>
      state.closed.latest = false ∧ state.head.latest = state.tail.latest
  | _ => False

/-- The steps that starting over may add to a push. -/
def ProducerPc.secondAttempt (closed : Bool) : ProducerPc α → Nat
  | .checkRoom (.push _) | .refreshHead (.push _) => 4
  | .checkClosed (.push _) => if closed then 0 else 4
  | _ => 0

/-- The steps that starting over may add to a pop. -/
def ConsumerPc.secondAttempt (closed : Bool) : ConsumerPc α → Nat
  | .checkData (.pop _ false) | .refreshTail (.pop _ false) => 4
  | .popClosed _ => if closed then 5 else 9
  | _ => 0

/-- The steps that an agent has left if nothing blocks it. -/
def State.untilReturn (state : State α) (agent : Agent) : Nat :=
  state.ownLeft agent +
    match agent with
    | .producer => state.producer.secondAttempt state.closed.latest
    | .consumer => state.consumer.secondAttempt state.closed.latest
    | .observer _ => 0

section Sides

variable {slots : Nat} {state next : State α} {action : Action α}
variable {opened : OpenCall (Op α) (Handover α)}

/-- A refreshing load of a push that fails has found the ring full. -/
theorem Indices.full_of_refreshed
    (indices : Indices slots state)
    (wide : 1 < slots)
    (small : slots ≤ SizeT.halfRange)
    {pusher : Pusher α}
    (isFull :
      pusher.hasRoom slots state.head.latest state.tail.latest = false) :
    Spsc.next slots state.tail.latest = state.head.latest := by
  by_contra isRoom
  have room :=
    (indices.hasRoom_latest_iff wide small pusher).mpr
      ((indices.next_tail_ne_head_iff wide small).mp isRoom)
  cases room.symm.trans isFull

/-- A refreshing load of a pop that fails has found the ring empty. -/
theorem Indices.empty_of_refreshed
    (indices : Indices slots state)
    (wide : 1 < slots)
    (small : slots ≤ SizeT.halfRange)
    {popper : Popper α}
    (isEmpty :
      popper.hasData slots state.tail.latest state.head.latest = false) :
    state.head.latest = state.tail.latest := by
  by_contra isData
  have data :=
    (indices.hasData_latest_iff wide small popper).mpr
      ((indices.head_ne_tail_iff wide small).mp isData)
  cases data.symm.trans isEmpty

/-- The producer starts over only with a push, and only when it may end. -/
theorem ProducerStep.closed_of_restart
    (step : ProducerStep slots state action next)
    (tracked : Tracked state)
    (indices : Indices slots state)
    (wide : 1 < slots)
    (small : slots ≤ SizeT.halfRange)
    (isCurrent : state.log.current .producer = some opened)
    (free :
      ∀ {pusher},
        state.producer.seeking = some pusher →
        ¬ state.Blocks slots opened.op)
    (admitted : sequential state ⟨.producer, action⟩)
    {pusher : Pusher α}
    (restarts : next.producer = .checkClosed pusher) :
    ∃ value,
      state.producer = .refreshHead (.push value) ∧
        next.producer = .checkClosed (.push value) ∧
        state.closed.latest = true := by
  have agrees := tracked.producer
  cases step with
  | invoke isAt =>
      rw [isAt] at agrees
      cases agrees.symm.trans isCurrent
  | @refreshedFull own message index isAt fresh reads isFull =>
      have isRefresh := isAt
      rw [isAt] at agrees
      obtain ⟨call, op, isOpen, ran, _⟩ := agrees
      cases isOpen.symm.trans isCurrent
      have runs := ran.1
      simp only [sequential, producerCurrent, isAt] at admitted
      rw [admitted, Atomic.read?_newest] at reads
      cases reads
      have isEnd := indices.full_of_refreshed wide small isFull
      cases own with
      | push value =>
          refine ⟨value, isRefresh, rfl, ?_⟩
          cases op <;> simp only [Pusher.Runs] at runs
          cases isFlag : state.closed.latest with
          | true => rfl
          | false =>
              have notBlocked := free (congrArg ProducerPc.seeking isRefresh)
              exact absurd ⟨isFlag, isEnd⟩ notBlocked
      | tryPush | tryPushN => cases restarts
  | moveIn =>
      simp only [State.atProducer, ProducerPc.afterMove] at restarts
      split at restarts <;> cases restarts
  | _ => cases restarts

/-- Each step of a push that nothing blocks brings it closer to its end. -/
theorem ProducerStep.untilReturn_lt
    (step : ProducerStep slots state action next)
    (tracked : Tracked state)
    (indices : Indices slots state)
    (wide : 1 < slots)
    (small : slots ≤ SizeT.halfRange)
    (isCurrent : state.log.current .producer = some opened)
    (free :
      ∀ {pusher},
        state.producer.seeking = some pusher →
        ¬ state.Blocks slots opened.op)
    (admitted : sequential state ⟨.producer, action⟩)
    (noResponse : action ≠ .respond) :
    next.untilReturn .producer < state.untilReturn .producer := by
  simp only [State.untilReturn, State.ownLeft, step.closed_eq]
  by_cases restarts : ∃ pusher, next.producer = .checkClosed pusher
  · obtain ⟨pusher, isNext⟩ := restarts
    obtain ⟨value, isAt, isStart, isClosed⟩ :=
      step.closed_of_restart tracked indices wide small isCurrent free
        admitted isNext
    rw [isAt, isStart, isClosed]
    change 5 < 7
    decide
  · have goesOn : ∀ pusher, next.producer ≠ .checkClosed pusher :=
      fun pusher isNext => restarts ⟨pusher, isNext⟩
    have closer := step.ownLeft_lt tracked isCurrent goesOn noResponse
    have attempts :
        next.producer.secondAttempt state.closed.latest ≤
          state.producer.secondAttempt state.closed.latest := by
      cases step with
      | invoke isAt =>
          have agrees := tracked.producer
          rw [isAt] at agrees
          cases agrees.symm.trans isCurrent
      | @admitted pusher message isAt reads =>
          simp only [sequential, producerCurrent, isAt] at admitted
          rw [admitted, Atomic.read?_newest] at reads
          rw [isAt, Option.some.inj reads]
          cases pusher <;> exact Nat.le_refl _
      | @noRoom pusher isAt =>
          rw [isAt]
          cases pusher <;> exact Nat.le_refl _
      | @refreshedFull pusher =>
          cases pusher with
          | push => exact absurd rfl (goesOn _)
          | tryPush | tryPushN => exact Nat.zero_le _
      | moveIn =>
          simp only [State.atProducer, ProducerPc.afterMove]
          split <;> exact Nat.zero_le _
      | _ => exact Nat.zero_le _
    omega

/-- Each step of a pop that nothing blocks brings it closer to its end. -/
theorem ConsumerStep.untilReturn_lt
    (step : ConsumerStep slots state action next)
    (tracked : Tracked state)
    (indices : Indices slots state)
    (wide : 1 < slots)
    (small : slots ≤ SizeT.halfRange)
    (isCurrent : state.log.current .consumer = some opened)
    (free :
      ∀ {popper},
        state.consumer.seeking = some popper →
        ¬ state.Blocks slots opened.op)
    (admitted : sequential state ⟨.consumer, action⟩)
    (noResponse : action ≠ .respond) :
    next.untilReturn .consumer < state.untilReturn .consumer := by
  simp only [State.untilReturn, State.ownLeft, step.closed_eq]
  by_cases looks : ∃ out, state.consumer = .popClosed out
  · obtain ⟨out, isAt⟩ := looks
    cases step with
    | popClosed isAt' reads =>
        simp only [sequential, consumerCurrent, isAt] at admitted
        rw [admitted, Atomic.read?_newest] at reads
        rw [isAt, Option.some.inj reads]
        rename_i flag
        cases flag <;> simp [ConsumerPc.ownLeft, Popper.operands,
          ConsumerPc.secondAttempt]
    | _ isAt' => cases isAt.symm.trans isAt'
  · have goesOn : ∀ out, state.consumer ≠ .popClosed out :=
      fun out isAt => looks ⟨out, isAt⟩
    have closer := step.ownLeft_lt tracked isCurrent goesOn noResponse
    have agrees := tracked.consumer
    cases step with
    | invoke isAt =>
        rw [isAt] at agrees
        cases agrees.symm.trans isCurrent
    | popClosed isAt => exact absurd isAt (goesOn _)
    | @noData popper isAt =>
        rw [isAt] at closer ⊢
        rcases popper with ⟨_, _ | _⟩ | _ | _ <;>
          exact Nat.add_lt_add_right closer _
    | @refreshedEmpty popper message index isAt fresh reads isEmpty =>
        have isRefresh := isAt
        rw [isAt] at agrees closer ⊢
        obtain ⟨call, op, isOpen, ran, _⟩ := agrees
        cases isOpen.symm.trans isCurrent
        have runs := ran.1
        simp only [sequential, consumerCurrent, isAt] at admitted
        rw [admitted, Atomic.read?_newest] at reads
        cases reads
        have isEnd := indices.empty_of_refreshed wide small isEmpty
        rcases popper with ⟨out, _ | _⟩ | out | out
        case pop.false =>
            cases op <;> simp only [Popper.Runs] at runs
            cases isFlag : state.closed.latest with
            | true =>
                change 5 < 7
                decide
            | false =>
                have notBlocked :=
                  free (congrArg ConsumerPc.seeking isRefresh)
                exact absurd ⟨isFlag, isEnd⟩ notBlocked
        all_goals exact Nat.lt_of_lt_of_le closer (Nat.le_add_right _ _)
    | moveOut =>
        simp only [State.atConsumer, ConsumerPc.afterMove] at closer ⊢
        split at closer <;> rename_i more <;>
          simp only [more, if_true, if_false] <;>
          exact Nat.lt_of_lt_of_le closer (Nat.le_add_right _ _)
    | _ => exact Nat.lt_of_lt_of_le closer (Nat.le_add_right _ _)

/-- What blocks is seen in the two indices and the flag only. -/
theorem State.Blocks.of_same
    {op : Op α}
    (blocks : state.Blocks slots op)
    (sameHead : next.head = state.head)
    (sameTail : next.tail = state.tail)
    (sameClosed : next.closed = state.closed) :
    next.Blocks slots op := by
  cases op with
  | push | pop =>
      simpa only [Blocks, sameHead, sameTail, sameClosed] using blocks
  | _ => exact blocks.elim

/-- While a push looks for room it does not change what blocks it. -/
theorem ProducerStep.seeking_step
    (step : ProducerStep slots state action next)
    (tracked : Tracked state)
    (isCurrent : state.log.current .producer = some opened)
    {pusher : Pusher α}
    (seeks : next.producer.seeking = some pusher) :
    (∃ before, state.producer.seeking = some before) ∧
      next.tail = state.tail := by
  have agrees := tracked.producer
  cases step with
  | invoke isAt =>
      rw [isAt] at agrees
      cases agrees.symm.trans isCurrent
  | admitted isAt | noRoom isAt | refreshedFull isAt =>
      rw [isAt]
      exact ⟨⟨_, rfl⟩, rfl⟩
  | moveIn =>
      simp only [State.atProducer, ProducerPc.afterMove] at seeks
      split at seeks <;> cases seeks
  | _ => cases seeks

/-- While a pop looks for data it does not change what blocks it. -/
theorem ConsumerStep.seeking_step
    (step : ConsumerStep slots state action next)
    (tracked : Tracked state)
    (isCurrent : state.log.current .consumer = some opened)
    {popper : Popper α}
    (seeks : next.consumer.seeking = some popper) :
    (∃ before, state.consumer.seeking = some before) ∧
      next.head = state.head := by
  have agrees := tracked.consumer
  cases step with
  | invoke isAt =>
      rw [isAt] at agrees
      cases agrees.symm.trans isCurrent
  | noData isAt | refreshedEmpty isAt | popClosed isAt =>
      rw [isAt]
      exact ⟨⟨_, rfl⟩, rfl⟩
  | moveOut =>
      simp only [State.atConsumer, ConsumerPc.afterMove] at seeks
      split at seeks <;> cases seeks
  | _ => cases seeks

/-- A push that blocks goes on looking for room. -/
theorem ProducerStep.waits
    (step : ProducerStep slots state action next)
    (tracked : Tracked state)
    (indices : Indices slots state)
    (wide : 1 < slots)
    (small : slots ≤ SizeT.halfRange)
    (isCurrent : state.log.current .producer = some opened)
    (blocks : state.Blocks slots opened.op)
    (admitted : sequential state ⟨.producer, action⟩)
    {pusher : Pusher α}
    (seeks : state.producer.seeking = some pusher) :
    ∃ after, next.producer.seeking = some after := by
  have agrees := tracked.producer
  have runsPush :
      ∀ {call op} {own : Pusher α},
        state.log.current .producer = some ⟨call, op, []⟩ →
        own.Runs op →
        (∃ value, own = .push value) ∧ state.closed.latest = false ∧
          Spsc.next slots state.tail.latest = state.head.latest := by
    intro call op own isOpen runs
    cases isCurrent.symm.trans isOpen
    cases op with
    | push value =>
        cases own <;> simp only [Pusher.Runs] at runs
        exact ⟨⟨_, rfl⟩, blocks⟩
    | pop => cases own <;> exact runs.elim
    | _ => exact blocks.elim
  cases step with
  | admitted | noRoom => exact ⟨_, rfl⟩
  | @refused own message isAt reads =>
      simp only [sequential, producerCurrent, isAt] at admitted
      rw [isAt] at agrees
      obtain ⟨call, op, isOpen, ran, _⟩ := agrees
      obtain ⟨_, isOpenFlag, _⟩ := runsPush isOpen ran.1
      rw [admitted, Atomic.read?_newest] at reads
      cases isOpenFlag.symm.trans (Option.some.inj reads)
  | @room own isAt hasRoom =>
      rw [isAt] at agrees
      obtain ⟨call, op, isOpen, ran, _⟩ := agrees
      obtain ⟨_, _, isFull⟩ := runsPush isOpen ran.1
      have room := indices.room_of_cached wide small hasRoom
      exact absurd isFull
        ((indices.next_tail_ne_head_iff wide small).mpr room)
  | @refreshedRoom own message index isAt fresh reads hasRoom =>
      simp only [sequential, producerCurrent, isAt] at admitted
      rw [isAt] at agrees
      obtain ⟨call, op, isOpen, ran, _⟩ := agrees
      obtain ⟨_, _, isFull⟩ := runsPush isOpen ran.1
      rw [admitted, Atomic.read?_newest] at reads
      cases reads
      have room := (indices.hasRoom_latest_iff wide small _).mp hasRoom
      exact absurd isFull
        ((indices.next_tail_ne_head_iff wide small).mpr room)
  | @refreshedFull own message index isAt =>
      rw [isAt] at agrees
      obtain ⟨call, op, isOpen, ran, _⟩ := agrees
      obtain ⟨⟨value, rfl⟩, _⟩ := runsPush isOpen ran.1
      exact ⟨_, rfl⟩
  | _ isAt =>
      rw [isAt] at seeks
      cases seeks

/-- A pop that blocks goes on looking for data. -/
theorem ConsumerStep.waits
    (step : ConsumerStep slots state action next)
    (tracked : Tracked state)
    (indices : Indices slots state)
    (refusals : Refusals state)
    (wide : 1 < slots)
    (small : slots ≤ SizeT.halfRange)
    (isCurrent : state.log.current .consumer = some opened)
    (blocks : state.Blocks slots opened.op)
    (admitted : sequential state ⟨.consumer, action⟩)
    {popper : Popper α}
    (seeks : state.consumer.seeking = some popper) :
    ∃ after, next.consumer.seeking = some after := by
  have agrees := tracked.consumer
  have runsPop :
      ∀ {call op} {own : Popper α},
        state.log.current .consumer = some ⟨call, op, []⟩ →
        own.Runs op →
        (∃ out seen, own = .pop out seen) ∧ state.closed.latest = false ∧
          state.head.latest = state.tail.latest := by
    intro call op own isOpen runs
    cases isCurrent.symm.trans isOpen
    cases op with
    | pop value =>
        cases own <;> simp only [Popper.Runs] at runs
        exact ⟨⟨_, _, rfl⟩, blocks⟩
    | push => cases own <;> exact runs.elim
    | _ => exact blocks.elim
  cases step with
  | noData | popClosed => exact ⟨_, rfl⟩
  | @data own isAt hasData =>
      rw [isAt] at agrees
      obtain ⟨call, op, isOpen, ran, _⟩ := agrees
      obtain ⟨_, _, isEmpty⟩ := runsPop isOpen ran.1
      have data := indices.data_of_cached wide small hasData
      exact absurd isEmpty
        ((indices.head_ne_tail_iff wide small).mpr data)
  | @refreshedData own message index isAt fresh reads hasData =>
      simp only [sequential, consumerCurrent, isAt] at admitted
      rw [isAt] at agrees
      obtain ⟨call, op, isOpen, ran, _⟩ := agrees
      obtain ⟨_, _, isEmpty⟩ := runsPop isOpen ran.1
      rw [admitted, Atomic.read?_newest] at reads
      cases reads
      have data := (indices.hasData_latest_iff wide small _).mp hasData
      exact absurd isEmpty
        ((indices.head_ne_tail_iff wide small).mpr data)
  | @refreshedEmpty own message index isAt =>
      have isRefresh := isAt
      rw [isAt] at agrees
      obtain ⟨call, op, isOpen, ran, _⟩ := agrees
      obtain ⟨⟨out, seen, rfl⟩, isOpenFlag, _⟩ := runsPop isOpen ran.1
      cases seen with
      | false => exact ⟨_, rfl⟩
      | true =>
          have isClosed :=
            refusals.sawClosed (congrArg ConsumerPc.seeking isRefresh)
          cases isOpenFlag.symm.trans isClosed
  | _ isAt =>
      rw [isAt] at seeks
      cases seeks

/-- The call of an agent has not found what it looks for yet. -/
def State.Seeks (state : State α) : Agent → Prop
  | .producer => ∃ pusher, state.producer.seeking = some pusher
  | .consumer => ∃ popper, state.consumer.seeking = some popper
  | .observer _ => False

variable {agent : Agent}

/-- A call that nothing blocks stays one that nothing blocks. -/
theorem Step.free_step
    (step : Step slots state agent action next)
    (tracked : Tracked state)
    (isCurrent : state.log.current agent = some opened)
    (free : state.Seeks agent → ¬ state.Blocks slots opened.op) :
    next.Seeks agent → ¬ next.Blocks slots opened.op := by
  intro seeks blocks
  cases step with
  | producer own =>
      obtain ⟨pusher, seeksNext⟩ := seeks
      obtain ⟨sought, sameTail⟩ :=
        own.seeking_step tracked isCurrent seeksNext
      apply free sought
      exact blocks.of_same own.head_eq.symm sameTail.symm
        own.closed_eq.symm
  | consumer own =>
      obtain ⟨popper, seeksNext⟩ := seeks
      obtain ⟨sought, sameHead⟩ :=
        own.seeking_step tracked isCurrent seeksNext
      apply free sought
      exact blocks.of_same sameHead.symm own.tail_eq.symm
        own.closed_eq.symm
  | observer own => exact seeks

/-- Each step of a call that nothing blocks brings it closer to its end. -/
theorem Step.untilReturn_lt
    (step : Step slots state agent action next)
    (tracked : Tracked state)
    (indices : Indices slots state)
    (wide : 1 < slots)
    (small : slots ≤ SizeT.halfRange)
    (isCurrent : state.log.current agent = some opened)
    (free : state.Seeks agent → ¬ state.Blocks slots opened.op)
    (admitted : sequential state ⟨agent, action⟩)
    (noResponse : action ≠ .respond) :
    next.untilReturn agent < state.untilReturn agent := by
  cases step with
  | producer own =>
      exact own.untilReturn_lt tracked indices wide small isCurrent
        (fun seeks => free ⟨_, seeks⟩) admitted noResponse
  | consumer own =>
      exact own.untilReturn_lt tracked indices wide small isCurrent
        (fun seeks => free ⟨_, seeks⟩) admitted noResponse
  | observer own => exact own.ownLeft_lt tracked isCurrent noResponse

/-- A call that blocks goes round its loop and changes nothing. -/
theorem Step.waits
    (step : Step slots state agent action next)
    (tracked : Tracked state)
    (indices : Indices slots state)
    (refusals : Refusals state)
    (wide : 1 < slots)
    (small : slots ≤ SizeT.halfRange)
    (isCurrent : state.log.current agent = some opened)
    (seeks : state.Seeks agent)
    (blocks : state.Blocks slots opened.op)
    (admitted : sequential state ⟨agent, action⟩) :
    action ≠ .respond ∧
      next.Seeks agent ∧ next.Blocks slots opened.op := by
  cases step with
  | producer own =>
      obtain ⟨pusher, sought⟩ := seeks
      obtain ⟨after, seeksOn⟩ :=
        own.waits tracked indices wide small isCurrent blocks admitted
          sought
      obtain ⟨_, sameTail⟩ := own.seeking_step tracked isCurrent seeksOn
      refine ⟨?_, ⟨after, seeksOn⟩,
        blocks.of_same own.head_eq sameTail own.closed_eq⟩
      rintro rfl
      cases own with
      | respond isAt =>
          rw [isAt] at sought
          cases sought
  | consumer own =>
      obtain ⟨popper, sought⟩ := seeks
      obtain ⟨after, seeksOn⟩ :=
        own.waits tracked indices refusals wide small isCurrent blocks
          admitted sought
      obtain ⟨_, sameHead⟩ := own.seeking_step tracked isCurrent seeksOn
      refine ⟨?_, ⟨after, seeksOn⟩,
        blocks.of_same sameHead own.tail_eq own.closed_eq⟩
      rintro rfl
      cases own with
      | respond isAt =>
          rw [isAt] at sought
          cases sought
  | observer own => exact seeks.elim

/-- A call has at most so many steps left if nothing blocks it. -/
theorem Tracked.untilReturn_le
    (tracked : Tracked state)
    (isCurrent : state.log.current agent = some opened) :
    state.untilReturn agent ≤ opened.op.operands.length + 8 := by
  cases agent with
  | producer =>
      have attempt :
          state.producer.secondAttempt state.closed.latest ≤ 4 := by
        unfold ProducerPc.secondAttempt
        split
        · exact Nat.le_refl 4
        · exact Nat.le_refl 4
        · split <;> omega
        · exact Nat.zero_le 4
      simp only [State.untilReturn, State.ownLeft]
      rcases tracked.producer_ownLeft isCurrent with
        atEnd | ⟨_, bound⟩ <;> omega
  | consumer =>
      have agrees := tracked.consumer
      simp only [State.untilReturn, State.ownLeft]
      by_cases looks : ∃ out, state.consumer = .popClosed out
      · obtain ⟨out, isAt⟩ := looks
        rw [isAt] at agrees ⊢
        obtain ⟨call, isOpen⟩ := agrees
        cases isOpen.symm.trans isCurrent
        simp only [ConsumerPc.secondAttempt, ConsumerPc.ownLeft,
          Op.operands]
        split <;> simp
      · have attempt :
            state.consumer.secondAttempt state.closed.latest ≤ 4 := by
          unfold ConsumerPc.secondAttempt
          split
          · exact Nat.le_refl 4
          · exact Nat.le_refl 4
          · rename_i out isAt
            exact absurd ⟨out, isAt⟩ looks
          · exact Nat.zero_le 4
        rcases tracked.consumer_ownLeft isCurrent with
          atEnd | ⟨_, single⟩ | ⟨_, bound⟩ <;> omega
  | observer thread =>
      have bound := tracked.observer_ownLeft_le isCurrent
      have steps : ownSteps opened.op ≤ opened.op.operands.length + 4 := by
        cases opened.op <;> simp [ownSteps, Op.operands]
      simp only [State.untilReturn, State.ownLeft]
      omega

end Sides

/-- When a call of a reachable state comes to an end if left alone. -/
structure BlocksExactly
    (slots : Nat)
    (agent : Agent)
    (op : Op α)
    (state : State α) : Prop where
  returns :
    ∀ {more last},
      (state.Seeks agent → ¬ state.Blocks slots op) →
      Run (step? slots) (alone agent) state more last →
      (∀ label ∈ more, label ≠ ⟨agent, .respond⟩) →
      more.length ≤ op.operands.length + 8 ∧
        ∃ label next,
          alone agent last label ∧ step? slots last label = some next
  waits :
    ∀ {more last},
      state.Seeks agent →
      state.Blocks slots op →
      Run (step? slots) (alone agent) state more last →
      (∀ label ∈ more, label ≠ ⟨agent, .respond⟩) ∧
        last.Seeks agent ∧ last.Blocks slots op
  oneSided :
    ∀ {value out},
      state.Blocks slots (.push value) →
      ¬ state.Blocks slots (.pop out)

section Runs

variable {slots : Nat} {agent : Agent} {state last : State α}
variable {labels more : List (Label α)}
variable {opened : OpenCall (Op α) (Handover α)}

/-- A call that nothing blocks gets closer to its end with every step. -/
theorem length_le_untilReturn
    [Inhabited α]
    (wide : 1 < slots)
    (small : slots ≤ SizeT.halfRange)
    (run : Run (step? slots) unrestricted initial labels state)
    (isCurrent : state.log.current agent = some opened)
    (free : state.Seeks agent → ¬ state.Blocks slots opened.op)
    (solo : Run (step? slots) (alone agent) state more last)
    (unanswered : ∀ label ∈ more, label ≠ ⟨agent, .respond⟩) :
    (∃ later,
        last.log.current agent = some later ∧ later.op = opened.op) ∧
      (last.Seeks agent → ¬ last.Blocks slots opened.op) ∧
      more.length + last.untilReturn agent ≤ state.untilReturn agent := by
  induction solo with
  | start => exact ⟨⟨opened, isCurrent, rfl⟩, free, by simp⟩
  | @snoc more before after label shorter admitted taken
      inductionHypothesis =>
      obtain ⟨⟨later, stillCurrent, sameOp⟩, stillFree, bound⟩ :=
        inductionHypothesis fun label member =>
          unanswered label (List.mem_append_left _ member)
      have reaches := run.append (shorter.mono fun _ _ _ => trivial)
      have tracked : Tracked before := Tracked.of_run reaches
      have indices : Indices slots before :=
        Indices.of_run wide small reaches
      have isLast := unanswered label (by simp)
      rcases label with ⟨mover, action⟩
      obtain ⟨rfl, current⟩ := admitted
      have noResponse : action ≠ .respond := by
        rintro rfl
        exact isLast rfl
      have step := Step.of_step? taken
      rw [← sameOp] at stillFree
      have closer :=
        step.untilReturn_lt tracked indices wide small stillCurrent
          stillFree current noResponse
      obtain ⟨further, isOpen, stillOp⟩ :=
        tracked.op_step step isLast stillCurrent
      refine ⟨⟨further, isOpen, stillOp.trans sameOp⟩, ?_, ?_⟩
      · rw [← sameOp]
        exact step.free_step tracked stillCurrent stillFree
      · rw [List.length_append, List.length_singleton]
        omega

/-- A call that blocks does not return while nobody else moves. -/
theorem waits_alone
    [Inhabited α]
    (wide : 1 < slots)
    (small : slots ≤ SizeT.halfRange)
    (run : Run (step? slots) unrestricted initial labels state)
    (isCurrent : state.log.current agent = some opened)
    (seeks : state.Seeks agent)
    (blocks : state.Blocks slots opened.op)
    (solo : Run (step? slots) (alone agent) state more last) :
    (∀ label ∈ more, label ≠ ⟨agent, .respond⟩) ∧
      (∃ later,
        last.log.current agent = some later ∧ later.op = opened.op) ∧
      last.Seeks agent ∧ last.Blocks slots opened.op := by
  induction solo with
  | start => exact ⟨nofun, ⟨opened, isCurrent, rfl⟩, seeks, blocks⟩
  | @snoc more before after label shorter admitted taken
      inductionHypothesis =>
      obtain ⟨unanswered, ⟨later, stillCurrent, sameOp⟩, stillSeeks,
        stillBlocks⟩ := inductionHypothesis
      have reaches := run.append (shorter.mono fun _ _ _ => trivial)
      have tracked : Tracked before := Tracked.of_run reaches
      have indices : Indices slots before :=
        Indices.of_run wide small reaches
      have refusals : Refusals before := Refusals.of_run reaches
      rcases label with ⟨mover, action⟩
      obtain ⟨rfl, current⟩ := admitted
      have step := Step.of_step? taken
      rw [← sameOp] at stillBlocks
      obtain ⟨noResponse, seeksOn, blocksOn⟩ :=
        step.waits tracked indices refusals wide small stillCurrent
          stillSeeks stillBlocks current
      have isLast : (⟨mover, action⟩ : Label α) ≠ ⟨mover, .respond⟩ := by
        intro same
        cases same
        exact noResponse rfl
      obtain ⟨further, isOpen, stillOp⟩ :=
        tracked.op_step step isLast stillCurrent
      rw [sameOp] at blocksOn
      refine ⟨?_, ⟨further, isOpen, stillOp.trans sameOp⟩, seeksOn,
        blocksOn⟩
      intro label member
      rcases List.mem_append.mp member with old | new
      · exact unanswered label old
      · cases List.mem_singleton.mp new
        exact isLast

/-- An agent with a call in progress can move by itself. -/
theorem Tracked.enabled_alone
    (tracked : Tracked state)
    (indices : Indices slots state)
    (isCurrent : state.log.current agent = some opened) :
    ∃ label next,
      alone agent state label ∧ step? slots state label = some next := by
  cases agent with
  | producer =>
      obtain ⟨action, next, _, current, step⟩ :=
        tracked.producer_enabled indices isCurrent
      exact ⟨_, next, ⟨rfl, current⟩, step.taken⟩
  | consumer =>
      obtain ⟨action, next, _, current, step⟩ :=
        tracked.consumer_enabled indices isCurrent
      exact ⟨_, next, ⟨rfl, current⟩, step.taken⟩
  | observer thread =>
      obtain ⟨action, next, _, current, taken⟩ :=
        tracked.observer_enabled isCurrent
      exact ⟨_, next, ⟨rfl, current⟩, taken⟩

/-- A ring of more than one slot is not full and empty at once. -/
theorem Indices.not_blocks_pop
    (indices : Indices slots state)
    (wide : 1 < slots)
    (small : slots ≤ SizeT.halfRange)
    {value out : α}
    (full : state.Blocks slots (.push value)) :
    ¬ state.Blocks slots (.pop out) := by
  rintro ⟨_, isEmpty⟩
  have noRoom : ¬ state.pushedTotal < state.poppedTotal + (slots - 1) :=
    fun room =>
      (indices.next_tail_ne_head_iff wide small).mpr room full.2
  have noData : ¬ state.poppedTotal < state.pushedTotal :=
    fun data => (indices.head_ne_tail_iff wide small).mpr data isEmpty
  omega

end Runs

/--
Left alone, a call returns after a few more steps, unless it is a push that
still looks for room in an open and full ring, or a pop that still looks for
data in an open and empty one: then it does not return.
-/
theorem ring_blocking_calls_block_exactly
    [Inhabited α]
    {elementSize capacity slots : Nat}
    (built : ringSlots elementSize capacity = .ok slots)
    {labels : List (Label α)}
    {state : State α}
    (run : Run (step? slots) unrestricted initial labels state)
    {agent : Agent}
    {opened : OpenCall (Op α) (Handover α)}
    (isCurrent : state.log.current agent = some opened) :
    BlocksExactly slots agent opened.op state := by
  obtain ⟨_, wide, small⟩ := ringSlots_ok built
  constructor
  · intro more last free solo unanswered
    obtain ⟨⟨later, stillCurrent, _⟩, _, bound⟩ :=
      length_le_untilReturn wide small run isCurrent free solo unanswered
    have reaches := run.append (solo.mono fun _ _ _ => trivial)
    have tracked : Tracked state := Tracked.of_run run
    have trackedLast : Tracked last := Tracked.of_run reaches
    have indices : Indices slots last :=
      Indices.of_run wide small reaches
    have atMost := tracked.untilReturn_le isCurrent
    exact ⟨by omega, trackedLast.enabled_alone indices stillCurrent⟩
  · intro more last seeks blocks solo
    obtain ⟨unanswered, _, stillSeeks, stillBlocks⟩ :=
      waits_alone wide small run isCurrent seeks blocks solo
    exact ⟨unanswered, stillSeeks, stillBlocks⟩
  · have indices : Indices slots state := Indices.of_run wide small run
    intro value out full
    exact indices.not_blocks_pop wide small full

/-- A push has filled the ring, and another one has found it full. -/
def waitingSchedule : List (Label Nat) :=
  [⟨.producer, .invoke (.push 7)⟩, ⟨.producer, .load 0⟩,
    ⟨.producer, .check⟩, ⟨.producer, .move 0⟩, ⟨.producer, .store⟩,
    ⟨.producer, .respond⟩, ⟨.producer, .invoke (.push 8)⟩,
    ⟨.producer, .load 0⟩, ⟨.producer, .check⟩]

/-- Once round the loop of `push`. -/
def roundSchedule : List (Label Nat) :=
  [⟨.producer, .load 0⟩, ⟨.producer, .load 0⟩, ⟨.producer, .check⟩]

theorem ring_blocking_calls_block_exactly_full :
    ∃ state last,
      replay? (step? 2) unrestricted initial waitingSchedule =
          some state ∧
        BlocksExactly 2 .producer (.push 8) state ∧
        Run (step? 2) (alone .producer) state roundSchedule last ∧
        last.Blocks 2 (.push 8) := by
  have replayed :
      ∃ state last,
        replay? (step? 2) unrestricted (initial : State Nat)
            waitingSchedule = some state ∧
          state.log.current .producer = some ⟨1, .push 8, []⟩ ∧
          state.producer = .refreshHead (.push 8) ∧
          state.closed.latest = false ∧
          next 2 state.tail.latest = state.head.latest ∧
          replay? (step? 2) (alone .producer) state roundSchedule =
            some last :=
    ⟨_, _, rfl, rfl, rfl, rfl, rfl, rfl⟩
  obtain ⟨state, last, accepted, isCurrent, isAt, isOpen, isFull,
    goesRound⟩ := replayed
  have built : ringSlots 8 1 = .ok 2 := by
    rfl
  have exactly : BlocksExactly 2 .producer (.push 8) state :=
    ring_blocking_calls_block_exactly built (Run.of_replay? accepted)
      isCurrent
  have seeks : state.Seeks .producer :=
    ⟨.push 8, congrArg ProducerPc.seeking isAt⟩
  have solo := Run.of_replay? goesRound
  exact ⟨state, last, accepted, exactly, solo,
    (exactly.waits seeks ⟨isOpen, isFull⟩ solo).2.2⟩

end ConcurrentQueue.Spsc
