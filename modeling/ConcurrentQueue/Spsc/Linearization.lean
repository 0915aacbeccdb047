import ConcurrentQueue.Library.AtomicObject
import ConcurrentQueue.Spsc.CachedChecks
import ConcurrentQueue.Spsc.Drain

namespace ConcurrentQueue.Spsc

/-!
# `SpscQueue` is linearizable

In sequentially consistent runs that keep `close()` apart from the pushes,
every call takes effect at one of its own steps: a push at its store of
`tail_`, a pop at its store of `head_`, and a call that was refused at the
load that decided so.
-/

variable {α : Type} {capacity : Nat}

/-- What a bounded FIFO list may answer, bulk operations included. -/
def MayAnswer
    (fifo : BoundedFifo capacity α)
    (op : Op α)
    (result : Result α)
    (after : BoundedFifo capacity α) : Prop :=
  match op, result with
  | .tryPushN items, .pushedN count left =>
      count ≤ items.length ∧ left.length = items.length ∧
        left.drop count = items.drop count ∧
        after.items = fifo.items ++ items.take count ∧
        after.closed = fifo.closed ∧
        (0 < count → fifo.closed = false) ∧
        (count = 0 →
          items = [] ∨ fifo.closed = true ∨ fifo.items.length = capacity)
  | .tryPopN before, .poppedN count out =>
      count ≤ before.length ∧ out.length = before.length ∧
        out.drop count = before.drop count ∧
        fifo.items = out.take count ++ after.items ∧
        after.closed = fifo.closed ∧
        (count = 0 → before = [] ∨ fifo.items = [])
  | .size, .size _ => after = fifo
  | op, result => fifo.answer? op = some (result, after)

/--
The queue as a client should see it.  `size()` promises nothing here: its two
loads are no snapshot.
-/
def batchFifo (α : Type) (capacity : Nat) :
    SequentialObject (BoundedFifo capacity α) (Op α) (Result α) where
  start := BoundedFifo.empty
  takes := MayAnswer

section Answers

variable {fifo after : BoundedFifo capacity α} {op : Op α}
variable {moved : List α}

/-- A push is refused by a closed list, and unless it waits by a full one. -/
theorem mayAnswer_refused
    {pusher : Pusher α}
    (ran : pusher.After op [])
    (ends :
      fifo.closed = true ∨
        fifo.items.length = capacity ∧ op.isBlocking = false) :
    MayAnswer fifo op pusher.refused fifo := by
  have sameOperands := ran.operands_eq
  have runs := ran.1
  have refuses : ∀ value, fifo.append? value = none := by
    intro value
    apply BoundedFifo.append?_eq_none_iff.mpr
    exact ends.imp_right And.left
  have isOver : fifo.closed = true ∨ op.isBlocking = false :=
    ends.imp_right And.right
  cases pusher <;> cases op <;> simp only [Pusher.Runs] at runs
  case push.push value argument | tryPush.tryPush value argument =>
    exact BoundedFifo.answer?_of_full rfl (refuses argument) isOver
  case tryPushN.tryPushN items originals =>
    simp only [Pusher.operands, Op.operands] at sameOperands
    subst sameOperands
    refine ⟨Nat.zero_le _, rfl, rfl, by simp, rfl, by simp, ?_⟩
    intro _
    exact Or.inr (ends.imp_right And.left)

/-- A push appends the elements that it has moved in. -/
theorem mayAnswer_accepted
    {pusher : Pusher α}
    (ran : pusher.After op moved)
    (nonempty : 0 < moved.length)
    (isOpen : fifo.closed = false)
    (appended : after.items = fifo.items ++ moved)
    (sameClosed : after.closed = fifo.closed) :
    MayAnswer fifo op (pusher.accepted moved.length) after := by
  have bound := ran.length_le
  have fits := after.bounded
  obtain ⟨runs, sameLength, isTaken, untouched⟩ := ran
  rw [appended, List.length_append] at fits
  cases pusher <;> cases op <;> simp only [Pusher.Runs] at runs
  case push.push value argument | tryPush.tryPush value argument =>
    have single : moved.length = 1 := by
      simp only [Op.operands, List.length_singleton] at bound
      omega
    simp only [Op.operands, single, List.take_succ_cons,
      List.take_zero] at isTaken
    subst isTaken
    apply BoundedFifo.answer?_of_append? rfl
    apply BoundedFifo.append?_eq_some_iff.mpr
    exact ⟨isOpen, fits, appended, sameClosed⟩
  case tryPushN.tryPushN items originals =>
    simp only [Op.operands, Pusher.operands] at isTaken sameLength untouched
    refine ⟨bound, sameLength, untouched, ?_, sameClosed,
      fun _ => isOpen, ?_⟩
    · rw [isTaken, appended]
    · intro none
      omega

/-- A pop that found nothing fails, unless it waits for the list to close. -/
theorem mayAnswer_empty
    {popper : Popper α}
    (ran : popper.After op [])
    (isEmpty : fifo.items = [])
    {result : Result α}
    (decides : popper.afterEmpty = .returning result)
    (ends : fifo.closed = true ∨ op.isBlocking = false) :
    MayAnswer fifo op result fifo := by
  have sameOperands := ran.operands_eq
  have runs := ran.1
  have noRemoval := BoundedFifo.removeFront?_eq_none_iff.mpr isEmpty
  cases popper <;> cases op <;> simp only [Popper.Runs] at runs
  case pop.pop out closedSeen before =>
    simp only [Popper.operands, Op.operands, List.cons.injEq] at sameOperands
    cases closedSeen <;> cases decides
    rw [sameOperands.1]
    exact BoundedFifo.answer?_of_empty rfl noRemoval ends
  case tryPop.tryPop out before =>
    simp only [Popper.operands, Op.operands, List.cons.injEq] at sameOperands
    cases decides
    rw [sameOperands.1]
    exact BoundedFifo.answer?_of_empty rfl noRemoval ends
  case tryPopN.tryPopN out before =>
    simp only [Popper.operands, Op.operands] at sameOperands
    subst sameOperands
    cases decides
    refine ⟨Nat.zero_le _, rfl, rfl, by simp, rfl, ?_⟩
    intro _
    exact Or.inr isEmpty

/-- A pop removes the elements that it has moved out. -/
theorem mayAnswer_delivered
    {popper : Popper α}
    (ran : popper.After op moved)
    (nonempty : 0 < moved.length)
    (removed : fifo.items = moved ++ after.items)
    (sameClosed : after.closed = fifo.closed) :
    MayAnswer fifo op (popper.delivered moved.length) after := by
  have bound := ran.length_le
  obtain ⟨runs, sameLength, isTaken, untouched⟩ := ran
  cases popper <;> cases op <;> simp only [Popper.Runs] at runs
  case pop.pop out closedSeen before | tryPop.tryPop out before =>
    have single : moved.length = 1 := by
      simp only [Op.operands, List.length_singleton] at bound
      omega
    simp only [Popper.operands, single, List.take_succ_cons,
      List.take_zero] at isTaken
    subst isTaken
    apply BoundedFifo.answer?_of_removeFront? rfl
    apply BoundedFifo.removeFront?_eq_some_iff.mpr
    exact ⟨removed, sameClosed⟩
  case tryPopN.tryPopN out before =>
    simp only [Op.operands, Popper.operands]
      at bound isTaken sameLength untouched
    refine ⟨bound, sameLength, untouched, ?_, sameClosed, ?_⟩
    · rw [isTaken, removed]
    · intro none
      omega

end Answers

/-- How far the call of the producer has come. -/
def ProducerPc.phase : ProducerPc α → Phase (Result α)
  | .idle => .idle
  | .returning result => .decided result
  | _ => .pending

/-- How far the call of the consumer has come. -/
def ConsumerPc.phase : ConsumerPc α → Phase (Result α)
  | .idle => .idle
  | .returning result => .decided result
  | _ => .pending

/-- How far the call of an observer has come. -/
def ObserverPc.phase : ObserverPc α → Phase (Result α)
  | .idle => .idle
  | .returning result => .decided result
  | _ => .pending

/-- A call that has moved an element is still to publish. -/
theorem ProducerPc.phase_afterMove
    {slots index count : Nat}
    {pusher : Pusher α}
    {moved : List α} :
    (afterMove slots pusher index moved count).phase = .pending := by
  unfold afterMove
  split <;> rfl

theorem ConsumerPc.phase_afterMove
    {slots index count : Nat}
    {popper : Popper α}
    {moved : List α} :
    (afterMove slots popper index moved count).phase = .pending := by
  unfold afterMove
  split <;> rfl

/-- How far the call of each agent has come. -/
def State.phases (state : State α) : Agent → Phase (Result α)
  | .producer => state.producer.phase
  | .consumer => state.consumer.phase
  | .observer thread => (state.observers thread).phase

section Phases

variable (state : State α)

theorem State.phases_atProducer (pc : ProducerPc α) :
    (state.atProducer pc).phases =
      Function.update state.phases .producer pc.phase := by
  funext agent
  cases agent <;> simp [State.phases]

theorem State.phases_atConsumer (pc : ConsumerPc α) :
    (state.atConsumer pc).phases =
      Function.update state.phases .consumer pc.phase := by
  funext agent
  cases agent <;> simp [State.phases]

theorem State.phases_atObserver (thread : Nat) (pc : ObserverPc α) :
    (state.atObserver thread pc).phases =
      Function.update state.phases (.observer thread) pc.phase := by
  funext agent
  cases agent with
  | producer | consumer => simp [State.phases]
  | observer other =>
      by_cases same : other = thread <;>
        simp [State.phases, same]

end Phases

/-- The list holds what is published and not yet released. -/
structure Linear
    (capacity : Nat)
    (state : State α)
    (fifo : BoundedFifo capacity α) : Prop where
  follows : Follows (batchFifo α capacity) state.log fifo state.phases
  items : state.pushed = state.popped ++ fifo.items
  closed : fifo.closed = state.closed.latest

namespace Linear

variable {state next : State α} {fifo : BoundedFifo capacity α}
variable {agent : Agent} {op : Op α} {result : Result α}

/-- The constructor holds the open, empty list. -/
theorem initial [Inhabited α] :
    Linear capacity (initial : State α) BoundedFifo.empty where
  follows := by
    have idle :
        (Spsc.initial : State α).phases = fun _ => .idle := by
      funext agent
      cases agent <;> rfl
    rw [idle]
    exact Follows.empty
  items := by
    rfl
  closed := by
    rfl

section Moves

variable (linear : Linear capacity state fifo)
variable (sameClosed : next.closed = state.closed)

include linear sameClosed

/-- A step inside a call decides nothing. -/
theorem stays
    {phase : Phase (Result α)}
    (isAt : state.phases agent = phase)
    (sameLog : next.log = state.log)
    (phases : next.phases = Function.update state.phases agent phase) :
    Linear capacity next fifo where
  follows := by
    rw [sameLog, phases, ← isAt, Function.update_eq_self]
    exact linear.follows
  items := by
    simpa only [State.pushed, State.popped, State.handovers, sameLog]
      using linear.items
  closed := by
    rw [sameClosed]
    exact linear.closed

/-- A call is invoked. -/
theorem invokes
    (isIdle : state.phases agent = .idle)
    (grown : next.log = state.log.invoke agent op)
    (phases : next.phases = Function.update state.phases agent .pending) :
    Linear capacity next fifo where
  follows := by
    rw [grown, phases]
    exact linear.follows.invoke isIdle op
  items := by
    simpa only [State.pushed, State.popped, State.handovers, grown,
      CallLog.marks_invoke] using linear.items
  closed := by
    rw [sameClosed]
    exact linear.closed

/-- A call is decided by an answer that leaves the list alone. -/
theorem decides
    (isPending : state.phases agent = .pending)
    {call : Nat}
    {marks : List (Handover α)}
    (isCurrent : state.log.current agent = some ⟨call, op, marks⟩)
    (answers : MayAnswer fifo op result fifo)
    (sameLog : next.log = state.log)
    (phases :
      next.phases = Function.update state.phases agent (.decided result)) :
    Linear capacity next fifo where
  follows := by
    rw [sameLog, phases]
    exact linear.follows.effect isPending isCurrent answers
  items := by
    simpa only [State.pushed, State.popped, State.handovers, sameLog]
      using linear.items
  closed := by
    rw [sameClosed]
    exact linear.closed

/-- A call is decided as soon as it is invoked. -/
theorem invokes_decided
    (isIdle : state.phases agent = .idle)
    (answers : MayAnswer fifo op result fifo)
    (grown : next.log = state.log.invoke agent op)
    (phases :
      next.phases = Function.update state.phases agent (.decided result)) :
    Linear capacity next fifo where
  follows := by
    have invoked := linear.follows.invoke isIdle op
    have isCurrent :
        (state.log.invoke agent op).current agent =
          some ⟨state.log.nextCall, op, []⟩ := by
      simp
    have decided :=
      invoked.effect (Function.update_self _ _ _) isCurrent answers
    rw [Function.update_idem] at decided
    rw [grown, phases]
    exact decided
  items := by
    simpa only [State.pushed, State.popped, State.handovers, grown,
      CallLog.marks_invoke] using linear.items
  closed := by
    rw [sameClosed]
    exact linear.closed

/-- A call returns. -/
theorem responds
    (isDecided : state.phases agent = .decided result)
    (grown : next.log = state.log.respond agent result)
    (phases : next.phases = Function.update state.phases agent .idle) :
    Linear capacity next fifo where
  follows := by
    rw [grown, phases]
    exact linear.follows.respond isDecided
  items := by
    simpa only [State.pushed, State.popped, State.handovers, grown,
      CallLog.marks_respond] using linear.items
  closed := by
    rw [sameClosed]
    exact linear.closed

end Moves

end Linear

/--
Sequentially consistent steps that keep `close()` apart from the pushes and in
which no move assignment throws.
-/
def disciplined : StepGuard (State α) (Label α) :=
  fun state label =>
    sequential state label ∧ orderly state label ∧ label.isThrow = false

instance [DecidableEq α] :
    ∀ (state : State α) (label : Label α),
      Decidable (disciplined state label) :=
  fun _ _ => instDecidableAnd

/-- What is known of the states of a disciplined run. -/
structure Sound (slots : Nat) (state : State α) : Prop where
  tracked : Tracked state
  indices : Indices slots state
  delivered : Delivered slots state
  closing : Closing state
  unspoiled : state.spoiled = []
  warned : state.closesRead ≠ [] → state.closed.latest = true
  closedSeen : state.consumer.closedSeen = true → state.closesRead ≠ []

namespace Sound

variable {slots : Nat} {state next : State α}

/-- The flag is set as soon as a store of it has been read. -/
theorem latest_of_read
    (closing : Closing state)
    {message : Nat}
    (noted : (state.closed.author? message).toList ≠ []) :
    state.closed.latest = true := by
  cases isAuthor : state.closed.author? message with
  | none => simp [isAuthor] at noted
  | some close =>
      have bound := state.closed.le_newest_of_author? _ isAuthor
      cases isNewest : state.closed.newest with
      | zero =>
          cases message with
          | zero => cases isAuthor
          | succ earlier => omega
      | succ newest =>
          have reads := state.closed.read?_newest
          rw [isNewest] at reads
          exact closing.stored reads

/-- A producer past its closed check works on an open queue. -/
theorem isOpen
    (sound : Sound slots state)
    (attempting : state.producer.attempting = true) :
    state.closed.latest = false := by
  cases isClosed : state.closed.latest with
  | false => rfl
  | true =>
      exfalso
      have reads := state.closed.read?_newest
      rw [isClosed] at reads
      obtain ⟨close, authored⟩ := sound.closing.exists_close reads
      obtain ⟨closer, invoked⟩ := sound.closing.authored authored
      have quiet := sound.closing.quiet ⟨closer, close, invoked⟩
      rw [attempting] at quiet
      cases quiet

/-- Whoever has read the store of a `close()` did so after it. -/
theorem warned_step
    {agent : Agent}
    {action : Action α}
    (closing : Closing state)
    (warned : state.closesRead ≠ [] → state.closed.latest = true)
    (step : Step slots state agent action next)
    (hasRead : next.closesRead ≠ []) :
    next.closed.latest = true := by
  have noting :
      ∀ {message},
        (state.closed.author? message).toList ++ state.closesRead ≠ [] →
        state.closed.latest = true := by
    intro message grown
    by_cases old : state.closesRead = []
    · rw [old, List.append_nil] at grown
      exact latest_of_read closing grown
    · exact warned old
  cases step with
  | producer own => cases own <;> exact warned hasRead
  | consumer own =>
      cases own with
      | popClosed | loadClosed => exact noting hasRead
      | _ => exact warned hasRead
  | observer own =>
      cases own with
      | storeClosed => simp
      | _ => exact warned hasRead

/-- No step of a disciplined run throws. -/
theorem quiet_of_run
    [Inhabited α]
    {labels : List (Label α)}
    (run : Run (step? slots) disciplined initial labels state) :
    ∀ label ∈ labels, label.isThrow = false := by
  induction run with
  | start =>
      intro label member
      cases member
  | snoc earlier admitted taken inductionHypothesis =>
      intro label member
      rcases List.mem_append.mp member with old | isLast
      · exact inductionHypothesis label old
      · rw [List.mem_singleton.mp isLast]
        exact admitted.2.2

/-- All of this holds in every reachable state. -/
theorem of_run
    [Inhabited α]
    (wide : 1 < slots)
    (small : slots ≤ SizeT.halfRange)
    {labels : List (Label α)}
    (run : Run (step? slots) disciplined initial labels state) :
    Sound slots state := by
  have ordered : Run (step? slots) orderly initial labels state :=
    run.mono fun _ _ admitted => admitted.2.1
  have warned :
      state.closesRead ≠ [] → state.closed.latest = true := by
    apply ordered.invariant_of Closing.of_run
    · intro hasRead
      exact absurd rfl hasRead
    · intro state next label closing _ warned _ taken hasRead
      exact warned_step closing warned (Step.of_step? taken) hasRead
  exact {
    tracked := Tracked.of_run run
    indices := Indices.of_run wide small run
    delivered := Delivered.of_run wide small run
    closing := Closing.of_run ordered
    unspoiled := spoiled_eq_nil run (quiet_of_run run)
    warned := warned
    closedSeen := (Draining.of_run wide small ordered).closedSeen }

end Sound

namespace Linear

variable {state next : State α} {fifo : BoundedFifo capacity α}
variable {action : Action α}

/-- The list is as long as the two totals are apart. -/
theorem length_items
    (linear : Linear capacity state fifo)
    {slots : Nat}
    (delivered : Delivered slots state) :
    state.pushedTotal = state.poppedTotal + fifo.items.length := by
  rw [delivered.pushedCount, delivered.poppedCount, linear.items,
    List.length_append]

/-- What the consumer has moved out is at the front of the list. -/
theorem moved_prefix
    (linear : Linear capacity state fifo)
    {slots : Nat}
    (sound : Sound slots state) :
    ∃ rest, fifo.items = state.consumer.moved ++ rest := by
  have isPrefix : state.popped ++ state.consumer.moved <+: state.pushed := by
    apply List.prefix_iff_getElem?.mpr
    intro position inBounds
    apply sound.delivered.intact sound.indices sound.tracked
    · exact List.getElem?_eq_getElem inBounds
    · simp [sound.unspoiled]
  rw [linear.items, List.prefix_append_right_inj] at isPrefix
  obtain ⟨rest, shape⟩ := isPrefix
  exact ⟨rest, shape.symm⟩

/-- A push takes effect at its store of `tail_`. -/
theorem publishTail
    (linear : Linear capacity state fifo)
    (sound : Sound (capacity + 1) state)
    {pusher : Pusher α}
    {index : Nat}
    {moved : List α}
    (isAt : state.producer = .publishTail pusher index moved) :
    ∃ after,
      Linear capacity
        ((state.publishTail index moved).atProducer
          (.returning (pusher.accepted moved.length))) after := by
  have agrees := sound.tracked.producer
  have within := sound.indices.producer
  have lag := sound.indices.cachedPopped_le
  have count := linear.length_items sound.delivered
  have isOpen := sound.isOpen (by rw [isAt]; rfl)
  rw [isAt] at agrees within
  obtain ⟨call, op, isCurrent, ran, nonempty⟩ := agrees
  have limit := within.2
  let after : BoundedFifo capacity α := {
    items := fifo.items ++ moved
    closed := fifo.closed
    bounded := by
      rw [List.length_append]
      omega }
  have answers :
      MayAnswer fifo op (pusher.accepted moved.length) after :=
    mayAnswer_accepted ran nonempty (linear.closed.trans isOpen) rfl rfl
  have isPending : state.phases .producer = .pending := by
    simp [State.phases, isAt, ProducerPc.phase]
  have marked :
      ((state.publishTail index moved).atProducer
          (.returning (pusher.accepted moved.length))).handovers =
        state.handovers ++ [.pushed moved] :=
    state.log.marks_mark isCurrent (.pushed moved)
  refine ⟨after, ?_, ?_, linear.closed⟩
  · rw [State.phases_atProducer]
    exact (linear.follows.effect isPending isCurrent answers).note
      .producer (.pushed moved)
  · rw [State.pushed_append marked, State.popped_append marked,
      linear.items]
    simp [Handover.pushedValues, Handover.poppedValues, after]

/-- A pop takes effect at its store of `head_`. -/
theorem publishHead
    (linear : Linear capacity state fifo)
    (sound : Sound (capacity + 1) state)
    {popper : Popper α}
    {index : Nat}
    {moved : List α}
    (isAt : state.consumer = .publishHead popper index moved) :
    ∃ after,
      Linear capacity
        ((state.publishHead index moved).atConsumer
          (.returning (popper.delivered moved.length))) after := by
  have agrees := sound.tracked.consumer
  obtain ⟨rest, removed⟩ := linear.moved_prefix sound
  rw [isAt] at agrees removed
  rw [ConsumerPc.moved_publishHead] at removed
  obtain ⟨call, op, isCurrent, ran, nonempty⟩ := agrees
  let after : BoundedFifo capacity α := {
    items := rest
    closed := fifo.closed
    bounded := by
      have bounded := fifo.bounded
      rw [removed, List.length_append] at bounded
      omega }
  have answers :
      MayAnswer fifo op (popper.delivered moved.length) after :=
    mayAnswer_delivered ran nonempty removed rfl
  have isPending : state.phases .consumer = .pending := by
    simp [State.phases, isAt, ConsumerPc.phase]
  have marked :
      ((state.publishHead index moved).atConsumer
          (.returning (popper.delivered moved.length))).handovers =
        state.handovers ++ [.popped moved] :=
    state.log.marks_mark isCurrent (.popped moved)
  refine ⟨after, ?_, ?_, linear.closed⟩
  · rw [State.phases_atConsumer]
    exact (linear.follows.effect isPending isCurrent answers).note
      .consumer (.popped moved)
  · rw [State.pushed_append marked, State.popped_append marked,
      linear.items, removed]
    simp [Handover.pushedValues, Handover.poppedValues, after]

/-- Every step of the producer is explained. -/
theorem producer_step
    (linear : Linear capacity state fifo)
    (sound : Sound (capacity + 1) state)
    (wide : 1 < capacity + 1)
    (small : capacity + 1 ≤ SizeT.halfRange)
    (current : producerCurrent state action)
    (calm : Label.isThrow ⟨.producer, action⟩ = false)
    (step : ProducerStep (capacity + 1) state action next) :
    ∃ after, Linear capacity next after := by
  have agrees := sound.tracked.producer
  cases step with
  | @invoke op pc isAt starts =>
      have isIdle : state.phases .producer = .idle := by
        simp [State.phases, isAt, ProducerPc.phase]
      refine ⟨fifo, ?_⟩
      cases op with
      | push | tryPush =>
          cases starts
          exact linear.invokes rfl isIdle rfl
            (State.phases_atProducer _ _)
      | tryPushN items =>
          cases starts
          cases items with
          | nil =>
              have answers :
                  MayAnswer fifo (.tryPushN []) (.pushedN 0 []) fifo := by
                simp [MayAnswer]
              exact linear.invokes_decided rfl isIdle answers rfl
                (State.phases_atProducer _ _)
          | cons first rest =>
              exact linear.invokes rfl isIdle rfl
                (State.phases_atProducer _ _)
      | _ => cases starts
  | @refused pusher message isAt reads =>
      rw [isAt] at agrees
      obtain ⟨call, op, isCurrent, ran, _⟩ := agrees
      simp only [producerCurrent, isAt] at current
      subst current
      rw [Atomic.read?_newest, Option.some.injEq] at reads
      have isPending : state.phases .producer = .pending := by
        simp [State.phases, isAt, ProducerPc.phase]
      have isClosed : fifo.closed = true := linear.closed.trans reads
      exact ⟨fifo, linear.decides rfl isPending isCurrent
        (mayAnswer_refused ran (Or.inl isClosed)) rfl
        (State.phases_atProducer _ _)⟩
  | @refreshedFull pusher message index isAt fresh reads isFull =>
      rw [isAt] at agrees
      obtain ⟨call, op, isCurrent, ran, _⟩ := agrees
      simp only [producerCurrent, isAt] at current
      subst current
      rw [Atomic.read?_newest, Option.some.injEq] at reads
      subst reads
      have isPending : state.phases .producer = .pending := by
        simp [State.phases, isAt, ProducerPc.phase]
      have noRoom :
          ¬ state.pushedTotal < state.poppedTotal + capacity := by
        intro room
        have finds :=
          (sound.indices.hasRoom_latest_iff wide small pusher).mpr room
        rw [isFull] at finds
        cases finds
      have count := linear.length_items sound.delivered
      have bound := fifo.bounded
      have full : fifo.items.length = capacity := by
        omega
      refine ⟨fifo, ?_⟩
      cases pusher with
      | push value =>
          exact linear.stays rfl isPending rfl
            (State.phases_atProducer _ _)
      | tryPush | tryPushN =>
          have noWaiting : op.isBlocking = false := by
            have runs := ran.1
            cases op <;> first | rfl | cases runs
          exact linear.decides rfl isPending isCurrent
            (mayAnswer_refused ran (Or.inr ⟨full, noWaiting⟩)) rfl
            (State.phases_atProducer _ _)
  | publishTail isAt => exact linear.publishTail sound isAt
  | throwIn => cases calm
  | @respond result isAt =>
      have isDecided : state.phases .producer = .decided result := by
        simp [State.phases, isAt, ProducerPc.phase]
      exact ⟨fifo, linear.responds rfl isDecided rfl
        (State.phases_atProducer _ _)⟩
  | moveIn isAt =>
      have isPending : state.phases .producer = .pending := by
        simp [State.phases, isAt, ProducerPc.phase]
      refine ⟨fifo, linear.stays rfl isPending rfl ?_⟩
      rw [State.phases_atProducer, ProducerPc.phase_afterMove]
      rfl
  | admitted isAt | room isAt | noRoom isAt | refreshedRoom isAt =>
      have isPending : state.phases .producer = .pending := by
        simp [State.phases, isAt, ProducerPc.phase]
      exact ⟨fifo, linear.stays rfl isPending rfl
        (State.phases_atProducer _ _)⟩

/-- Every step of the consumer is explained. -/
theorem consumer_step
    (linear : Linear capacity state fifo)
    (sound : Sound (capacity + 1) state)
    (wide : 1 < capacity + 1)
    (small : capacity + 1 ≤ SizeT.halfRange)
    (current : consumerCurrent state action)
    (calm : Label.isThrow ⟨.consumer, action⟩ = false)
    (step : ConsumerStep (capacity + 1) state action next) :
    ∃ after, Linear capacity next after := by
  have agrees := sound.tracked.consumer
  cases step with
  | @invoke op pc isAt starts =>
      have isIdle : state.phases .consumer = .idle := by
        simp [State.phases, isAt, ConsumerPc.phase]
      refine ⟨fifo, ?_⟩
      cases op with
      | pop | tryPop | closed =>
          cases starts
          exact linear.invokes rfl isIdle rfl
            (State.phases_atConsumer _ _)
      | tryPopN out =>
          cases starts
          cases out with
          | nil =>
              have answers :
                  MayAnswer fifo (.tryPopN []) (.poppedN 0 []) fifo := by
                simp [MayAnswer]
              exact linear.invokes_decided rfl isIdle answers rfl
                (State.phases_atConsumer _ _)
          | cons first rest =>
              exact linear.invokes rfl isIdle rfl
                (State.phases_atConsumer _ _)
      | _ => cases starts
  | @refreshedEmpty popper message index isAt fresh reads isEmpty =>
      rw [isAt] at agrees
      obtain ⟨call, op, isCurrent, ran, _⟩ := agrees
      simp only [consumerCurrent, isAt] at current
      subst current
      rw [Atomic.read?_newest, Option.some.injEq] at reads
      subst reads
      have isPending : state.phases .consumer = .pending := by
        simp [State.phases, isAt, ConsumerPc.phase]
      have noData : ¬ state.poppedTotal < state.pushedTotal := by
        intro data
        have finds :=
          (sound.indices.hasData_latest_iff wide small popper).mpr data
        rw [isEmpty] at finds
        cases finds
      have count := linear.length_items sound.delivered
      have none : fifo.items = [] := by
        apply List.eq_nil_of_length_eq_zero
        omega
      refine ⟨fifo, ?_⟩
      rcases popper with ⟨out, _ | _⟩ | out | out
      case pop.false =>
        exact linear.stays rfl isPending rfl
          (State.phases_atConsumer _ _)
      case pop.true =>
        have isClosed : fifo.closed = true := by
          rw [linear.closed]
          apply sound.warned
          apply sound.closedSeen
          rw [isAt]
          rfl
        exact linear.decides rfl isPending isCurrent
          (mayAnswer_empty ran none rfl (Or.inl isClosed)) rfl
          (State.phases_atConsumer _ _)
      case tryPop | tryPopN =>
        have noWaiting : op.isBlocking = false := by
          have runs := ran.1
          cases op <;> first | rfl | cases runs
        exact linear.decides rfl isPending isCurrent
          (mayAnswer_empty ran none rfl (Or.inr noWaiting)) rfl
          (State.phases_atConsumer _ _)
  | @loadClosed message flag isAt reads =>
      rw [isAt] at agrees
      obtain ⟨call, isCurrent⟩ := agrees
      simp only [consumerCurrent, isAt] at current
      subst current
      rw [Atomic.read?_newest, Option.some.injEq, ← linear.closed] at reads
      subst reads
      have isPending : state.phases .consumer = .pending := by
        simp [State.phases, isAt, ConsumerPc.phase]
      exact ⟨fifo, linear.decides rfl isPending isCurrent rfl rfl
        (State.phases_atConsumer _ _)⟩
  | publishHead isAt => exact linear.publishHead sound isAt
  | throwOut => cases calm
  | @respond result isAt =>
      have isDecided : state.phases .consumer = .decided result := by
        simp [State.phases, isAt, ConsumerPc.phase]
      exact ⟨fifo, linear.responds rfl isDecided rfl
        (State.phases_atConsumer _ _)⟩
  | moveOut isAt =>
      have isPending : state.phases .consumer = .pending := by
        simp [State.phases, isAt, ConsumerPc.phase]
      refine ⟨fifo, linear.stays rfl isPending rfl ?_⟩
      rw [State.phases_atConsumer, ConsumerPc.phase_afterMove]
      rfl
  | data isAt | noData isAt | refreshedData isAt | popClosed isAt =>
      have isPending : state.phases .consumer = .pending := by
        simp [State.phases, isAt, ConsumerPc.phase]
      exact ⟨fifo, linear.stays rfl isPending rfl
        (State.phases_atConsumer _ _)⟩

/-- Every step of an observer is explained. -/
theorem observer_step
    (linear : Linear capacity state fifo)
    (sound : Sound (capacity + 1) state)
    {thread : Nat}
    (current : observerCurrent state thread action)
    (step : ObserverStep (capacity + 1) state thread action next) :
    ∃ after, Linear capacity next after := by
  have agrees := sound.tracked.observers thread
  cases step with
  | @invoke op pc isAt starts =>
      have isIdle : state.phases (.observer thread) = .idle := by
        simp [State.phases, isAt, ObserverPc.phase]
      refine ⟨fifo, ?_⟩
      cases op with
      | close | closed | size =>
          cases starts
          exact linear.invokes rfl isIdle rfl
            (State.phases_atObserver _ _ _)
      | capacity =>
          cases starts
          have answers :
              MayAnswer fifo .capacity (.capacity capacity) fifo := by
            rfl
          exact linear.invokes_decided rfl isIdle answers rfl
            (State.phases_atObserver _ _ _)
      | _ => cases starts
  | storeClosed isAt =>
      rw [isAt] at agrees
      obtain ⟨call, isCurrent⟩ := agrees
      have isPending : state.phases (.observer thread) = .pending := by
        simp [State.phases, isAt, ObserverPc.phase]
      have answers : MayAnswer fifo .close .done fifo.close := by
        rfl
      refine ⟨fifo.close, ?_, linear.items, ?_⟩
      · rw [State.phases_atObserver]
        exact linear.follows.effect isPending isCurrent answers
      · simp [BoundedFifo.close]
  | @loadClosed message flag isAt reads =>
      rw [isAt] at agrees
      obtain ⟨call, isCurrent⟩ := agrees
      simp only [observerCurrent, isAt] at current
      subst current
      rw [Atomic.read?_newest, Option.some.injEq, ← linear.closed] at reads
      subst reads
      have isPending : state.phases (.observer thread) = .pending := by
        simp [State.phases, isAt, ObserverPc.phase]
      exact ⟨fifo, linear.decides rfl isPending isCurrent rfl rfl
        (State.phases_atObserver _ _ _)⟩
  | @sizeTail head message tail isAt reads =>
      rw [isAt] at agrees
      obtain ⟨call, isCurrent⟩ := agrees
      have isPending : state.phases (.observer thread) = .pending := by
        simp [State.phases, isAt, ObserverPc.phase]
      have answers :
          MayAnswer fifo .size
            (.size (sizeOf (capacity + 1) head tail)) fifo := by
        rfl
      exact ⟨fifo, linear.decides rfl isPending isCurrent answers rfl
        (State.phases_atObserver _ _ _)⟩
  | sizeHead isAt =>
      have isPending : state.phases (.observer thread) = .pending := by
        simp [State.phases, isAt, ObserverPc.phase]
      exact ⟨fifo, linear.stays rfl isPending rfl
        (State.phases_atObserver _ _ _)⟩
  | @respond result isAt =>
      have isDecided :
          state.phases (.observer thread) = .decided result := by
        simp [State.phases, isAt, ObserverPc.phase]
      exact ⟨fifo, linear.responds rfl isDecided rfl
        (State.phases_atObserver _ _ _)⟩

/-- Every disciplined run is explained by a list. -/
theorem of_run
    [Inhabited α]
    (wide : 1 < capacity + 1)
    (small : capacity + 1 ≤ SizeT.halfRange)
    {labels : List (Label α)}
    (run :
      Run (step? (capacity + 1)) disciplined Spsc.initial labels state) :
    ∃ fifo, Linear capacity state fifo := by
  induction run with
  | start =>
      exact ⟨BoundedFifo.empty, initial⟩
  | @snoc _ state next label earlier admitted taken inductionHypothesis =>
      obtain ⟨fifo, linear⟩ := inductionHypothesis
      have sound := Sound.of_run wide small earlier
      obtain ⟨current, _, calm⟩ := admitted
      obtain ⟨agent, action⟩ := label
      cases Step.of_step? taken with
      | producer own =>
          exact linear.producer_step sound wide small current calm own
      | consumer own =>
          exact linear.consumer_step sound wide small current calm own
      | observer own => exact linear.observer_step sound current own

end Linear

end ConcurrentQueue.Spsc
