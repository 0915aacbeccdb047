import ConcurrentQueue.Library.RingDelivery
import ConcurrentQueue.Library.Transfers
import ConcurrentQueue.Spsc.Indices

namespace ConcurrentQueue.Spsc

/-!
# Hand-off of elements

The marks of a history list the elements pushed, the elements popped and the
positions that a throwing move spoiled.  The ring delivers the first to the
second, and the two sides never work on the same slot.
-/

variable {α : Type}

namespace Handover

/-- The elements handed over to the consumer. -/
def pushedValues : Handover α → List α
  | .pushed values => values
  | _ => []

/-- The elements handed out of the queue. -/
def poppedValues : Handover α → List α
  | .popped values => values
  | _ => []

end Handover

/-- What a mark does to the elements that pass through the queue. -/
def transfers : Transfers (Handover α) α where
  given := Handover.pushedValues
  taken := Handover.poppedValues
  spoils
    | .spoiled => true
    | _ => false

namespace State

/-- The marks of the history in order. -/
def handovers (state : State α) : List (Handover α) :=
  state.log.marks

/-- All elements ever published, in order. -/
def pushed (state : State α) : List α :=
  state.handovers.flatMap Handover.pushedValues

/-- All elements ever handed out, in order. -/
def popped (state : State α) : List α :=
  state.handovers.flatMap Handover.poppedValues

/-- The positions whose element a throwing move spoiled. -/
def spoiled (state : State α) : List Nat :=
  transfers.spoiledFrom 0 state.handovers

end State

section Marks

variable {state next : State α} {made : Handover α}

/-- One more mark adds the elements it hands over to the elements pushed. -/
theorem State.pushed_append
    (marked : next.handovers = state.handovers ++ [made]) :
    next.pushed = state.pushed ++ made.pushedValues := by
  simp [State.pushed, marked]

theorem State.popped_append
    (marked : next.handovers = state.handovers ++ [made]) :
    next.popped = state.popped ++ made.poppedValues := by
  simp [State.popped, marked]

theorem State.spoiled_append
    (marked : next.handovers = state.handovers ++ [made]) :
    next.spoiled =
      state.spoiled ++
        transfers.spoiledFrom state.popped.length [made] := by
  unfold State.spoiled State.popped
  rw [marked, Transfers.spoiledFrom_append, Nat.zero_add]
  rfl

end Marks

/-- The elements in flight between the two sides. -/
structure Delivered (slots : Nat) (state : State α) : Prop where
  pushedCount : state.pushedTotal = state.pushed.length
  poppedCount : state.poppedTotal = state.popped.length
  delivery :
    Ring.Delivery slots state.buffer
      (state.pushed ++ state.producer.moved)
      (state.popped ++ state.consumer.moved)
      state.spoiled

section Moved

variable {slots index count : Nat} {moved : List α}

@[simp] theorem ProducerPc.moved_moveIn (pusher : Pusher α) :
    (ProducerPc.moveIn pusher index moved count).moved = moved := by
  rfl

@[simp] theorem ProducerPc.moved_publishTail (pusher : Pusher α) :
    (ProducerPc.publishTail pusher index moved).moved = moved := by
  rfl

@[simp] theorem ProducerPc.moved_returning (result : Result α) :
    (ProducerPc.returning result).moved = [] := by
  rfl

@[simp] theorem ConsumerPc.moved_moveOut (popper : Popper α) :
    (ConsumerPc.moveOut popper index moved count).moved = moved := by
  rfl

@[simp] theorem ConsumerPc.moved_publishHead (popper : Popper α) :
    (ConsumerPc.publishHead popper index moved).moved = moved := by
  rfl

@[simp] theorem ConsumerPc.moved_returning (result : Result α) :
    (ConsumerPc.returning result).moved = [] := by
  rfl

@[simp] theorem ProducerPc.moved_afterMove (pusher : Pusher α) :
    (ProducerPc.afterMove slots pusher index moved count).moved = moved := by
  unfold ProducerPc.afterMove
  split <;> rfl

@[simp] theorem ConsumerPc.moved_afterMove (popper : Popper α) :
    (ConsumerPc.afterMove slots popper index moved count).moved = moved := by
  unfold ConsumerPc.afterMove
  split <;> rfl

theorem ProducerPc.moved_start?
    {op : Op α}
    {pc : ProducerPc α}
    (starts : ProducerPc.start? op = some pc) :
    pc.moved = [] := by
  cases op with
  | push | tryPush =>
      cases starts
      rfl
  | tryPushN items =>
      cases starts
      split <;> rfl
  | _ =>
      cases starts

theorem ConsumerPc.moved_start?
    {op : Op α}
    {pc : ConsumerPc α}
    (starts : ConsumerPc.start? op = some pc) :
    pc.moved = [] := by
  cases op with
  | pop | tryPop | closed =>
      cases starts
      rfl
  | tryPopN out =>
      cases starts
      split <;> rfl
  | _ =>
      cases starts

@[simp] theorem ProducerPc.moved_afterFull (pusher : Pusher α) :
    pusher.afterFull.moved = [] := by
  cases pusher <;> rfl

@[simp] theorem ConsumerPc.moved_afterEmpty (popper : Popper α) :
    popper.afterEmpty.moved = [] := by
  rcases popper with ⟨out, _ | _⟩ | out | out <;> rfl

/-- A move that may throw is the only one of its call. -/
theorem Pusher.moved_eq_nil
    {pusher : Pusher α}
    {op : Op α}
    (mayThrow : pusher.mayThrow = true)
    (after : pusher.After op moved)
    (more : moved.length < count)
    (bound : count ≤ op.operands.length) :
    moved = [] := by
  have single : op.operands.length = 1 := by
    rw [← after.2.1]
    cases pusher with
    | push | tryPush => rfl
    | tryPushN => cases mayThrow
  exact List.length_eq_zero_iff.mp (by omega)

theorem Popper.moved_eq_nil
    {popper : Popper α}
    {op : Op α}
    (mayThrow : popper.mayThrow = true)
    (after : popper.After op moved)
    (more : moved.length < count)
    (bound : count ≤ op.operands.length) :
    moved = [] := by
  have single : op.operands.length = 1 := by
    rw [← after.2.1]
    cases popper with
    | pop | tryPop => rfl
    | tryPopN => cases mayThrow
  exact List.length_eq_zero_iff.mp (by omega)

end Moved

namespace Delivered

variable {slots : Nat} {state next : State α}
variable {agent : Agent} {action : Action α}

/-- The constructor has nothing to deliver. -/
theorem initial [Inhabited α] :
    Delivered slots (initial : State α) where
  pushedCount := by
    rfl
  poppedCount := by
    rfl
  delivery := Ring.Delivery.initial _

/-- Only slots, indices, marks and moves in progress matter. -/
theorem of_same
    (delivered : Delivered slots state)
    (sameBuffer : next.buffer = state.buffer)
    (sameHead : next.head = state.head)
    (sameTail : next.tail = state.tail)
    (sameHandovers : next.handovers = state.handovers)
    (sameProducer : next.producer.moved = state.producer.moved)
    (sameConsumer : next.consumer.moved = state.consumer.moved) :
    Delivered slots next := by
  obtain ⟨pushedCount, poppedCount, delivery⟩ := delivered
  constructor <;>
    simp only [State.pushedTotal, State.poppedTotal, State.pushed,
      State.popped, State.spoiled, sameBuffer, sameHead, sameTail,
      sameHandovers, sameProducer, sameConsumer] at *
  · exact pushedCount
  · exact poppedCount
  · exact delivery

/-- The producer's slot is the first free one, and it is free. -/
theorem free_slot
    (delivered : Delivered slots state)
    (wide : 1 < slots)
    (indices : Indices slots state)
    {pusher : Pusher α}
    {index count : Nat}
    {moved : List α}
    (isAt : state.producer = .moveIn pusher index moved count)
    (more : moved.length < count) :
    index = (state.pushed ++ moved).length % slots ∧
      (state.pushed ++ moved).length <
        (state.popped ++ state.consumer.moved).length + slots := by
  have within := indices.producer
  rw [isAt] at within
  obtain ⟨isIndex, bound⟩ := within
  have cached := indices.cachedPopped_le
  rw [delivered.poppedCount] at cached
  rw [delivered.pushedCount] at isIndex bound
  simp only [List.length_append]
  exact ⟨isIndex, by omega⟩

/-- The consumer's slot is the first occupied one, and it is occupied. -/
theorem occupied_slot
    (delivered : Delivered slots state)
    (indices : Indices slots state)
    {popper : Popper α}
    {index count : Nat}
    {moved : List α}
    (isAt : state.consumer = .moveOut popper index moved count)
    (more : moved.length < count) :
    index = (state.popped ++ moved).length % slots ∧
      (state.popped ++ moved).length <
        (state.pushed ++ state.producer.moved).length := by
  have within := indices.consumer
  rw [isAt] at within
  obtain ⟨isIndex, bound⟩ := within
  have cached := indices.cachedPushed_le
  rw [delivered.pushedCount] at cached
  rw [delivered.poppedCount] at isIndex bound
  simp only [List.length_append]
  exact ⟨isIndex, by omega⟩

/-- Every step of the producer keeps the ring delivering. -/
theorem producer_step
    (delivered : Delivered slots state)
    (wide : 1 < slots)
    (tracked : Tracked state)
    (indices : Indices slots state)
    (step : ProducerStep slots state action next) :
    Delivered slots next := by
  have agrees := tracked.producer
  cases step with
  | invoke isAt starts =>
      refine delivered.of_same rfl rfl rfl ?_ ?_ rfl
      · exact state.log.marks_invoke .producer _
      · rw [isAt]
        exact ProducerPc.moved_start? starts
  | refused isAt _ | admitted isAt _ | room isAt _ | noRoom isAt _
  | refreshedRoom isAt _ _ _ =>
      refine delivered.of_same rfl rfl rfl rfl ?_ rfl
      rw [isAt]
      rfl
  | refreshedFull isAt fresh reads isFull =>
      refine delivered.of_same rfl rfl rfl rfl ?_ rfl
      rw [isAt]
      exact ProducerPc.moved_afterFull _
  | moveIn isAt taken =>
      rename_i pusher index moved count husk value left
      rw [isAt] at agrees
      obtain ⟨call, op, isCurrent, after, more, bound⟩ := agrees
      obtain ⟨isIndex, room⟩ :=
        delivered.free_slot wide indices isAt more
      have delivery := delivered.delivery
      simp only [isAt, ProducerPc.moved_moveIn] at delivery
      refine ⟨delivered.pushedCount, delivered.poppedCount, ?_⟩
      have written := delivery.push room value
      rw [← isIndex, List.append_assoc] at written
      simp only [State.atProducer, ProducerPc.moved_afterMove]
      exact written
  | throwIn isAt mayThrow =>
      rename_i pusher index moved count slotValue outValue
      rw [isAt] at agrees
      obtain ⟨call, op, isCurrent, after, more, bound⟩ := agrees
      have nothing := Pusher.moved_eq_nil mayThrow after more bound
      obtain ⟨isIndex, room⟩ :=
        delivered.free_slot wide indices isAt more
      have delivery := delivered.delivery
      simp only [isAt, ProducerPc.moved_moveIn] at delivery
      refine ⟨delivered.pushedCount, delivered.poppedCount, ?_⟩
      have written := delivery.writeFree room slotValue
      rw [← isIndex] at written
      rw [nothing] at written
      exact written
  | publishTail isAt =>
      rename_i pusher index moved
      rw [isAt] at agrees
      obtain ⟨call, op, isCurrent, after, nonempty⟩ := agrees
      have marked :
          ((state.publishTail index moved).atProducer
              (.returning (pusher.accepted moved.length))).handovers =
            state.handovers ++ [.pushed moved] :=
        state.log.marks_mark isCurrent _
      have delivery := delivered.delivery
      simp only [isAt, ProducerPc.moved_publishTail] at delivery
      refine ⟨?_, ?_, ?_⟩
      · rw [State.pushed_append marked, List.length_append,
          ← delivered.pushedCount]
        exact total_store _ _ _
      · rw [State.popped_append marked]
        simp only [Handover.poppedValues, List.append_nil]
        exact delivered.poppedCount
      · rw [State.pushed_append marked, State.popped_append marked,
          State.spoiled_append marked]
        simp only [Handover.poppedValues, Handover.pushedValues,
          Transfers.spoiledFrom, transfers, Bool.false_eq_true, if_false,
          List.append_nil, State.atProducer, ProducerPc.moved_returning]
        exact delivery
  | respond isAt =>
      refine delivered.of_same rfl rfl rfl ?_ ?_ rfl
      · exact state.log.marks_respond .producer _
      · rw [isAt]
        rfl

/-- Every step of the consumer keeps the ring delivering. -/
theorem consumer_step
    (delivered : Delivered slots state)
    (tracked : Tracked state)
    (indices : Indices slots state)
    (step : ConsumerStep slots state action next) :
    Delivered slots next := by
  have agrees := tracked.consumer
  cases step with
  | invoke isAt starts =>
      refine delivered.of_same rfl rfl rfl ?_ rfl ?_
      · exact state.log.marks_invoke .consumer _
      · rw [isAt]
        exact ConsumerPc.moved_start? starts
  | data isAt _ | noData isAt _ | refreshedData isAt _ _ _
  | popClosed isAt _ | loadClosed isAt _ =>
      refine delivered.of_same rfl rfl rfl rfl rfl ?_
      rw [isAt]
      rfl
  | refreshedEmpty isAt fresh reads isEmpty =>
      refine delivered.of_same rfl rfl rfl rfl rfl ?_
      rw [isAt]
      exact ConsumerPc.moved_afterEmpty _
  | moveOut isAt =>
      rename_i popper index moved count husk
      rw [isAt] at agrees
      obtain ⟨call, op, isCurrent, after, more, bound⟩ := agrees
      obtain ⟨isIndex, nonempty⟩ :=
        delivered.occupied_slot indices isAt more
      have delivery := delivered.delivery
      simp only [isAt, ConsumerPc.moved_moveOut] at delivery
      refine ⟨delivered.pushedCount, delivered.poppedCount, ?_⟩
      have moves := delivery.pop nonempty husk
      rw [← isIndex, List.append_assoc] at moves
      simp only [State.atConsumer, ConsumerPc.moved_afterMove]
      exact moves
  | throwOut isAt mayThrow =>
      rename_i popper index moved count slotValue outValue
      rw [isAt] at agrees
      obtain ⟨call, op, isCurrent, after, more, bound⟩ := agrees
      have nothing := Popper.moved_eq_nil mayThrow after more bound
      subst nothing
      obtain ⟨isIndex, nonempty⟩ :=
        delivered.occupied_slot indices isAt more
      have marked :
          ((state.spoilSlot index slotValue).atConsumer
              (.returning (.popThrew outValue))).handovers =
            state.handovers ++ [.spoiled] :=
        state.log.marks_mark isCurrent _
      have delivery := delivered.delivery
      simp only [isAt, ConsumerPc.moved_moveOut] at delivery
      have spoils := delivery.spoil nonempty slotValue
      rw [← isIndex] at spoils
      refine ⟨?_, ?_, ?_⟩
      · rw [State.pushed_append marked]
        simp only [Handover.pushedValues, List.append_nil]
        exact delivered.pushedCount
      · rw [State.popped_append marked]
        simp only [Handover.poppedValues, List.append_nil]
        exact delivered.poppedCount
      · rw [State.pushed_append marked, State.popped_append marked,
          State.spoiled_append marked]
        simp only [List.append_nil] at spoils
        simp only [Handover.poppedValues, Handover.pushedValues,
          Transfers.spoiledFrom, transfers, if_true, List.append_nil,
          State.atConsumer, ConsumerPc.moved_returning]
        exact spoils
  | publishHead isAt =>
      rename_i popper index moved
      rw [isAt] at agrees
      obtain ⟨call, op, isCurrent, after, nonempty⟩ := agrees
      have marked :
          ((state.publishHead index moved).atConsumer
              (.returning (popper.delivered moved.length))).handovers =
            state.handovers ++ [.popped moved] :=
        state.log.marks_mark isCurrent _
      have delivery := delivered.delivery
      simp only [isAt, ConsumerPc.moved_publishHead] at delivery
      refine ⟨?_, ?_, ?_⟩
      · rw [State.pushed_append marked]
        simp only [Handover.pushedValues, List.append_nil]
        exact delivered.pushedCount
      · rw [State.popped_append marked, List.length_append,
          ← delivered.poppedCount]
        exact total_store _ _ _
      · rw [State.pushed_append marked, State.popped_append marked,
          State.spoiled_append marked]
        simp only [Handover.poppedValues, Handover.pushedValues,
          Transfers.spoiledFrom, transfers, Bool.false_eq_true, if_false,
          List.append_nil, State.atConsumer, ConsumerPc.moved_returning]
        exact delivery
  | respond isAt =>
      refine delivered.of_same rfl rfl rfl ?_ rfl ?_
      · exact state.log.marks_respond .consumer _
      · rw [isAt]
        rfl

/-- Every step keeps the ring delivering. -/
theorem step
    (delivered : Delivered slots state)
    (wide : 1 < slots)
    (tracked : Tracked state)
    (indices : Indices slots state)
    (step : Step slots state agent action next) :
    Delivered slots next := by
  cases step with
  | producer own => exact delivered.producer_step wide tracked indices own
  | consumer own => exact delivered.consumer_step tracked indices own
  | observer own =>
      refine delivered.of_same ?_ ?_ ?_ ?_ ?_ ?_ <;> cases own <;>
        first
          | rfl
          | exact state.log.marks_invoke _ _
          | exact state.log.marks_respond _ _

/-- The ring delivers in every reachable state. -/
theorem of_run
    [Inhabited α]
    (wide : 1 < slots)
    (small : slots ≤ SizeT.halfRange)
    {guard : StepGuard (State α) (Label α)}
    {labels : List (Label α)}
    (run : Run (step? slots) guard Spsc.initial labels state) :
    Delivered slots state := by
  have known :
      ∀ {labels : List (Label α)} {state : State α},
        Run (step? slots) guard Spsc.initial labels state →
        Tracked state ∧ Indices slots state :=
    fun earlier =>
      ⟨Tracked.of_run earlier, Indices.of_run wide small earlier⟩
  exact run.invariant_of known Delivered.initial
    fun before _ delivered _ taken =>
      delivered.step wide before.1 before.2 (Step.of_step? taken)

end Delivered

/-- A move assignment throws in this step. -/
def Label.isThrow (label : Label α) : Bool :=
  match label.action with
  | .throw _ _ => true
  | _ => false

/-- Only a throwing move spoils an element. -/
theorem spoiled_step
    {slots : Nat}
    {state next : State α}
    {label : Label α}
    (tracked : Tracked state)
    (quiet : label.isThrow = false)
    (step : Step slots state label.agent label.action next)
    (nothing : state.spoiled = []) :
    next.spoiled = [] := by
  have of_same :
      next.handovers = state.handovers → next.spoiled = [] := by
    intro same
    simpa only [State.spoiled, same] using nothing
  have of_mark :
      ∀ made,
        next.handovers = state.handovers ++ [made] →
        transfers.spoiledFrom state.popped.length [made] = [] →
        next.spoiled = [] := by
    intro made marked harmless
    rw [State.spoiled_append marked, nothing, harmless]
    rfl
  rcases label with ⟨agent, action⟩
  cases step with
  | producer own =>
      have agrees := tracked.producer
      cases own with
      | invoke => exact of_same (state.log.marks_invoke _ _)
      | respond => exact of_same (state.log.marks_respond _ _)
      | publishTail isAt =>
          rw [isAt] at agrees
          obtain ⟨call, op, isCurrent, _⟩ := agrees
          exact of_mark _ (state.log.marks_mark isCurrent _) rfl
      | _ => exact of_same rfl
  | consumer own =>
      have agrees := tracked.consumer
      cases own with
      | invoke => exact of_same (state.log.marks_invoke _ _)
      | respond => exact of_same (state.log.marks_respond _ _)
      | publishHead isAt =>
          rw [isAt] at agrees
          obtain ⟨call, op, isCurrent, _⟩ := agrees
          exact of_mark _ (state.log.marks_mark isCurrent _) rfl
      | throwOut => cases quiet
      | _ => exact of_same rfl
  | observer own =>
      cases own with
      | invoke => exact of_same (state.log.marks_invoke _ _)
      | respond => exact of_same (state.log.marks_respond _ _)
      | _ => exact of_same rfl

/-- Without throwing moves no element is ever spoiled. -/
theorem spoiled_eq_nil
    [Inhabited α]
    {slots : Nat}
    {guard : StepGuard (State α) (Label α)}
    {labels : List (Label α)}
    {state : State α}
    (run : Run (step? slots) guard Spsc.initial labels state)
    (quiet : ∀ label ∈ labels, label.isThrow = false) :
    state.spoiled = [] := by
  induction run with
  | start =>
      rfl
  | snoc earlier admitted taken inductionHypothesis =>
      refine spoiled_step (Tracked.of_run earlier) (quiet _ (by simp))
        (Step.of_step? taken) (inductionHypothesis ?_)
      intro label member
      exact quiet label (List.mem_append_left _ member)

/-- What the two sides may rely on in a state of a queue of `capacity`. -/
structure HandOff (capacity : Nat) (state : State α) : Prop where
  headCached : state.cachedPopped ≤ state.poppedTotal
  poppedDelivered : state.poppedTotal ≤ state.cachedPushed
  tailCached : state.cachedPushed ≤ state.pushedTotal
  pushedBounded : state.pushedTotal ≤ state.cachedPopped + capacity
  pushedCount : state.pushedTotal = state.pushed.length
  poppedCount : state.poppedTotal = state.popped.length
  writesReleased :
    ∀ {index},
      state.producer.slot? = some index →
      ∃ position,
        index = position % (capacity + 1) ∧
          state.pushedTotal ≤ position ∧
          ∀ previous < position,
            previous % (capacity + 1) = index →
            previous < state.cachedPopped
  movesPublished :
    ∀ {index},
      state.consumer.slot? = some index →
      ∃ position,
        index = position % (capacity + 1) ∧
          state.poppedTotal ≤ position ∧
          position < state.cachedPushed
  apart :
    ∀ {index},
      state.producer.slot? = some index →
      state.consumer.slot? ≠ some index
  intact :
    ∀ {position value},
      (state.popped ++ state.consumer.moved)[position]? = some value →
      position ∉ state.spoiled →
      state.pushed[position]? = some value
  answered :
    ∀ {call op marks result},
      state.log.Completed call op marks result →
      Answers op marks result

section Positions

variable {slots capacity : Nat} {state : State α}

/-- The bounds a constructed ring has. -/
theorem ringSlots_ok
    {elementSize : Nat}
    (built : ringSlots elementSize capacity = .ok slots) :
    slots = capacity + 1 ∧ 1 < slots ∧ slots ≤ SizeT.halfRange := by
  unfold ringSlots at built
  split at built
  · cases built
  · split at built
    · cases built
    · split at built
      · cases built
      · rename_i nonzero _ fits
        cases built
        have bound := vectorMaxSize_le elementSize
        omega

/-- The position of the slot the producer is about to write. -/
theorem Indices.producer_position
    (indices : Indices slots state)
    (tracked : Tracked state)
    {index : Nat}
    (isSlot : state.producer.slot? = some index) :
    ∃ position,
      index = position % slots ∧ state.pushedTotal ≤ position ∧
        position < state.cachedPopped + (slots - 1) := by
  have within := indices.producer
  have agrees := tracked.producer
  cases isAt : state.producer with
  | moveIn pusher slot moved count =>
      simp only [isAt, ProducerPc.slot?, Option.some.injEq] at isSlot
      subst isSlot
      rw [isAt] at within agrees
      obtain ⟨call, op, isCurrent, after, more, bound⟩ := agrees
      have limit := within.2
      exact ⟨_, within.1, Nat.le_add_right _ _, by omega⟩
  | _ =>
      simp [isAt, ProducerPc.slot?] at isSlot

/-- The position of the slot the consumer is about to move out of. -/
theorem Indices.consumer_position
    (indices : Indices slots state)
    (tracked : Tracked state)
    {index : Nat}
    (isSlot : state.consumer.slot? = some index) :
    ∃ position,
      index = position % slots ∧ state.poppedTotal ≤ position ∧
        position < state.cachedPushed := by
  have within := indices.consumer
  have agrees := tracked.consumer
  cases isAt : state.consumer with
  | moveOut popper slot moved count =>
      simp only [isAt, ConsumerPc.slot?, Option.some.injEq] at isSlot
      subst isSlot
      rw [isAt] at within agrees
      obtain ⟨call, op, isCurrent, after, more, bound⟩ := agrees
      have limit := within.2
      exact ⟨_, within.1, Nat.le_add_right _ _, by omega⟩
  | _ =>
      simp [isAt, ConsumerPc.slot?] at isSlot

/-- The two sides never work on the same slot. -/
theorem Indices.slots_apart
    (indices : Indices slots state)
    (tracked : Tracked state)
    {index : Nat}
    (writes : state.producer.slot? = some index) :
    state.consumer.slot? ≠ some index := by
  intro moves
  obtain ⟨written, isWritten, first, writtenBound⟩ :=
    indices.producer_position tracked writes
  obtain ⟨read, isRead, second, readBound⟩ :=
    indices.consumer_position tracked moves
  have order := indices.cachedPushed_le
  have lag := indices.cachedPopped_le
  have apartSlots : read % slots ≠ written % slots :=
    Ring.mod_ne_of_lt (by omega) (by omega)
  exact apartSlots (isRead.symm.trans isWritten)

/-- Every element that lived in the slot to be written was released. -/
theorem Indices.released
    (indices : Indices slots state)
    (tracked : Tracked state)
    {index : Nat}
    (writes : state.producer.slot? = some index) :
    ∃ position,
      index = position % slots ∧ state.pushedTotal ≤ position ∧
        ∀ previous < position,
          previous % slots = index → previous < state.cachedPopped := by
  obtain ⟨position, isIndex, first, bound⟩ :=
    indices.producer_position tracked writes
  refine ⟨position, isIndex, first, ?_⟩
  intro previous earlier sameSlot
  by_contra notReleased
  have apartSlots : previous % slots ≠ position % slots :=
    Ring.mod_ne_of_lt earlier (by omega)
  exact apartSlots (sameSlot.trans isIndex)

/-- Whatever was moved out, published or not, was published before. -/
theorem Delivered.moved_le
    (delivered : Delivered slots state)
    (indices : Indices slots state)
    (tracked : Tracked state) :
    (state.popped ++ state.consumer.moved).length ≤
      state.pushed.length := by
  have within := indices.consumer
  have agrees := tracked.consumer
  have order := indices.headAt
  have lag := indices.cachedPushed_le
  rw [← delivered.pushedCount, List.length_append,
    ← delivered.poppedCount]
  cases isAt : state.consumer with
  | moveOut popper index moved count =>
      rw [isAt] at within agrees
      obtain ⟨call, op, isCurrent, after, more, bound⟩ := agrees
      have limit := within.2
      rw [ConsumerPc.moved_moveOut]
      omega
  | publishHead popper index moved =>
      rw [isAt] at within
      have limit := within.2
      rw [ConsumerPc.moved_publishHead]
      omega
  | _ =>
      exact Nat.le_trans order lag

/-- What was moved out at a position not spoiled is what was published. -/
theorem Delivered.intact
    (delivered : Delivered slots state)
    (indices : Indices slots state)
    (tracked : Tracked state)
    {position : Nat}
    {value : α}
    (isPopped :
      (state.popped ++ state.consumer.moved)[position]? = some value)
    (notSpoiled : position ∉ state.spoiled) :
    state.pushed[position]? = some value := by
  have inBounds := (List.getElem?_eq_some_iff.mp isPopped).1
  have bound := delivered.moved_le indices tracked
  have isPushed := delivered.delivery.delivered isPopped notSpoiled
  rwa [List.getElem?_append_left (by omega)] at isPushed

end Positions

/--
In every reachable state the totals satisfy `Hc ≤ H ≤ Tc ≤ T ≤ Hc + N`, each
side works only on slots that the other has handed over, and, while no move
throws, the elements moved out are the first of those pushed.
-/
theorem hand_off
    [Inhabited α]
    {elementSize capacity slots : Nat}
    (built : ringSlots elementSize capacity = .ok slots)
    {labels : List (Label α)}
    {state : State α}
    (run : Run (step? slots) unrestricted initial labels state) :
    HandOff capacity state ∧
      ((∀ label ∈ labels, label.isThrow = false) →
        state.popped ++ state.consumer.moved <+: state.pushed) := by
  obtain ⟨rfl, wide, small⟩ := ringSlots_ok built
  have tracked : Tracked state := Tracked.of_run run
  have indices : Indices (capacity + 1) state :=
    Indices.of_run wide small run
  have delivered : Delivered (capacity + 1) state :=
    Delivered.of_run wide small run
  constructor
  · exact
      { headCached := indices.cachedPopped_le
        poppedDelivered := indices.headAt
        tailCached := indices.cachedPushed_le
        pushedBounded := indices.tailAt
        pushedCount := delivered.pushedCount
        poppedCount := delivered.poppedCount
        writesReleased := indices.released tracked
        movesPublished := indices.consumer_position tracked
        apart := indices.slots_apart tracked
        intact := delivered.intact indices tracked
        answered := tracked.answered }
  · intro quiet
    have nothing := spoiled_eq_nil run quiet
    rw [List.prefix_iff_getElem?]
    intro position inBounds
    refine delivered.intact indices tracked
      (List.getElem?_eq_getElem inBounds) ?_
    simp [nothing]

/-- A bulk push of two elements, a pop, and a second pop before its store. -/
def handOffSchedule : List (Label Nat) :=
  [⟨.producer, .invoke (.tryPushN [7, 8])⟩, ⟨.producer, .load 0⟩,
    ⟨.producer, .check⟩, ⟨.producer, .move 0⟩, ⟨.producer, .move 0⟩,
    ⟨.producer, .store⟩, ⟨.consumer, .invoke (.tryPop 0)⟩,
    ⟨.consumer, .check⟩, ⟨.consumer, .load 1⟩, ⟨.consumer, .move 0⟩,
    ⟨.consumer, .store⟩, ⟨.consumer, .respond⟩,
    ⟨.consumer, .invoke (.tryPop 0)⟩, ⟨.consumer, .check⟩,
    ⟨.consumer, .move 0⟩]

theorem hand_off_two :
    ∃ state,
      replay? (step? 3) unrestricted initial handOffSchedule = some state ∧
        state.popped = [7] ∧
        state.consumer.moved = [8] ∧
        state.pushed = [7, 8] ∧
        HandOff 2 state ∧
        state.popped ++ state.consumer.moved <+: state.pushed := by
  have replayed :
      ∃ state,
        replay? (step? 3) unrestricted initial handOffSchedule = some state ∧
          state.popped = [7] ∧
          state.consumer.moved = [8] ∧
          state.pushed = [7, 8] :=
    ⟨_, rfl, by decide⟩
  have built : ringSlots 8 2 = .ok 3 := by
    rfl
  obtain ⟨state, accepted, popped, moved, pushed⟩ := replayed
  obtain ⟨handOff, inOrder⟩ := hand_off built (Run.of_replay? accepted)
  exact ⟨state, accepted, popped, moved, pushed, handOff,
    inOrder (by decide)⟩

end ConcurrentQueue.Spsc
