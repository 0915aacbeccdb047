import ConcurrentQueue.Spsc.Sequential

namespace ConcurrentQueue.Spsc

/-!
# `SpscQueue` used by one thread

A thread that uses the queue alone is its producer and its consumer in turn.
It finds the indices where its own last calls left them, while the cached
copies may lag behind by any number of calls.
-/

variable {α : Type} {slots capacity : Nat}

/-- How many elements were popped, and what the cached indices count. -/
structure Positions where
  popped : Nat
  cachedPopped : Nat
  cachedPushed : Nat
  deriving Repr, DecidableEq

/-- The ring holds the elements of the list from a position on. -/
structure Represents
    (slots : Nat)
    (positions : Positions)
    (state : State α)
    (fifo : BoundedFifo capacity α) : Prop where
  items :
    Ring.contents slots state.buffer positions.popped fifo.items.length =
      fifo.items
  head : state.head.latest = positions.popped % slots
  tail :
    state.tail.latest = (positions.popped + fifo.items.length) % slots
  headCache : state.headCache = positions.cachedPopped % slots
  tailCache : state.tailCache = positions.cachedPushed % slots
  headSeen : state.headSeen ≤ state.head.newest
  tailSeen : state.tailSeen ≤ state.tail.newest
  cachedPopped_le : positions.cachedPopped ≤ positions.popped
  room :
    positions.popped + fifo.items.length ≤
      positions.cachedPopped + capacity
  popped_le : positions.popped ≤ positions.cachedPushed
  cachedPushed_le :
    positions.cachedPushed ≤ positions.popped + fifo.items.length
  closed : state.closed.latest = fifo.closed

/-- Some position fits. -/
def Holds
    (slots : Nat)
    (state : State α)
    (fifo : BoundedFifo capacity α) : Prop :=
  ∃ positions, Represents slots positions state fifo

namespace Represents

variable {state other : State α} {fifo after : BoundedFifo capacity α}
variable {positions : Positions}

/-- The constructor holds the open, empty list. -/
theorem initial [Inhabited α] (slots : Nat) :
    Represents slots ⟨0, 0, 0⟩ (initial : State α)
      (BoundedFifo.empty : BoundedFifo capacity α) where
  items := by
    rfl
  head := (Nat.zero_mod slots).symm
  tail := (Nat.zero_mod slots).symm
  headCache := (Nat.zero_mod slots).symm
  tailCache := (Nat.zero_mod slots).symm
  headSeen := Nat.le_refl 0
  tailSeen := Nat.le_refl 0
  cachedPopped_le := Nat.le_refl 0
  room := Nat.zero_le _
  popped_le := Nat.le_refl 0
  cachedPushed_le := Nat.zero_le _
  closed := by
    rfl

/-- Program points and the history do not matter. -/
theorem of_same
    (represents : Represents slots positions state fifo)
    (sameBuffer : other.buffer = state.buffer)
    (sameHead : other.head = state.head)
    (sameTail : other.tail = state.tail)
    (sameClosed : other.closed = state.closed)
    (sameHeadCache :
      (other.headCache, other.headSeen) = (state.headCache, state.headSeen))
    (sameTailCache :
      (other.tailCache, other.tailSeen) =
        (state.tailCache, state.tailSeen)) :
    Represents slots positions other fifo := by
  obtain ⟨cache, seen⟩ := Prod.mk.inj sameHeadCache
  obtain ⟨cache', seen'⟩ := Prod.mk.inj sameTailCache
  exact
    { items := by rw [sameBuffer, represents.items]
      head := by rw [sameHead, represents.head]
      tail := by rw [sameTail, represents.tail]
      headCache := by rw [cache, represents.headCache]
      tailCache := by rw [cache', represents.tailCache]
      headSeen := by
        rw [seen, sameHead]
        exact represents.headSeen
      tailSeen := by
        rw [seen', sameTail]
        exact represents.tailSeen
      cachedPopped_le := represents.cachedPopped_le
      room := represents.room
      popped_le := represents.popped_le
      cachedPushed_le := represents.cachedPushed_le
      closed := by rw [sameClosed, represents.closed] }

/-- The producer's cache may be brought up to date. -/
theorem cacheHead
    (represents : Represents slots positions state fifo) :
    Represents slots { positions with cachedPopped := positions.popped }
      (state.cacheHead state.head.newest state.head.latest) fifo where
  items := represents.items
  head := represents.head
  tail := represents.tail
  headCache := represents.head
  tailCache := represents.tailCache
  headSeen := Nat.le_refl _
  tailSeen := represents.tailSeen
  cachedPopped_le := Nat.le_refl _
  room := Nat.add_le_add_left fifo.bounded _
  popped_le := represents.popped_le
  cachedPushed_le := represents.cachedPushed_le
  closed := represents.closed

/-- The consumer's cache may be brought up to date. -/
theorem cacheTail
    (represents : Represents slots positions state fifo) :
    Represents slots
      { positions with
        cachedPushed := positions.popped + fifo.items.length }
      (state.cacheTail state.tail.newest state.tail.latest) fifo where
  items := represents.items
  head := represents.head
  tail := represents.tail
  headCache := represents.headCache
  tailCache := represents.tail
  headSeen := represents.headSeen
  tailSeen := Nat.le_refl _
  cachedPopped_le := represents.cachedPopped_le
  room := represents.room
  popped_le := Nat.le_add_right _ _
  cachedPushed_le := Nat.le_refl _
  closed := represents.closed

/-- The store of `closed_` closes the list. -/
theorem storeClosed
    (represents : Represents slots positions state fifo)
    (agent : Agent) :
    Represents slots positions (state.storeClosed agent) fifo.close where
  items := represents.items
  head := represents.head
  tail := represents.tail
  headCache := represents.headCache
  tailCache := represents.tailCache
  headSeen := represents.headSeen
  tailSeen := represents.tailSeen
  cachedPopped_le := represents.cachedPopped_le
  room := represents.room
  popped_le := represents.popped_le
  cachedPushed_le := represents.cachedPushed_le
  closed := by
    simp [BoundedFifo.close]

/-- The producer's check compares with what its cache counts. -/
theorem hasRoom_iff
    (wide : 1 < slots)
    (small : slots ≤ SizeT.halfRange)
    (isSlots : slots = capacity + 1)
    (represents : Represents slots positions state fifo)
    (pusher : Pusher α) :
    pusher.hasRoom slots state.headCache state.tail.latest = true ↔
      positions.popped + fifo.items.length <
        positions.cachedPopped + capacity := by
  have cached := represents.cachedPopped_le
  have room := represents.room
  rw [represents.headCache, represents.tail,
    pusher.hasRoom_iff wide small (by omega) (by omega)]
  omega

/-- The consumer's check compares with what its cache counts. -/
theorem hasData_iff
    (wide : 1 < slots)
    (small : slots ≤ SizeT.halfRange)
    (isSlots : slots = capacity + 1)
    (represents : Represents slots positions state fifo)
    (popper : Popper α) :
    popper.hasData slots state.tailCache state.head.latest = true ↔
      positions.popped < positions.cachedPushed := by
  have cached := represents.popped_le
  have pushed := represents.cachedPushed_le
  have bounded := fifo.bounded
  rw [represents.tailCache, represents.head,
    popper.hasData_iff wide small (by omega) (by omega)]

/-- `size()` counts the elements. -/
theorem sizeOf_eq
    (wide : 1 < slots)
    (small : slots ≤ SizeT.halfRange)
    (isSlots : slots = capacity + 1)
    (represents : Represents slots positions state fifo) :
    sizeOf slots state.head.latest state.tail.latest =
      fifo.items.length := by
  have bounded := fifo.bounded
  have counted :
      available slots
          ((positions.popped + fifo.items.length) % slots)
          (positions.popped % slots) =
        positions.popped + fifo.items.length - positions.popped :=
    available_mod wide small (by omega) (by omega)
  rw [represents.head, represents.tail]
  unfold available at counted
  unfold sizeOf
  rw [counted]
  omega

/-- Moving an element in and storing `tail_` appends. -/
theorem publishTail
    (wide : 1 < slots)
    (small : slots ≤ SizeT.halfRange)
    (isSlots : slots = capacity + 1)
    (represents : Represents slots positions state fifo)
    (hasRoom :
      positions.popped + fifo.items.length <
        positions.cachedPopped + capacity)
    {value : α}
    (appends : fifo.append? value = some after) :
    Represents slots positions
      ((state.setSlot state.tail.latest value).publishTail
        (next slots state.tail.latest) [value]) after := by
  obtain ⟨_, fits, items, sameClosed⟩ :=
    BoundedFifo.append?_eq_some_iff.mp appends
  have length : after.items.length = fifo.items.length + 1 := by
    rw [items, List.length_append, List.length_singleton]
  exact
    { items := by
        simp only [State.setSlot, State.publishTail, represents.tail,
          length]
        rw [Ring.contents_append (by omega), represents.items, items]
      head := represents.head
      tail := by
        simp only [State.publishTail, Atomic.latest_store,
          represents.tail, length]
        rw [next_mod wide small, Nat.add_assoc]
      headCache := represents.headCache
      tailCache := represents.tailCache
      headSeen := represents.headSeen
      tailSeen := by
        simp only [State.publishTail, State.setSlot, Atomic.newest_store]
        exact Nat.le_succ_of_le represents.tailSeen
      cachedPopped_le := represents.cachedPopped_le
      room := by
        rw [length]
        omega
      popped_le := represents.popped_le
      cachedPushed_le := by
        have pushed := represents.cachedPushed_le
        omega
      closed := by
        rw [sameClosed]
        exact represents.closed }

/-- The slot at `head_` holds the front of the list. -/
theorem front_eq
    (represents : Represents slots positions state fifo)
    {front : α}
    (removes : fifo.removeFront? = some (front, after)) :
    state.buffer state.head.latest = front := by
  have items := represents.items
  rw [(BoundedFifo.removeFront?_eq_some_iff.mp removes).1,
    List.length_cons, Ring.contents_succ] at items
  rw [represents.head]
  exact (List.cons.inj items).1

/-- Moving an element out and storing `head_` removes the front. -/
theorem publishHead
    (wide : 1 < slots)
    (small : slots ≤ SizeT.halfRange)
    (isSlots : slots = capacity + 1)
    (represents : Represents slots positions state fifo)
    (hasData : positions.popped < positions.cachedPushed)
    {front : α}
    (removes : fifo.removeFront? = some (front, after))
    (husk : α)
    (moved : List α) :
    Represents slots { positions with popped := positions.popped + 1 }
      ((state.setSlot state.head.latest husk).publishHead
        (next slots state.head.latest) moved) after := by
  obtain ⟨shape, sameClosed⟩ :=
    BoundedFifo.removeFront?_eq_some_iff.mp removes
  have length : fifo.items.length = after.items.length + 1 := by
    rw [shape, List.length_cons]
  have bounded := fifo.bounded
  have items := represents.items
  rw [shape, List.length_cons, Ring.contents_succ] at items
  exact
    { items := by
        simp only [State.setSlot, State.publishHead, represents.head]
        rw [Ring.contents_tail_update (by omega)]
        exact (List.cons.inj items).2
      head := by
        simp only [State.publishHead, Atomic.latest_store,
          represents.head]
        rw [next_mod wide small]
      tail := by
        have tail := represents.tail
        rw [length, ← Nat.add_assoc, Nat.add_right_comm] at tail
        exact tail
      headCache := represents.headCache
      tailCache := represents.tailCache
      headSeen := by
        simp only [State.publishHead, State.setSlot, Atomic.newest_store]
        exact Nat.le_succ_of_le represents.headSeen
      tailSeen := represents.tailSeen
      cachedPopped_le := Nat.le_succ_of_le represents.cachedPopped_le
      room := by
        have room := represents.room
        simp only
        omega
      popped_le := hasData
      cachedPushed_le := by
        have pushed := represents.cachedPushed_le
        simp only
        omega
      closed := by
        rw [sameClosed]
        exact represents.closed }

end Represents

/-- Some position still fits. -/
theorem Holds.of_same
    {state other : State α} {fifo : BoundedFifo capacity α}
    (holds : Holds slots state fifo)
    (sameBuffer : other.buffer = state.buffer)
    (sameHead : other.head = state.head)
    (sameTail : other.tail = state.tail)
    (sameClosed : other.closed = state.closed)
    (sameHeadCache :
      (other.headCache, other.headSeen) = (state.headCache, state.headSeen))
    (sameTailCache :
      (other.tailCache, other.tailSeen) =
        (state.tailCache, state.tailSeen)) :
    Holds slots other fifo := by
  obtain ⟨positions, represents⟩ := holds
  exact ⟨positions,
    represents.of_same sameBuffer sameHead sameTail sameClosed
      sameHeadCache sameTailCache⟩

/-- The queue holds a list that answers the call as it is due. -/
def Awaits
    (slots : Nat)
    (state : State α)
    (op : Op α)
    (result : Result α)
    (after before : BoundedFifo capacity α) : Prop :=
  Holds slots state before ∧ before.answer? op = some (result, after)

/-- The call that a producer's local variables belong to. -/
def Pusher.op : Pusher α → Op α
  | .push value => .push value
  | .tryPush value => .tryPush value
  | .tryPushN items => .tryPushN items

/-- The call that a consumer's local variables belong to. -/
def Popper.op : Popper α → Op α
  | .pop out _ => .pop out
  | .tryPop out => .tryPop out
  | .tryPopN out => .tryPopN out

/-- The steps within a call; no move assignment throws. -/
def Action.isInner : Action α → Bool
  | .invoke _ | .respond | .throw _ _ => false
  | _ => true

namespace Pusher

variable {pusher : Pusher α} {value : α}

/-- A single push takes its argument and is accepted with it. -/
theorem takes_argument
    (pushes : pusher.op.argument? = some value)
    (husk : α) :
    ∃ left,
      pusher.take? 0 husk = some (value, left) ∧
        left.accepted 1 = .pushed true := by
  cases pusher with
  | push | tryPush =>
      cases pushes
      exact ⟨_, rfl, rfl⟩
  | tryPushN => cases pushes

theorem count_eq_one
    (pushes : pusher.op.argument? = some value)
    (headCache tail : Nat) :
    pusher.count slots headCache tail = 1 := by
  cases pusher <;> first | rfl | cases pushes

theorem refused_eq (pushes : pusher.op.argument? = some value) :
    pusher.refused = .pushed false := by
  cases pusher <;> first | rfl | cases pushes

theorem afterFull_eq
    (pushes : pusher.op.argument? = some value)
    (tries : pusher.op.isBlocking = false) :
    pusher.afterFull = .returning (.pushed false) := by
  cases pusher with
  | push => cases tries
  | tryPush => rfl
  | tryPushN => cases pushes

end Pusher

section Producer

variable {state later : State α} {before after : BoundedFifo capacity α}
variable {op : Op α} {result : Result α} {action : Action α}
variable {positions : Positions} {pusher : Pusher α} {value : α}

/-- What holds within a push that owes a result and leaves a list. -/
def ProducerPc.Owes
    (slots : Nat)
    (state : State α)
    (op : Op α)
    (result : Result α)
    (after : BoundedFifo capacity α) : ProducerPc α → Prop
  | .idle => False
  | .checkClosed pusher =>
      pusher.op = op ∧ (∃ value, op.argument? = some value) ∧
        ∃ before, Awaits slots state op result after before
  | .checkRoom pusher | .refreshHead pusher =>
      pusher.op = op ∧ (∃ value, op.argument? = some value) ∧
        ∃ before,
          Awaits slots state op result after before ∧
            before.closed = false
  | .moveIn pusher index moved count =>
      moved = [] ∧ count = 1 ∧ result = .pushed true ∧
        ∃ value,
          pusher.op.argument? = some value ∧
            Holds slots
              ((state.setSlot index value).publishTail
                (next slots index) [value]) after
  | .publishTail pusher index moved =>
      pusher.accepted moved.length = result ∧
        Holds slots (state.publishTail index moved) after
  | .returning due => due = result ∧ Holds slots state after

/-- How many steps at most are left until the push responds. -/
def ProducerPc.stepsLeft : ProducerPc α → Nat
  | .checkClosed _ => 6
  | .checkRoom _ => 5
  | .refreshHead _ => 4
  | .moveIn .. => 3
  | .publishTail .. => 2
  | _ => 1

/-- A push into an open queue with room is going to be accepted. -/
theorem owes_moveIn
    (wide : 1 < slots)
    (small : slots ≤ SizeT.halfRange)
    (isSlots : slots = capacity + 1)
    (represents : Represents slots positions state before)
    (hasRoom :
      positions.popped + before.items.length <
        positions.cachedPopped + capacity)
    (answers : before.answer? pusher.op = some (result, after))
    (pushes : pusher.op.argument? = some value)
    (isOpen : before.closed = false) :
    (ProducerPc.moveIn pusher state.tail.latest [] 1).Owes slots state op
      result after := by
  have cached := represents.cachedPopped_le
  rcases BoundedFifo.answer?_push_cases pushes answers with
    ⟨appends, accepted⟩ | ⟨refuses, _⟩
  · exact ⟨rfl, rfl, accepted, value, pushes, positions,
      represents.publishTail wide small isSlots hasRoom appends⟩
  · rcases BoundedFifo.append?_eq_none_iff.mp refuses with
      isClosed | isFull
    · rw [isOpen] at isClosed
      cases isClosed
    · omega

/-- A step within a push keeps what it owes and brings it nearer. -/
theorem ProducerStep.owes
    (wide : 1 < slots)
    (small : slots ≤ SizeT.halfRange)
    (isSlots : slots = capacity + 1)
    (owes : state.producer.Owes slots state op result after)
    (step : ProducerStep slots state action later)
    (current : producerCurrent state action)
    (isInner : action.isInner = true) :
    later.producer.Owes slots later op result after ∧
      later.producer.stepsLeft < state.producer.stepsLeft := by
  cases step with
  | invoke | respond | throwIn => cases isInner
  | refused isAt reads =>
      simp only [producerCurrent, isAt] at current
      subst current
      rw [isAt] at owes ⊢
      obtain ⟨rfl, ⟨value, pushes⟩, before, holds, answers⟩ := owes
      obtain ⟨positions, represents⟩ := holds
      rw [Atomic.read?_newest, represents.closed,
        Option.some.injEq] at reads
      rcases BoundedFifo.answer?_push_cases pushes answers with
        ⟨appends, _⟩ | ⟨_, rfl, rfl, _⟩
      · rw [(BoundedFifo.append?_eq_some_iff.mp appends).1] at reads
        cases reads
      · exact ⟨⟨Pusher.refused_eq pushes, positions,
          represents.of_same rfl rfl rfl rfl rfl rfl⟩,
          by simp [ProducerPc.stepsLeft]⟩
  | admitted isAt reads =>
      simp only [producerCurrent, isAt] at current
      subst current
      rw [isAt] at owes ⊢
      obtain ⟨same, pushes, before, holds, answers⟩ := owes
      obtain ⟨positions, represents⟩ := holds
      rw [Atomic.read?_newest, represents.closed,
        Option.some.injEq] at reads
      exact ⟨⟨same, pushes, before,
        ⟨⟨positions, represents.of_same rfl rfl rfl rfl rfl rfl⟩,
          answers⟩, reads⟩, by simp [ProducerPc.stepsLeft]⟩
  | room isAt hasRoom =>
      rw [isAt] at owes ⊢
      obtain ⟨rfl, ⟨value, pushes⟩, before, ⟨holds, answers⟩, isOpen⟩ :=
        owes
      obtain ⟨positions, represents⟩ := holds
      rw [represents.hasRoom_iff wide small isSlots] at hasRoom
      rw [Pusher.count_eq_one pushes]
      exact ⟨owes_moveIn wide small isSlots
        (represents.of_same rfl rfl rfl rfl rfl rfl) hasRoom answers
        pushes isOpen, by simp [ProducerPc.stepsLeft]⟩
  | noRoom isAt isFull =>
      rw [isAt] at owes ⊢
      obtain ⟨same, pushes, before, ⟨holds, answers⟩, isOpen⟩ := owes
      exact ⟨⟨same, pushes, before,
        ⟨holds.of_same rfl rfl rfl rfl rfl rfl, answers⟩, isOpen⟩,
        by simp [ProducerPc.stepsLeft]⟩
  | refreshedRoom isAt fresh reads hasRoom =>
      simp only [producerCurrent, isAt] at current
      subst current
      rw [isAt] at owes ⊢
      rw [Atomic.read?_newest, Option.some.injEq] at reads
      subst reads
      obtain ⟨rfl, ⟨value, pushes⟩, before, ⟨holds, answers⟩, isOpen⟩ :=
        owes
      obtain ⟨positions, represents⟩ := holds
      have refreshed := represents.cacheHead
      rw [Pusher.count_eq_one pushes]
      refine ⟨owes_moveIn wide small isSlots
        (refreshed.of_same rfl rfl rfl rfl rfl rfl) ?_ answers pushes
        isOpen, by simp [ProducerPc.stepsLeft]⟩
      exact (refreshed.hasRoom_iff wide small isSlots _).mp hasRoom
  | refreshedFull isAt fresh reads isFull =>
      simp only [producerCurrent, isAt] at current
      subst current
      rw [isAt] at owes ⊢
      rw [Atomic.read?_newest, Option.some.injEq] at reads
      subst reads
      obtain ⟨rfl, ⟨value, pushes⟩, before, ⟨holds, answers⟩, isOpen⟩ :=
        owes
      obtain ⟨positions, represents⟩ := holds
      have refreshed := represents.cacheHead
      have noRoom :
          ¬ positions.popped + before.items.length <
            positions.popped + capacity := by
        intro room
        rw [← Bool.not_eq_true] at isFull
        exact isFull
          ((refreshed.hasRoom_iff wide small isSlots _).mpr room)
      rcases BoundedFifo.answer?_push_cases pushes answers with
        ⟨appends, _⟩ | ⟨_, rfl, rfl, ends⟩
      · have fits := (BoundedFifo.append?_eq_some_iff.mp appends).2.1
        omega
      · rw [isOpen] at ends
        rw [Pusher.afterFull_eq pushes (ends.resolve_left (by simp))]
        exact ⟨⟨rfl, _, refreshed.of_same rfl rfl rfl rfl rfl rfl⟩,
          by simp [ProducerPc.stepsLeft]⟩
  | moveIn isAt takes =>
      rw [isAt] at owes ⊢
      obtain ⟨rfl, rfl, rfl, value, pushes, holds⟩ := owes
      rename_i husk _ _
      obtain ⟨left, takes', accepted⟩ := Pusher.takes_argument pushes husk
      rw [List.length_nil, takes', Option.some.injEq,
        Prod.mk.injEq] at takes
      obtain ⟨rfl, rfl⟩ := takes
      exact ⟨⟨accepted, holds.of_same rfl rfl rfl rfl rfl rfl⟩,
        Nat.lt_succ_self 2⟩
  | publishTail isAt =>
      rw [isAt] at owes ⊢
      obtain ⟨accepted, holds⟩ := owes
      exact ⟨⟨accepted, holds.of_same rfl rfl rfl rfl rfl rfl⟩,
        by simp [ProducerPc.stepsLeft]⟩

/-- The result of a push that is about to respond. -/
def ProducerPc.result? : ProducerPc α → Option (Result α)
  | .returning result => some result
  | _ => none

/-- A push that has no result yet can go on. -/
theorem ProducerStep.exists_of_owes
    (owes : state.producer.Owes slots state op result after)
    (unanswered : state.producer.result? = none) :
    ∃ action later,
      ProducerStep slots state action later ∧
        producerCurrent state action ∧ action.isInner = true := by
  have current :
      ∀ {message : Nat},
        (∀ pusher, state.producer = .checkClosed pusher →
          message = state.closed.newest) →
        (∀ pusher, state.producer = .refreshHead pusher →
          message = state.head.newest) →
        producerCurrent state (.load message) := by
    intro message closed head
    unfold producerCurrent
    split
    · rename_i isAt same
      cases same
      exact closed _ isAt
    · rename_i isAt same
      cases same
      exact head _ isAt
    · trivial
  cases isAt : state.producer with
  | idle =>
      rw [isAt] at owes
      exact owes.elim
  | checkClosed pusher =>
      have reads := state.closed.read?_newest
      refine ⟨.load state.closed.newest, ?_⟩
      cases flag : state.closed.latest with
      | true =>
          rw [flag] at reads
          exact ⟨_, .refused isAt reads,
            current (fun _ _ => rfl) (by simp [isAt]), rfl⟩
      | false =>
          rw [flag] at reads
          exact ⟨_, .admitted isAt reads,
            current (fun _ _ => rfl) (by simp [isAt]), rfl⟩
  | checkRoom pusher =>
      refine ⟨.check, ?_⟩
      cases hasRoom :
          pusher.hasRoom slots state.headCache state.tail.latest with
      | true =>
          exact ⟨_, .room isAt hasRoom, by simp [producerCurrent], rfl⟩
      | false =>
          exact ⟨_, .noRoom isAt hasRoom, by simp [producerCurrent], rfl⟩
  | refreshHead pusher =>
      rw [isAt] at owes
      obtain ⟨_, _, before, ⟨⟨positions, represents⟩, _⟩, _⟩ := owes
      have reads := state.head.read?_newest
      refine ⟨.load state.head.newest, ?_⟩
      cases hasRoom :
          pusher.hasRoom slots state.head.latest state.tail.latest with
      | true =>
          exact ⟨_, .refreshedRoom isAt represents.headSeen reads hasRoom,
            current (by simp [isAt]) (fun _ _ => rfl), rfl⟩
      | false =>
          exact ⟨_, .refreshedFull isAt represents.headSeen reads hasRoom,
            current (by simp [isAt]) (fun _ _ => rfl), rfl⟩
  | moveIn pusher index moved count =>
      have owes' := owes
      rw [isAt] at owes'
      obtain ⟨rfl, _, _, value, pushes, _⟩ := owes'
      obtain ⟨left, takes, _⟩ := Pusher.takes_argument pushes value
      exact ⟨.move value, _, .moveIn isAt takes,
        by simp [producerCurrent], rfl⟩
  | publishTail pusher index moved =>
      exact ⟨.store, _, .publishTail isAt, by simp [producerCurrent], rfl⟩
  | returning due =>
      rw [isAt] at unanswered
      cases unanswered

end Producer

namespace Popper

variable {popper : Popper α} {out value : α}

/-- A single pop delivers what it received. -/
theorem delivered_receive
    (pops : popper.op.out? = some out)
    (value : α) :
    (popper.receive 0 value).delivered 1 = .popped true value := by
  cases popper <;> first | rfl | cases pops

theorem count_eq_one
    (pops : popper.op.out? = some out)
    (tailCache head : Nat) :
    popper.count slots tailCache head = 1 := by
  cases popper <;> first | rfl | cases pops

end Popper

section Consumer

variable {state later : State α} {before after : BoundedFifo capacity α}
variable {op : Op α} {result : Result α} {action : Action α}
variable {positions : Positions} {popper : Popper α} {out : α}

/-- What holds within a pop that owes a result and leaves a list. -/
def ConsumerPc.Owes
    (slots : Nat)
    (state : State α)
    (op : Op α)
    (result : Result α)
    (after : BoundedFifo capacity α) : ConsumerPc α → Prop
  | .idle | .loadClosed => False
  | .checkData popper | .refreshTail popper =>
      popper.op = op ∧ (∃ out, op.out? = some out) ∧
        ∃ before, Awaits slots state op result after before
  | .popClosed out =>
      op = .pop out ∧
        ∃ before,
          Awaits slots state op result after before ∧ before.items = []
  | .moveOut popper index moved count =>
      moved = [] ∧ count = 1 ∧
        result = .popped true (state.buffer index) ∧
        (∃ out, popper.op.out? = some out) ∧
        ∀ husk,
          Holds slots
            ((state.setSlot index husk).publishHead (next slots index)
              [state.buffer index]) after
  | .publishHead popper index moved =>
      popper.delivered moved.length = result ∧
        Holds slots (state.publishHead index moved) after
  | .returning due => due = result ∧ Holds slots state after

/-- How many steps at most are left until the pop responds. -/
def ConsumerPc.stepsLeft : ConsumerPc α → Nat
  | .checkData (.pop _ false) => 8
  | .refreshTail (.pop _ false) => 7
  | .popClosed _ => 6
  | .checkData _ => 5
  | .refreshTail _ => 4
  | .moveOut .. => 3
  | .publishHead .. => 2
  | _ => 1

theorem ConsumerPc.stepsLeft_refreshTail
    (popper : Popper α) :
    3 < (ConsumerPc.refreshTail popper).stepsLeft ∧
      (ConsumerPc.refreshTail popper).stepsLeft <
        (ConsumerPc.checkData popper).stepsLeft := by
  rcases popper with ⟨_, _ | _⟩ | _ | _ <;>
    simp [ConsumerPc.stepsLeft]

/-- A pop from a queue that is not empty is going to succeed. -/
theorem owes_moveOut
    (wide : 1 < slots)
    (small : slots ≤ SizeT.halfRange)
    (isSlots : slots = capacity + 1)
    (represents : Represents slots positions state before)
    (hasData : positions.popped < positions.cachedPushed)
    (answers : before.answer? popper.op = some (result, after))
    (pops : popper.op.out? = some out) :
    (ConsumerPc.moveOut popper state.head.latest [] 1).Owes slots state op
      result after := by
  have pushed := represents.cachedPushed_le
  rcases BoundedFifo.answer?_pop_cases pops answers with
    ⟨front, removes, delivered⟩ | ⟨isEmpty, _⟩
  · rw [← represents.front_eq removes] at delivered
    exact ⟨rfl, rfl, delivered, ⟨out, pops⟩, fun husk => ⟨_,
      represents.publishHead wide small isSlots hasData removes husk _⟩⟩
  · rw [isEmpty, List.length_nil] at pushed
    omega

/-- A step within a pop keeps what it owes and brings it nearer. -/
theorem ConsumerStep.owes
    (wide : 1 < slots)
    (small : slots ≤ SizeT.halfRange)
    (isSlots : slots = capacity + 1)
    (owes : state.consumer.Owes slots state op result after)
    (step : ConsumerStep slots state action later)
    (current : consumerCurrent state action)
    (isInner : action.isInner = true) :
    later.consumer.Owes slots later op result after ∧
      later.consumer.stepsLeft < state.consumer.stepsLeft := by
  cases step with
  | invoke | respond | throwOut => cases isInner
  | data isAt hasData =>
      rename_i popper
      rw [isAt] at owes ⊢
      obtain ⟨rfl, ⟨out, pops⟩, before, holds, answers⟩ := owes
      obtain ⟨positions, represents⟩ := holds
      obtain ⟨far, farther⟩ := ConsumerPc.stepsLeft_refreshTail popper
      rw [represents.hasData_iff wide small isSlots] at hasData
      rw [Popper.count_eq_one pops]
      exact ⟨owes_moveOut wide small isSlots
        (represents.of_same rfl rfl rfl rfl rfl rfl) hasData answers pops,
        Nat.lt_trans far farther⟩
  | noData isAt isEmpty =>
      rename_i popper
      rw [isAt] at owes ⊢
      obtain ⟨same, pops, before, holds, answers⟩ := owes
      exact ⟨⟨same, pops, before,
        holds.of_same rfl rfl rfl rfl rfl rfl, answers⟩,
        (ConsumerPc.stepsLeft_refreshTail popper).2⟩
  | refreshedData isAt fresh reads hasData =>
      rename_i popper _ _
      simp only [consumerCurrent, isAt] at current
      subst current
      rw [isAt] at owes ⊢
      rw [Atomic.read?_newest, Option.some.injEq] at reads
      subst reads
      obtain ⟨rfl, ⟨out, pops⟩, before, holds, answers⟩ := owes
      obtain ⟨positions, represents⟩ := holds
      have refreshed := represents.cacheTail
      rw [Popper.count_eq_one pops]
      refine ⟨owes_moveOut wide small isSlots
        (refreshed.of_same rfl rfl rfl rfl rfl rfl) ?_ answers pops,
        (ConsumerPc.stepsLeft_refreshTail popper).1⟩
      exact (refreshed.hasData_iff wide small isSlots _).mp hasData
  | refreshedEmpty isAt fresh reads isEmpty =>
      rename_i popper _ _
      simp only [consumerCurrent, isAt] at current
      subst current
      rw [isAt] at owes ⊢
      rw [Atomic.read?_newest, Option.some.injEq] at reads
      subst reads
      obtain ⟨rfl, ⟨out, pops⟩, before, holds, answers⟩ := owes
      obtain ⟨positions, represents⟩ := holds
      have refreshed := represents.cacheTail
      have nothing : before.items = [] := by
        rw [← Bool.not_eq_true] at isEmpty
        by_contra something
        apply isEmpty
        refine (refreshed.hasData_iff wide small isSlots _).mpr ?_
        have positive := List.length_pos_iff.mpr something
        simp only
        omega
      have holds :
          ∀ pc,
            Holds slots
              ((state.cacheTail state.tail.newest
                state.tail.latest).atConsumer pc) before :=
        fun pc => ⟨_, refreshed.of_same rfl rfl rfl rfl rfl rfl⟩
      have answers' := answers
      rcases BoundedFifo.answer?_pop_cases pops answers with
        ⟨front, removes, _⟩ | ⟨_, rfl, rfl, _⟩
      · rw [BoundedFifo.removeFront?_eq_none_iff.mpr nothing] at removes
        cases removes
      · rcases popper with ⟨_, _ | _⟩ | _ | _
        · exact ⟨⟨rfl, _, ⟨holds _, answers'⟩, nothing⟩,
            Nat.lt_succ_self 6⟩
        · cases pops
          exact ⟨⟨rfl, holds _⟩,
            by simp [ConsumerPc.stepsLeft, Popper.afterEmpty]⟩
        · cases pops
          exact ⟨⟨rfl, holds _⟩,
            by simp [ConsumerPc.stepsLeft, Popper.afterEmpty]⟩
        · cases pops
  | popClosed isAt reads =>
      simp only [consumerCurrent, isAt] at current
      subst current
      rw [isAt] at owes ⊢
      obtain ⟨rfl, before, ⟨holds, answers⟩, nothing⟩ := owes
      obtain ⟨positions, represents⟩ := holds
      rw [Atomic.read?_newest, represents.closed,
        Option.some.injEq] at reads
      rcases BoundedFifo.answer?_pop_cases rfl answers with
        ⟨front, removes, _⟩ | ⟨_, _, _, ends⟩
      · rw [BoundedFifo.removeFront?_eq_none_iff.mpr nothing] at removes
        cases removes
      · have isClosed := ends.resolve_right (by simp [Op.isBlocking])
        rw [isClosed] at reads
        subst reads
        exact ⟨⟨rfl, ⟨_, rfl⟩, before,
          ⟨positions, represents.of_same rfl rfl rfl rfl rfl rfl⟩,
          answers⟩, Nat.lt_succ_self 5⟩
  | moveOut isAt =>
      rename_i popper index moved count husk
      rw [isAt] at owes ⊢
      obtain ⟨rfl, rfl, rfl, ⟨out, pops⟩, holds⟩ := owes
      exact ⟨⟨Popper.delivered_receive pops _,
        (holds husk).of_same rfl rfl rfl rfl rfl rfl⟩,
        Nat.lt_succ_self 2⟩
  | publishHead isAt =>
      rw [isAt] at owes ⊢
      obtain ⟨delivered, holds⟩ := owes
      exact ⟨⟨delivered, holds.of_same rfl rfl rfl rfl rfl rfl⟩,
        Nat.lt_succ_self 1⟩
  | loadClosed isAt =>
      rw [isAt] at owes
      exact owes.elim

/-- The result of a pop that is about to respond. -/
def ConsumerPc.result? : ConsumerPc α → Option (Result α)
  | .returning result => some result
  | _ => none

/-- A pop that has no result yet can go on. -/
theorem ConsumerStep.exists_of_owes
    (owes : state.consumer.Owes slots state op result after)
    (unanswered : state.consumer.result? = none) :
    ∃ action later,
      ConsumerStep slots state action later ∧
        consumerCurrent state action ∧ action.isInner = true := by
  cases isAt : state.consumer with
  | idle | loadClosed =>
      rw [isAt] at owes
      exact owes.elim
  | checkData popper =>
      refine ⟨.check, ?_⟩
      cases hasData :
          popper.hasData slots state.tailCache state.head.latest with
      | true =>
          exact ⟨_, .data isAt hasData, by simp [consumerCurrent], rfl⟩
      | false =>
          exact ⟨_, .noData isAt hasData, by simp [consumerCurrent], rfl⟩
  | refreshTail popper =>
      rw [isAt] at owes
      obtain ⟨_, _, before, ⟨positions, represents⟩, _⟩ := owes
      have reads := state.tail.read?_newest
      have current :
          consumerCurrent state (.load state.tail.newest) := by
        simp [consumerCurrent, isAt]
      refine ⟨.load state.tail.newest, ?_⟩
      cases hasData :
          popper.hasData slots state.tail.latest state.head.latest with
      | true =>
          exact ⟨_, .refreshedData isAt represents.tailSeen reads hasData,
            current, rfl⟩
      | false =>
          exact ⟨_, .refreshedEmpty isAt represents.tailSeen reads hasData,
            current, rfl⟩
  | popClosed out =>
      exact ⟨.load state.closed.newest, _,
        .popClosed isAt state.closed.read?_newest,
        by simp [consumerCurrent, isAt], rfl⟩
  | moveOut popper index moved count =>
      exact ⟨.move (state.buffer index), _, .moveOut isAt,
        by simp [consumerCurrent], rfl⟩
  | publishHead popper index moved =>
      exact ⟨.store, _, .publishHead isAt, by simp [consumerCurrent], rfl⟩
  | returning due =>
      rw [isAt] at unanswered
      cases unanswered

end Consumer

section Observer

variable {state later : State α} {after : BoundedFifo capacity α}
variable {result : Result α} {action : Action α} {thread : Nat}

/-- What holds within a call that neither pushes nor pops. -/
def ObserverPc.Owes
    (slots : Nat)
    (state : State α)
    (result : Result α)
    (after : BoundedFifo capacity α) : ObserverPc α → Prop
  | .idle => False
  | .storeClosed =>
      result = .done ∧
        ∃ before, Holds slots state before ∧ after = before.close
  | .loadClosed => result = .closed after.closed ∧ Holds slots state after
  | .sizeHead =>
      result = .size after.items.length ∧ Holds slots state after
  | .sizeTail head =>
      head = state.head.latest ∧ result = .size after.items.length ∧
        Holds slots state after
  | .returning due => due = result ∧ Holds slots state after

/-- How many steps at most are left until the call responds. -/
def ObserverPc.stepsLeft : ObserverPc α → Nat
  | .sizeHead => 3
  | .storeClosed | .loadClosed | .sizeTail _ => 2
  | _ => 1

/-- The result of a call that is about to respond. -/
def ObserverPc.result? : ObserverPc α → Option (Result α)
  | .returning result => some result
  | _ => none

/-- A step within the call keeps what it owes and brings it nearer. -/
theorem ObserverStep.owes
    (wide : 1 < slots)
    (small : slots ≤ SizeT.halfRange)
    (isSlots : slots = capacity + 1)
    (owes : (state.observers thread).Owes slots state result after)
    (step : ObserverStep slots state thread action later)
    (current : observerCurrent state thread action)
    (isInner : action.isInner = true) :
    (later.observers thread).Owes slots later result after ∧
      (later.observers thread).stepsLeft <
        (state.observers thread).stepsLeft := by
  cases step with
  | invoke | respond => cases isInner
  | storeClosed isAt =>
      rw [isAt] at owes ⊢
      obtain ⟨rfl, before, ⟨positions, represents⟩, rfl⟩ := owes
      have closed := represents.storeClosed (.observer thread)
      simp only [State.atObserver, Function.update_self]
      exact ⟨⟨rfl, positions, closed.of_same rfl rfl rfl rfl rfl rfl⟩,
        Nat.lt_succ_self 1⟩
  | loadClosed isAt reads =>
      simp only [observerCurrent, isAt] at current
      subst current
      rw [isAt] at owes ⊢
      obtain ⟨rfl, positions, represents⟩ := owes
      rw [Atomic.read?_newest, represents.closed,
        Option.some.injEq] at reads
      subst reads
      simp only [State.atObserver, Function.update_self]
      exact ⟨⟨rfl, positions, represents.of_same rfl rfl rfl rfl rfl rfl⟩,
        Nat.lt_succ_self 1⟩
  | sizeHead isAt reads =>
      simp only [observerCurrent, isAt] at current
      subst current
      rw [isAt] at owes ⊢
      obtain ⟨rfl, holds⟩ := owes
      rw [Atomic.read?_newest, Option.some.injEq] at reads
      subst reads
      simp only [State.atObserver, Function.update_self]
      exact ⟨⟨rfl, rfl, holds.of_same rfl rfl rfl rfl rfl rfl⟩,
        Nat.lt_succ_self 2⟩
  | sizeTail isAt reads =>
      simp only [observerCurrent, isAt] at current
      subst current
      rw [isAt] at owes ⊢
      obtain ⟨rfl, rfl, positions, represents⟩ := owes
      rw [Atomic.read?_newest, Option.some.injEq] at reads
      subst reads
      simp only [State.atObserver, Function.update_self]
      rw [represents.sizeOf_eq wide small isSlots]
      exact ⟨⟨rfl, positions, represents.of_same rfl rfl rfl rfl rfl rfl⟩,
        Nat.lt_succ_self 1⟩

/-- A call that has no result yet can go on. -/
theorem exists_observerStep?
    (owes : (state.observers thread).Owes slots state result after)
    (unanswered : (state.observers thread).result? = none) :
    ∃ action later,
      observerStep? slots state thread action = some later ∧
        observerCurrent state thread action ∧ action.isInner = true := by
  cases isAt : state.observers thread with
  | idle =>
      rw [isAt] at owes
      exact owes.elim
  | storeClosed =>
      exact ⟨.store,
        (state.storeClosed (.observer thread)).atObserver thread
          (.returning .done),
        by simp only [observerStep?, isAt], by simp [observerCurrent], rfl⟩
  | loadClosed =>
      exact ⟨.load state.closed.newest,
        state.atObserver thread (.returning (.closed state.closed.latest)),
        by simp only [observerStep?, isAt, Atomic.read?_newest,
          Option.map_some],
        by simp [observerCurrent, isAt], rfl⟩
  | sizeHead =>
      exact ⟨.load state.head.newest,
        state.atObserver thread (.sizeTail state.head.latest),
        by simp only [observerStep?, isAt, Atomic.read?_newest,
          Option.map_some],
        by simp [observerCurrent, isAt], rfl⟩
  | sizeTail head =>
      exact ⟨.load state.tail.newest,
        state.atObserver thread
          (.returning (.size (sizeOf slots head state.tail.latest))),
        by simp only [observerStep?, isAt, Atomic.read?_newest,
          Option.map_some],
        by simp [observerCurrent, isAt], rfl⟩
  | returning due =>
      rw [isAt] at unanswered
      cases unanswered

end Observer

end ConcurrentQueue.Spsc
