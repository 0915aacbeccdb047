import ConcurrentQueue.Library.Ring
import ConcurrentQueue.Mpmc.Counting

namespace ConcurrentQueue.Mpmc

/-!
# `MpmcQueue` in the hands of one thread

Between the calls of a single thread the two counters tell how many elements
were popped and pushed.  The slots in between hold the elements of a list and
are ready for the consumer, and the slots from there on, up to a whole lap,
are free for the producer.
-/

open TicketRing

variable {α : Type} {capacity : Nat}

section Arithmetic

variable {ticket : Nat}

/-- The slot of a ticket that has not wrapped. -/
theorem slotIndex_of_lt
    (small : capacity ≤ 2 ^ 60)
    (bound : ticket < SizeT.halfRange) :
    (Arithmetic.sizeT capacity).slotIndex ticket = ticket % capacity := by
  have bound' : ticket < SizeT.modulus := by
    rw [SizeT.modulus_eq]
    omega
  have index : slotIndex capacity (SizeT.wrap ticket) = ticket % capacity :=
    slotIndex_wrap_of_small capacity small (Or.inr bound')
  rw [SizeT.wrap_of_lt bound'] at index
  exact index

/-- The ticket after one that has not wrapped. -/
theorem next_of_lt (bound : ticket < SizeT.halfRange) :
    (Arithmetic.sizeT capacity).next ticket = ticket + 1 :=
  SizeT.add_of_lt (by rw [SizeT.modulus_eq]; omega)

/-- The sequence that a ticket waits for. -/
theorem expected_sizeT (side : Side) (ticket : Nat) :
    (Arithmetic.sizeT capacity).expected side ticket =
      SizeT.wrap ((Arithmetic.exact capacity).expected side ticket) := by
  cases side with
  | producer => rfl
  | consumer => exact SizeT.add_wrap (2 * ticket) 1

/-- The sequence that is stored for a ticket. -/
theorem published_sizeT (side : Side) (ticket : Nat) :
    (Arithmetic.sizeT capacity).published side ticket =
      SizeT.wrap ((Arithmetic.exact capacity).published side ticket) := by
  cases side with
  | producer => exact SizeT.add_wrap (2 * ticket) 1
  | consumer => exact SizeT.mul_wrap 2 (ticket + capacity)

end Arithmetic

/-- The values in the slots. -/
def State.values (state : State α) (index : Nat) : α :=
  (state.slots index).value

/-- The newest sequence of a slot. -/
def State.sequence (state : State α) (index : Nat) : Nat :=
  (state.slots index).sequence.latest

/-- The slots hold the elements of the list from a ticket on. -/
structure Represents
    (popped : Nat)
    (state : State α)
    (fifo : BoundedFifo capacity α) : Prop where
  items :
    Ring.contents capacity state.values popped fifo.items.length =
      fifo.items
  tail : (state.pos .producer).latest = popped + fifo.items.length
  head : (state.pos .consumer).latest = popped
  filled :
    ∀ offset,
      offset < fifo.items.length →
      state.sequence ((popped + offset) % capacity) =
        SizeT.wrap (2 * (popped + offset) + 1)
  free :
    ∀ offset,
      fifo.items.length ≤ offset →
      offset < capacity →
      state.sequence ((popped + offset) % capacity) =
        SizeT.wrap (2 * (popped + offset))
  closed : state.closed.latest = fifo.closed

namespace Represents

variable {state other : State α} {fifo after : BoundedFifo capacity α}
variable {popped : Nat}

/-- The constructor leaves every slot free. -/
theorem initial [Inhabited α] :
    Represents 0
      (initial (Arithmetic.sizeT capacity) : State α)
      (BoundedFifo.empty : BoundedFifo capacity α) where
  items := by
    rfl
  tail := by
    rfl
  head := by
    rfl
  filled := by
    intro offset inside
    exact absurd inside (Nat.not_lt_zero offset)
  free := by
    intro offset _ inside
    rw [Nat.zero_add, Nat.mod_eq_of_lt inside]
    rfl
  closed := by
    rfl

/-- Program points and the history do not matter. -/
theorem of_same
    (represents : Represents popped state fifo)
    (sameSlots : other.slots = state.slots)
    (samePos : ∀ side, other.pos side = state.pos side)
    (sameClosed : other.closed = state.closed) :
    Represents popped other fifo := by
  have sameValues : other.values = state.values := by
    funext index
    rw [State.values, sameSlots, State.values]
  have sameSequence :
      ∀ index, other.sequence index = state.sequence index := by
    intro index
    rw [State.sequence, sameSlots, State.sequence]
  exact
    { items := by rw [sameValues, represents.items]
      tail := by rw [samePos, represents.tail]
      head := by rw [samePos, represents.head]
      filled := by
        intro offset inside
        rw [sameSequence, represents.filled offset inside]
      free := by
        intro offset beyond inside
        rw [sameSequence, represents.free offset beyond inside]
      closed := by rw [sameClosed, represents.closed] }

/-- The store of `closed_` closes the list. -/
theorem storeClosed
    (represents : Represents popped state fifo)
    (thread : Nat) :
    Represents popped (state.storeClosed thread) fifo.close where
  items := represents.items
  tail := represents.tail
  head := represents.head
  filled := represents.filled
  free := represents.free
  closed := by
    simp [BoundedFifo.close]

/-- The difference that a producer reads at the counter. -/
theorem difference_tail
    (positive : 0 < capacity)
    (small : capacity ≤ 2 ^ 60)
    (represents : Represents popped state fifo) :
    (Arithmetic.sizeT capacity).difference
        (state.sequence ((popped + fifo.items.length) % capacity))
        ((Arithmetic.sizeT capacity).expected .producer
          (popped + fifo.items.length)) =
      if fifo.items.length < capacity then 0
      else 1 - 2 * (capacity : Int) := by
  have bounded := fifo.bounded
  rw [expected_sizeT]
  by_cases room : fifo.items.length < capacity
  · rw [if_pos room, represents.free _ (Nat.le_refl _) room]
    simp only [Arithmetic.sizeT, Arithmetic.exact]
    rw [SizeT.signed_sub
      (by unfold SizeT.halfRange; omega)
      (by unfold SizeT.halfRange; omega)]
    omega
  · have isFull : fifo.items.length = capacity := by omega
    have filled := represents.filled 0 (by omega)
    rw [if_neg room, isFull, Nat.add_mod_right]
    rw [Nat.add_zero] at filled
    rw [filled]
    simp only [Arithmetic.sizeT, Arithmetic.exact]
    rw [SizeT.signed_sub
      (by unfold SizeT.halfRange; omega)
      (by unfold SizeT.halfRange; omega)]
    omega

/-- The difference that a consumer reads at the counter. -/
theorem difference_head
    (positive : 0 < capacity)
    (represents : Represents popped state fifo) :
    (Arithmetic.sizeT capacity).difference
        (state.sequence (popped % capacity))
        ((Arithmetic.sizeT capacity).expected .consumer popped) =
      if fifo.items = [] then -1 else 0 := by
  rw [expected_sizeT]
  by_cases isEmpty : fifo.items = []
  · have free := represents.free 0 (by simp [isEmpty]) positive
    rw [Nat.add_zero] at free
    rw [if_pos isEmpty, free]
    simp only [Arithmetic.sizeT, Arithmetic.exact]
    rw [SizeT.signed_sub
      (by unfold SizeT.halfRange; omega)
      (by unfold SizeT.halfRange; omega)]
    omega
  · have filled :=
      represents.filled 0 (List.length_pos_iff.mpr isEmpty)
    rw [Nat.add_zero] at filled
    rw [if_neg isEmpty, filled]
    simp only [Arithmetic.sizeT, Arithmetic.exact]
    rw [SizeT.signed_sub
      (by unfold SizeT.halfRange; omega)
      (by unfold SizeT.halfRange; omega)]
    omega

/-- Moving an element in and storing the sequence appends. -/
theorem push
    (represents : Represents popped state fifo)
    {value : α}
    (appends : fifo.append? value = some after)
    (sameSlots : other.slots = state.slots)
    (sameClosed : other.closed = state.closed)
    (tail :
      (other.pos .producer).latest = popped + fifo.items.length + 1)
    (head : (other.pos .consumer).latest = popped)
    (thread : Nat) :
    Represents popped
      ((other.setValue ((popped + fifo.items.length) % capacity)
          value).storeSequence thread
        ((popped + fifo.items.length) % capacity)
        ((Arithmetic.sizeT capacity).published .producer
          (popped + fifo.items.length))) after := by
  obtain ⟨_, fits, items, closed⟩ :=
    BoundedFifo.append?_eq_some_iff.mp appends
  have length : after.items.length = fifo.items.length + 1 := by
    rw [items, List.length_append, List.length_singleton]
  have values :
      ((other.setValue ((popped + fifo.items.length) % capacity)
          value).storeSequence thread
        ((popped + fifo.items.length) % capacity)
        ((Arithmetic.sizeT capacity).published .producer
          (popped + fifo.items.length))).values =
        Function.update state.values
          ((popped + fifo.items.length) % capacity) value := by
    funext index
    by_cases same : index = (popped + fifo.items.length) % capacity <;>
      simp [State.values, same, sameSlots]
  have kept :
      ∀ offset, offset ≠ fifo.items.length → offset < capacity →
        ((other.setValue ((popped + fifo.items.length) % capacity)
            value).storeSequence thread
          ((popped + fifo.items.length) % capacity)
          ((Arithmetic.sizeT capacity).published .producer
            (popped + fifo.items.length))).sequence
          ((popped + offset) % capacity) =
        state.sequence ((popped + offset) % capacity) := by
    intro offset different inside
    have elsewhere :
        (popped + offset) % capacity ≠
          (popped + fifo.items.length) % capacity := by
      rcases Nat.lt_or_gt_of_ne different with below | above
      · exact Ring.mod_ne_of_lt (by omega) (by omega)
      · exact (Ring.mod_ne_of_lt (by omega) (by omega)).symm
    simp [State.sequence, elsewhere, sameSlots]
  exact
    { items := by
        rw [values, length, Ring.contents_append fits, represents.items,
          items]
      tail := by
        simp only [State.pos_storeSequence, State.pos_setValue]
        rw [tail, length]
        omega
      head := by
        simp only [State.pos_storeSequence, State.pos_setValue]
        exact head
      filled := by
        intro offset inside
        by_cases isNew : offset = fifo.items.length
        · subst isNew
          simp only [State.sequence, State.sequence_storeSequence,
            if_true, Atomic.latest_store]
          exact published_sizeT .producer _
        · rw [kept offset isNew (by omega)]
          exact represents.filled offset (by omega)
      free := by
        intro offset beyond inside
        rw [kept offset (by omega) inside]
        exact represents.free offset (by omega) inside
      closed := by
        simp only [State.closed_storeSequence, State.closed_setValue]
        rw [sameClosed, represents.closed, closed] }

/-- The slot at the head counter holds the front of the list. -/
theorem front_eq
    (represents : Represents popped state fifo)
    {front : α}
    (removes : fifo.removeFront? = some (front, after)) :
    state.values (popped % capacity) = front := by
  have items := represents.items
  rw [(BoundedFifo.removeFront?_eq_some_iff.mp removes).1,
    List.length_cons, Ring.contents_succ] at items
  exact (List.cons.inj items).1

/-- Moving an element out and storing the sequence removes the front. -/
theorem pop
    (represents : Represents popped state fifo)
    {front : α}
    (removes : fifo.removeFront? = some (front, after))
    (sameSlots : other.slots = state.slots)
    (sameClosed : other.closed = state.closed)
    (tail :
      (other.pos .producer).latest = popped + fifo.items.length)
    (head : (other.pos .consumer).latest = popped + 1)
    (thread : Nat)
    (husk : α) :
    Represents (popped + 1)
      ((other.setValue (popped % capacity) husk).storeSequence thread
        (popped % capacity)
        ((Arithmetic.sizeT capacity).published .consumer popped)) after := by
  obtain ⟨shape, closed⟩ :=
    BoundedFifo.removeFront?_eq_some_iff.mp removes
  have length : fifo.items.length = after.items.length + 1 := by
    rw [shape, List.length_cons]
  have bounded := fifo.bounded
  have values :
      ((other.setValue (popped % capacity) husk).storeSequence thread
        (popped % capacity)
        ((Arithmetic.sizeT capacity).published .consumer popped)).values =
        Function.update state.values (popped % capacity) husk := by
    funext index
    by_cases same : index = popped % capacity <;>
      simp [State.values, same, sameSlots]
  have kept :
      ∀ offset, offset + 1 < capacity →
        ((other.setValue (popped % capacity) husk).storeSequence thread
            (popped % capacity)
            ((Arithmetic.sizeT capacity).published .consumer
              popped)).sequence ((popped + 1 + offset) % capacity) =
          state.sequence ((popped + (offset + 1)) % capacity) := by
    intro offset inside
    have elsewhere :
        (popped + 1 + offset) % capacity ≠ popped % capacity :=
      (Ring.mod_ne_of_lt (by omega) (by omega)).symm
    have shifted : popped + 1 + offset = popped + (offset + 1) := by
      omega
    simp only [State.sequence, State.sequence_storeSequence,
      State.sequence_setValue, if_neg elsewhere, sameSlots]
    rw [shifted]
  have items := represents.items
  rw [shape, List.length_cons, Ring.contents_succ] at items
  exact
    { items := by
        rw [values, Ring.contents_tail_update (by omega)]
        exact (List.cons.inj items).2
      tail := by
        simp only [State.pos_storeSequence, State.pos_setValue]
        rw [tail, length]
        omega
      head := by
        simp only [State.pos_storeSequence, State.pos_setValue]
        exact head
      filled := by
        intro offset inside
        rw [kept offset (by omega), represents.filled _ (by omega)]
        congr 1
        omega
      free := by
        intro offset beyond inside
        by_cases isLast : offset + 1 = capacity
        · have lap : popped + 1 + offset = popped + capacity := by
            omega
          rw [lap, Nat.add_mod_right]
          simp only [State.sequence, State.sequence_storeSequence,
            if_true, Atomic.latest_store]
          exact published_sizeT .consumer popped
        · rw [kept offset (by omega),
            represents.free _ (by omega) (by omega)]
          congr 1
          omega
      closed := by
        simp only [State.closed_storeSequence, State.closed_setValue]
        rw [sameClosed, represents.closed, closed] }

end Represents

end ConcurrentQueue.Mpmc
