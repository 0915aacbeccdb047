import ConcurrentQueue.Mpmc.Sequential
import Mathlib.Order.Interval.Finset.Nat

namespace ConcurrentQueue.Mpmc

/-!
# 64-bit wrap-around

Every operation on positions and sequences commutes with reduction modulo
`2 ^ 64`, except where the machine compares: the sign of a difference, the
equality of an exchange and the modulo of a slot index.  In a sequentially
consistent run with short claim loops the compared values are close enough for
the comparisons to come out as on unbounded tickets.  Such runs are called
comparable.
-/

open TicketRing

variable {α : Type}

section Arithmetic

variable (capacity : Nat)

/-- The next ticket. -/
theorem next_wrap (ticket : Nat) :
    (Arithmetic.sizeT capacity).next (SizeT.wrap ticket) =
      SizeT.wrap ((Arithmetic.exact capacity).next ticket) :=
  SizeT.add_wrap ticket 1

/-- The expected sequence. -/
theorem expected_wrap (side : Side) (ticket : Nat) :
    (Arithmetic.sizeT capacity).expected side (SizeT.wrap ticket) =
      SizeT.wrap ((Arithmetic.exact capacity).expected side ticket) := by
  cases side with
  | producer =>
      exact SizeT.mul_wrap 2 ticket
  | consumer =>
      simp only [Arithmetic.sizeT, Arithmetic.exact, SizeT.mul_wrap,
        SizeT.add_wrap]

/-- The published sequence. -/
theorem published_wrap (side : Side) (ticket : Nat) :
    (Arithmetic.sizeT capacity).published side (SizeT.wrap ticket) =
      SizeT.wrap ((Arithmetic.exact capacity).published side ticket) := by
  cases side with
  | producer =>
      simp only [Arithmetic.sizeT, Arithmetic.exact, SizeT.mul_wrap,
        SizeT.add_wrap]
  | consumer =>
      simp only [Arithmetic.sizeT, Arithmetic.exact, SizeT.mul_wrap,
        SizeT.add_wrap]

/-- Under a mask the slot index does not notice the wrap. -/
theorem slotIndex_wrap_of_isPowerOfTwo
    (isPower : capacity.isPowerOfTwo)
    (small : capacity ≤ SizeT.modulus)
    (ticket : Nat) :
    slotIndex capacity (SizeT.wrap ticket) = ticket % capacity := by
  have isMask : mask capacity = capacity - 1 := if_pos isPower
  obtain ⟨bits, rfl⟩ := isPower
  have divides : 2 ^ bits ∣ SizeT.modulus := by
    have notAbove : bits ≤ 64 := by
      by_contra above
      have larger : 2 ^ 65 ≤ 2 ^ bits :=
        Nat.pow_le_pow_right (by decide) (by omega)
      unfold SizeT.modulus at small
      omega
    exact Nat.pow_dvd_pow 2 notAbove
  have modulo : SizeT.wrap ticket % 2 ^ bits = ticket % 2 ^ bits :=
    Nat.mod_mod_of_dvd ticket divides
  unfold slotIndex
  rw [isMask]
  split
  · rw [Nat.and_two_pow_sub_one_eq_mod, modulo]
  · exact modulo

/-- Without a mask the slot index is right until the ticket itself wraps. -/
theorem slotIndex_wrap_of_lt
    {ticket : Nat}
    (notPower : ¬ capacity.isPowerOfTwo)
    (bound : ticket < SizeT.modulus) :
    slotIndex capacity (SizeT.wrap ticket) = ticket % capacity := by
  simp [slotIndex, mask, notPower, SizeT.wrap_of_lt bound]

/-- The slot index is right under a mask or before the ticket wraps. -/
theorem slotIndex_wrap_of_small
    {ticket : Nat}
    (small : capacity ≤ 2 ^ 60)
    (masked : capacity.isPowerOfTwo ∨ ticket < SizeT.modulus) :
    slotIndex capacity (SizeT.wrap ticket) = ticket % capacity := by
  by_cases isPower : capacity.isPowerOfTwo
  · apply slotIndex_wrap_of_isPowerOfTwo capacity isPower
    unfold SizeT.modulus
    omega
  · apply slotIndex_wrap_of_lt capacity isPower
    exact masked.resolve_left isPower

end Arithmetic

namespace Pc

/-- The same program point with its local position wrapped. -/
def wrapped : Pc α → Pc α
  | .loadSequence caller ticket => .loadSequence caller (SizeT.wrap ticket)
  | .exchange caller ticket => .exchange caller (SizeT.wrap ticket)
  | .reloadPos caller ticket => .reloadPos caller (SizeT.wrap ticket)
  | .moveValue caller ticket => .moveValue caller (SizeT.wrap ticket)
  | .storeSequence caller ticket =>
      .storeSequence caller (SizeT.wrap ticket)
  | .sizeHead tail => .sizeHead (SizeT.wrap tail)
  | pc => pc

section ProgramPoints

variable (caller : Caller α) (ticket : Nat)

@[simp] theorem wrapped_idle : (idle : Pc α).wrapped = .idle := by
  rfl

@[simp] theorem wrapped_checkClosed :
    (checkClosed caller).wrapped = .checkClosed caller := by
  rfl

@[simp] theorem wrapped_loadPos :
    (loadPos caller).wrapped = .loadPos caller := by
  rfl

@[simp] theorem wrapped_loadSequence :
    (loadSequence caller ticket).wrapped =
      .loadSequence caller (SizeT.wrap ticket) := by
  rfl

@[simp] theorem wrapped_exchange :
    (exchange caller ticket).wrapped =
      .exchange caller (SizeT.wrap ticket) := by
  rfl

@[simp] theorem wrapped_reloadPos :
    (reloadPos caller ticket).wrapped =
      .reloadPos caller (SizeT.wrap ticket) := by
  rfl

@[simp] theorem wrapped_moveValue :
    (moveValue caller ticket).wrapped =
      .moveValue caller (SizeT.wrap ticket) := by
  rfl

@[simp] theorem wrapped_storeSequence :
    (storeSequence caller ticket).wrapped =
      .storeSequence caller (SizeT.wrap ticket) := by
  rfl

@[simp] theorem wrapped_storeClosed :
    (storeClosed : Pc α).wrapped = .storeClosed := by
  rfl

@[simp] theorem wrapped_loadClosed :
    (loadClosed : Pc α).wrapped = .loadClosed := by
  rfl

@[simp] theorem wrapped_sizeTail :
    (sizeTail : Pc α).wrapped = .sizeTail := by
  rfl

@[simp] theorem wrapped_sizeHead (tail : Nat) :
    (sizeHead tail : Pc α).wrapped = .sizeHead (SizeT.wrap tail) := by
  rfl

@[simp] theorem wrapped_returning (result : Result α) :
    (returning result).wrapped = .returning result := by
  rfl

end ProgramPoints

@[simp] theorem wrapped_afterClosedLoad (caller : Caller α) (flag : Bool) :
    (caller.afterClosedLoad flag).wrapped = caller.afterClosedLoad flag := by
  cases caller <;> cases flag <;> rfl

@[simp] theorem wrapped_afterFailure (caller : Caller α) :
    caller.afterFailure.wrapped = caller.afterFailure := by
  rcases caller with _ | _ | ⟨_, _ | _⟩ | _ <;> rfl

@[simp] theorem wrapped_afterSuccess (caller : Caller α) :
    caller.afterSuccess.wrapped = caller.afterSuccess := by
  cases caller <;> rfl

/-- The branch taken does not depend on the wrap. -/
theorem wrapped_classify (caller : Caller α) (ticket : Nat) (dif : Int) :
    (classify caller ticket dif).wrapped =
      classify caller (SizeT.wrap ticket) dif := by
  unfold classify
  split
  · rfl
  · split
    · exact wrapped_afterFailure caller
    · rfl

theorem wrapped_start?
    {slots : Nat}
    {op : Op α}
    {pc : Pc α}
    (starts : start? slots op = some pc) :
    pc.wrapped = pc := by
  cases op <;>
    simp only [start?, Option.some.injEq, reduceCtorEq] at starts <;>
    subst starts <;> rfl

end Pc

namespace State

/-- The same state with every position and sequence wrapped. -/
def wrapped (state : State α) : State α where
  slots index :=
    { sequence := (state.slots index).sequence.map SizeT.wrap
      value := (state.slots index).value }
  enqueuePos := state.enqueuePos.map SizeT.wrap
  dequeuePos := state.dequeuePos.map SizeT.wrap
  closed := state.closed
  threads thread :=
    { state.threads thread with pc := (state.threads thread).pc.wrapped }
  log :=
    state.log.mapMarks fun ticket =>
      { ticket with number := SizeT.wrap ticket.number }

variable (state : State α) (thread : Nat)

@[simp] theorem pos_wrapped (side : Side) :
    state.wrapped.pos side = (state.pos side).map SizeT.wrap := by
  cases side <;> rfl

@[simp] theorem pc_wrapped :
    (state.wrapped.threads thread).pc =
      (state.threads thread).pc.wrapped := by
  rfl

@[simp] theorem sequence_wrapped (index : Nat) :
    (state.wrapped.slots index).sequence =
      (state.slots index).sequence.map SizeT.wrap := by
  rfl

@[simp] theorem value_wrapped (index : Nat) :
    (state.wrapped.slots index).value = (state.slots index).value := by
  rfl

@[simp] theorem closed_wrapped : state.wrapped.closed = state.closed := by
  rfl

@[simp] theorem callOf_wrapped :
    state.wrapped.callOf thread = state.callOf thread := by
  cases isCurrent : state.log.current thread <;>
    simp [callOf, wrapped, CallLog.mapMarks, isCurrent, OpenCall.mapMarks]

/-- States with the same parts are the same. -/
theorem ext_parts
    {first second : State α}
    (slots : first.slots = second.slots)
    (enqueuePos : first.enqueuePos = second.enqueuePos)
    (dequeuePos : first.dequeuePos = second.dequeuePos)
    (closed : first.closed = second.closed)
    (threads : first.threads = second.threads)
    (log : first.log = second.log) :
    first = second := by
  cases first
  cases second
  simp_all

/-- Going to a program point commutes with wrapping. -/
theorem wrapped_goto (pc : Pc α) :
    (state.goto thread pc).wrapped =
      state.wrapped.goto thread pc.wrapped := by
  refine ext_parts rfl rfl rfl rfl ?_ rfl
  funext other
  by_cases same : other = thread
  · subst same
    cases pc <;> simp [goto, wrapped, Pc.wrapped]
    rename_i caller
    cases caller.side <;> simp [pos]
  · simp [goto, wrapped, same]

theorem wrapped_noteClose (message : Nat) :
    (state.noteClose thread message).wrapped =
      state.wrapped.noteClose thread message := by
  unfold noteClose
  simp only [closed_wrapped]
  split
  · rfl
  · refine ext_parts rfl rfl rfl rfl ?_ rfl
    funext other
    by_cases same : other = thread <;> simp [wrapped, same]

theorem wrapped_invoke (op : Op α) :
    (state.invoke thread op).wrapped = state.wrapped.invoke thread op :=
  ext_parts rfl rfl rfl rfl rfl (state.log.mapMarks_invoke _ _ _)

theorem wrapped_respond (result : Result α) :
    (state.respond thread result).wrapped =
      state.wrapped.respond thread result :=
  ext_parts rfl rfl rfl rfl rfl (state.log.mapMarks_respond _ _ _)

theorem wrapped_claim (capacity : Nat) (side : Side) (ticket : Nat) :
    (state.claim (Arithmetic.exact capacity) thread side ticket).wrapped =
      state.wrapped.claim (Arithmetic.sizeT capacity) thread side
        (SizeT.wrap ticket) := by
  have log :=
    state.log.mapMarks_mark
      (fun ticket : Ticket =>
        { ticket with number := SizeT.wrap ticket.number })
      thread ⟨side, ticket⟩
  have advanced :
      ((state.pos side).store (state.callOf thread)
            ((Arithmetic.exact capacity).next ticket)).map SizeT.wrap =
        (state.wrapped.pos side).store (state.wrapped.callOf thread)
          ((Arithmetic.sizeT capacity).next (SizeT.wrap ticket)) := by
    rw [Atomic.map_store, next_wrap]
    simp
  cases side with
  | producer =>
      exact ext_parts rfl advanced rfl rfl rfl log
  | consumer =>
      exact ext_parts rfl rfl advanced rfl rfl log

theorem wrapped_setValue (index : Nat) (value : α) :
    (state.setValue index value).wrapped =
      state.wrapped.setValue index value := by
  refine ext_parts ?_ rfl rfl rfl rfl rfl
  funext other
  by_cases same : other = index <;> simp [setValue, wrapped, same]

theorem wrapped_storeSequence (index sequence : Nat) :
    (state.storeSequence thread index sequence).wrapped =
      state.wrapped.storeSequence thread index (SizeT.wrap sequence) := by
  refine ext_parts ?_ rfl rfl rfl rfl rfl
  funext other
  refine Slot.ext ?_ (by simp)
  by_cases same : other = index <;> simp [same, Atomic.map_store]

theorem wrapped_storeClosed :
    (state.storeClosed thread).wrapped =
      state.wrapped.storeClosed thread := by
  have same := callOf_wrapped state thread
  refine ext_parts rfl rfl rfl ?_ rfl rfl
  simp [same]

end State

/-- The constructor of the 64-bit machine wraps that of the ideal one. -/
theorem initial_wrapped [Inhabited α] (capacity : Nat) :
    (initial (Arithmetic.exact capacity) : State α).wrapped =
      initial (Arithmetic.sizeT capacity) :=
  State.ext_parts rfl rfl rfl rfl rfl rfl

/--
The moving thread's claim loop has seen at most `2 ^ 61` tickets of its side
drawn, `size()` fewer than `2 ^ 63` between its loads, and the tickets
themselves have not wrapped where the slot index needs them whole.
-/
def shortLoops (capacity : Nat) : StepGuard (State α) (Label α) :=
  fun state label =>
    (match (state.threads label.thread).pc.attempting with
      | some caller =>
          (state.pos caller.side).newest ≤
            (state.threads label.thread).entered + 2 ^ 61
      | none => True) ∧
    (match (state.threads label.thread).pc with
      | .sizeHead tail => state.dequeuePos.newest < tail + 2 ^ 63
      | _ => True) ∧
    (capacity.isPowerOfTwo ∨
      state.enqueuePos.newest < 2 ^ 64 ∧ state.dequeuePos.newest < 2 ^ 64)

/-- Both side conditions of a comparable run. -/
def comparable (capacity : Nat) : StepGuard (State α) (Label α) :=
  fun state label =>
    sequential (Arithmetic.exact capacity) state label ∧
      shortLoops capacity state label

instance
    (capacity : Nat)
    (state : State α)
    (label : Label α) :
    Decidable (shortLoops capacity state label) :=
  decidable_of_bool
    ((match (state.threads label.thread).pc.attempting with
        | some caller =>
            decide
              ((state.pos caller.side).newest ≤
                (state.threads label.thread).entered + 2 ^ 61)
        | none => true) &&
      (match (state.threads label.thread).pc with
        | .sizeHead tail => decide (state.dequeuePos.newest < tail + 2 ^ 63)
        | _ => true) &&
      decide
        (capacity.isPowerOfTwo ∨
          state.enqueuePos.newest < 2 ^ 64 ∧
            state.dequeuePos.newest < 2 ^ 64))
    (by unfold shortLoops; split <;> split <;> simp [and_assoc])

instance
    (capacity : Nat)
    (state : State α)
    (label : Label α) :
    Decidable (comparable capacity state label) :=
  inferInstanceAs
    (Decidable
      (sequential (Arithmetic.exact capacity) state label ∧
        shortLoops capacity state label))

/-- Every slot has a ticket in every lap. -/
theorem exists_ticket_of_slot
    {capacity index : Nat}
    (inRange : index < capacity)
    (start : Nat) :
    ∃ ticket,
      start ≤ ticket ∧ ticket < start + capacity ∧
        ticket % capacity = index := by
  have isSlot :
      index ∈ (Finset.Ico start (start + capacity)).image (· % capacity) := by
    rw [Nat.image_Ico_mod]
    exact Finset.mem_range.mpr inRange
  obtain ⟨ticket, inLap, same⟩ := Finset.mem_image.mp isSlot
  obtain ⟨notBefore, within⟩ := Finset.mem_Ico.mp inLap
  exact ⟨ticket, notBefore, within, same⟩

section Window

variable {capacity : Nat} {state : State α}

/-- Every sequence lies within one lap of the doubled producer counter. -/
theorem Inv.sequence_window
    (positive : 0 < capacity)
    (inv : Inv capacity state)
    {index : Nat}
    (inRange : index < capacity) :
    2 * (state.pos .producer).newest ≤
        (state.slots index).sequence.latest + 2 * capacity ∧
      (state.slots index).sequence.latest ≤
        2 * ((state.pos .producer).newest + capacity) := by
  obtain ⟨ticket, undrawn, near, rfl⟩ :=
    exists_ticket_of_slot inRange (state.pos .producer).newest
  have monotone := (sequenceAt_strictMono positive (ticket % capacity)).monotone
  have upper :
      state.ring.phase (slotOf capacity ⟨.producer, ticket⟩) ≤
        stage capacity ⟨.producer, ticket⟩ :=
    inv.balanced.phase_le_of_undrawn undrawn
  have doubled :
      ∀ number,
        2 * number =
          sequenceAt capacity (number % capacity)
            (stage capacity ⟨.producer, number⟩) :=
    expected_eq_sequenceAt .producer
  rw [inv.latest_sequence inRange]
  constructor
  · rcases Nat.lt_or_ge ticket capacity with firstLap | later
    · omega
    · obtain ⟨previous, rfl⟩ := Nat.exists_eq_add_of_le' later
      have reached :=
        inv.balanced.reached ⟨.producer, previous⟩ (by
          simp only [State.taken_ring]
          omega)
      have lower := monotone reached
      rw [Nat.add_mod_right, ← doubled] at lower
      rw [Nat.add_mod_right]
      simp only [State.phase_ring, slotOf] at lower
      omega
  · have bound := monotone upper
    rw [← doubled] at bound
    simp only [State.phase_ring, slotOf] at bound
    omega

/-- The signed difference has its true value. -/
theorem difference_wrap
    (positive : 0 < capacity)
    (small : capacity ≤ 2 ^ 60)
    (inv : Inv capacity state)
    {side : Side}
    {ticket : Nat}
    (notAhead : ticket ≤ (state.pos side).newest)
    (near : (state.pos side).newest ≤ ticket + 2 ^ 61) :
    (Arithmetic.sizeT capacity).difference
        (SizeT.wrap
          (state.slots (ticket % capacity)).sequence.latest)
        ((Arithmetic.sizeT capacity).expected side (SizeT.wrap ticket)) =
      (Arithmetic.exact capacity).difference
        (state.slots (ticket % capacity)).sequence.latest
        ((Arithmetic.exact capacity).expected side ticket) := by
  obtain ⟨lower, upper⟩ :=
    inv.sequence_window positive (Nat.mod_lt ticket positive)
  have behind := inv.balanced.consumerBehind
  have within := inv.balanced.withinRing
  simp only [State.taken_ring] at behind within
  rw [expected_wrap]
  cases side with
  | producer =>
      refine SizeT.signed_sub ?_ ?_ <;>
        simp only [Arithmetic.exact, SizeT.halfRange] <;> omega
  | consumer =>
      refine SizeT.signed_sub ?_ ?_ <;>
        simp only [Arithmetic.exact, SizeT.halfRange] <;> omega

/-- An exchange succeeds on words exactly where it does on tickets. -/
theorem latest_eq_wrap_iff
    (inv : Inv capacity state)
    {side : Side}
    {ticket : Nat}
    (notAhead : ticket ≤ (state.pos side).newest)
    (near : (state.pos side).newest ≤ ticket + 2 ^ 61) :
    SizeT.wrap (state.pos side).latest = SizeT.wrap ticket ↔
      (state.pos side).latest = ticket := by
  rw [inv.latest_pos]
  constructor
  · intro same
    refine (SizeT.wrap_injective notAhead ?_ same.symm).symm
    unfold SizeT.modulus
    omega
  · rintro rfl
    rfl

/-- `size()` gives the same count. -/
theorem sizeOf_wrap
    (small : capacity ≤ 2 ^ 60)
    (inv : Inv capacity state)
    {tail : Nat}
    (notAhead : tail ≤ (state.pos .producer).newest)
    (near : (state.pos .consumer).newest < tail + 2 ^ 63) :
    sizeOf (Arithmetic.sizeT capacity) (SizeT.wrap tail)
        (SizeT.wrap (state.pos .consumer).latest) =
      sizeOf (Arithmetic.exact capacity) tail
        (state.pos .consumer).latest := by
  have within := inv.balanced.withinRing
  simp only [State.taken_ring] at within
  rw [inv.latest_pos]
  have same :
      (Arithmetic.sizeT capacity).difference (SizeT.wrap tail)
          (SizeT.wrap (state.pos .consumer).newest) =
        (Arithmetic.exact capacity).difference tail
          (state.pos .consumer).newest := by
    refine SizeT.signed_sub ?_ ?_ <;>
      simp only [SizeT.halfRange] <;> omega
  unfold sizeOf
  rw [same]
  rfl

end Window

end ConcurrentQueue.Mpmc
