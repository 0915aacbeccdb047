import ConcurrentQueue.Mpmc.Calls

namespace ConcurrentQueue.Mpmc

/-!
# Slot ownership

The exchange of a claim loop validates only the position counter, not the
sequence that was loaded before it.  It is safe all the same: the sequence of
a slot cannot move past the stage of a ticket before that ticket is drawn, so
a sequence that was once the expected one still is when the exchange wins.
-/

open TicketRing

variable {α : Type}

/-- What the protocol promises of positions, sequences and slot accesses. -/
structure SlotOwnership (capacity : Nat) (state : State α) : Prop where
  notNegative :
    state.dequeuePos.latest ≤ state.enqueuePos.latest
  withinRing :
    state.enqueuePos.latest ≤ state.dequeuePos.latest + capacity
  /-- Until its producer is done, the slot of a ticket carries `2 * ticket`. -/
  free :
    ∀ {ticket sequence},
      (state.slots (ticket % capacity)).sequence.read?
          (2 * (ticket / capacity)) = some sequence →
      sequence = 2 * ticket
  /-- The next sequence of that slot is `2 * ticket + 1`. -/
  published :
    ∀ {ticket sequence},
      (state.slots (ticket % capacity)).sequence.read?
          (2 * (ticket / capacity) + 1) = some sequence →
      sequence = 2 * ticket + 1
  /-- The one after that is `2 * (ticket + capacity)`. -/
  released :
    ∀ {ticket sequence},
      (state.slots (ticket % capacity)).sequence.read?
          (2 * (ticket / capacity) + 2) = some sequence →
      sequence = 2 * (ticket + capacity)
  publishedByProducer :
    ∀ {ticket call},
      (state.slots (ticket % capacity)).sequence.author?
          (2 * (ticket / capacity) + 1) = some call →
      ∀ drawer,
        .mark drawer ⟨.producer, ticket⟩ ∈ state.log.history ↔
          drawer = call
  releasedByConsumer :
    ∀ {ticket call},
      (state.slots (ticket % capacity)).sequence.author?
          (2 * (ticket / capacity) + 2) = some call →
      ∀ drawer,
        .mark drawer ⟨.consumer, ticket⟩ ∈ state.log.history ↔
          drawer = call
  /-- At most one thread is past its winning exchange on any given slot. -/
  exclusive :
    ∀ {thread thread' ticket ticket'},
      (state.threads thread).pc.holding = some ticket →
      (state.threads thread').pc.holding = some ticket' →
      ticket.number % capacity = ticket'.number % capacity →
      thread = thread'
  /-- A slot's value is changed by the move of a thread that holds it. -/
  written :
    ∀ {label next index},
      step? (Arithmetic.exact capacity) state label = some next →
      (next.slots index).value ≠ (state.slots index).value →
      ∃ caller ticket,
        (state.threads label.thread).pc = .moveValue caller ticket ∧
          ticket % capacity = index
  /-- A winning exchange finds the slot in the expected state and unheld. -/
  claimed :
    ∀ {thread caller ticket next},
      (state.threads thread).pc = .exchange caller ticket →
      step? (Arithmetic.exact capacity) state ⟨thread, .exchange none⟩ =
        some next →
      (state.slots (ticket % capacity)).sequence.latest =
          (Arithmetic.exact capacity).expected caller.side ticket ∧
        ∀ {other ticket'},
          (state.threads other).pc.holding = some ticket' →
          ticket'.number % capacity ≠ ticket % capacity

section Messages

variable {capacity : Nat} {state : State α}

/-- The message of a stage carries the sequence expected in that stage. -/
theorem Inv.read_stage
    (positive : 0 < capacity)
    (inv : Inv capacity state)
    (ticket : Ticket)
    {sequence : Nat}
    (reads :
      (state.slots (ticket.number % capacity)).sequence.read?
          (stage capacity ticket) = some sequence) :
    sequence =
      (Arithmetic.exact capacity).expected ticket.side ticket.number := by
  have inRange : ticket.number % capacity < capacity :=
    Nat.mod_lt _ positive
  rw [inv.sequences inRange reads]
  exact (expected_eq_sequenceAt ticket.side ticket.number).symm

/-- The change made in the stage of a ticket is by the call that drew it. -/
theorem Tracked.author_stage
    (positive : 0 < capacity)
    (tracked : Tracked capacity state)
    (ticket : Ticket)
    {call : Nat}
    (authored :
      (state.slots (ticket.number % capacity)).sequence.author?
          (stage capacity ticket + 1) = some call)
    (drawer : Nat) :
    .mark drawer ticket ∈ state.log.history ↔ drawer = call := by
  have inRange : ticket.number % capacity < capacity :=
    Nat.mod_lt _ positive
  have marked := tracked.authored inRange authored
  have shape := ticketAt_stage capacity ticket
  unfold slotOf at shape
  rw [shape] at marked
  constructor
  · intro drew
    exact tracked.drawer_unique drew marked
  · rintro rfl
    exact marked

/-- When an exchange wins, the slot is still in the stage of the ticket. -/
theorem Inv.phase_of_claim
    (inv : Inv capacity state)
    {thread ticket : Nat}
    {caller : Caller α}
    (isAt : (state.threads thread).pc = .exchange caller ticket)
    (current : (state.pos caller.side).latest = ticket) :
    (state.slots (ticket % capacity)).sequence.newest =
      stage capacity ⟨caller.side, ticket⟩ := by
  have isClaiming :
      (state.threads thread).pc.claiming = some ⟨caller.side, ticket⟩ := by
    simp [isAt]
  rw [inv.latest_pos] at current
  have undrawn :
      state.ring.taken (Ticket.mk caller.side ticket).side ≤
        (Ticket.mk caller.side ticket).number := by
    simp [current]
  exact Nat.le_antisymm
    (inv.balanced.phase_le_of_undrawn undrawn) (inv.ready isClaiming)

end Messages

/-- A slot's value changes only in the move of a thread that holds it. -/
theorem Step.moveValue_of_value_ne
    {arithmetic : Arithmetic}
    {state next : State α}
    {thread index : Nat}
    {action : Action α}
    (step : Step arithmetic state thread action next)
    (changed : (next.slots index).value ≠ (state.slots index).value) :
    ∃ caller ticket,
      (state.threads thread).pc = .moveValue caller ticket ∧
        arithmetic.slotIndex ticket = index := by
  cases step with
  | moveValue isAt =>
      rename_i caller ticket husk
      refine ⟨caller, ticket, isAt, ?_⟩
      by_contra otherSlot
      exact changed (by simp [Ne.symm otherSlot])
  | _ =>
      simp at changed

/--
Slot ownership holds in every state reachable by any number of threads, with
stale loads and spuriously failing exchanges.
-/
theorem slot_ownership
    [Inhabited α]
    {capacity : Nat}
    (positive : 0 < capacity)
    {labels : List (Label α)}
    {state : State α}
    (run :
      Run (step? (Arithmetic.exact capacity)) unrestricted
        (initial (Arithmetic.exact capacity)) labels state) :
    SlotOwnership capacity state := by
  have inv := Inv.of_run positive run
  have tracked := Tracked.of_run positive run
  exact {
    notNegative := by
      have tail := inv.latest_pos .producer
      have head := inv.latest_pos .consumer
      have behind := inv.balanced.consumerBehind
      simp only [State.pos, State.taken_ring] at tail head behind
      omega
    withinRing := by
      have tail := inv.latest_pos .producer
      have head := inv.latest_pos .consumer
      have within := inv.balanced.withinRing
      simp only [State.pos, State.taken_ring] at tail head within
      omega
    free := by
      intro ticket sequence reads
      exact inv.read_stage positive ⟨.producer, ticket⟩ reads
    published := by
      intro ticket sequence reads
      exact inv.read_stage positive ⟨.consumer, ticket⟩ reads
    released := by
      intro ticket sequence reads
      refine inv.read_stage positive ⟨.producer, ticket + capacity⟩ ?_
      rw [stage_add_slots positive, Nat.add_mod_right]
      exact reads
    publishedByProducer := by
      intro ticket call authored
      exact tracked.author_stage positive ⟨.producer, ticket⟩ authored
    releasedByConsumer := by
      intro ticket call authored
      exact tracked.author_stage positive ⟨.consumer, ticket⟩ authored
    exclusive := by
      intro thread thread' ticket ticket' isHeld isHeld' sameSlot
      exact inv.balanced.one_holder_per_slot isHeld isHeld' sameSlot
    written := by
      intro label next index taken changed
      exact (Step.of_step? taken).moveValue_of_value_ne changed
    claimed := by
      intro thread caller ticket next isAt taken
      have current : (state.pos caller.side).latest = ticket := by
        by_contra moved
        simp [step?, isAt, moved] at taken
      have phase := inv.phase_of_claim isAt current
      constructor
      · rw [inv.latest_sequence (Nat.mod_lt _ positive), phase]
        exact (expected_eq_sequenceAt caller.side ticket).symm
      · intro other ticket' isHeld sameSlot
        have heldPhase := (inv.balanced.held isHeld).2
        have same : ticket' = ⟨caller.side, ticket⟩ := by
          refine eq_of_stage_eq sameSlot ?_
          rw [← heldPhase, ← phase]
          simp [slotOf, sameSlot]
        have drawn := (inv.balanced.held isHeld).1
        rw [inv.latest_pos] at current
        simp [same, current] at drawn }

/-- One push handed to a consumer whose first exchange fails spuriously. -/
def handOffSchedule : List (Label Nat) :=
  [⟨0, .invoke (.push 7)⟩, ⟨0, .load 0⟩, ⟨1, .invoke (.pop 5)⟩,
    ⟨0, .load 0⟩, ⟨0, .load 0⟩, ⟨1, .load 0⟩, ⟨0, .exchange none⟩,
    ⟨0, .move 0⟩, ⟨0, .store⟩, ⟨1, .load 1⟩, ⟨1, .exchange (some 0)⟩,
    ⟨1, .load 1⟩, ⟨1, .exchange none⟩, ⟨1, .move 0⟩, ⟨1, .store⟩]

theorem slot_ownership_hand_off :
    ∃ state,
      replay? (step? (Arithmetic.exact 1)) unrestricted
          (initial (Arithmetic.exact 1)) handOffSchedule = some state ∧
        state.enqueuePos.latest = 1 ∧
        state.dequeuePos.latest = 1 ∧
        SlotOwnership 1 state := by
  have replayed :
      ∃ state,
        replay? (step? (Arithmetic.exact 1)) unrestricted
            (initial (Arithmetic.exact 1)) handOffSchedule = some state ∧
          state.enqueuePos.latest = 1 ∧
          state.dequeuePos.latest = 1 :=
    ⟨_, rfl, rfl, rfl⟩
  obtain ⟨state, accepted, tail, head⟩ := replayed
  exact ⟨state, accepted, tail, head,
    slot_ownership (by decide) (Run.of_replay? accepted)⟩

end ConcurrentQueue.Mpmc
