import ConcurrentQueue.Mpmc.Failures
import ConcurrentQueue.Mpmc.Refusals

namespace ConcurrentQueue.Mpmc

/-!
# Behind a stalled ticket

A thread that has won a ticket and then takes no step leaves its slot as it
is.  No consumer gets past the ticket of a stalled producer, however many
later slots are filled, and no producer gets further than one ring beyond it.
The calls that would have to can only be refused, and the blocking ones among
them only once the queue is closed.
-/

open TicketRing

variable {α : Type}

/-- What the other threads can do while a ticket is held. -/
structure StopsBehind
    (capacity : Nat)
    (ticket : Ticket)
    (state : State α) : Prop where
  /-- Pops only got the elements before that of a stalled producer. -/
  pops :
    ∀ {call op tickets out},
      ticket.side = .producer →
      state.log.Completed call op tickets (.popped true out) →
      ∃ number < ticket.number, tickets = [⟨.consumer, number⟩]
  /-- Pushes went no further than one ring beyond the ticket. -/
  pushes :
    ∀ {call op tickets},
      state.log.Completed call op tickets (.pushed true) →
      ∃ number < ticket.number + capacity, tickets = [⟨.producer, number⟩]
  /-- Blocking calls that did not succeed found the queue closed. -/
  others :
    ∀ {call op tickets result},
      state.log.Completed call op tickets result →
      op.isBlocking = true →
      tickets = [] →
      state.closed.latest = true

section Steps

variable {capacity thread mover : Nat} {action : Action α}
variable {state next : State α} {ticket : Ticket}

/-- A step of another thread does not touch the slot of a held ticket. -/
theorem Inv.slot_of_held
    (inv : Inv capacity state)
    (isHeld : (state.threads thread).pc.holding = some ticket)
    (different : mover ≠ thread)
    (step :
      Step (Arithmetic.exact capacity) state mover action next) :
    next.slots (slotOf capacity ticket) =
      state.slots (slotOf capacity ticket) := by
  have apart :
      ∀ {other},
        (state.threads mover).pc.holding = some other →
        slotOf capacity ticket ≠ slotOf capacity other := by
    intro other isOther sameSlot
    exact different
      (inv.balanced.one_holder_per_slot isOther isHeld sameSlot.symm)
  cases step with
  | @moveValue caller number husk isAt =>
      have elsewhere := apart (congrArg Pc.holding isAt)
      rw [State.slots_goto]
      exact Function.update_of_ne elsewhere _ _
  | @storeSequence caller number isAt =>
      have elsewhere := apart (congrArg Pc.holding isAt)
      rw [State.slots_goto]
      exact Function.update_of_ne elsewhere _ _
  | _ => simp

/-- A ticket in the history stops the counter of its side from below. -/
theorem Tracked.lt_newest_of_completed
    (tracked : Tracked capacity state)
    {call : Nat}
    {op : Op α}
    {side : Side}
    {number : Nat}
    {result : Result α}
    (completed :
      state.log.Completed call op [⟨side, number⟩] result) :
    number < (state.pos side).newest := by
  obtain ⟨owner, _, _, marks⟩ := completed
  have marked : Ticket.mk side number ∈ state.log.marksOf call := by
    rw [marks]
    exact List.mem_singleton_self _
  exact tracked.lt_newest_of_mark (CallLog.mem_marksOf.mp marked)

/-- While a ticket is held the other threads stop behind it. -/
theorem Inv.stopsBehind
    (positive : 0 < capacity)
    (inv : Inv capacity state)
    (tracked : Tracked capacity state)
    (refusals : Refusals state)
    (isHeld : (state.threads thread).pc.holding = some ticket) :
    StopsBehind capacity ticket state where
  pops := by
    intro call op tickets out isProducer completed
    obtain ⟨_, number, rfl⟩ := tracked.answered completed
    have drawn := tracked.lt_newest_of_completed completed
    rcases ticket with ⟨side, held⟩
    cases isProducer
    have behind := inv.balanced.consumer_le_of_held isHeld
    exact ⟨number, Nat.lt_of_lt_of_le drawn behind, rfl⟩
  pushes := by
    intro call op tickets completed
    obtain ⟨_, number, rfl⟩ := tracked.answered completed
    have drawn := tracked.lt_newest_of_completed completed
    have behind := inv.balanced.producer_le_of_held positive isHeld
    exact ⟨number, Nat.lt_of_lt_of_le drawn behind, rfl⟩
  others := by
    rintro call op tickets result completed blocking rfl
    have answers := tracked.answered completed
    exact refusals.completed completed blocking
      (answers.isRefusal blocking)

end Steps

/--
While a thread that has won a ticket takes no step, its slot stays as it is,
and the calls of all other threads stop behind the ticket.
-/
theorem stalled_ticket_stops_the_ring
    [Inhabited α]
    {capacity thread : Nat}
    {labels during : List (Label α)}
    {state last : State α}
    {ticket : Ticket}
    (positive : 0 < capacity)
    (run :
      Run (step? (Arithmetic.exact capacity)) unrestricted
        (initial (Arithmetic.exact capacity)) labels state)
    (isHeld : (state.threads thread).pc.holding = some ticket)
    (stalled :
      Run (step? (Arithmetic.exact capacity))
        (fun _ label => label.thread ≠ thread) state during last) :
    last.slots (slotOf capacity ticket) =
        state.slots (slotOf capacity ticket) ∧
      StopsBehind capacity ticket last := by
  have kept :
      (last.threads thread).pc.holding = some ticket ∧
        last.slots (slotOf capacity ticket) =
          state.slots (slotOf capacity ticket) := by
    induction stalled with
    | start => exact ⟨isHeld, rfl⟩
    | snoc earlier admitted taken inductionHypothesis =>
        obtain ⟨stillHeld, sameSlot⟩ := inductionHypothesis
        have step := Step.of_step? taken
        have inv := Inv.of_run positive (run.append earlier.free)
        refine ⟨?_, ?_⟩
        · rw [step.pc_other (Ne.symm admitted)]
          exact stillHeld
        · rw [inv.slot_of_held stillHeld admitted step]
          exact sameSlot
  obtain ⟨stillHeld, sameSlot⟩ := kept
  have reached := run.append stalled.free
  exact ⟨sameSlot,
    (Inv.of_run positive reached).stopsBehind positive
      (Tracked.of_run positive reached) (Refusals.of_run positive reached)
      stillHeld⟩

/-- Another push fills the slot behind a stalled one; a pop gets nothing. -/
def passedBySchedule : List (Label Nat) :=
  [⟨1, .invoke (.tryPush 8)⟩, ⟨1, .load 0⟩, ⟨1, .load 1⟩, ⟨1, .load 0⟩,
    ⟨1, .exchange none⟩, ⟨1, .move 0⟩, ⟨1, .store⟩, ⟨1, .respond⟩,
    ⟨2, .invoke (.tryPop 5)⟩, ⟨2, .load 0⟩, ⟨2, .load 0⟩, ⟨2, .respond⟩]

theorem stalled_ticket_stops_the_ring_passed_by :
    ∃ state last,
      replay? (step? (Arithmetic.exact 2)) unrestricted
          (initial (Arithmetic.exact 2)) stalledPush = some state ∧
        replay? (step? (Arithmetic.exact 2))
            (fun _ label => label.thread ≠ 0) state passedBySchedule =
          some last ∧
        last.log.history.getLast? =
          some (.respond 2 2 (.popped false 5)) ∧
        last.slots 0 = state.slots 0 ∧
        StopsBehind 2 ⟨.producer, 0⟩ last := by
  have replayed :
      ∃ state last,
        replay? (step? (Arithmetic.exact 2)) unrestricted
            (initial (Arithmetic.exact 2)) stalledPush = some state ∧
          replay? (step? (Arithmetic.exact 2))
              (fun _ label => label.thread ≠ 0) state passedBySchedule =
            some last ∧
          last.log.history.getLast? =
            some (.respond 2 2 (.popped false 5)) ∧
          (state.threads 0).pc.holding = some ⟨.producer, 0⟩ :=
    ⟨_, _, rfl, rfl, rfl, rfl⟩
  obtain ⟨state, last, reaches, follows, refused, isHeld⟩ := replayed
  exact ⟨state, last, reaches, follows, refused,
    stalled_ticket_stops_the_ring (by decide) (Run.of_replay? reaches)
      isHeld (Run.of_replay? follows)⟩

end ConcurrentQueue.Mpmc
