import Mathlib.Logic.Function.Basic
import Mathlib.Data.Nat.ModEq

namespace ConcurrentQueue

/-!
# Tickets over a ring of slots

Two sides draw consecutive tickets from counters of their own.  Ticket `t`
belongs to slot `t % slots`, and a slot passes through phases: phase `2 * k`
serves the producer of lap `k`, phase `2 * k + 1` its consumer.  A thread may
draw the next ticket of its side once the slot has reached the phase of that
ticket, and then holds the ticket until it advances the slot by one phase.

The module proves that every state so reached is `Balanced`: the sides stay
within one ring of each other and no two threads hold tickets of one slot.
-/

/-- The two sides that draw tickets. -/
inductive Side where
  | producer
  | consumer
  deriving Repr, DecidableEq

/-- A ticket drawn on one side. -/
structure Ticket where
  side : Side
  number : Nat
  deriving Repr, DecidableEq

/-- The counters, the phase of every slot and the tickets being held. -/
@[ext]
structure TicketRing (Thread : Type) where
  taken : Side → Nat
  phase : Nat → Nat
  holder : Thread → Option Ticket

namespace TicketRing

/-- The position of a side within one lap. -/
def turn : Side → Nat
  | .producer => 0
  | .consumer => 1

/-- The phase in which a slot serves one ticket. -/
def stage (slots : Nat) (ticket : Ticket) : Nat :=
  2 * (ticket.number / slots) + turn ticket.side

/-- The slot a ticket belongs to. -/
def slotOf (slots : Nat) (ticket : Ticket) : Nat :=
  ticket.number % slots

section Stages

variable {slots : Nat}

theorem turn_lt_two (side : Side) : turn side < 2 := by
  cases side <;> decide

theorem turn_injective
    {side side' : Side}
    (same : turn side = turn side') :
    side = side' := by
  cases side <;> cases side' <;> simp_all [turn]

/-- Slot and stage together determine the ticket. -/
theorem eq_of_stage_eq
    {ticket ticket' : Ticket}
    (sameSlot : slotOf slots ticket = slotOf slots ticket')
    (sameStage : stage slots ticket = stage slots ticket') :
    ticket = ticket' := by
  rcases ticket with ⟨side, number⟩
  rcases ticket' with ⟨side', number'⟩
  have turnBound := turn_lt_two side
  have turnBound' := turn_lt_two side'
  simp only [stage, slotOf] at sameStage sameSlot
  have sameLap : number / slots = number' / slots := by
    omega
  have sameTurn : turn side = turn side' := by
    omega
  have sameNumber : number = number' := by
    rw [← Nat.div_add_mod number slots, sameLap, sameSlot,
      Nat.div_add_mod]
  rw [turn_injective sameTurn, sameNumber]

/-- The consumer of a ticket is served right after its producer. -/
@[simp] theorem stage_consumer (number : Nat) :
    stage slots ⟨.consumer, number⟩ =
      stage slots ⟨.producer, number⟩ + 1 := by
  rfl

/-- A slot starts its next lap right after the consumer of this one. -/
theorem stage_add_slots
    (positive : 0 < slots)
    (number : Nat) :
    stage slots ⟨.producer, number + slots⟩ =
      stage slots ⟨.consumer, number⟩ + 1 := by
  simp [stage, turn, Nat.add_div_right _ positive]
  omega

theorem slotOf_add_slots (number : Nat) (side side' : Side) :
    slotOf slots ⟨side, number + slots⟩ =
      slotOf slots ⟨side', number⟩ := by
  simp [slotOf]

/-- In the first lap every slot already serves its producer. -/
theorem stage_first_lap
    {number : Nat}
    (firstLap : number < slots) :
    stage slots ⟨.producer, number⟩ = 0 := by
  simp [stage, turn, Nat.div_eq_of_lt firstLap]

end Stages

variable {Thread : Type} {slots : Nat}

/-- Counters at zero, every slot in phase zero, no ticket held. -/
def start : TicketRing Thread where
  taken := fun _ => 0
  phase := fun _ => 0
  holder := fun _ => none

section Moves

variable [DecidableEq Thread]

/-- Draw the next ticket of a side. -/
def take
    (ring : TicketRing Thread)
    (thread : Thread)
    (side : Side) :
    TicketRing Thread :=
  { ring with
    taken := Function.update ring.taken side (ring.taken side + 1)
    holder :=
      Function.update ring.holder thread
        (some ⟨side, ring.taken side⟩) }

/-- Advance the slot of a held ticket and give the ticket up. -/
def advance
    (slots : Nat)
    (ring : TicketRing Thread)
    (thread : Thread)
    (ticket : Ticket) :
    TicketRing Thread :=
  { ring with
    phase :=
      Function.update ring.phase (slotOf slots ticket)
        (ring.phase (slotOf slots ticket) + 1)
    holder := Function.update ring.holder thread none }

end Moves

/-- The ticket has been advanced past: its holder is done with the slot. -/
def Done
    (slots : Nat)
    (ring : TicketRing Thread)
    (ticket : Ticket) : Prop :=
  stage slots ticket < ring.phase (slotOf slots ticket)

/-- What holds of counters, phases and holders in every reachable state. -/
structure Balanced (slots : Nat) (ring : TicketRing Thread) : Prop where
  consumerBehind :
    ring.taken .consumer ≤ ring.taken .producer
  withinRing :
    ring.taken .producer ≤ ring.taken .consumer + slots
  reached :
    ∀ ticket : Ticket,
      ticket.number < ring.taken ticket.side →
      stage slots ticket ≤ ring.phase (slotOf slots ticket)
  taken_of_done :
    ∀ ticket : Ticket,
      Done slots ring ticket →
      ticket.number < ring.taken ticket.side
  held :
    ∀ {thread ticket},
      ring.holder thread = some ticket →
      ticket.number < ring.taken ticket.side ∧
        ring.phase (slotOf slots ticket) = stage slots ticket
  holds :
    ∀ ticket : Ticket,
      ticket.number < ring.taken ticket.side →
      ring.phase (slotOf slots ticket) = stage slots ticket →
      ∃ thread, ring.holder thread = some ticket
  unique :
    ∀ {thread thread' ticket},
      ring.holder thread = some ticket →
      ring.holder thread' = some ticket →
      thread = thread'

namespace Balanced

variable {ring : TicketRing Thread}

/-- The initial ring is balanced. -/
theorem start : (start : TicketRing Thread).Balanced slots where
  consumerBehind := Nat.le_refl _
  withinRing := Nat.zero_le _
  reached := by
    intro ticket bound
    simp [TicketRing.start] at bound
  taken_of_done := by
    intro ticket done
    simp [TicketRing.start, Done] at done
  held := by
    intro thread ticket isHeld
    simp [TicketRing.start] at isHeld
  holds := by
    intro ticket bound
    simp [TicketRing.start] at bound
  unique := by
    intro thread thread' ticket isHeld
    simp [TicketRing.start] at isHeld

/-- Holders of tickets of one slot hold the same ticket. -/
theorem same_ticket
    (balanced : ring.Balanced slots)
    {thread thread' : Thread}
    {ticket ticket' : Ticket}
    (isHeld : ring.holder thread = some ticket)
    (isHeld' : ring.holder thread' = some ticket')
    (sameSlot : slotOf slots ticket = slotOf slots ticket') :
    ticket = ticket' := by
  refine eq_of_stage_eq sameSlot ?_
  rw [← (balanced.held isHeld).2, ← (balanced.held isHeld').2, sameSlot]

/-- At most one thread holds a ticket of any given slot. -/
theorem one_holder_per_slot
    (balanced : ring.Balanced slots)
    {thread thread' : Thread}
    {ticket ticket' : Ticket}
    (isHeld : ring.holder thread = some ticket)
    (isHeld' : ring.holder thread' = some ticket')
    (sameSlot : slotOf slots ticket = slotOf slots ticket') :
    thread = thread' := by
  have same := balanced.same_ticket isHeld isHeld' sameSlot
  subst same
  exact balanced.unique isHeld isHeld'

/-- A drawn ticket that nobody holds has been advanced past. -/
theorem done_of_not_held
    (balanced : ring.Balanced slots)
    {ticket : Ticket}
    (drawn : ticket.number < ring.taken ticket.side)
    (notHeld : ∀ thread, ring.holder thread ≠ some ticket) :
    Done slots ring ticket := by
  have reached := balanced.reached ticket drawn
  have apart :
      ring.phase (slotOf slots ticket) ≠ stage slots ticket := by
    intro same
    obtain ⟨thread, isHeld⟩ := balanced.holds ticket drawn same
    exact notHeld thread isHeld
  unfold Done
  omega

/-- The slot of an undrawn ticket is at most in the phase of that ticket. -/
theorem phase_le_of_undrawn
    (balanced : ring.Balanced slots)
    {ticket : Ticket}
    (undrawn : ring.taken ticket.side ≤ ticket.number) :
    ring.phase (slotOf slots ticket) ≤ stage slots ticket := by
  by_contra beyond
  have done : Done slots ring ticket := by
    unfold Done
    omega
  have := balanced.taken_of_done ticket done
  omega

/-- A producer that may draw is less than one ring ahead of the consumers. -/
theorem producer_room
    (positive : 0 < slots)
    (balanced : ring.Balanced slots)
    (ready :
      stage slots ⟨.producer, ring.taken .producer⟩ ≤
        ring.phase (slotOf slots ⟨.producer, ring.taken .producer⟩)) :
    ring.taken .producer < ring.taken .consumer + slots := by
  rcases Nat.lt_or_ge (ring.taken .producer) slots with firstLap | later
  · omega
  · obtain ⟨previous, shape⟩ := Nat.exists_eq_add_of_le' later
    rw [shape, stage_add_slots positive,
      slotOf_add_slots previous .producer .consumer] at ready
    have drawn := balanced.taken_of_done ⟨.consumer, previous⟩ ready
    simp only at drawn
    omega

/-- A consumer that may draw is behind the producers. -/
theorem consumer_room
    (balanced : ring.Balanced slots)
    (ready :
      stage slots ⟨.consumer, ring.taken .consumer⟩ ≤
        ring.phase (slotOf slots ⟨.consumer, ring.taken .consumer⟩)) :
    ring.taken .consumer < ring.taken .producer := by
  rw [stage_consumer] at ready
  exact balanced.taken_of_done ⟨.producer, ring.taken .consumer⟩ ready

/-- No consumer gets past a producer that holds its ticket. -/
theorem consumer_le_of_held
    (balanced : ring.Balanced slots)
    {thread : Thread}
    {number : Nat}
    (isHeld : ring.holder thread = some ⟨.producer, number⟩) :
    ring.taken .consumer ≤ number := by
  by_contra beyond
  have reached :=
    balanced.reached ⟨.consumer, number⟩ (Nat.lt_of_not_le beyond)
  have inPhase := (balanced.held isHeld).2
  rw [stage_consumer] at reached
  simp only [slotOf] at reached inPhase
  omega

/-- No producer wraps around onto a slot whose ticket is held. -/
theorem producer_le_of_held
    (positive : 0 < slots)
    (balanced : ring.Balanced slots)
    {thread : Thread}
    {ticket : Ticket}
    (isHeld : ring.holder thread = some ticket) :
    ring.taken .producer ≤ ticket.number + slots := by
  by_contra beyond
  have reached :=
    balanced.reached ⟨.producer, ticket.number + slots⟩
      (Nat.lt_of_not_le beyond)
  have inPhase := (balanced.held isHeld).2
  rw [stage_add_slots positive,
    slotOf_add_slots ticket.number .producer ticket.side] at reached
  have ordered :
      stage slots ticket ≤ stage slots ⟨.consumer, ticket.number⟩ := by
    rcases ticket with ⟨_ | _, number⟩
    · exact Nat.le_succ _
    · exact Nat.le_refl _
  simp only [slotOf] at reached inPhase
  omega

/-- Drawing a ticket whose slot has reached its phase keeps the balance. -/
theorem take
    [DecidableEq Thread]
    (positive : 0 < slots)
    (balanced : ring.Balanced slots)
    {thread : Thread}
    {side : Side}
    (free : ring.holder thread = none)
    (ready :
      stage slots ⟨side, ring.taken side⟩ ≤
        ring.phase (slotOf slots ⟨side, ring.taken side⟩)) :
    (ring.take thread side).Balanced slots where
  consumerBehind := by
    have behind := balanced.consumerBehind
    cases side with
    | producer =>
        simp [TicketRing.take]
        omega
    | consumer =>
        have room := balanced.consumer_room ready
        simp [TicketRing.take]
        omega
  withinRing := by
    have within := balanced.withinRing
    cases side with
    | producer =>
        have room := balanced.producer_room positive ready
        simp [TicketRing.take]
        omega
    | consumer =>
        simp [TicketRing.take]
        omega
  reached := by
    intro ticket bound
    simp only [TicketRing.take, Function.update_apply] at bound ⊢
    split at bound
    · rename_i sameSide
      rcases Nat.lt_succ_iff_lt_or_eq.mp bound with old | isNew
      · exact balanced.reached ticket (by rwa [sameSide])
      · have shape : ticket = ⟨side, ring.taken side⟩ := by
          rcases ticket with ⟨_, number⟩
          simp only at sameSide isNew
          rw [sameSide, isNew]
        rw [shape]
        exact ready
    · exact balanced.reached ticket bound
  taken_of_done := by
    intro ticket done
    have drawn := balanced.taken_of_done ticket done
    simp only [TicketRing.take, Function.update_apply]
    split
    · rename_i sameSide
      rw [sameSide] at drawn
      omega
    · exact drawn
  held := by
    intro owner ticket isHeld
    simp only [TicketRing.take, Function.update_apply] at isHeld ⊢
    split at isHeld
    · simp only [Option.some.injEq] at isHeld
      subst isHeld
      refine ⟨by simp, ?_⟩
      exact Nat.le_antisymm
        (balanced.phase_le_of_undrawn (Nat.le_refl _)) ready
    · obtain ⟨drawn, inPhase⟩ := balanced.held isHeld
      refine ⟨?_, inPhase⟩
      split
      · rename_i sameSide
        rw [sameSide] at drawn
        omega
      · exact drawn
  holds := by
    intro ticket bound inPhase
    simp only [TicketRing.take, Function.update_apply] at bound inPhase ⊢
    have old :
        ticket.number < ring.taken ticket.side →
          ∃ owner,
            (if owner = thread then some ⟨side, ring.taken side⟩
              else ring.holder owner) = some ticket := by
      intro drawn
      obtain ⟨owner, isHeld⟩ := balanced.holds ticket drawn inPhase
      have different : owner ≠ thread := by
        rintro rfl
        simp [free] at isHeld
      exact ⟨owner, by simp [different, isHeld]⟩
    split at bound
    · rename_i sameSide
      rcases Nat.lt_succ_iff_lt_or_eq.mp bound with drawn | isNew
      · exact old (by rwa [sameSide])
      · refine ⟨thread, ?_⟩
        rcases ticket with ⟨_, number⟩
        simp only at sameSide isNew
        rw [sameSide, isNew]
        exact if_pos rfl
    · exact old bound
  unique := by
    intro owner owner' ticket isHeld isHeld'
    simp only [TicketRing.take, Function.update_apply] at isHeld isHeld'
    have undrawn :
        ∀ {other : Thread},
          ring.holder other ≠ some ⟨side, ring.taken side⟩ := by
      intro other isHeld
      have drawn := (balanced.held isHeld).1
      simp at drawn
    split at isHeld <;> split at isHeld'
    · simp_all
    · rw [← isHeld] at isHeld'
      exact (undrawn isHeld').elim
    · rw [← isHeld'] at isHeld
      exact (undrawn isHeld).elim
    · exact balanced.unique isHeld isHeld'

/-- Advancing the slot of a held ticket keeps the balance. -/
theorem advance
    [DecidableEq Thread]
    (balanced : ring.Balanced slots)
    {thread : Thread}
    {ticket : Ticket}
    (isHeld : ring.holder thread = some ticket) :
    (ring.advance slots thread ticket).Balanced slots where
  consumerBehind := balanced.consumerBehind
  withinRing := balanced.withinRing
  reached := by
    intro other drawn
    have reached := balanced.reached other drawn
    simp only [TicketRing.advance, Function.update_apply]
    split
    · rename_i sameSlot
      rw [sameSlot] at reached
      omega
    · exact reached
  taken_of_done := by
    intro other done
    simp only [TicketRing.advance, Done, Function.update_apply] at done ⊢
    split at done
    · rename_i sameSlot
      rw [(balanced.held isHeld).2] at done
      rcases Nat.lt_succ_iff_lt_or_eq.mp done with old | isNew
      · refine balanced.taken_of_done other ?_
        rw [Done, sameSlot, (balanced.held isHeld).2]
        exact old
      · rw [eq_of_stage_eq sameSlot isNew]
        exact (balanced.held isHeld).1
    · exact balanced.taken_of_done other done
  held := by
    intro owner other isHeld'
    simp only [TicketRing.advance, Function.update_apply,
      Option.ite_none_left_eq_some] at isHeld' ⊢
    obtain ⟨different, isHeld'⟩ := isHeld'
    have otherSlot : slotOf slots other ≠ slotOf slots ticket := by
      intro sameSlot
      exact different
        (balanced.one_holder_per_slot isHeld' isHeld sameSlot)
    rw [if_neg otherSlot]
    exact balanced.held isHeld'
  holds := by
    intro other drawn inPhase
    simp only [TicketRing.advance, Function.update_apply] at drawn inPhase ⊢
    split at inPhase
    · rename_i sameSlot
      have reached := balanced.reached other drawn
      have oldPhase := (balanced.held isHeld).2
      rw [sameSlot] at reached
      omega
    · rename_i otherSlot
      obtain ⟨owner, isHeld'⟩ := balanced.holds other drawn inPhase
      have different : owner ≠ thread := by
        rintro rfl
        rw [isHeld] at isHeld'
        cases isHeld'
        exact otherSlot rfl
      exact ⟨owner, by simp [different, isHeld']⟩
  unique := by
    intro owner owner' other isHeld₁ isHeld₂
    simp only [TicketRing.advance, Function.update_apply,
      Option.ite_none_left_eq_some] at isHeld₁ isHeld₂
    exact balanced.unique isHeld₁.2 isHeld₂.2

end Balanced

end TicketRing

end ConcurrentQueue
