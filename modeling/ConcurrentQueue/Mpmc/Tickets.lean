import ConcurrentQueue.Mpmc.Steps

namespace ConcurrentQueue.Mpmc

/-!
# `MpmcQueue` on unbounded tickets refines the ticket ring

A slot's phase is the number of stores made to its sequence, and a thread
holds its ticket between a winning exchange and its sequence store.  Under
this reading every step of the machine is a stutter, a draw or an advance of
the ticket ring, whatever messages the loads read.
-/

open TicketRing

variable {α : Type}

namespace State

/-- The ticket ring that a state of the machine implements. -/
def ring (state : State α) : TicketRing Nat where
  taken side := (state.pos side).newest
  phase index := (state.slots index).sequence.newest
  holder thread := (state.threads thread).pc.holding

@[simp] theorem taken_ring (state : State α) (side : Side) :
    state.ring.taken side = (state.pos side).newest := by
  rfl

@[simp] theorem phase_ring (state : State α) (index : Nat) :
    state.ring.phase index = (state.slots index).sequence.newest := by
  rfl

@[simp] theorem holder_ring (state : State α) (thread : Nat) :
    state.ring.holder thread = (state.threads thread).pc.holding := by
  rfl

end State

namespace Pc

/-- The local ticket of a thread that has not yet claimed it. -/
def considering : Pc α → Option Ticket
  | .loadSequence caller ticket => some ⟨caller.side, ticket⟩
  | .exchange caller ticket => some ⟨caller.side, ticket⟩
  | .reloadPos caller ticket => some ⟨caller.side, ticket⟩
  | _ => none

/-- The ticket whose sequence a thread has found to be the expected one. -/
def claiming : Pc α → Option Ticket
  | .exchange caller ticket => some ⟨caller.side, ticket⟩
  | _ => none

section ProgramPoints

variable (caller : Caller α) (ticket : Nat)

@[simp] theorem considering_loadSequence :
    (loadSequence caller ticket).considering =
      some ⟨caller.side, ticket⟩ := by
  rfl

@[simp] theorem considering_exchange :
    (exchange caller ticket).considering = some ⟨caller.side, ticket⟩ := by
  rfl

@[simp] theorem considering_reloadPos :
    (reloadPos caller ticket).considering = some ⟨caller.side, ticket⟩ := by
  rfl

@[simp] theorem claiming_exchange :
    (exchange caller ticket).claiming = some ⟨caller.side, ticket⟩ := by
  rfl

@[simp] theorem considering_afterClosedLoad (flag : Bool) :
    (caller.afterClosedLoad flag).considering = none := by
  cases caller <;> cases flag <;> rfl

@[simp] theorem considering_afterFailure :
    caller.afterFailure.considering = none := by
  rcases caller with _ | _ | ⟨_, _ | _⟩ | _ <;> rfl

@[simp] theorem considering_afterSuccess :
    caller.afterSuccess.considering = none := by
  cases caller <;> rfl

@[simp] theorem claiming_afterFailure :
    caller.afterFailure.claiming = none := by
  rcases caller with _ | _ | ⟨_, _ | _⟩ | _ <;> rfl

/-- No call starts with a local ticket. -/
theorem considering_start?
    {slots : Nat}
    {op : Op α}
    {pc : Pc α}
    (starts : start? slots op = some pc) :
    pc.considering = none := by
  cases op <;>
    simp only [start?, Option.some.injEq, reduceCtorEq] at starts <;>
    subst starts <;> rfl

/-- A thread that claims a ticket has it as its local ticket. -/
theorem considering_of_claiming
    {pc : Pc α}
    {claimed : Ticket}
    (isClaiming : pc.claiming = some claimed) :
    pc.considering = some claimed := by
  cases pc <;> simp_all [claiming]

/-- The sequence load keeps the local ticket or leaves the loop. -/
theorem considering_classify
    {dif : Int}
    {considered : Ticket}
    (isConsidering :
      (classify caller ticket dif).considering = some considered) :
    considered = ⟨caller.side, ticket⟩ := by
  unfold classify at isConsidering
  split at isConsidering
  · simpa using isConsidering.symm
  · split at isConsidering
    · simp at isConsidering
    · simpa using isConsidering.symm

/-- A ticket is claimed only where the difference was zero. -/
theorem claiming_classify
    {dif : Int}
    {claimed : Ticket}
    (isClaiming :
      (classify caller ticket dif).claiming = some claimed) :
    dif = 0 ∧ claimed = ⟨caller.side, ticket⟩ := by
  unfold classify at isClaiming
  split at isClaiming
  · rename_i zero
    exact ⟨zero, by simpa using isClaiming.symm⟩
  · split at isClaiming
    · simp at isClaiming
    · simp [claiming] at isClaiming

end ProgramPoints

end Pc

/-- The sequence of a slot after a number of stores. -/
def sequenceAt (capacity index message : Nat) : Nat :=
  2 * (index + message / 2 * capacity) + message % 2

section Sequences

variable {capacity : Nat}

/-- Stores to a slot strictly increase its sequence. -/
theorem sequenceAt_strictMono
    (positive : 0 < capacity)
    (index : Nat) :
    StrictMono (sequenceAt capacity index) := by
  apply strictMono_nat_of_lt_succ
  intro message
  unfold sequenceAt
  rcases Nat.mod_two_eq_zero_or_one message with even | odd
  · have sameLap : (message + 1) / 2 = message / 2 := by omega
    rw [sameLap]
    omega
  · have nextLap : (message + 1) / 2 = message / 2 + 1 := by omega
    rw [nextLap, Nat.add_mul, Nat.one_mul]
    omega

/-- A side expects the sequence its slot has in the stage of the ticket. -/
theorem expected_eq_sequenceAt (side : Side) (ticket : Nat) :
    (Arithmetic.exact capacity).expected side ticket =
      sequenceAt capacity (ticket % capacity)
        (stage capacity ⟨side, ticket⟩) := by
  have whole : ticket % capacity + ticket / capacity * capacity = ticket := by
    rw [Nat.mul_comm]
    exact Nat.mod_add_div ticket capacity
  cases side with
  | producer =>
      have half : 2 * (ticket / capacity) / 2 = ticket / capacity := by
        omega
      simp [Arithmetic.exact, sequenceAt, stage, turn, half, whole]
  | consumer =>
      have half : (2 * (ticket / capacity) + 1) / 2 = ticket / capacity := by
        omega
      simp only [Arithmetic.exact, sequenceAt, stage, turn, half, whole]
      omega

/-- A side publishes the sequence of the stage that follows its own. -/
theorem published_eq_sequenceAt
    (positive : 0 < capacity)
    (side : Side)
    (ticket : Nat) :
    (Arithmetic.exact capacity).published side ticket =
      sequenceAt capacity (ticket % capacity)
        (stage capacity ⟨side, ticket⟩ + 1) := by
  cases side with
  | producer =>
      rw [← stage_consumer]
      exact expected_eq_sequenceAt .consumer ticket
  | consumer =>
      rw [← stage_add_slots positive]
      have shape :
          (Arithmetic.exact capacity).expected .producer
              (ticket + capacity) =
            sequenceAt capacity ((ticket + capacity) % capacity)
              (stage capacity ⟨.producer, ticket + capacity⟩) :=
        expected_eq_sequenceAt .producer (ticket + capacity)
      rw [Nat.add_mod_right] at shape
      exact shape

/--
The sign of the difference compares the message that was read with the stage
of the ticket.
-/
theorem difference_eq_zero_iff
    (positive : 0 < capacity)
    (side : Side)
    (ticket message : Nat) :
    (Arithmetic.exact capacity).difference
        (sequenceAt capacity (ticket % capacity) message)
        ((Arithmetic.exact capacity).expected side ticket) = 0 ↔
      message = stage capacity ⟨side, ticket⟩ := by
  rw [expected_eq_sequenceAt]
  have injective :=
    (sequenceAt_strictMono positive (ticket % capacity)).injective
  constructor
  · intro zero
    apply injective
    simp only [Arithmetic.exact] at zero
    omega
  · rintro rfl
    simp [Arithmetic.exact]

theorem difference_neg_iff
    (positive : 0 < capacity)
    (side : Side)
    (ticket message : Nat) :
    (Arithmetic.exact capacity).difference
        (sequenceAt capacity (ticket % capacity) message)
        ((Arithmetic.exact capacity).expected side ticket) < 0 ↔
      message < stage capacity ⟨side, ticket⟩ := by
  rw [expected_eq_sequenceAt,
    ← (sequenceAt_strictMono positive (ticket % capacity)).lt_iff_lt]
  simp only [Arithmetic.exact]
  omega

end Sequences

/-- The invariant of the machine on unbounded tickets. -/
structure Inv (capacity : Nat) (state : State α) : Prop where
  balanced : state.ring.Balanced capacity
  sequences :
    ∀ {index message sequence},
      index < capacity →
      (state.slots index).sequence.read? message = some sequence →
      sequence = sequenceAt capacity index message
  positions :
    ∀ {side message position},
      (state.pos side).read? message = some position →
      position = message
  considered :
    ∀ {thread ticket},
      (state.threads thread).pc.considering = some ticket →
      ticket.number ≤ (state.pos ticket.side).newest
  ready :
    ∀ {thread ticket},
      (state.threads thread).pc.claiming = some ticket →
      stage capacity ticket ≤
        (state.slots (slotOf capacity ticket)).sequence.newest

namespace Inv

variable {capacity : Nat} {state : State α}

/-- The newest position is the number of tickets drawn. -/
theorem latest_pos
    (inv : Inv capacity state)
    (side : Side) :
    (state.pos side).latest = (state.pos side).newest :=
  inv.positions (state.pos side).read?_newest

/-- The newest sequence of a slot is given by its phase. -/
theorem latest_sequence
    (inv : Inv capacity state)
    {index : Nat}
    (inRange : index < capacity) :
    (state.slots index).sequence.latest =
      sequenceAt capacity index (state.slots index).sequence.newest :=
  inv.sequences inRange (state.slots index).sequence.read?_newest

/-- The constructor establishes the invariant. -/
theorem initial [Inhabited α] (capacity : Nat) :
    Inv capacity (initial (Arithmetic.exact capacity) : State α) where
  balanced := by
    have shape :
        (Mpmc.initial (Arithmetic.exact capacity) : State α).ring =
          TicketRing.start := by
      ext side
      · cases side <;> rfl
      · rfl
      · rfl
    rw [shape]
    exact Balanced.start
  sequences := by
    intro index message sequence _ reads
    cases message with
    | zero =>
        simp only [Mpmc.initial, Atomic.read?, Arithmetic.exact,
          Option.some.injEq] at reads
        simp [sequenceAt, ← reads]
    | succ =>
        simp [Mpmc.initial, Atomic.read?] at reads
  positions := by
    intro side message position reads
    cases message with
    | zero =>
        cases side <;>
          · simp only [Mpmc.initial, State.pos, Atomic.read?,
              Option.some.injEq] at reads
            exact reads.symm
    | succ =>
        cases side <;> simp [Mpmc.initial, State.pos, Atomic.read?] at reads
  considered := by
    intro thread ticket considering
    simp [Mpmc.initial, Pc.considering] at considering
  ready := by
    intro thread ticket claiming
    simp [Mpmc.initial, Pc.claiming] at claiming

/-- A step that moves no ticket, counter or sequence is a stutter. -/
theorem ring_eq
    {state next : State α}
    (thread : Nat)
    (samePos : ∀ side, next.pos side = state.pos side)
    (sameSequence :
      ∀ index,
        (next.slots index).sequence = (state.slots index).sequence)
    (others :
      ∀ other, other ≠ thread →
        (next.threads other).pc = (state.threads other).pc)
    (sameHolding :
      (next.threads thread).pc.holding =
        (state.threads thread).pc.holding) :
    next.ring = state.ring := by
  ext other
  · simp [samePos]
  · simp [sameSequence]
  · by_cases same : other = thread
    · subst same
      simp [sameHolding]
    · simp [others other same]

/-- Going from one point without a ticket to another is a stutter. -/
theorem ring_goto
    {state : State α}
    {thread : Nat}
    {pc : Pc α}
    (before : (state.threads thread).pc.holding = none)
    (after : pc.holding = none) :
    (state.goto thread pc).ring = state.ring := by
  refine ring_eq thread (by simp) (by simp) ?_ ?_
  · intro other different
    simp [different]
  · simp [before, after]

/--
Every step is a stutter of the ticket ring, a draw of the next ticket whose
slot is ready for it, or an advance of a ticket in hand.
-/
theorem ring_step
    (inv : Inv capacity state)
    {thread : Nat}
    {action : Action α}
    {next : State α}
    (step :
      Step (Arithmetic.exact capacity) state thread action next) :
    next.ring = state.ring ∨
      (∃ side,
        state.ring.holder thread = none ∧
          stage capacity ⟨side, state.ring.taken side⟩ ≤
            state.ring.phase
              (slotOf capacity ⟨side, state.ring.taken side⟩) ∧
          next.ring = state.ring.take thread side) ∨
      ∃ ticket,
        state.ring.holder thread = some ticket ∧
          next.ring = state.ring.advance capacity thread ticket := by
  cases step with
  | claim isAt current =>
      rename_i caller ticket
      right; left
      rw [inv.latest_pos] at current
      refine ⟨caller.side, ?_, ?_, ?_⟩
      · simp [isAt]
      · have isClaiming :
            (state.threads thread).pc.claiming =
              some ⟨caller.side, ticket⟩ := by
          simp [isAt]
        simpa [current] using inv.ready isClaiming
      · ext other
        · by_cases same : other = caller.side <;>
            simp [TicketRing.take, same]
        · simp [TicketRing.take]
        · by_cases same : other = thread <;>
            simp [TicketRing.take, same, current]
  | storeSequence isAt =>
      rename_i caller ticket
      right; right
      refine ⟨⟨caller.side, ticket⟩, by simp [isAt], ?_⟩
      ext other
      · simp [TicketRing.advance]
      · by_cases same : other = ticket % capacity <;>
          simp [TicketRing.advance, slotOf, Arithmetic.exact, same]
      · by_cases same : other = thread <;>
          simp [TicketRing.advance, same]
  | moveValue isAt =>
      left
      refine ring_eq thread (by simp) (by simp) ?_ ?_
      · intro other different
        simp [different]
      · simp [isAt]
  | invoke isAt starts =>
      left
      exact ring_goto (by simp [isAt]) (Pc.holding_start? starts)
  | checkClosed isAt reads | loadClosed isAt reads =>
      left
      refine ring_eq thread (by simp) (by simp) ?_ ?_
      · intro other different
        simp [different]
      · simp [isAt]
  | storeClosed isAt | respond isAt =>
      left
      exact ring_goto (by simp [isAt]) (by simp)
  | loadPos isAt reads | reloadPos isAt reads | loadSequence isAt reads
  | lost isAt reads | sizeTail isAt reads | sizeHead isAt reads =>
      left
      exact ring_goto (by simp [isAt]) (by simp)

/-- The slot of a thread about to publish is in the stage of its ticket. -/
theorem phase_of_storeSequence
    (inv : Inv capacity state)
    {thread ticket : Nat}
    {caller : Caller α}
    (isAt : (state.threads thread).pc = .storeSequence caller ticket) :
    (state.slots (ticket % capacity)).sequence.newest =
      stage capacity ⟨caller.side, ticket⟩ := by
  have isHeld :
      state.ring.holder thread = some ⟨caller.side, ticket⟩ := by
    simp [isAt]
  exact (inv.balanced.held isHeld).2

/-- The ticket ring stays balanced. -/
theorem balanced_step
    (positive : 0 < capacity)
    (inv : Inv capacity state)
    {thread : Nat}
    {action : Action α}
    {next : State α}
    (step :
      Step (Arithmetic.exact capacity) state thread action next) :
    next.ring.Balanced capacity := by
  rcases inv.ring_step step with
    stutter | ⟨side, free, ready, draw⟩ | ⟨ticket, isHeld, advance⟩
  · rw [stutter]
    exact inv.balanced
  · rw [draw]
    exact inv.balanced.take positive free ready
  · rw [advance]
    exact inv.balanced.advance isHeld

/-- A published sequence continues the sequence of its slot. -/
theorem sequences_step
    (positive : 0 < capacity)
    (inv : Inv capacity state)
    {thread : Nat}
    {action : Action α}
    {next : State α}
    (step :
      Step (Arithmetic.exact capacity) state thread action next)
    {index message sequence : Nat}
    (inRange : index < capacity)
    (reads :
      (next.slots index).sequence.read? message = some sequence) :
    sequence = sequenceAt capacity index message := by
  cases step with
  | storeSequence isAt =>
      rename_i caller ticket
      have held := inv.phase_of_storeSequence isAt
      simp only [State.slots_goto, State.sequence_storeSequence] at reads
      split at reads
      · rename_i same
        rw [Atomic.read?_store] at reads
        split at reads
        · rename_i isNew
          cases reads
          rw [published_eq_sequenceAt positive, isNew, ← held, same]
          rfl
        · refine inv.sequences inRange ?_
          rwa [same]
      · exact inv.sequences inRange reads
  | _ =>
      refine inv.sequences inRange ?_
      simpa using reads

/-- A claim extends the messages of its counter by one. -/
theorem positions_step
    (inv : Inv capacity state)
    {thread : Nat}
    {action : Action α}
    {next : State α}
    (step :
      Step (Arithmetic.exact capacity) state thread action next)
    {side : Side}
    {message position : Nat}
    (reads : (next.pos side).read? message = some position) :
    position = message := by
  cases step with
  | claim isAt current =>
      rename_i caller ticket
      rw [inv.latest_pos] at current
      simp only [State.pos_goto, State.pos_claim,
        Function.update_apply] at reads
      split at reads
      · rw [Atomic.read?_store] at reads
        split at reads
        · rename_i isNew
          cases reads
          simp [Arithmetic.exact, isNew, current]
        · rename_i same _
          subst same
          exact inv.positions reads
      · exact inv.positions reads
  | _ =>
      have old : (state.pos side).read? message = some position := by
        simpa using reads
      exact inv.positions old

end Inv

/-- Other threads stay where they are. -/
theorem Step.pc_other
    {arithmetic : Arithmetic}
    {state next : State α}
    {thread other : Nat}
    {action : Action α}
    (step : Step arithmetic state thread action next)
    (different : other ≠ thread) :
    (next.threads other).pc = (state.threads other).pc := by
  cases step <;> simp [different]

/-- Counters never lose a message. -/
theorem Step.newest_pos_le
    {arithmetic : Arithmetic}
    {state next : State α}
    {thread : Nat}
    {action : Action α}
    (step : Step arithmetic state thread action next)
    (side : Side) :
    (state.pos side).newest ≤ (next.pos side).newest := by
  cases step with
  | claim isAt current =>
      rename_i caller ticket
      by_cases same : side = caller.side <;> simp [same]
  | _ => simp

/-- Sequences never lose a message. -/
theorem Step.newest_sequence_le
    {arithmetic : Arithmetic}
    {state next : State α}
    {thread : Nat}
    {action : Action α}
    (step : Step arithmetic state thread action next)
    (index : Nat) :
    (state.slots index).sequence.newest ≤
      (next.slots index).sequence.newest := by
  cases step with
  | storeSequence isAt =>
      simp only [State.slots_goto, State.sequence_storeSequence]
      split
      · rename_i same
        simp [same]
      · exact Nat.le_refl _
  | _ => simp

namespace Inv

variable {capacity : Nat} {state : State α}

/-- A local ticket was read from its counter. -/
theorem considered_step
    (inv : Inv capacity state)
    {thread other : Nat}
    {action : Action α}
    {next : State α}
    (step :
      Step (Arithmetic.exact capacity) state thread action next)
    {ticket : Ticket}
    (considering :
      (next.threads other).pc.considering = some ticket) :
    ticket.number ≤ (next.pos ticket.side).newest := by
  by_cases same : other = thread
  · subst same
    cases step with
    | loadPos isAt reads | reloadPos isAt reads | lost isAt reads =>
        simp only [State.pc_goto, if_true, Pc.considering_loadSequence,
          Option.some.injEq] at considering
        subst considering
        rw [inv.positions reads]
        simpa using Atomic.le_newest_of_read? _ reads
    | loadSequence isAt reads =>
        simp only [State.pc_goto, if_true] at considering
        rw [Pc.considering_classify _ _ considering]
        have isConsidering :=
          congrArg Pc.considering isAt
        rw [Pc.considering_loadSequence] at isConsidering
        simpa using inv.considered isConsidering
    | invoke isAt starts =>
        simp [Pc.considering_start? starts] at considering
    | checkClosed isAt reads | storeSequence isAt =>
        simp at considering
    | claim | moveValue | storeClosed | loadClosed | sizeTail | sizeHead
    | respond =>
        simp [Pc.considering] at considering
  · rw [step.pc_other same] at considering
    exact Nat.le_trans (inv.considered considering)
      (step.newest_pos_le ticket.side)

/-- A ticket is claimed only after its slot was seen in its stage. -/
theorem ready_step
    (positive : 0 < capacity)
    (inv : Inv capacity state)
    {thread other : Nat}
    {action : Action α}
    {next : State α}
    (step :
      Step (Arithmetic.exact capacity) state thread action next)
    {ticket : Ticket}
    (claiming : (next.threads other).pc.claiming = some ticket) :
    stage capacity ticket ≤
      (next.slots (slotOf capacity ticket)).sequence.newest := by
  by_cases same : other = thread
  · subst same
    cases step with
    | loadSequence isAt reads =>
        rename_i caller number message sequence
        simp only [State.pc_goto, if_true] at claiming
        obtain ⟨zero, shape⟩ := Pc.claiming_classify _ _ claiming
        have inRange : number % capacity < capacity :=
          Nat.mod_lt _ positive
        rw [inv.sequences inRange reads] at zero
        rw [shape, ← (difference_eq_zero_iff positive _ _ _).mp zero]
        exact Atomic.le_newest_of_read? _ reads
    | invoke isAt starts =>
        have considering := Pc.considering_of_claiming claiming
        simp [Pc.considering_start? starts] at considering
    | checkClosed isAt reads | storeSequence isAt =>
        have considering := Pc.considering_of_claiming claiming
        simp at considering
    | loadPos | reloadPos | lost | claim | moveValue | storeClosed
    | loadClosed | sizeTail | sizeHead | respond =>
        simp [Pc.claiming] at claiming
  · rw [step.pc_other same] at claiming
    exact Nat.le_trans (inv.ready claiming)
      (step.newest_sequence_le (slotOf capacity ticket))

/-- Every step keeps the invariant. -/
theorem step
    (positive : 0 < capacity)
    (inv : Inv capacity state)
    {thread : Nat}
    {action : Action α}
    {next : State α}
    (step :
      Step (Arithmetic.exact capacity) state thread action next) :
    Inv capacity next where
  balanced := inv.balanced_step positive step
  sequences := inv.sequences_step positive step
  positions := inv.positions_step step
  considered := inv.considered_step step
  ready := inv.ready_step positive step

/-- The invariant holds in every reachable state. -/
theorem of_run
    [Inhabited α]
    (positive : 0 < capacity)
    {guard : StepGuard (State α) (Label α)}
    {labels : List (Label α)}
    (run :
      Run (step? (Arithmetic.exact capacity)) guard
        (Mpmc.initial (Arithmetic.exact capacity)) labels state) :
    Inv capacity state :=
  run.invariant (Inv.initial capacity) fun inv _ taken =>
    inv.step positive (Step.of_step? taken)

end Inv

end ConcurrentQueue.Mpmc
