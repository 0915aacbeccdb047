import ConcurrentQueue.Library.Instants
import ConcurrentQueue.Mpmc.Sequential

namespace ConcurrentQueue.Mpmc

/-!
# What a failed `try_dequeue` has seen

`try_dequeue` returns `false` where the sequence it loads is below the one its
ticket waits for.  A ticket that some consumer has drawn already has a slot
that reached its stage, so a stale ticket never fails.  A failing ticket is the
current one, and what is missing is its producer or that producer's store.
-/

open TicketRing

variable {α : Type}

/-- The call of a thread from its invocation on and before its answer. -/
abbrev CallWindow
    [Inhabited α]
    (arithmetic : Arithmetic)
    (guard : StepGuard (State α) (Label α))
    (thread : Nat)
    (op : Op α)
    (earlier during : List (Label α))
    (invoked last : State α) : Prop :=
  Window (step? arithmetic) guard (initial arithmetic)
    ⟨thread, .invoke op⟩ ⟨thread, .respond⟩ earlier during invoked last

namespace CallWindow

variable [Inhabited α] {capacity thread : Nat} {op : Op α}
variable {guard : StepGuard (State α) (Label α)}
variable {earlier during : List (Label α)} {invoked last : State α}

/-- Throughout its window a call is the one its thread has in progress. -/
theorem current
    (positive : 0 < capacity)
    (window :
      CallWindow (Arithmetic.exact capacity) guard thread op earlier during
        invoked last) :
    ∃ call marks, last.log.current thread = some ⟨call, op, marks⟩ := by
  refine window.step_induction
    (fun _ state =>
      ∃ call marks, state.log.current thread = some ⟨call, op, marks⟩) ?_ ?_
  · intro before _ _ taken
    cases Step.of_step? taken with
    | invoke isAt starts =>
        exact ⟨before.log.nextCall, [], by simp⟩
  · rintro labels state ⟨mover, action⟩ next shorter ⟨call, marks, isOpen⟩ _
      notClosing taken
    have step := Step.of_step? taken
    have tracked : Tracked capacity state :=
      Tracked.of_run positive shorter.run
    by_cases same : thread = mover
    · subst same
      cases step with
      | invoke isAt starts =>
          have agrees := tracked.agrees thread
          simp only at isAt
          rw [isAt, isOpen] at agrees
          cases agrees
      | claim isAt current =>
          rename_i caller ticket _
          refine ⟨call, marks ++ [⟨caller.side, ticket⟩], ?_⟩
          simp only [State.log_goto, State.log_claim,
            CallLog.mark_of_current _ isOpen, Function.update_self]
      | respond isAt =>
          exact absurd rfl notClosing
      | _ =>
          exact ⟨call, marks, by simpa using isOpen⟩
    · rw [Tracked.current_other step same]
      exact ⟨call, marks, isOpen⟩

end CallWindow

/-- A sequence load that makes a `try_dequeue` return `false`. -/
structure DequeueFails
    (thread : Nat)
    (caller : Caller α)
    (ticket : Nat)
    (state next : State α) : Prop where
  isAt : (state.threads thread).pc = .loadSequence caller ticket
  isConsumer : caller.side = .consumer
  returnsFalse : (next.threads thread).pc = caller.afterFailure

/--
The ticket is the next one that a consumer draws, and either no producer has
drawn it or the one that has has not stored its sequence.
-/
structure NothingPublished
    (capacity ticket : Nat)
    (state : State α) : Prop where
  current : (state.pos .consumer).latest = ticket
  missing :
    (state.pos .producer).latest = ticket ∨
      ∃ producer,
        (state.threads producer).pc.holding = some ⟨.producer, ticket⟩
  unpublished :
    ∀ message sequence,
      (state.slots (ticket % capacity)).sequence.read? message =
          some sequence →
      sequence < 2 * ticket + 1

/-- What `try_dequeue` leaves in `out` is what its call was given there. -/
def OutUntouched
    (thread : Nat)
    (state next : State α) : Prop :=
  ∃ call op out,
    state.log.current thread = some ⟨call, op, []⟩ ∧
      (op = .tryPop out ∧
          (next.threads thread).pc = .returning (.popped false out) ∨
        op = .pop out ∧
          ((next.threads thread).pc = .checkClosed (.pop out false) ∨
            (next.threads thread).pc = .returning (.popped false out)))

/-- A claim loop fails only where the difference is negative. -/
theorem Pc.neg_of_classify_eq_afterFailure
    {caller : Caller α}
    {ticket : Nat}
    {dif : Int}
    (fails : classify caller ticket dif = caller.afterFailure) :
    dif < 0 := by
  unfold classify at fails
  split at fails
  · rcases caller with _ | _ | ⟨_, _ | _⟩ | _ <;> cases fails
  · split at fails
    · assumption
    · rcases caller with _ | _ | ⟨_, _ | _⟩ | _ <;> cases fails

section Loop

variable {capacity thread message ticket : Nat} {caller : Caller α}
variable {state next : State α}

/-- A load that makes a claim loop fail found the slot before its stage. -/
theorem Inv.phase_lt_of_failure
    (positive : 0 < capacity)
    (inv : Inv capacity state)
    (admitted :
      sequential (Arithmetic.exact capacity) state ⟨thread, .load message⟩)
    (taken :
      step? (Arithmetic.exact capacity) state ⟨thread, .load message⟩ =
        some next)
    (isAt : (state.threads thread).pc = .loadSequence caller ticket)
    (returnsFalse : (next.threads thread).pc = caller.afterFailure) :
    (state.slots (ticket % capacity)).sequence.newest <
      stage capacity ⟨caller.side, ticket⟩ := by
  have step := Step.of_step? taken
  simp only [sequential, isAt] at admitted
  have isNewest :
      message = (state.slots (ticket % capacity)).sequence.newest :=
    admitted
  cases step with
  | loadSequence isAt' reads =>
      rw [isAt] at isAt'
      cases isAt'
      simp only [State.pc_goto, if_true] at returnsFalse
      have negative := Pc.neg_of_classify_eq_afterFailure returnsFalse
      rw [inv.sequences (Nat.mod_lt _ positive) reads] at negative
      rw [← isNewest]
      exact (difference_neg_iff positive _ _ _).mp negative
  | _ isAt' =>
      rw [isAt] at isAt'
      cases isAt'

/-- A ticket whose slot is before its stage is the next one to be drawn. -/
theorem Inv.current_of_phase_lt
    (inv : Inv capacity state)
    (isAt : (state.threads thread).pc = .loadSequence caller ticket)
    (before :
      (state.slots (ticket % capacity)).sequence.newest <
        stage capacity ⟨caller.side, ticket⟩) :
    (state.pos caller.side).newest = ticket := by
  have isConsidering :
      (state.threads thread).pc.considering =
        some ⟨caller.side, ticket⟩ := by
    rw [isAt, Pc.considering_loadSequence]
  apply Nat.le_antisymm
  · by_contra beyond
    have reached :=
      inv.balanced.reached ⟨caller.side, ticket⟩ (Nat.lt_of_not_le beyond)
    exact absurd before (Nat.not_lt_of_le reached)
  · exact inv.considered isConsidering

end Loop

namespace DequeueFails

variable {capacity thread message ticket : Nat} {caller : Caller α}
variable {state next : State α}

/-- What is missing is the producer of the ticket or its store. -/
theorem nothingPublished
    (positive : 0 < capacity)
    (inv : Inv capacity state)
    (admitted :
      sequential (Arithmetic.exact capacity) state ⟨thread, .load message⟩)
    (taken :
      step? (Arithmetic.exact capacity) state ⟨thread, .load message⟩ =
        some next)
    (fails : DequeueFails thread caller ticket state next) :
    NothingPublished capacity ticket state := by
  have before :=
    inv.phase_lt_of_failure positive admitted taken fails.isAt
      fails.returnsFalse
  have current := inv.current_of_phase_lt fails.isAt before
  rw [fails.isConsumer] at before current
  refine ⟨?_, ?_, ?_⟩
  · rw [inv.latest_pos, current]
  · have behind : ticket ≤ (state.pos .producer).newest := by
      rw [← current]
      exact inv.balanced.consumerBehind
    rcases Nat.eq_or_lt_of_le behind with allClaimed | claimed
    · left
      rw [inv.latest_pos, allClaimed]
    · right
      have reached := inv.balanced.reached ⟨.producer, ticket⟩ claimed
      rw [stage_consumer] at before
      have inPhase := Nat.le_antisymm (Nat.le_of_lt_succ before) reached
      exact inv.balanced.holds ⟨.producer, ticket⟩ claimed inPhase
  · intro earlier sequence reads
    rw [inv.sequences (Nat.mod_lt _ positive) reads]
    have expected :
        (Arithmetic.exact capacity).expected .consumer ticket =
          sequenceAt capacity (ticket % capacity)
            (stage capacity ⟨.consumer, ticket⟩) :=
      expected_eq_sequenceAt .consumer ticket
    have shown :
        sequenceAt capacity (ticket % capacity) earlier <
          sequenceAt capacity (ticket % capacity)
            (stage capacity ⟨.consumer, ticket⟩) := by
      apply sequenceAt_strictMono positive
      exact Nat.lt_of_le_of_lt (Atomic.le_newest_of_read? _ reads) before
    rwa [← expected] at shown

/-- The loop returns with the local that its call brought in. -/
theorem outUntouched
    (tracked : Tracked capacity state)
    (fails : DequeueFails thread caller ticket state next) :
    OutUntouched thread state next := by
  obtain ⟨isAt, isConsumer, returnsFalse⟩ := fails
  have agrees := tracked.agrees thread
  rw [isAt] at agrees
  obtain ⟨call, isOpen⟩ := agrees
  cases caller with
  | push | tryPush =>
      cases isConsumer
  | pop out seen =>
      refine ⟨call, _, out, isOpen, Or.inr ⟨rfl, ?_⟩⟩
      cases seen with
      | false => exact Or.inl returnsFalse
      | true => exact Or.inr returnsFalse
  | tryPop out =>
      exact ⟨call, _, out, isOpen, Or.inl ⟨rfl, returnsFalse⟩⟩

end DequeueFails

/-- A call answers that it popped nothing only after a loop that failed. -/
theorem Step.dequeueFails
    {arithmetic : Arithmetic}
    {state next : State α}
    {thread : Nat}
    {action : Action α}
    {out : α}
    (step : Step arithmetic state thread action next)
    (returns :
      (next.threads thread).pc = .returning (.popped false out)) :
    ∃ message caller ticket,
      action = .load message ∧
        DequeueFails thread caller ticket state next := by
  cases step with
  | invoke isAt starts =>
      rename_i op pc
      simp only [State.pc_goto, if_true] at returns
      subst returns
      cases op <;> simp [Pc.start?] at starts
  | checkClosed isAt reads =>
      rename_i caller _ flag
      cases caller <;> cases flag <;>
        simp [Caller.afterClosedLoad] at returns
  | loadSequence isAt reads =>
      rename_i caller ticket message sequence
      refine ⟨message, caller, ticket, rfl, isAt, ?_, ?_⟩
      · simp only [State.pc_goto, if_true, Pc.classify] at returns
        split at returns
        · cases returns
        · split at returns
          · rcases caller with _ | _ | ⟨_, _ | _⟩ | _ <;> cases returns <;>
              rfl
          · cases returns
      · simp only [State.pc_goto, if_true, Pc.classify] at returns ⊢
        split at returns
        · cases returns
        · split at returns
          · rename_i nonzero negative
            rw [if_neg nonzero, if_pos negative]
          · cases returns
  | storeSequence isAt =>
      rename_i caller _
      cases caller <;> simp [Caller.afterSuccess] at returns
  | _ =>
      simp at returns

/-- What a `false` of `try_dequeue`, and of the pop it is part of, means. -/
structure FalseIsHonest
    (α : Type)
    [Inhabited α]
    (capacity : Nat) : Prop where
  loop :
    ∀ {labels thread message caller ticket} {state next : State α},
      Run (step? (Arithmetic.exact capacity))
        (sequential (Arithmetic.exact capacity))
        (initial (Arithmetic.exact capacity)) labels state →
      sequential (Arithmetic.exact capacity) state
        ⟨thread, .load message⟩ →
      step? (Arithmetic.exact capacity) state ⟨thread, .load message⟩ =
        some next →
      DequeueFails thread caller ticket state next →
      NothingPublished capacity ticket state ∧
        OutUntouched thread state next
  call :
    ∀ {thread op earlier during out} {invoked last : State α},
      CallWindow (Arithmetic.exact capacity)
        (sequential (Arithmetic.exact capacity)) thread op earlier during
        invoked last →
      (last.threads thread).pc = .returning (.popped false out) →
      (op = .pop out ∨ op = .tryPop out) ∧
        Happens (step? (Arithmetic.exact capacity))
          (sequential (Arithmetic.exact capacity)) invoked during
          fun state _ next =>
            ∃ caller ticket,
              DequeueFails thread caller ticket state next ∧
                NothingPublished capacity ticket state

section Meaning

variable [Inhabited α] {capacity thread : Nat} {op : Op α} {out : α}
variable {earlier during : List (Label α)} {invoked last : State α}

/-- A pop that is about to return `false` had a loop that failed. -/
theorem CallWindow.dequeueFails
    (positive : 0 < capacity)
    (window :
      CallWindow (Arithmetic.exact capacity)
        (sequential (Arithmetic.exact capacity)) thread op earlier during
        invoked last)
    (returns :
      (last.threads thread).pc = .returning (.popped false out)) :
    Happens (step? (Arithmetic.exact capacity))
      (sequential (Arithmetic.exact capacity)) invoked during
      fun state _ next =>
        ∃ caller ticket,
          DequeueFails thread caller ticket state next ∧
            NothingPublished capacity ticket state := by
  revert returns
  refine window.step_induction
    (fun labels state =>
      (state.threads thread).pc = .returning (.popped false out) →
      Happens (step? (Arithmetic.exact capacity))
        (sequential (Arithmetic.exact capacity)) invoked labels
        fun state _ next =>
          ∃ caller ticket,
            DequeueFails thread caller ticket state next ∧
              NothingPublished capacity ticket state) ?_ ?_
  · intro before _ _ taken returns
    obtain ⟨_, _, _, isLoad, _⟩ :=
      (Step.of_step? taken).dequeueFails returns
    cases isLoad
  · rintro labels state ⟨mover, action⟩ next shorter failed admitted _ taken
      returns
    rw [Happens.snoc_iff shorter.runs admitted taken]
    have step := Step.of_step? taken
    by_cases same : thread = mover
    · subst same
      right
      obtain ⟨message, caller, ticket, isLoad, fails⟩ :=
        step.dequeueFails returns
      simp only at isLoad
      subst isLoad
      exact ⟨caller, ticket, fails,
        fails.nothingPublished positive (Inv.of_run positive shorter.run)
          admitted taken⟩
    · left
      apply failed
      rw [← step.pc_other same]
      exact returns

/-- `try_dequeue` fails only where nothing is published for its ticket. -/
theorem try_dequeue_false
    (positive : 0 < capacity) :
    FalseIsHonest α capacity where
  loop := by
    intro labels thread message caller ticket state next run admitted taken
      fails
    constructor
    · exact fails.nothingPublished positive (Inv.of_run positive run)
        admitted taken
    · exact fails.outUntouched (Tracked.of_run positive run)
  call := by
    intro thread op earlier during out invoked last window returns
    refine ⟨?_, window.dequeueFails positive returns⟩
    obtain ⟨call, marks, isOpen⟩ := window.current positive
    have tracked : Tracked capacity last :=
      Tracked.of_run positive window.run
    have agrees := tracked.agrees thread
    rw [returns, isOpen] at agrees
    obtain ⟨_, _, _, same, answers⟩ := agrees
    cases same
    exact answers.1

end Meaning

/-- A push that stops between its winning exchange and its store. -/
def stalledPush : List (Label Nat) :=
  [⟨0, .invoke (.tryPush 7)⟩, ⟨0, .load 0⟩, ⟨0, .load 0⟩, ⟨0, .load 0⟩,
    ⟨0, .exchange none⟩]

theorem try_dequeue_false_one :
    ∃ invoked last,
      CallWindow (Arithmetic.exact 1) (sequential (Arithmetic.exact 1)) 1
          (.tryPop 5) stalledPush [⟨1, .load 0⟩, ⟨1, .load 0⟩] invoked
          last ∧
        (last.threads 1).pc = .returning (.popped false 5) ∧
        Happens (step? (Arithmetic.exact 1))
          (sequential (Arithmetic.exact 1)) invoked
          [⟨1, .load 0⟩, ⟨1, .load 0⟩]
          fun state _ next =>
            ∃ caller ticket,
              DequeueFails 1 caller ticket state next ∧
                NothingPublished 1 ticket state := by
  have replayed :
      ∃ before invoked last,
        replay? (step? (Arithmetic.exact 1))
              (sequential (Arithmetic.exact 1))
              (initial (Arithmetic.exact 1)) stalledPush = some before ∧
          sequential (Arithmetic.exact 1) before
            ⟨1, .invoke (.tryPop 5)⟩ ∧
          step? (Arithmetic.exact 1) before ⟨1, .invoke (.tryPop 5)⟩ =
            some invoked ∧
          replay? (step? (Arithmetic.exact 1))
              (sequential (Arithmetic.exact 1)) invoked
              [⟨1, .load 0⟩, ⟨1, .load 0⟩] = some last ∧
          (last.threads 1).pc = .returning (.popped false 5) :=
    ⟨_, _, _, rfl, trivial, rfl, rfl, rfl⟩
  obtain ⟨before, invoked, last, reaches, admitted, opens, follows,
    returns⟩ := replayed
  have window :
      CallWindow (Arithmetic.exact 1) (sequential (Arithmetic.exact 1)) 1
        (.tryPop 5) stalledPush [⟨1, .load 0⟩, ⟨1, .load 0⟩] invoked
        last :=
    .of_replay? reaches admitted opens follows (by decide)
  have honest : FalseIsHonest Nat 1 := try_dequeue_false (by decide)
  exact ⟨invoked, last, window, returns, (honest.call window returns).2⟩

end ConcurrentQueue.Mpmc
