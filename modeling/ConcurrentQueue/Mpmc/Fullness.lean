import ConcurrentQueue.Mpmc.Failures

namespace ConcurrentQueue.Mpmc

/-!
# What a failed `try_push` has seen

`try_push` reports a full queue where the slot of the current ticket is still
in the previous lap.  Either its element is unclaimed, and the queue is full,
or a consumer has claimed the element and not yet released the slot.  In the
second case later consumers may have emptied the queue meanwhile.
-/

open TicketRing

variable {α : Type}

/-- The step is the invocation of a `close()`. -/
def Action.isClose : Action α → Bool
  | .invoke op => op.isClose
  | _ => false

/-- Sequentially consistent steps of a program that never calls `close()`. -/
def neverClosing (arithmetic : Arithmetic) : StepGuard (State α) (Label α) :=
  fun state label =>
    sequential arithmetic state label ∧ label.action.isClose = false

instance
    (arithmetic : Arithmetic)
    (state : State α)
    (label : Label α) :
    Decidable (neverClosing arithmetic state label) :=
  inferInstanceAs (Decidable (_ ∧ _))

/-- The number of elements pushed and unclaimed is the capacity. -/
def State.Full (capacity : Nat) (state : State α) : Prop :=
  (state.pos .producer).latest = (state.pos .consumer).latest + capacity

instance (capacity : Nat) (state : State α) :
    Decidable (state.Full capacity) :=
  inferInstanceAs (Decidable (_ = _))

/--
A thread in `try_push` is about to load the sequence of a slot that a consumer
has claimed in the lap before and not yet released.
-/
def State.BehindConsumer
    (capacity : Nat)
    (state : State α)
    (thread : Nat) : Prop :=
  ∃ value ticket consumer,
    (state.threads thread).pc =
        .loadSequence (.tryPush value) (ticket + capacity) ∧
      (state.threads consumer).pc.holding = some ⟨.consumer, ticket⟩

/-- The queue has not been closed and no thread is about to close it. -/
structure Open (state : State α) : Prop where
  flag :
    ∀ {message flag},
      state.closed.read? message = some flag → flag = false
  nobody : ∀ thread, (state.threads thread).pc ≠ .storeClosed

namespace Open

variable {state next : State α} {thread : Nat} {action : Action α}

/-- The constructor leaves the queue open. -/
theorem initial
    [Inhabited α]
    (arithmetic : Arithmetic) :
    Open (initial arithmetic : State α) where
  flag := by
    intro message flag reads
    cases message with
    | zero =>
        simp only [Mpmc.initial, Atomic.read?, Option.some.injEq] at reads
        exact reads.symm
    | succ =>
        simp [Mpmc.initial, Atomic.read?] at reads
  nobody := by
    intro thread
    simp [Mpmc.initial]

/-- No step but the invocation of `close()` leads to its store. -/
theorem nobody_step
    (isOpen : Open state)
    {arithmetic : Arithmetic}
    (step : Step arithmetic state thread action next)
    (keepsOpen : action.isClose = false)
    (other : Nat) :
    (next.threads other).pc ≠ .storeClosed := by
  by_cases same : other = thread
  · subst same
    cases step with
    | invoke isAt starts =>
        rename_i op pc
        simp only [State.pc_goto, if_true]
        rintro rfl
        cases op <;> simp [Pc.start?] at starts
        cases keepsOpen
    | checkClosed isAt reads =>
        rename_i caller message flag
        simp only [State.pc_goto, if_true]
        cases caller <;> cases flag <;> simp [Caller.afterClosedLoad]
    | loadSequence isAt reads =>
        rename_i caller ticket message sequence
        simp only [State.pc_goto, if_true]
        unfold Pc.classify
        split
        · simp
        · split
          · rcases caller with _ | _ | ⟨_, _ | _⟩ | _ <;>
              simp [Caller.afterFailure]
          · simp
    | storeSequence isAt =>
        rename_i caller ticket
        cases caller <;> simp [Caller.afterSuccess]
    | _ => simp
  · rw [step.pc_other same]
    exact isOpen.nobody other

/-- The queue stays open while nobody invokes `close()`. -/
theorem step
    (isOpen : Open state)
    {arithmetic : Arithmetic}
    (step : Step arithmetic state thread action next)
    (keepsOpen : action.isClose = false) :
    Open next where
  flag := by
    intro message flag reads
    cases step with
    | storeClosed isAt =>
        exact absurd isAt (isOpen.nobody thread)
    | _ =>
        have wasRead : state.closed.read? message = some flag := by
          simpa using reads
        exact isOpen.flag wasRead
  nobody := isOpen.nobody_step step keepsOpen

/-- The queue is open in every state of a run without `close()`. -/
theorem of_run
    [Inhabited α]
    {arithmetic : Arithmetic}
    {labels : List (Label α)}
    (run :
      Run (step? arithmetic) (neverClosing arithmetic)
        (Mpmc.initial arithmetic) labels state) :
    Open state :=
  run.invariant (Open.initial arithmetic) fun isOpen admitted taken =>
    isOpen.step (Step.of_step? taken) admitted.2

end Open

/-- A push on an open queue returns `false` only after a loop that failed. -/
theorem Step.enqueueFails
    {arithmetic : Arithmetic}
    {state next : State α}
    {thread : Nat}
    {action : Action α}
    (isOpen : Open state)
    (step : Step arithmetic state thread action next)
    (returns : (next.threads thread).pc = .returning (.pushed false)) :
    ∃ message value ticket,
      action = .load message ∧
        (state.threads thread).pc =
          .loadSequence (.tryPush value) ticket := by
  cases step with
  | invoke isAt starts =>
      rename_i op pc
      simp only [State.pc_goto, if_true] at returns
      subst returns
      cases op <;> simp [Pc.start?] at starts
  | checkClosed isAt reads =>
      rename_i caller message flag
      have isFalse := isOpen.flag reads
      subst isFalse
      cases caller <;> simp [Caller.afterClosedLoad] at returns
  | loadSequence isAt reads =>
      rename_i caller ticket message sequence
      simp only [State.pc_goto, if_true, Pc.classify] at returns
      split at returns
      · cases returns
      · split at returns
        · rcases caller with _ | value | ⟨_, _ | _⟩ | _ <;> cases returns
          exact ⟨message, value, ticket, rfl, isAt⟩
        · cases returns
  | storeSequence isAt =>
      rename_i caller _
      cases caller <;> simp [Caller.afterSuccess] at returns
  | _ =>
      simp at returns

section Deciding

variable {capacity thread message : Nat} {state next : State α}

/-- A failed `try_push` with no consumer in its slot found a full queue. -/
theorem Inv.full_of_failure
    (positive : 0 < capacity)
    (inv : Inv capacity state)
    (admitted :
      sequential (Arithmetic.exact capacity) state ⟨thread, .load message⟩)
    (taken :
      step? (Arithmetic.exact capacity) state ⟨thread, .load message⟩ =
        some next)
    {value : α}
    {ticket : Nat}
    (isAt :
      (state.threads thread).pc = .loadSequence (.tryPush value) ticket)
    (returns : (next.threads thread).pc = .returning (.pushed false))
    (alone : ¬ state.BehindConsumer capacity thread) :
    state.Full capacity := by
  have before :=
    inv.phase_lt_of_failure positive admitted taken isAt returns
  have current := inv.current_of_phase_lt isAt before
  have isSecondLap : capacity ≤ ticket := by
    by_contra firstLap
    have isZero : stage capacity ⟨.producer, ticket⟩ = 0 :=
      stage_first_lap (Nat.lt_of_not_le firstLap)
    simp only [Caller.side, isZero, Nat.not_lt_zero] at before
  obtain ⟨previous, rfl⟩ := Nat.exists_eq_add_of_le' isSecondLap
  have unclaimed : (state.pos .consumer).newest ≤ previous := by
    by_contra claimed
    have drawn : previous < (state.pos .consumer).newest :=
      Nat.lt_of_not_le claimed
    have reached := inv.balanced.reached ⟨.consumer, previous⟩ drawn
    simp only [Caller.side, stage_add_slots positive, Nat.add_mod_right]
      at before
    have inPhase := Nat.le_antisymm (Nat.le_of_lt_succ before) reached
    obtain ⟨consumer, isHeld⟩ :=
      inv.balanced.holds ⟨.consumer, previous⟩ drawn inPhase
    exact alone ⟨value, previous, consumer, isAt, isHeld⟩
  have within := inv.balanced.withinRing
  simp only [State.taken_ring] at within
  simp only [Caller.side] at current
  unfold State.Full
  rw [inv.latest_pos, inv.latest_pos]
  apply Nat.le_antisymm within
  rw [current]
  exact Nat.add_le_add_right unclaimed capacity

/-- Behind a consumer in its slot `try_push` fails on a queue not full. -/
theorem Inv.fails_behindConsumer
    (positive : 0 < capacity)
    (inv : Inv capacity state)
    (admitted :
      sequential (Arithmetic.exact capacity) state ⟨thread, .load message⟩)
    (taken :
      step? (Arithmetic.exact capacity) state ⟨thread, .load message⟩ =
        some next)
    (behind : state.BehindConsumer capacity thread) :
    (next.threads thread).pc = .returning (.pushed false) ∧
      ¬ state.Full capacity := by
  obtain ⟨value, ticket, consumer, isAt, isHeld⟩ := behind
  have isHolder :
      state.ring.holder consumer = some ⟨.consumer, ticket⟩ :=
    isHeld
  obtain ⟨drawn, inPhase⟩ := inv.balanced.held isHolder
  have before :
      (state.slots ((ticket + capacity) % capacity)).sequence.newest <
        stage capacity ⟨.producer, ticket + capacity⟩ := by
    rw [stage_add_slots positive, Nat.add_mod_right, ← inPhase]
    exact Nat.lt_succ_self _
  have current := inv.current_of_phase_lt isAt before
  constructor
  · simp only [sequential, isAt] at admitted
    have step := Step.of_step? taken
    cases step with
    | loadSequence isAt' reads =>
        rw [isAt] at isAt'
        cases isAt'
        rename_i sequence
        have isNewest :
            message =
              (state.slots
                ((ticket + capacity) % capacity)).sequence.newest :=
          admitted
        have negative :=
          (difference_neg_iff positive .producer (ticket + capacity)
            message).mpr (isNewest ▸ before)
        rw [← inv.sequences (Nat.mod_lt _ positive) reads] at negative
        simp only [State.pc_goto, if_true, Pc.classify]
        rw [if_neg (by exact ne_of_lt negative), if_pos (by exact negative)]
        rfl
    | _ isAt' =>
        rw [isAt] at isAt'
        cases isAt'
  · simp only [State.taken_ring] at drawn
    simp only [Caller.side] at current
    unfold State.Full
    rw [inv.latest_pos, inv.latest_pos, current]
    intro isFull
    have same := Nat.add_right_cancel isFull
    exact absurd drawn (by rw [same]; exact Nat.lt_irrefl _)

end Deciding

/-- Where a `false` of `try_push` on an open queue means that it was full. -/
structure FullnessReports
    (α : Type)
    [Inhabited α]
    (capacity : Nat) : Prop where
  full :
    ∀ {thread value earlier during} {invoked last : State α},
      CallWindow (Arithmetic.exact capacity)
        (neverClosing (Arithmetic.exact capacity)) thread (.tryPush value)
        earlier during invoked last →
      (last.threads thread).pc = .returning (.pushed false) →
      EachStep (step? (Arithmetic.exact capacity))
        (neverClosing (Arithmetic.exact capacity)) invoked during
        (fun state label _ =>
          label.thread = thread →
          ¬ state.BehindConsumer capacity thread) →
      ∃ state,
        Passes (step? (Arithmetic.exact capacity))
            (neverClosing (Arithmetic.exact capacity)) invoked during
            state ∧
          state.Full capacity
  notFull :
    ∀ {labels thread message} {state next : State α},
      Run (step? (Arithmetic.exact capacity))
        (neverClosing (Arithmetic.exact capacity))
        (initial (Arithmetic.exact capacity)) labels state →
      state.BehindConsumer capacity thread →
      neverClosing (Arithmetic.exact capacity) state
        ⟨thread, .load message⟩ →
      step? (Arithmetic.exact capacity) state ⟨thread, .load message⟩ =
        some next →
      (next.threads thread).pc = .returning (.pushed false) ∧
        ¬ state.Full capacity

section Reports

variable [Inhabited α] {capacity : Nat}

/-- A `try_push` that never finds a consumer in its slot reports the truth. -/
theorem CallWindow.passes_full
    (positive : 0 < capacity)
    {thread : Nat}
    {op : Op α}
    {earlier during : List (Label α)}
    {invoked last : State α}
    (window :
      CallWindow (Arithmetic.exact capacity)
        (neverClosing (Arithmetic.exact capacity)) thread op earlier during
        invoked last)
    (returns : (last.threads thread).pc = .returning (.pushed false))
    (alone :
      EachStep (step? (Arithmetic.exact capacity))
        (neverClosing (Arithmetic.exact capacity)) invoked during
        fun state label _ =>
          label.thread = thread →
          ¬ state.BehindConsumer capacity thread) :
    ∃ state,
      Passes (step? (Arithmetic.exact capacity))
          (neverClosing (Arithmetic.exact capacity)) invoked during state ∧
        state.Full capacity := by
  revert returns alone
  refine window.step_induction
    (fun labels state =>
      (state.threads thread).pc = .returning (.pushed false) →
      EachStep (step? (Arithmetic.exact capacity))
        (neverClosing (Arithmetic.exact capacity)) invoked labels
        (fun state label _ =>
          label.thread = thread →
          ¬ state.BehindConsumer capacity thread) →
      ∃ state,
        Passes (step? (Arithmetic.exact capacity))
            (neverClosing (Arithmetic.exact capacity)) invoked labels
            state ∧
          state.Full capacity) ?_ ?_
  · intro before run _ taken returns _
    obtain ⟨_, _, _, isLoad, _⟩ :=
      (Step.of_step? taken).enqueueFails (Open.of_run run) returns
    cases isLoad
  · rintro labels state ⟨mover, action⟩ next shorter passed admitted _ taken
      returns alone
    have step := Step.of_step? taken
    by_cases same : thread = mover
    · subst same
      obtain ⟨message, value, ticket, isLoad, isAt⟩ :=
        step.enqueueFails (Open.of_run shorter.run) returns
      simp only at isLoad
      subst isLoad
      have isFull : state.Full capacity :=
        (Inv.of_run positive shorter.run).full_of_failure positive
          admitted.1 taken isAt returns
          (alone.final shorter.runs taken rfl)
      exact ⟨state, shorter.runs.passes_last.extend _, isFull⟩
    · rw [step.pc_other same] at returns
      obtain ⟨full, passes, isFull⟩ := passed returns alone.front
      exact ⟨full, passes.extend _, isFull⟩

/-- A `false` of `try_push` is true of the queue off claimed slots. -/
theorem try_push_false
    (positive : 0 < capacity) :
    FullnessReports α capacity where
  full := fun window returns alone =>
    window.passes_full positive returns alone
  notFull := fun run behind admitted taken =>
    (Inv.of_run positive run).fails_behindConsumer positive admitted.1
      taken behind

end Reports

/-- Two pushes fill a queue of two. -/
def fillSchedule : List (Label Nat) :=
  [⟨0, .invoke (.tryPush 7)⟩, ⟨0, .load 0⟩, ⟨0, .load 0⟩, ⟨0, .load 0⟩,
    ⟨0, .exchange none⟩, ⟨0, .move 0⟩, ⟨0, .store⟩, ⟨0, .respond⟩,
    ⟨0, .invoke (.tryPush 8)⟩, ⟨0, .load 0⟩, ⟨0, .load 1⟩, ⟨0, .load 0⟩,
    ⟨0, .exchange none⟩, ⟨0, .move 0⟩, ⟨0, .store⟩, ⟨0, .respond⟩]

/-- One consumer claims the oldest element; another pops the next one. -/
def overtakeSchedule : List (Label Nat) :=
  [⟨1, .invoke (.tryPop 0)⟩, ⟨1, .load 0⟩, ⟨1, .load 1⟩,
    ⟨1, .exchange none⟩, ⟨2, .invoke (.tryPop 0)⟩, ⟨2, .load 1⟩,
    ⟨2, .load 1⟩, ⟨2, .exchange none⟩, ⟨2, .move 0⟩, ⟨2, .store⟩,
    ⟨2, .respond⟩]

/-- A `try_push` from its invocation on, as far as its refusal. -/
def refusedSchedule : List (Label Nat) :=
  [⟨3, .load 0⟩, ⟨3, .load 2⟩, ⟨3, .load 1⟩]

theorem try_push_false_two :
    ∃ invoked last,
      CallWindow (Arithmetic.exact 2) (neverClosing (Arithmetic.exact 2)) 3
          (.tryPush 9) fillSchedule refusedSchedule invoked last ∧
        (last.threads 3).pc = .returning (.pushed false) ∧
        ∃ state,
          Passes (step? (Arithmetic.exact 2))
              (neverClosing (Arithmetic.exact 2)) invoked refusedSchedule
              state ∧
            state.Full 2 := by
  have replayed :
      ∃ before invoked last,
        replay? (step? (Arithmetic.exact 2))
              (neverClosing (Arithmetic.exact 2))
              (initial (Arithmetic.exact 2)) fillSchedule = some before ∧
          neverClosing (Arithmetic.exact 2) before
            ⟨3, .invoke (.tryPush 9)⟩ ∧
          step? (Arithmetic.exact 2) before ⟨3, .invoke (.tryPush 9)⟩ =
            some invoked ∧
          replay? (step? (Arithmetic.exact 2))
              (neverClosing (Arithmetic.exact 2)) invoked refusedSchedule =
            some last ∧
          (last.threads 3).pc = .returning (.pushed false) ∧
          ∀ state ∈
              trace (step? (Arithmetic.exact 2)) invoked refusedSchedule,
            state.Full 2 :=
    ⟨_, _, _, rfl, ⟨trivial, rfl⟩, rfl, rfl, rfl, by decide⟩
  obtain ⟨before, invoked, last, reaches, admitted, opens, follows,
    returns, isFull⟩ := replayed
  have window :
      CallWindow (Arithmetic.exact 2) (neverClosing (Arithmetic.exact 2)) 3
        (.tryPush 9) fillSchedule refusedSchedule invoked last :=
    .of_replay? reaches admitted opens follows (by decide)
  have reports : FullnessReports Nat 2 := try_push_false (by decide)
  have loads :
      ∀ label ∈ refusedSchedule, ∃ message, label = ⟨3, .load message⟩ := by
    simp [refusedSchedule]
  refine ⟨invoked, last, window, returns, reports.full window returns ?_⟩
  intro earlier label later state next shape during taken _ behind
  obtain ⟨message, rfl⟩ := loads label (by simp [shape])
  have run := window.runs
  rw [shape] at run
  have passes :
      Passes (step? (Arithmetic.exact 2))
        (neverClosing (Arithmetic.exact 2)) invoked refusedSchedule state :=
    ⟨earlier, _, shape, during⟩
  have notFull :=
    (reports.notFull (window.reached.append during) behind
      (run.after during taken).1 taken).2
  exact notFull (isFull state passes.mem_trace)

/--
A `try_push` behind a stalled consumer returns `false` on an open queue of two
that holds no unclaimed element at any instant of the call.
-/
theorem try_push_false_empty :
    ∃ invoked last,
      CallWindow (Arithmetic.exact 2) (neverClosing (Arithmetic.exact 2)) 3
          (.tryPush 9) (fillSchedule ++ overtakeSchedule) refusedSchedule
          invoked last ∧
        (last.threads 3).pc = .returning (.pushed false) ∧
        ∀ state,
          Passes (step? (Arithmetic.exact 2))
              (neverClosing (Arithmetic.exact 2)) invoked refusedSchedule
              state →
            (state.pos .producer).latest = (state.pos .consumer).latest ∧
              ¬ state.Full 2 := by
  have replayed :
      ∃ before invoked last,
        replay? (step? (Arithmetic.exact 2))
              (neverClosing (Arithmetic.exact 2))
              (initial (Arithmetic.exact 2))
              (fillSchedule ++ overtakeSchedule) = some before ∧
          neverClosing (Arithmetic.exact 2) before
            ⟨3, .invoke (.tryPush 9)⟩ ∧
          step? (Arithmetic.exact 2) before ⟨3, .invoke (.tryPush 9)⟩ =
            some invoked ∧
          replay? (step? (Arithmetic.exact 2))
              (neverClosing (Arithmetic.exact 2)) invoked refusedSchedule =
            some last ∧
          (last.threads 3).pc = .returning (.pushed false) ∧
          ∀ state ∈
              trace (step? (Arithmetic.exact 2)) invoked refusedSchedule,
            (state.pos .producer).latest = (state.pos .consumer).latest ∧
              ¬ state.Full 2 :=
    ⟨_, _, _, rfl, ⟨trivial, rfl⟩, rfl, rfl, rfl, by decide⟩
  obtain ⟨before, invoked, last, reaches, admitted, opens, follows,
    returns, never⟩ := replayed
  refine ⟨invoked, last, ?_, returns, ?_⟩
  · exact .of_replay? reaches admitted opens follows (by decide)
  · intro state passes
    exact never state passes.mem_trace

end ConcurrentQueue.Mpmc
