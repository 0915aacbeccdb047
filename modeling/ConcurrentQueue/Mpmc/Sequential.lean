import ConcurrentQueue.Mpmc.Closing

namespace ConcurrentQueue.Mpmc

/-!
# Sequentially consistent runs

In such a run every load and every failed exchange reads the newest message.
A thread's local ticket then lies between the value its counter had when the
claim loop was entered and the value it has now.
-/

open TicketRing

variable {α : Type}

/-- Every load reads the newest message. -/
def sequential (arithmetic : Arithmetic) : StepGuard (State α) (Label α) :=
  fun state label =>
    match (state.threads label.thread).pc, label.action with
    | .checkClosed _, .load message => message = state.closed.newest
    | .loadClosed, .load message => message = state.closed.newest
    | .loadPos caller, .load message =>
        message = (state.pos caller.side).newest
    | .reloadPos caller _, .load message =>
        message = (state.pos caller.side).newest
    | .exchange caller _, .exchange (some message) =>
        message = (state.pos caller.side).newest
    | .loadSequence _ ticket, .load message =>
        message =
          (state.slots (arithmetic.slotIndex ticket)).sequence.newest
    | .sizeTail, .load message => message = state.enqueuePos.newest
    | .sizeHead _, .load message => message = state.dequeuePos.newest
    | _, _ => True

instance
    (arithmetic : Arithmetic)
    (state : State α)
    (label : Label α) :
    Decidable (sequential arithmetic state label) :=
  decidable_of_bool
    (match (state.threads label.thread).pc, label.action with
      | .checkClosed _, .load message => message == state.closed.newest
      | .loadClosed, .load message => message == state.closed.newest
      | .loadPos caller, .load message =>
          message == (state.pos caller.side).newest
      | .reloadPos caller _, .load message =>
          message == (state.pos caller.side).newest
      | .exchange caller _, .exchange (some message) =>
          message == (state.pos caller.side).newest
      | .loadSequence _ ticket, .load message =>
          message ==
            (state.slots (arithmetic.slotIndex ticket)).sequence.newest
      | .sizeTail, .load message => message == state.enqueuePos.newest
      | .sizeHead _, .load message => message == state.dequeuePos.newest
      | _, _ => true)
    (by unfold sequential; split <;> simp)

/-- The entry mark of a thread is set where a claim loop is entered. -/
theorem State.entered_goto_of_not_entry
    {state : State α}
    {thread : Nat}
    {pc : Pc α}
    (notEntry : ∀ caller, pc ≠ .loadPos caller)
    (other : Nat) :
    ((state.goto thread pc).threads other).entered =
      (state.threads other).entered := by
  by_cases same : other = thread
  · subst same
    cases pc <;> simp_all [goto]
  · simp [goto, same]

@[simp] theorem State.entered_goto_loadPos
    (state : State α)
    (thread : Nat)
    (caller : Caller α) :
    ((state.goto thread (.loadPos caller)).threads thread).entered =
      (state.pos caller.side).newest := by
  simp [goto]

theorem State.entered_goto_of_ne
    {state : State α}
    {thread other : Nat}
    (different : other ≠ thread)
    (pc : Pc α) :
    ((state.goto thread pc).threads other).entered =
      (state.threads other).entered := by
  simp [goto, different]

@[simp] theorem State.entered_noteClose
    (state : State α)
    (thread message other : Nat) :
    ((state.noteClose thread message).threads other).entered =
      (state.threads other).entered := by
  unfold noteClose
  split
  · rfl
  · by_cases same : other = thread <;> simp [same]

namespace Pc

/-- A call that starts inside a loop starts at the loop's first load. -/
theorem eq_loadPos_of_start?
    {slots : Nat}
    {op : Op α}
    {pc : Pc α}
    {caller : Caller α}
    (starts : start? slots op = some pc)
    (isAttempting : pc.attempting = some caller) :
    pc = .loadPos caller := by
  cases op <;>
    simp only [start?, Option.some.injEq, reduceCtorEq] at starts <;>
    subst starts <;>
    simp_all [attempting]

/-- A thread enters its loop from the closed check at the first load. -/
theorem eq_loadPos_of_afterClosedLoad
    {caller entered : Caller α}
    {flag : Bool}
    (isAttempting :
      (caller.afterClosedLoad flag).attempting = some entered) :
    caller.afterClosedLoad flag = .loadPos entered := by
  cases caller <;> cases flag <;>
    simp_all [Caller.afterClosedLoad, attempting]

theorem classify_ne_loadPos
    (caller : Caller α)
    (ticket : Nat)
    (dif : Int)
    (entered : Caller α) :
    classify caller ticket dif ≠ .loadPos entered := by
  unfold classify
  split
  · simp
  · split
    · rcases caller with _ | _ | ⟨_, _ | _⟩ | _ <;>
        simp [Caller.afterFailure]
    · simp

end Pc

/-- Local tickets are not older than the entry into the claim loop. -/
structure Windowed (state : State α) : Prop where
  entered :
    ∀ {thread caller},
      (state.threads thread).pc.attempting = some caller →
      (state.threads thread).entered ≤ (state.pos caller.side).newest
  considered :
    ∀ {thread ticket},
      (state.threads thread).pc.considering = some ticket →
      (state.threads thread).entered ≤ ticket.number
  tails :
    ∀ {thread tail},
      (state.threads thread).pc = .sizeHead tail →
      tail ≤ (state.pos .producer).newest

namespace Windowed

variable {capacity : Nat} {state next : State α}
variable {thread : Nat} {action : Action α}

/-- No thread is inside a loop at first. -/
theorem initial
    [Inhabited α]
    (arithmetic : Arithmetic) :
    Windowed (initial arithmetic : State α) where
  entered := by
    intro thread caller isAttempting
    simp [Mpmc.initial, Pc.attempting] at isAttempting
  considered := by
    intro thread ticket isConsidering
    simp [Mpmc.initial, Pc.considering] at isConsidering
  tails := by
    intro thread tail isAt
    simp [Mpmc.initial] at isAt

/-- Only the moving thread may get a new entry mark. -/
theorem entered_other
    {arithmetic : Arithmetic}
    (step : Step arithmetic state thread action next)
    {other : Nat}
    (different : other ≠ thread) :
    (next.threads other).entered = (state.threads other).entered := by
  cases step <;> simp [State.entered_goto_of_ne different]

/-- The counter has not moved back since the loop was entered. -/
theorem entered_step
    (windowed : Windowed state)
    {arithmetic : Arithmetic}
    (step : Step arithmetic state thread action next)
    {other : Nat}
    {caller : Caller α}
    (isAttempting :
      (next.threads other).pc.attempting = some caller) :
    (next.threads other).entered ≤ (next.pos caller.side).newest := by
  by_cases same : other = thread
  · subst same
    have stays :
        ∀ {before : Caller α},
          (state.threads other).pc.attempting = some before →
          before.side = caller.side →
          (next.threads other).entered = (state.threads other).entered →
          (next.threads other).entered ≤ (next.pos caller.side).newest := by
      intro before wasAttempting sameSide sameEntry
      rw [sameEntry, ← sameSide]
      exact Nat.le_trans (windowed.entered wasAttempting)
        (step.newest_pos_le before.side)
    cases step with
    | invoke isAt starts =>
        simp only [State.pc_goto, if_true] at isAttempting
        rw [Pc.eq_loadPos_of_start? starts isAttempting]
        simp
    | checkClosed isAt reads =>
        simp only [State.pc_goto, if_true] at isAttempting
        rw [Pc.eq_loadPos_of_afterClosedLoad isAttempting]
        simp
    | loadSequence isAt reads =>
        simp only [State.pc_goto, if_true] at isAttempting
        have same := Pc.attempting_classify isAttempting
        subst same
        exact stays (by rw [isAt]; rfl) rfl
          (State.entered_goto_of_not_entry
            (Pc.classify_ne_loadPos _ _ _) _)
    | moveValue isAt =>
        simp only [State.pc_goto, if_true, Pc.attempting,
          Option.some.injEq] at isAttempting
        subst isAttempting
        exact stays (by rw [isAt]; rfl) (by simp)
          (State.entered_goto_of_not_entry (by simp) _)
    | claim isAt =>
        simp only [State.pc_goto, if_true, Pc.attempting,
          Option.some.injEq] at isAttempting
        subst isAttempting
        refine stays (by rw [isAt]; rfl) rfl ?_
        rw [State.entered_goto_of_not_entry (by simp)]
        simp
    | loadPos isAt | reloadPos isAt | lost isAt =>
        simp only [State.pc_goto, if_true, Pc.attempting,
          Option.some.injEq] at isAttempting
        subst isAttempting
        exact stays (by rw [isAt]; rfl) rfl
          (State.entered_goto_of_not_entry (by simp) _)
    | storeSequence =>
        simp at isAttempting
    | storeClosed | loadClosed | sizeTail | sizeHead | respond =>
        simp [Pc.attempting] at isAttempting
  · rw [step.pc_other same] at isAttempting
    rw [entered_other step same]
    exact Nat.le_trans (windowed.entered isAttempting)
      (step.newest_pos_le caller.side)

/-- A local ticket was loaded after the loop was entered. -/
theorem considered_step
    (windowed : Windowed state)
    (inv : Inv capacity state)
    (admitted :
      sequential (Arithmetic.exact capacity) state ⟨thread, action⟩)
    (step :
      Step (Arithmetic.exact capacity) state thread action next)
    {other : Nat}
    {ticket : Ticket}
    (isConsidering :
      (next.threads other).pc.considering = some ticket) :
    (next.threads other).entered ≤ ticket.number := by
  by_cases same : other = thread
  · subst same
    cases step with
    | loadPos isAt reads | reloadPos isAt reads | lost isAt reads =>
        simp only [sequential, isAt] at admitted
        simp only [State.pc_goto, if_true, Pc.considering_loadSequence,
          Option.some.injEq] at isConsidering
        subst isConsidering
        rw [State.entered_goto_of_not_entry (by simp),
          inv.positions reads, admitted]
        exact windowed.entered (by rw [isAt]; rfl)
    | loadSequence isAt reads =>
        simp only [State.pc_goto, if_true] at isConsidering
        rw [Pc.considering_classify _ _ isConsidering,
          State.entered_goto_of_not_entry (Pc.classify_ne_loadPos _ _ _)]
        have isConsidering' := congrArg Pc.considering isAt
        rw [Pc.considering_loadSequence] at isConsidering'
        exact windowed.considered isConsidering'
    | invoke isAt starts =>
        simp [Pc.considering_start? starts] at isConsidering
    | checkClosed isAt reads | storeSequence isAt =>
        simp at isConsidering
    | claim | moveValue | storeClosed | loadClosed | sizeTail | sizeHead
    | respond =>
        simp [Pc.considering] at isConsidering
  · rw [step.pc_other same] at isConsidering
    rw [entered_other step same]
    exact windowed.considered isConsidering

/-- The tail that `size()` loaded has not been overtaken. -/
theorem tails_step
    (windowed : Windowed state)
    (inv : Inv capacity state)
    (step :
      Step (Arithmetic.exact capacity) state thread action next)
    {other tail : Nat}
    (isAt : (next.threads other).pc = .sizeHead tail) :
    tail ≤ (next.pos .producer).newest := by
  by_cases same : other = thread
  · subst same
    cases step with
    | sizeTail _ reads =>
        simp only [State.pc_goto, if_true, Pc.sizeHead.injEq] at isAt
        have reads' : (state.pos .producer).read? _ = some _ := reads
        rw [← isAt, inv.positions reads']
        simpa using Atomic.le_newest_of_read? _ reads'
    | invoke _ starts =>
        simp only [State.pc_goto, if_true] at isAt
        subst isAt
        rename_i op _
        cases op <;> simp [Pc.start?] at starts
    | checkClosed =>
        rename_i caller _ flag _ _
        cases caller <;> cases flag <;>
          simp [Caller.afterClosedLoad] at isAt
    | loadSequence =>
        rename_i caller _ _ _ _ _
        simp only [State.pc_goto, if_true, Pc.classify] at isAt
        split at isAt
        · cases isAt
        · split at isAt
          · rcases caller with _ | _ | ⟨_, _ | _⟩ | _ <;> cases isAt
          · cases isAt
    | storeSequence =>
        rename_i caller _ _
        cases caller <;> simp [Caller.afterSuccess] at isAt
    | _ =>
        simp at isAt
  · rw [step.pc_other same] at isAt
    exact Nat.le_trans (windowed.tails isAt)
      (step.newest_pos_le .producer)

/-- The window holds in every state a sequential run reaches. -/
theorem of_run
    [Inhabited α]
    (positive : 0 < capacity)
    {guard : StepGuard (State α) (Label α)}
    (implied :
      ∀ state label,
        guard state label →
        sequential (Arithmetic.exact capacity) state label)
    {labels : List (Label α)}
    (run :
      Run (step? (Arithmetic.exact capacity)) guard
        (Mpmc.initial (Arithmetic.exact capacity)) labels state) :
    Windowed state :=
  run.invariant_of (Inv.of_run positive) (Windowed.initial _)
    fun inv _ windowed admitted taken =>
      { entered := windowed.entered_step (Step.of_step? taken)
        considered :=
          windowed.considered_step inv (implied _ _ admitted)
            (Step.of_step? taken)
        tails := windowed.tails_step inv (Step.of_step? taken) }

end Windowed

end ConcurrentQueue.Mpmc
