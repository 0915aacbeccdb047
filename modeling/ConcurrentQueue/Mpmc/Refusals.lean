import ConcurrentQueue.Mpmc.Retries

namespace ConcurrentQueue.Mpmc

/-!
# When `push` and `pop` are refused

A blocking call returns `false` only after a load of `closed_` has returned
`true`: at once for a push, and after one more attempt for a pop.
-/

variable {α : Type}

section Refusals

variable {capacity thread : Nat} {action : Action α}
variable {state next : State α}

/-- A blocking call that drew no ticket can only return a refusal. -/
theorem Answers.isRefusal
    {op : Op α}
    {result : Result α}
    (answers : Answers op [] result)
    (blocking : op.isBlocking = true) :
    result.isRefusal = true := by
  cases result with
  | pushed accepted =>
      cases accepted with
      | true =>
          obtain ⟨_, number, drawn⟩ := answers
          cases drawn
      | false => rfl
  | popped delivered out =>
      cases delivered with
      | true =>
          obtain ⟨_, number, drawn⟩ := answers
          cases drawn
      | false => rfl
  | done | closed | size | capacity =>
      obtain ⟨rfl, _⟩ := answers
      cases blocking
  | _ => exact answers.elim

/-- What blocking calls that were refused say about the closed flag. -/
structure Refusals (state : State α) : Prop where
  latched :
    ∀ {message},
      state.closed.read? message = some true → state.closed.latest = true
  invoked : state.closed.latest = true → state.CloseInvoked
  sawClosed :
    ∀ {thread out},
      (state.threads thread).pc.attempting = some (.pop out true) →
      state.closed.latest = true
  refused :
    ∀ {thread opened result},
      state.log.current thread = some opened →
      opened.op.isBlocking = true →
      (state.threads thread).pc = .returning result →
      result.isRefusal = true →
      state.closed.latest = true
  completed :
    ∀ {call op tickets result},
      state.log.Completed call op tickets result →
      op.isBlocking = true →
      result.isRefusal = true →
      state.closed.latest = true

/-- A step either leaves `closed_` alone or stores `true` in it. -/
theorem Step.closed_eq
    {arithmetic : Arithmetic}
    (step : Step arithmetic state thread action next) :
    next.closed = state.closed ∨
      next.closed = state.closed.store (state.callOf thread) true := by
  cases step with
  | storeClosed => exact Or.inr (by simp)
  | _ => exact Or.inl (by simp)

/-- A queue that is closed stays closed. -/
theorem Step.stays_closed
    {arithmetic : Arithmetic}
    (step : Step arithmetic state thread action next)
    (isClosed : state.closed.latest = true) :
    next.closed.latest = true := by
  rcases step.closed_eq with same | stored
  · rw [same, isClosed]
  · rw [stored, Atomic.latest_store]

namespace Refusals

/-- A pop makes its last attempt only after it has read `true`. -/
theorem sawClosed_step
    {arithmetic : Arithmetic}
    (refusals : Refusals state)
    (step : Step arithmetic state thread action next)
    {out : α}
    (attempts :
      (next.threads thread).pc.attempting = some (.pop out true)) :
    state.closed.latest = true := by
  cases step with
  | invoke isAt starts =>
      rw [State.pc_goto, if_pos rfl] at attempts
      have start := Pc.attempting_start? starts attempts
      exact absurd rfl (start.2 out)
  | checkClosed isAt reads =>
      rw [State.pc_goto, if_pos rfl] at attempts
      have flag := (Pc.attempting_afterClosedLoad attempts).2 out rfl
      rw [flag] at reads
      exact refusals.latched reads
  | loadSequence isAt reads =>
      rw [State.pc_goto, if_pos rfl] at attempts
      have same := Pc.attempting_classify attempts
      apply refusals.sawClosed
      rw [isAt, same]
      rfl
  | loadPos isAt | reloadPos isAt | claim isAt | lost isAt =>
      rw [State.pc_goto, if_pos rfl] at attempts
      apply refusals.sawClosed
      rw [isAt]
      exact attempts
  | @moveValue caller ticket husk isAt =>
      rw [State.pc_goto, if_pos rfl] at attempts
      cases caller <;> cases attempts
      apply refusals.sawClosed
      rw [isAt]
      rfl
  | storeSequence isAt =>
      rw [State.pc_goto, if_pos rfl, Pc.attempting_afterSuccess]
        at attempts
      cases attempts
  | _ =>
      rw [State.pc_goto, if_pos rfl] at attempts
      cases attempts

/-- A blocking call decides to be refused only where it has read `true`. -/
theorem refused_step
    {arithmetic : Arithmetic}
    (refusals : Refusals state)
    (tracked : Tracked capacity state)
    (step : Step arithmetic state thread action next)
    {opened : OpenCall (Op α) Ticket}
    {result : Result α}
    (isCurrent : next.log.current thread = some opened)
    (blocking : opened.op.isBlocking = true)
    (returns : (next.threads thread).pc = .returning result)
    (isRefusal : result.isRefusal = true) :
    state.closed.latest = true := by
  have agrees := tracked.agrees thread
  cases step with
  | @invoke op pc isAt starts =>
      rw [State.pc_goto, if_pos rfl] at returns
      subst returns
      cases op <;> cases starts
      cases isRefusal
  | @checkClosed caller message flag isAt reads =>
      rw [State.log_goto, State.log_noteClose] at isCurrent
      rw [isAt, isCurrent] at agrees
      obtain ⟨call, shape⟩ := agrees
      cases shape
      rw [State.pc_goto, if_pos rfl] at returns
      cases caller with
      | push value =>
          cases flag with
          | true => exact refusals.latched reads
          | false => cases returns
      | pop out seen => cases returns
      | tryPush | tryPop => cases blocking
  | @loadSequence caller ticket message sequence isAt reads =>
      rw [State.log_goto] at isCurrent
      rw [isAt, isCurrent] at agrees
      obtain ⟨call, shape⟩ := agrees
      cases shape
      rw [State.pc_goto, if_pos rfl] at returns
      unfold Pc.classify at returns
      split at returns
      · cases returns
      · split at returns
        · rcases caller with _ | _ | ⟨out, _ | _⟩ | _
          case pop.true =>
              apply refusals.sawClosed
              rw [isAt]
              rfl
          case tryPush | tryPop => cases blocking
          all_goals cases returns
        · cases returns
  | @storeSequence caller ticket isAt =>
      rw [State.pc_goto, if_pos rfl] at returns
      cases caller <;> cases returns <;> cases isRefusal
  | storeClosed | loadClosed | sizeHead =>
      rw [State.pc_goto, if_pos rfl] at returns
      cases returns
      cases isRefusal
  | _ =>
      rw [State.pc_goto, if_pos rfl] at returns
      cases returns

/-- The flag is stored by a call of `close()`. -/
theorem invoked_step
    {arithmetic : Arithmetic}
    (refusals : Refusals state)
    (tracked : Tracked capacity state)
    (step : Step arithmetic state thread action next)
    (isClosed : next.closed.latest = true) :
    next.CloseInvoked := by
  have earlier : state.CloseInvoked := by
    cases step with
    | storeClosed isAt =>
        have agrees := tracked.agrees thread
        rw [isAt] at agrees
        obtain ⟨call, isCurrent⟩ := agrees
        exact ⟨thread, call, tracked.wellFormed.currentInvoked isCurrent⟩
    | _ => exact refusals.invoked (by simpa using isClosed)
  obtain ⟨closer, close, member⟩ := earlier
  exact ⟨closer, close, Tracked.history_subset step member⟩

theorem step
    {arithmetic : Arithmetic}
    (refusals : Refusals state)
    (tracked : Tracked capacity state)
    (step : Step arithmetic state thread action next) :
    Refusals next where
  latched := by
    intro message reads
    rcases step.closed_eq with same | stored
    · rw [same] at reads ⊢
      exact refusals.latched reads
    · rw [stored, Atomic.latest_store]
  invoked := refusals.invoked_step tracked step
  sawClosed := by
    intro other out attempts
    apply step.stays_closed
    by_cases own : other = thread
    · subst own
      exact refusals.sawClosed_step step attempts
    · rw [step.pc_other own] at attempts
      exact refusals.sawClosed attempts
  refused := by
    intro other opened result isCurrent blocking returns isRefusal
    apply step.stays_closed
    by_cases own : other = thread
    · subst own
      exact refusals.refused_step tracked step isCurrent blocking returns
        isRefusal
    · rw [step.pc_other own] at returns
      rw [Tracked.current_other step own] at isCurrent
      exact refusals.refused isCurrent blocking returns isRefusal
  completed := by
    intro call op tickets result completed blocking isRefusal
    apply step.stays_closed
    rcases tracked.completed_step step completed with
      old | ⟨isAt, isCurrent⟩
    · exact refusals.completed old blocking isRefusal
    · exact refusals.refused isCurrent blocking isAt isRefusal

/-- In the initial state nothing has been refused. -/
theorem initial
    [Inhabited α]
    (arithmetic : Arithmetic) :
    Refusals (Mpmc.initial arithmetic : State α) where
  latched := by
    intro message reads
    cases message <;> cases reads
  invoked := nofun
  sawClosed := nofun
  refused := nofun
  completed := by
    rintro call op tickets result ⟨thread, invoked, _⟩
    cases invoked

/-- Refusals are explained in every reachable state. -/
theorem of_run
    [Inhabited α]
    (positive : 0 < capacity)
    {guard : StepGuard (State α) (Label α)}
    {labels : List (Label α)}
    (run :
      Run (step? (Arithmetic.exact capacity)) guard
        (Mpmc.initial (Arithmetic.exact capacity)) labels state) :
    Refusals state :=
  run.invariant_of (Tracked.of_run positive) (Refusals.initial _)
    fun tracked _ refusals _ taken =>
      refusals.step tracked (Step.of_step? taken)

end Refusals

end Refusals

/--
A `push` or `pop` returns `false` only where `close()` was called and its flag
is set, whatever the loads of other threads and its own have read before.
-/
theorem refused_only_when_closed
    [Inhabited α]
    {capacity : Nat}
    {labels : List (Label α)}
    {state : State α}
    {call : Nat}
    {op : Op α}
    {tickets : List Ticket}
    {result : Result α}
    (positive : 0 < capacity)
    (run :
      Run (step? (Arithmetic.exact capacity)) unrestricted
        (initial (Arithmetic.exact capacity)) labels state)
    (completed : state.log.Completed call op tickets result)
    (blocking : op.isBlocking = true)
    (isRefusal : result.isRefusal = true) :
    state.closed.latest = true ∧ state.CloseInvoked := by
  have refusals : Refusals state := Refusals.of_run positive run
  have isClosed := refusals.completed completed blocking isRefusal
  exact ⟨isClosed, refusals.invoked isClosed⟩

/-- A push that is made after the queue was closed. -/
def closedPushSchedule : List (Label Nat) :=
  [⟨1, .invoke .close⟩, ⟨1, .store⟩, ⟨0, .invoke (.push 7)⟩, ⟨0, .load 1⟩,
    ⟨0, .respond⟩]

theorem refused_only_when_closed_push :
    ∃ state,
      replay? (step? (Arithmetic.exact 1)) unrestricted
          (initial (Arithmetic.exact 1)) closedPushSchedule = some state ∧
        state.log.Completed 1 (.push 7) [] (.pushed false) ∧
        state.closed.latest = true ∧ state.CloseInvoked := by
  have replayed :
      ∃ state,
        replay? (step? (Arithmetic.exact 1)) unrestricted
            (initial (Arithmetic.exact 1)) closedPushSchedule = some state ∧
          state.log.history[1]? = some (.invoke 0 1 (.push 7)) ∧
          state.log.history[2]? = some (.respond 0 1 (.pushed false)) ∧
          state.log.marksOf 1 = [] :=
    ⟨_, rfl, rfl, rfl, rfl⟩
  obtain ⟨state, accepted, invoked, returned, noMarks⟩ := replayed
  have completed :
      state.log.Completed 1 (.push 7) [] (.pushed false) :=
    ⟨0, List.mem_of_getElem? invoked, List.mem_of_getElem? returned,
      noMarks⟩
  exact ⟨state, accepted, completed,
    refused_only_when_closed (by decide) (Run.of_replay? accepted) completed
      rfl rfl⟩

end ConcurrentQueue.Mpmc
