import ConcurrentQueue.Mutex.Steps

namespace ConcurrentQueue.Mutex

/-!
# Calls and the critical sections that decide them

The history of a run agrees with the program counters: a call that is about to
return has noted exactly one decision, made in one of its critical sections,
and returns the result decided there.
-/

variable {α : Type}

namespace Commit

/-- The call that was decided. -/
def op : Commit α → Op α
  | .answered op _ _ => op
  | .pushThrew op => op
  | .popThrew op _ _ => op

/-- The result that was decided. -/
def result : Commit α → Result α
  | .answered _ result _ => result
  | .pushThrew _ => .pushThrew
  | .popThrew _ _ outValue => .popThrew outValue

end Commit

/-- The result a call may return with the decisions it has noted. -/
def Answers
    (slots : Nat)
    (op : Op α)
    (marks : List (Commit α))
    (result : Result α) : Prop :=
  (∃ made, marks = [made] ∧ made.op = op ∧ made.result = result) ∨
    op = .capacity ∧ marks = [] ∧ result = .capacity slots

/-- A call in progress. -/
abbrev Opened (α : Type) :=
  Option (OpenCall (Op α) (Commit α))

/-- A call in progress whose result is decided. -/
def Decided
    (slots : Nat)
    (opened : Opened α)
    (result : Result α) : Prop :=
  ∃ call op marks,
    opened = some ⟨call, op, marks⟩ ∧ Answers slots op marks result

/-- The call in progress that a program counter stands for. -/
def Pc.Agrees (slots : Nat) (opened : Opened α) : Pc α → Prop
  | .idle => opened = none
  | .enter op | .blocked op => ∃ call, opened = some ⟨call, op, []⟩
  | .released op timedOut =>
      (∃ call, opened = some ⟨call, op, []⟩) ∧
        (timedOut = true → isTimed op = true)
  | .notifyOne _ result | .returning result => Decided slots opened result
  | .notifyAllNotFull | .notifyAllNotEmpty => Decided slots opened .done

section Agreement

variable {slots : Nat} {opened : Opened α} {op : Op α} {timedOut : Bool}

/-- A call starts undecided, except `capacity()`. -/
theorem Pc.agrees_start?
    {call : Nat}
    {pc : Pc α}
    (starts : Pc.start? slots op = some pc) :
    pc.Agrees slots (some ⟨call, op, []⟩) := by
  cases op with
  | capacity =>
      cases starts
      exact ⟨call, _, [], rfl, Or.inr ⟨rfl, rfl, rfl⟩⟩
  | tryPushN | tryPopN =>
      cases starts
  | _ =>
      cases starts
      exact ⟨call, rfl⟩

/-- A released thread is in the same call as before. -/
theorem Pc.agrees_release
    {pc : Pc α}
    (condition : Condition)
    (agrees : pc.Agrees slots opened) :
    (pc.release condition).Agrees slots opened := by
  cases pc with
  | blocked op =>
      simp only [Pc.release]
      split
      · exact ⟨agrees, by simp⟩
      · exact agrees
  | _ =>
      exact agrees

/-- A thread that locks `mutex_` is in an undecided call. -/
theorem Pc.undecided_of_locks
    {pc : Pc α}
    (locks : pc.locks? = some (op, timedOut))
    (agrees : pc.Agrees slots opened) :
    (∃ call, opened = some ⟨call, op, []⟩) ∧
      (timedOut = true → isTimed op = true) := by
  cases pc with
  | enter | released =>
      cases locks
      first
        | exact agrees
        | exact ⟨agrees, by simp⟩
  | _ =>
      cases locks

/-- What follows a critical section agrees with what it decided. -/
theorem State.agrees_afterLock
    {state : State α}
    {thread call : Nat}
    {verdict : Verdict α}
    {moving : Moving α}
    (isCurrent : state.log.current thread = some ⟨call, op, []⟩) :
    (state.afterLock op verdict moving).Agrees slots
      ((state.act slots thread op timedOut verdict moving).log.current
        thread) := by
  have decided :
      ∀ (made : Commit α) (result : Result α),
        made.op = op →
        made.result = result →
        Decided slots ((state.log.mark thread made).current thread)
          result := by
    intro made result sameOp sameResult
    refine ⟨call, op, [made], ?_, Or.inl ⟨made, rfl, sameOp, sameResult⟩⟩
    simp [CallLog.mark_of_current _ isCurrent]
  rw [State.log_act]
  cases verdict <;> cases moving <;>
    first
      | exact ⟨call, isCurrent⟩
      | exact decided _ _ rfl rfl

end Agreement

/-- The history agrees with the program counters and the results. -/
structure Tracked (slots : Nat) (state : State α) : Prop where
  wellFormed : state.log.WellFormed
  agrees :
    ∀ {thread : Nat} {pc : Pc α},
      state.threads[thread]? = some pc →
      pc.Agrees slots (state.log.current thread)
  answered :
    ∀ {call op marks result},
      state.log.Completed call op marks result →
      Answers slots op marks result

namespace Tracked

variable {slots thread : Nat} {state next : State α} {action : Action α}

/-- The constructor starts with an empty history. -/
theorem initial [Inhabited α] (threads : Nat) :
    Tracked slots (initial threads : State α) where
  wellFormed := CallLog.WellFormed.empty
  agrees := by
    intro thread pc isAt
    obtain ⟨_, isIdle⟩ := List.getElem?_eq_some_iff.mp isAt
    simp only [Mutex.initial, List.getElem_replicate] at isIdle
    rw [← isIdle]
    rfl
  answered := by
    rintro call op marks result ⟨owner, invoked, _⟩
    simp [Mutex.initial] at invoked

/-- What a step may do to the history. -/
theorem log_step
    (tracked : Tracked slots state)
    (step : Step slots state thread action next) :
    next.log = state.log ∨
      (∃ op,
        action = .invoke op ∧ state.log.current thread = none ∧
          next.log = state.log.invoke thread op) ∨
      (∃ call op made,
        state.log.current thread = some ⟨call, op, []⟩ ∧
          made.op = op ∧
          next.log = state.log.mark thread made) ∨
      ∃ result,
        Decided slots (state.log.current thread) result ∧
          next.log = state.log.respond thread result := by
  cases step with
  | invoke isAt starts =>
      exact Or.inr (Or.inl ⟨_, rfl, tracked.agrees isAt, rfl⟩)
  | lock isAt locks decides =>
      rename_i pc op timedOut verdict moving
      obtain ⟨⟨call, isCurrent⟩, _⟩ :=
        Pc.undecided_of_locks locks (tracked.agrees isAt)
      rw [State.log_act]
      cases verdict <;> cases moving <;>
        first
          | exact Or.inl rfl
          | exact Or.inr (Or.inr (Or.inl ⟨call, op, _, isCurrent, rfl, rfl⟩))
  | respond isAt =>
      exact Or.inr (Or.inr (Or.inr ⟨_, tracked.agrees isAt, rfl⟩))
  | _ => exact Or.inl rfl

/-- The history of the next state is well formed. -/
theorem wellFormed_step
    (tracked : Tracked slots state)
    (step : Step slots state thread action next) :
    next.log.WellFormed := by
  rcases tracked.log_step step with
    same | ⟨op, _, isIdle, shape⟩ | ⟨call, op, made, isCurrent, _, shape⟩
    | ⟨result, ⟨call, op, marks, isCurrent, _⟩, shape⟩
  · rw [same]
    exact tracked.wellFormed
  · rw [shape]
    exact tracked.wellFormed.invoke isIdle op
  · rw [shape]
    exact tracked.wellFormed.mark isCurrent made
  · rw [shape]
    exact tracked.wellFormed.respond isCurrent result

/-- A step touches no call but that of the moving thread. -/
theorem current_other
    (tracked : Tracked slots state)
    (step : Step slots state thread action next)
    {other : Nat}
    (different : other ≠ thread) :
    next.log.current other = state.log.current other := by
  rcases tracked.log_step step with
    same | ⟨op, _, _, shape⟩ | ⟨_, _, made, _, _, shape⟩
    | ⟨result, _, shape⟩
  · rw [same]
  · rw [shape]
    simp [different]
  · rw [shape]
    exact state.log.current_mark_of_ne different made
  · rw [shape]
    exact state.log.current_respond_of_ne different result

/-- A call is completed by the step that returns from it. -/
theorem completed_step
    (tracked : Tracked slots state)
    (step : Step slots state thread action next)
    {call : Nat}
    {op : Op α}
    {marks : List (Commit α)}
    {result : Result α}
    (completed : next.log.Completed call op marks result) :
    state.log.Completed call op marks result ∨
      Answers slots op marks result := by
  rcases tracked.log_step step with
    same | ⟨op', _, _, shape⟩ | ⟨_, _, made, isCurrent, _, shape⟩
    | ⟨decided, ⟨owner, op', marks', isCurrent, answers⟩, shape⟩
  · rw [same] at completed
    exact Or.inl completed
  · rw [shape] at completed
    exact Or.inl (tracked.wellFormed.completed_invoke.mp completed)
  · rw [shape] at completed
    exact Or.inl
      ((tracked.wellFormed.completed_mark isCurrent).mp completed)
  · rw [shape] at completed
    rcases (tracked.wellFormed.completed_respond isCurrent).mp completed
      with old | ⟨rfl, rfl, rfl, rfl⟩
    · exact Or.inl old
    · exact Or.inr answers

/-- The moving thread agrees with its call after its step. -/
theorem own_step
    (tracked : Tracked slots state)
    (step : Step slots state thread action next)
    {pc : Pc α}
    (isAt : next.threads[thread]? = some pc) :
    pc.Agrees slots (next.log.current thread) := by
  cases step with
  | invoke wasAt starts =>
      rw [Monitor.eq_of_getElem?_set isAt]
      simpa [State.goto, State.invoke] using Pc.agrees_start? starts
  | lock wasAt locks decides =>
      obtain ⟨⟨call, isCurrent⟩, _⟩ :=
        Pc.undecided_of_locks locks (tracked.agrees wasAt)
      rw [State.threads_act] at isAt
      rw [Monitor.eq_of_getElem?_set isAt]
      exact State.agrees_afterLock isCurrent
  | wake wasAt =>
      rw [Monitor.eq_of_getElem?_set isAt]
      exact ⟨tracked.agrees wasAt, by simp⟩
  | timeout wasAt timed =>
      rw [Monitor.eq_of_getElem?_set isAt]
      exact ⟨tracked.agrees wasAt, fun _ => timed⟩
  | lateTimeout wasAt timed =>
      rw [Monitor.eq_of_getElem?_set isAt]
      exact ⟨(tracked.agrees wasAt).1, fun _ => timed⟩
  | notifyNobody wasAt _ | notifyOne wasAt _ _ | notifyAllNotFull wasAt
  | notifyAllNotEmpty wasAt =>
      rw [Monitor.eq_of_getElem?_set isAt]
      have decided := tracked.agrees wasAt
      exact decided
  | respond wasAt =>
      rw [Monitor.eq_of_getElem?_set isAt]
      obtain ⟨call, op, marks, isCurrent, _⟩ := tracked.agrees wasAt
      simp [State.goto, State.respond,
        CallLog.respond_of_current _ isCurrent, Pc.Agrees]

end Tracked

/-- A thread that does not move stays where it is, or is released. -/
theorem Step.other
    {slots thread other : Nat}
    {state next : State α}
    {action : Action α}
    (step : Step slots state thread action next)
    (different : other ≠ thread)
    {pc : Pc α}
    (isAt : next.threads[other]? = some pc) :
    ∃ before,
      state.threads[other]? = some before ∧
        (pc = before ∨ ∃ condition, pc = before.release condition) := by
  cases step with
  | lock =>
      rw [State.threads_act, List.getElem?_set_ne different.symm] at isAt
      exact ⟨pc, isAt, Or.inl rfl⟩
  | notifyOne wasAt waits isBlocked =>
      rename_i condition result waiter waiting
      simp only [State.goto, List.getElem?_set_ne different.symm] at isAt
      by_cases same : waiter = other
      · subst same
        have shape := Monitor.eq_of_getElem?_set isAt
        exact ⟨waiting, waits, Or.inr ⟨condition, shape⟩⟩
      · rw [List.getElem?_set_ne same] at isAt
        exact ⟨pc, isAt, Or.inl rfl⟩
  | notifyAllNotFull | notifyAllNotEmpty =>
      simp only [State.goto, State.notifyAll,
        List.getElem?_set_ne different.symm, List.getElem?_map,
        Option.map_eq_some_iff] at isAt
      obtain ⟨before, wasAt, rfl⟩ := isAt
      exact ⟨before, wasAt, Or.inr ⟨_, rfl⟩⟩
  | _ =>
      simp only [State.goto, State.invoke, State.respond,
        List.getElem?_set_ne different.symm] at isAt
      exact ⟨pc, isAt, Or.inl rfl⟩

/-- Every step keeps the history in agreement with the machine. -/
theorem Tracked.step
    {slots thread : Nat}
    {state next : State α}
    {action : Action α}
    (tracked : Tracked slots state)
    (step : Step slots state thread action next) :
    Tracked slots next where
  wellFormed := tracked.wellFormed_step step
  agrees := by
    intro other pc isAt
    by_cases same : other = thread
    · subst same
      exact tracked.own_step step isAt
    · rw [tracked.current_other step same]
      obtain ⟨before, wasAt, rfl | ⟨condition, rfl⟩⟩ :=
        step.other same isAt
      · exact tracked.agrees wasAt
      · exact Pc.agrees_release condition (tracked.agrees wasAt)
  answered := by
    intro call op marks result completed
    rcases tracked.completed_step step completed with old | answers
    · exact tracked.answered old
    · exact answers

/-- The history agrees with the machine in every reachable state. -/
theorem Tracked.of_run
    [Inhabited α]
    {slots threads : Nat}
    {guard : StepGuard (State α) (Label α)}
    {labels : List (Label α)}
    {state : State α}
    (run : Run (step? slots) guard (Mutex.initial threads) labels state) :
    Tracked slots state :=
  run.invariant (Tracked.initial threads) fun tracked _ taken =>
    tracked.step (Step.of_step? taken)

end ConcurrentQueue.Mutex
