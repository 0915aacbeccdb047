import ConcurrentQueue.Library.Potential
import ConcurrentQueue.Mutex.Wakeups

namespace ConcurrentQueue.Mutex

/-!
# `MutexQueue` comes to rest

Left alone, with no new calls and nobody woken without cause, the threads of a
queue come to rest after a bounded number of steps: every wait has ended or is
for something that is not there.  Only pushes into a full open queue or pops
from an empty open queue are still blocked then, and never both.
-/

variable {α : Type} {slots : Nat}

/-- The thread is in a waiter set. -/
def Pc.isWaiting : Pc α → Bool
  | .blocked _ => true
  | _ => false

/--
A step of threads left alone: no call starts, no move throws, and a blocked
thread leaves its waiter set only when notified or when its time is up.
-/
def settling : StepGuard (State α) (Label α) :=
  fun state label =>
    match label.action with
    | .invoke _ | .wake => False
    | .timeout => (state.threads[label.thread]?).any Pc.isWaiting = true
    | action => action.isThrowing = false

instance :
    ∀ (state : State α) (label : Label α),
      Decidable (settling state label) :=
  fun _ label =>
    match label with
    | ⟨_, .invoke _⟩ | ⟨_, .wake⟩ => .isFalse id
    | ⟨_, .timeout⟩ => inferInstanceAs (Decidable (_ = true))
    | ⟨_, .lock _⟩ | ⟨_, .notify _⟩ | ⟨_, .notifyAll⟩ | ⟨_, .respond⟩ =>
        inferInstanceAs (Decidable (_ = false))

/-- No thread left alone can take a step. -/
def AtRest (slots : Nat) (state : State α) : Prop :=
  ∀ label, settling state label → step? slots state label = none

/-- Threads left alone throw nothing. -/
theorem nonthrowing_of_settling
    {state : State α}
    {label : Label α}
    (admitted : settling state label) :
    nonthrowing state label := by
  obtain ⟨thread, action⟩ := label
  cases action with
  | invoke | wake => exact admitted.elim
  | timeout => rfl
  | lock | notify | notifyAll | respond => exact admitted

/-- The call locks `mutex_`. -/
def locks : Op α → Bool
  | .capacity | .tryPushN _ | .tryPopN _ => false
  | _ => true

/-- Only calls that lock get to the lock, and only waiting calls wait. -/
def Pc.Lawful : Pc α → Prop
  | .enter op => locks op = true
  | .blocked op | .released op _ => waitsOn? op ≠ none
  | _ => True

/-- All threads are where their calls may be. -/
def Lawful (state : State α) : Prop :=
  ∀ (thread : Nat) (pc : Pc α),
    state.threads[thread]? = some pc → pc.Lawful

/-- A waiting call locks. -/
theorem locks_of_waitsOn?
    {op : Op α}
    (waits : waitsOn? op ≠ none) :
    locks op = true := by
  cases op <;> simp_all [waitsOn?, locks]

namespace Pc

variable {pc : Pc α} {op : Op α} {timedOut : Bool}

/-- A released thread is in the same call as before. -/
theorem Lawful.release
    (lawful : pc.Lawful)
    (condition : Condition) :
    (pc.release condition).Lawful := by
  cases isBlocked : pc.isBlockedOn condition with
  | true =>
      obtain ⟨op, rfl, waits, released⟩ := of_isBlockedOn isBlocked
      rw [released]
      exact lawful
  | false =>
      rw [release_of_not_blocked isBlocked]
      exact lawful

/-- A call starts lawfully. -/
theorem lawful_start? (starts : start? slots op = some pc) :
    pc.Lawful := by
  cases op <;> cases starts <;> trivial

/-- A thread at the lock is in a call that locks. -/
theorem Lawful.locks
    (lawful : pc.Lawful)
    (isLocking : pc.locks? = some (op, timedOut)) :
    Mutex.locks op = true := by
  cases pc with
  | enter | released =>
      cases isLocking
      first
        | exact lawful
        | exact locks_of_waitsOn? lawful
  | _ => cases isLocking

end Pc

namespace Lawful

variable {state next : State α} {thread : Nat} {action : Action α}

/-- A critical section leads to where the call may be. -/
theorem afterLock
    {op : Op α}
    {timedOut : Bool}
    {verdict : Verdict α}
    (fits : verdict.Fits slots state op timedOut)
    (moving : Moving α) :
    (state.afterLock op verdict moving).Lawful := by
  cases verdict with
  | block =>
      obtain ⟨_, _, ⟨waits, _⟩ | ⟨waits, _⟩⟩ := fits <;>
        simp [State.afterLock, Pc.Lawful, waits]
  | answer | close => trivial
  | enqueue | dequeue => cases moving <;> trivial

/-- Every step leaves the threads where their calls may be. -/
theorem step
    (lawful : Lawful state)
    (bounded : state.size ≤ slots)
    (step : Step slots state thread action next) :
    Lawful next := by
  intro other pc isAt
  by_cases same : other = thread
  · subst same
    cases step with
    | invoke wasAt starts =>
        rw [Monitor.eq_of_getElem?_set isAt]
        exact Pc.lawful_start? starts
    | lock wasAt locks decides =>
        rw [State.threads_act] at isAt
        rw [Monitor.eq_of_getElem?_set isAt]
        exact afterLock (State.verdict?_fits bounded decides) _
    | wake wasAt | timeout wasAt _ | lateTimeout wasAt _ =>
        have wasLawful := lawful _ _ wasAt
        rw [Monitor.eq_of_getElem?_set isAt]
        exact wasLawful
    | notifyNobody | notifyOne | notifyAllNotFull | notifyAllNotEmpty
    | respond =>
        rw [Monitor.eq_of_getElem?_set isAt]
        trivial
  · obtain ⟨before, wasAt, rfl | ⟨condition, rfl⟩⟩ := step.other same isAt
    · exact lawful _ _ wasAt
    · exact (lawful _ _ wasAt).release condition

/-- Threads are where their calls may be in every reachable state. -/
theorem of_run
    [Inhabited α]
    {threads : Nat}
    (positive : 0 < slots)
    (small : slots ≤ SizeT.halfRange)
    {guard : StepGuard (State α) (Label α)}
    {labels : List (Label α)}
    (run : Run (step? slots) guard (initial threads) labels state) :
    Lawful state := by
  have base : Lawful (initial threads : State α) := by
    intro thread pc isAt
    have isIdle := List.eq_of_mem_replicate (List.mem_of_getElem? isAt)
    subst isIdle
    trivial
  exact run.invariant_of (size_le_of_run positive small) base
    fun bounded _ lawful _ taken =>
      lawful.step bounded (Step.of_step? taken)

end Lawful

/-- How many steps a thread left alone can still cause, of `threads` threads. -/
def Pc.weight (threads : Nat) : Pc α → Nat
  | .idle => 0
  | .returning _ => 1
  | .notifyOne _ _ => 3
  | .blocked op => if isTimed op then 5 else 3
  | .released op timedOut =>
      if timedOut then 4 else if isTimed op then 6 else 4
  | .notifyAllNotEmpty => threads + 2
  | .notifyAllNotFull => 2 * threads + 3
  | .enter _ => 2 * threads + 6

/-- How many steps the threads can still take when left alone. -/
def State.effort (state : State α) : Nat :=
  (state.threads.map (Pc.weight state.threads.length)).sum

section Effort

variable {state next : State α} {thread : Nat} {action : Action α}

/-- A release adds at most one step. -/
theorem Pc.weight_release_le
    (threads : Nat)
    (condition : Condition)
    (pc : Pc α) :
    (pc.release condition).weight threads ≤ pc.weight threads + 1 := by
  cases isBlocked : pc.isBlockedOn condition with
  | true =>
      obtain ⟨op, rfl, _, released⟩ := of_isBlockedOn isBlocked
      rw [released]
      simp only [weight, Bool.false_eq_true, if_false]
      split <;> omega
  | false =>
      rw [release_of_not_blocked isBlocked]
      omega

/-- No thread weighs more than one that has just called. -/
theorem Pc.weight_le (threads : Nat) (pc : Pc α) :
    pc.weight threads ≤ 2 * threads + 6 := by
  cases pc <;> simp only [weight] <;> (repeat' split) <;> omega

/-- A critical section takes one step off the effort. -/
theorem Pc.weight_afterLock_lt
    {pc : Pc α}
    {op : Op α}
    {timedOut : Bool}
    {verdict : Verdict α}
    (lawful : pc.Lawful)
    (isLocking : pc.locks? = some (op, timedOut))
    (fits : verdict.Fits slots state op timedOut)
    (threads : Nat)
    (moving : Moving α) :
    (state.afterLock op verdict moving).weight threads <
      pc.weight threads := by
  cases pc with
  | enter op =>
      cases isLocking
      cases verdict <;> cases moving <;>
        simp only [State.afterLock, weight] <;> (repeat' split) <;> omega
  | released op timedOut =>
      cases isLocking
      cases verdict with
      | block =>
          obtain ⟨_, rfl, _⟩ := fits
          simp only [State.afterLock, weight, Bool.false_eq_true, if_false]
          split <;> omega
      | close =>
          obtain ⟨rfl, _⟩ := fits
          exact (lawful rfl).elim
      | answer | enqueue | dequeue =>
          cases moving <;> simp only [State.afterLock, weight] <;>
            (repeat' split) <;> omega
  | _ => cases isLocking

/-- A step that moves one thread. -/
theorem effort_set
    {old new : Pc α}
    (isAt : state.threads[thread]? = some old)
    (moved : next.threads = state.threads.set thread new)
    (lighter :
      new.weight state.threads.length < old.weight state.threads.length) :
    next.effort < state.effort := by
  have total :=
    sum_map_set (Pc.weight state.threads.length) isAt new
  unfold State.effort
  rw [moved, List.length_set]
  omega

/-- A broadcast is paid for by the thread that makes it. -/
theorem effort_broadcast
    {old new : Pc α}
    {condition : Condition}
    (isAt : state.threads[thread]? = some old)
    (stays : old.release condition = old)
    (moved :
      next.threads =
        (state.threads.map (Pc.release condition)).set thread new)
    (lighter :
      new.weight state.threads.length + state.threads.length <
        old.weight state.threads.length) :
    next.effort < state.effort := by
  have isStill :
      (state.threads.map (Pc.release condition))[thread]? = some old := by
    rw [List.getElem?_map, isAt, Option.map_some, stays]
  have total :=
    sum_map_set (Pc.weight state.threads.length) isStill new
  have released :
      ((state.threads.map (Pc.release condition)).map
        (Pc.weight state.threads.length)).sum ≤
        (state.threads.map (Pc.weight state.threads.length)).sum +
          state.threads.length :=
    sum_map_map_le _ fun pc _ =>
      Pc.weight_release_le state.threads.length condition pc
  unfold State.effort
  rw [moved, List.length_set, List.length_map]
  omega

/-- Every step of threads left alone takes one off the effort. -/
theorem Step.effort_lt
    (lawful : Lawful state)
    (bounded : state.size ≤ slots)
    (admitted : settling state ⟨thread, action⟩)
    (step : Step slots state thread action next) :
    next.effort < state.effort := by
  cases step with
  | invoke | wake => exact admitted.elim
  | lock isAt locks decides =>
      exact effort_set isAt State.threads_act
        (Pc.weight_afterLock_lt (lawful _ _ isAt) locks
          (State.verdict?_fits bounded decides) _ _)
  | timeout isAt timed =>
      refine effort_set isAt rfl ?_
      simp [Pc.weight, timed]
  | lateTimeout isAt =>
      simp [settling, isAt, Pc.isWaiting] at admitted
  | notifyNobody isAt | respond isAt =>
      refine effort_set isAt rfl ?_
      simp [Pc.weight]
  | notifyOne isAt waits isBlocked =>
      rename_i condition result waiter pc
      have different : waiter ≠ thread := by
        rintro rfl
        rw [isAt] at waits
        cases waits
        cases isBlocked
      have first :=
        sum_map_set (Pc.weight state.threads.length) waits
          (pc.release condition)
      have stays :
          (state.threads.set waiter (pc.release condition))[thread]? =
            some (.notifyOne condition result) := by
        rw [List.getElem?_set_ne different, isAt]
      have second :=
        sum_map_set (Pc.weight state.threads.length) stays
          (.returning result)
      have released :=
        Pc.weight_release_le state.threads.length condition pc
      simp only [State.effort, State.goto, List.length_set]
      simp only [Pc.weight] at second
      omega
  | notifyAllNotFull isAt =>
      refine effort_broadcast isAt rfl rfl ?_
      simp only [Pc.weight]
      omega
  | notifyAllNotEmpty isAt =>
      refine effort_broadcast isAt rfl rfl ?_
      simp only [Pc.weight]
      omega

/-- The effort is bounded by the number of threads. -/
theorem State.effort_le (state : State α) :
    state.effort ≤
      state.threads.length * (2 * state.threads.length + 6) :=
  sum_map_le_mul _ fun pc _ => Pc.weight_le _ pc

/-- No thread joins or leaves. -/
theorem Step.length_threads (step : Step slots state thread action next) :
    next.threads.length = state.threads.length := by
  cases step with
  | lock => rw [State.threads_act, List.length_set]
  | notifyAllNotFull | notifyAllNotEmpty =>
      simp [State.goto, State.notifyAll]
  | _ => simp [State.goto, State.invoke, State.respond]

/-- A run has as many threads as the queue has users. -/
theorem length_of_run
    [Inhabited α]
    {threads : Nat}
    {guard : StepGuard (State α) (Label α)}
    {labels : List (Label α)}
    (run : Run (step? slots) guard (initial threads) labels state) :
    state.threads.length = threads := by
  induction run with
  | start => exact List.length_replicate
  | snoc earlier admitted taken inductionHypothesis =>
      rw [(Step.of_step? taken).length_threads, inductionHypothesis]

end Effort

section Rest

variable {state : State α} {thread : Nat}

/-- A call that locks gets a verdict. -/
theorem exists_verdict
    (slots : Nat)
    (state : State α)
    {op : Op α}
    (isLocking : locks op = true)
    (timedOut : Bool) :
    ∃ verdict, state.verdict? slots op timedOut = some verdict := by
  cases op with
  | capacity | tryPushN | tryPopN => cases isLocking
  | closed | size => exact ⟨_, rfl⟩
  | push | tryPushFor | tryPush | pop | tryPopFor | tryPop | close =>
      simp only [State.verdict?]
      (repeat' split) <;> exact ⟨_, rfl⟩

/-- A thread at the lock can take it. -/
theorem exists_lock
    [Inhabited α]
    {op : Op α}
    {timedOut : Bool}
    {pc : Pc α}
    (isAt : state.threads[thread]? = some pc)
    (isLocking : pc.locks? = some (op, timedOut))
    (lawful : pc.Lawful) :
    ∃ label, settling state label ∧ step? slots state label ≠ none := by
  obtain ⟨verdict, decides⟩ :=
    exists_verdict slots state (lawful.locks isLocking) timedOut
  refine ⟨⟨thread, .lock (.moves default)⟩, rfl, ?_⟩
  cases pc with
  | enter | released =>
      cases isLocking
      simp [step?, isAt, State.locked?, decides]
  | _ => cases isLocking

/-- A notification can be issued, whether or not somebody waits. -/
theorem exists_notify
    {condition : Condition}
    {result : Result α}
    (isAt : state.threads[thread]? = some (.notifyOne condition result)) :
    ∃ label, settling state label ∧ step? slots state label ≠ none := by
  cases waits : state.threads.any (Pc.isBlockedOn condition) with
  | true =>
      obtain ⟨pc, member, isBlocked⟩ := List.any_eq_true.mp waits
      obtain ⟨waiter, isWaiting⟩ := List.getElem?_of_mem member
      refine ⟨⟨thread, .notify (some waiter)⟩, rfl, ?_⟩
      simp [step?, isAt, State.notifyOne?, isWaiting, isBlocked]
  | false =>
      refine ⟨⟨thread, .notify none⟩, rfl, ?_⟩
      simp [step?, isAt, State.notifyOne?, waits]

/-- At rest every thread is idle or blocked without a timeout. -/
theorem AtRest.idle_or_blocked
    [Inhabited α]
    (rest : AtRest slots state)
    (lawful : Lawful state)
    {pc : Pc α}
    (isAt : state.threads[thread]? = some pc) :
    pc = .idle ∨ ∃ op, pc = .blocked op ∧ isTimed op = false := by
  have stuck :
      ¬ ∃ label, settling state label ∧ step? slots state label ≠ none := by
    rintro ⟨label, admitted, enabled⟩
    exact enabled (rest label admitted)
  by_contra moving
  apply stuck
  cases pc with
  | idle => exact (moving (Or.inl rfl)).elim
  | enter | released => exact exists_lock isAt rfl (lawful _ _ isAt)
  | blocked op =>
      cases timed : isTimed op with
      | false => exact (moving (Or.inr ⟨op, rfl, timed⟩)).elim
      | true =>
          refine ⟨⟨thread, .timeout⟩, ?_, ?_⟩
          · simp [settling, isAt, Pc.isWaiting]
          · simp [step?, isAt, timed]
  | notifyOne => exact exists_notify isAt
  | notifyAllNotFull | notifyAllNotEmpty =>
      refine ⟨⟨thread, .notifyAll⟩, rfl, ?_⟩
      simp [step?, isAt]
  | returning =>
      refine ⟨⟨thread, .respond⟩, rfl, ?_⟩
      simp [step?, isAt]

/-- Threads that are idle, or blocked without a timeout, are at rest. -/
theorem AtRest.of_idle_or_blocked
    (resting :
      ∀ pc ∈ state.threads,
        pc = .idle ∨ ∃ op, pc = .blocked op ∧ isTimed op = false) :
    AtRest slots state := by
  rintro ⟨thread, action⟩ admitted
  cases isAt : state.threads[thread]? with
  | none => simp [step?, isAt]
  | some pc =>
      rcases resting pc (List.mem_of_getElem? isAt) with
        rfl | ⟨op, rfl, untimed⟩
      · cases action with
        | invoke => exact admitted.elim
        | _ => simp [step?, isAt]
      · cases action with
        | wake => exact admitted.elim
        | timeout => simp [step?, isAt, untimed]
        | _ => simp [step?, isAt]

/-- At rest nobody has anything to do for a condition variable. -/
theorem AtRest.nobody
    [Inhabited α]
    (rest : AtRest slots state)
    (lawful : Lawful state)
    {counted : Pc α → Bool}
    (notIdle : counted .idle = false)
    (notBlocked : ∀ op, counted (.blocked op) = false) :
    state.threads.countP counted = 0 := by
  apply List.countP_eq_zero.mpr
  intro pc member
  obtain ⟨thread, isAt⟩ := List.getElem?_of_mem member
  rcases rest.idle_or_blocked lawful isAt with rfl | ⟨op, rfl, _⟩
  · simp [notIdle]
  · simp [notBlocked]

/-- Where the threads of a queue may have come to rest. -/
structure Settled (slots : Nat) (state : State α) : Prop where
  threads :
    ∀ pc ∈ state.threads,
      pc = .idle ∨
        (∃ value, pc = .blocked (.push value)) ∧
            state.closed = false ∧ state.size = slots ∨
          (∃ out, pc = .blocked (.pop out)) ∧
            state.closed = false ∧ state.size = 0

/-- At rest only what the queue cannot give is waited for. -/
theorem AtRest.settled
    [Inhabited α]
    (rest : AtRest slots state)
    (lawful : Lawful state)
    (bounded : state.size ≤ slots)
    (covered : Covered slots state)
    (closing : Closing state) :
    Settled slots state := by
  have silent (condition : Condition) :
      state.threads.countP (Pc.isNotifying condition) = 0 :=
    rest.nobody lawful rfl fun _ => rfl
  have noneReleased (condition : Condition) :
      state.threads.countP (Pc.isReleasedFrom condition) = 0 :=
    rest.nobody lawful rfl fun _ => rfl
  have isOpen :
      ∀ {condition}, state.Waits condition → state.closed = false := by
    intro condition waits
    by_contra isClosed
    have notifies :=
      closing (Bool.eq_true_of_not_eq_false isClosed) condition waits
    have nobody : state.threads.countP (Pc.isNotifyingAll condition) = 0 :=
      rest.nobody lawful (by cases condition <;> rfl)
        fun _ => by cases condition <;> rfl
    exact Nat.lt_irrefl 0 (nobody ▸ notifies)
  have unsupplied :
      ∀ {condition},
        state.Waits condition → state.supply slots condition = 0 := by
    intro condition waits
    rcases covered condition with excuses | nobody | covers
    · cases (isOpen waits).symm.trans excuses.2
    · exact (waits.ne' nobody).elim
    · have tallied :
          state.supply slots condition ≤
            state.threads.countP (Pc.isNotifying condition) +
              state.threads.countP (Pc.isReleasedFrom condition) := covers
      rw [silent, noneReleased] at tallied
      exact Nat.le_zero.mp tallied
  constructor
  intro pc member
  obtain ⟨thread, isAt⟩ := List.getElem?_of_mem member
  rcases rest.idle_or_blocked lawful isAt with isIdle | ⟨op, rfl, untimed⟩
  · exact Or.inl isIdle
  · right
    have waiting := lawful _ _ isAt
    cases op with
    | push value =>
        left
        have waits : state.Waits .notFull :=
          Monitor.countP_pos_of_getElem? isAt rfl
        have noRoom : slots - state.size = 0 := unsupplied waits
        exact ⟨⟨value, rfl⟩, isOpen waits, by omega⟩
    | pop out =>
        right
        have waits : state.Waits .notEmpty :=
          Monitor.countP_pos_of_getElem? isAt rfl
        exact ⟨⟨out, rfl⟩, isOpen waits, unsupplied waits⟩
    | tryPushFor | tryPopFor => cases untimed
    | tryPush | tryPop | close | closed | size | capacity | tryPushN
    | tryPopN => exact (waiting rfl).elim

end Rest

/--
The threads of a queue, left alone in any reachable state, come to rest within
a number of steps that depends on their number only, and a thread that is
still blocked then is a push into a full open queue or a pop from an empty one:
there is no deadlock.
-/
theorem comes_to_rest
    [Inhabited α]
    {elementSize capacity slots threads : Nat}
    (built : bufferSlots elementSize capacity = .ok slots)
    {labels later : List (Label α)}
    {state final : State α}
    (run : Run (step? slots) nonthrowing (initial threads) labels state)
    (alone : Run (step? slots) settling state later final) :
    later.length ≤ threads * (2 * threads + 6) ∧
      (AtRest slots final → Settled slots final) := by
  obtain ⟨_, positive, small⟩ := bufferSlots_ok built
  let Reachable (state : State α) : Prop :=
    ∃ labels, Run (step? slots) nonthrowing (initial threads) labels state
  have reachable :
      ∀ {state next : State α} {label : Label α},
        Reachable state →
        settling state label →
        step? slots state label = some next →
        Reachable next := by
    rintro state next label ⟨labels, run⟩ admitted taken
    exact ⟨_, run.snoc (nonthrowing_of_settling admitted) taken⟩
  obtain ⟨⟨_, quiet⟩, bounded⟩ :=
    alone.countP_add_le (fun _ => true) State.effort (fun _ => 0)
      ⟨labels, run⟩ reachable (by
        rintro state next label ⟨labels, run⟩ admitted taken
        have lighter :=
          (Step.of_step? taken).effort_lt (Lawful.of_run positive small run)
            (size_le_of_run positive small run) admitted
        simp only [Pays, Bool.toNat_true]
        omega)
  constructor
  · have start := State.effort_le state
    rw [length_of_run run] at start
    simp only [List.countP_true, Nat.add_zero] at bounded
    omega
  · intro rest
    exact rest.settled (Lawful.of_run positive small quiet)
      (size_le_of_run positive small quiet)
      (covered_of_run positive small quiet)
      (closing_of_run positive small quiet)

/-- The push wakes the timed pop, which takes the only element. -/
def restingSchedule : List (Label Nat) :=
  [⟨2, .notify (some 1)⟩, ⟨2, .respond⟩, ⟨1, .lock (.moves 0)⟩,
    ⟨1, .notify none⟩, ⟨1, .respond⟩]

theorem comes_to_rest_one_for_two :
    ∃ state final,
      replay? (step? 2) nonthrowing (initial 3) oneForTwoSchedule =
          some state ∧
        replay? (step? 2) settling state restingSchedule = some final ∧
        final.threads = [.blocked (.pop 0), .idle, .idle] ∧
        restingSchedule.length ≤ 3 * (2 * 3 + 6) ∧
        AtRest 2 final ∧
        Settled 2 final := by
  have replayed :
      ∃ state final,
        replay? (step? 2) nonthrowing (initial 3) oneForTwoSchedule =
            some state ∧
          replay? (step? 2) settling state restingSchedule = some final ∧
          final.threads = [.blocked (.pop 0), .idle, .idle] :=
    ⟨_, _, rfl, rfl, rfl⟩
  have built : bufferSlots 8 2 = .ok 2 := by
    rfl
  obtain ⟨state, final, accepted, settled, threads⟩ := replayed
  have rest : AtRest 2 final := by
    apply AtRest.of_idle_or_blocked
    rw [threads]
    simp [isTimed]
  obtain ⟨bounded, settles⟩ :=
    comes_to_rest built (Run.of_replay? accepted) (Run.of_replay? settled)
  exact ⟨state, final, accepted, settled, threads, bounded, rest,
    settles rest⟩

end ConcurrentQueue.Mutex
