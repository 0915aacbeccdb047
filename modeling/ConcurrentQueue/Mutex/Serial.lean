import ConcurrentQueue.Library.Serial
import ConcurrentQueue.Mutex.Linearization

namespace ConcurrentQueue.Mutex

/-!
# `MutexQueue` used by one thread

Alone, a thread finds nobody to wait for and nobody to wake.  A call that the
bounded FIFO list answers takes effect in its critical section, which leaves
the ring representing the list after the answer.
-/

variable {α : Type} {slots : Nat}

/-- The steps of the only thread within a call; no move assignment throws. -/
def inCall : StepGuard (State α) (Label α) :=
  fun _ label =>
    label.thread = 0 ∧
      match label.action with
      | .invoke _ | .respond => False
      | .lock (.throws _ _) => False
      | _ => True

/-- The result of a thread that is about to respond. -/
def Pc.result? : Pc α → Option (Result α)
  | .returning result => some result
  | _ => none

/-- The queue as it is called by one thread. -/
def serialObject (slots : Nat) :
    SerialObject (State α) (Label α) (Op α) (Result α) where
  step? := step? slots
  inner _ := inCall
  spurious _ _ := False
  invoke op := ⟨0, .invoke op⟩
  respond _ := ⟨0, .respond⟩
  result? _ state := state.threads[0]?.bind Pc.result?

/-- What holds within a call that owes a result and leaves a list. -/
def Pc.Owes
    (state : State α)
    (op : Op α)
    (result : Result α)
    (after : BoundedFifo slots α) : Pc α → Prop
  | .enter entered =>
      entered = op ∧ op.isShared = true ∧ op ≠ .capacity ∧
        ∃ before : BoundedFifo slots α,
          Represents slots state before ∧
            before.answer? op = some (result, after)
  | .notifyOne _ due | .returning due =>
      due = result ∧ Represents slots state after
  | .notifyAllNotFull | .notifyAllNotEmpty =>
      result = .done ∧ Represents slots state after
  | _ => False

/-- How many steps at most are left until the call responds. -/
def Pc.stepsLeft : Pc α → Nat
  | .enter _ => 4
  | .notifyAllNotFull => 3
  | .notifyAllNotEmpty => 2
  | .notifyOne _ _ => 2
  | _ => 1

section CriticalSections

variable {state : State α} {before after : BoundedFifo slots α}
variable {op : Op α} {result : Result α} {verdict : Verdict α}

/-- A call that the list answers at once does not wait. -/
theorem answer?_of_block
    (represents : Represents slots state before)
    (shared : op.isShared = true)
    (fits : (Verdict.block : Verdict α).Fits slots state op false) :
    before.answer? op = none := by
  obtain ⟨isOpen, _, waits⟩ := fits
  rw [represents.closed] at isOpen
  rw [represents.size_eq] at waits
  rcases waits with ⟨waits, isFull⟩ | ⟨waits, isEmpty⟩
  · cases op with
    | push value =>
        have refuses : before.append? value = none :=
          BoundedFifo.append?_eq_none_iff.mpr (Or.inr isFull)
        simp [BoundedFifo.answer?, refuses, isOpen]
    | tryPushFor => cases shared
    | _ => cases waits
  · cases op with
    | pop out =>
        have refuses : before.removeFront? = none :=
          BoundedFifo.removeFront?_eq_none_iff.mpr
            (List.length_eq_zero_iff.mp isEmpty)
        simp [BoundedFifo.answer?, refuses, isOpen]
    | tryPopFor => cases shared
    | _ => cases waits

/-- Every call that takes the lock gets a verdict. -/
theorem exists_verdict?
    (state : State α)
    (shared : op.isShared = true)
    (locks : op ≠ .capacity) :
    ∃ verdict, state.verdict? slots op false = some verdict := by
  cases op with
  | push | tryPush | pop | tryPop =>
      simp only [State.verdict?]
      repeat' split
      all_goals exact ⟨_, rfl⟩
  | close =>
      simp only [State.verdict?]
      split <;> exact ⟨_, rfl⟩
  | closed | size => exact ⟨_, rfl⟩
  | capacity => exact absurd rfl locks
  | _ => cases shared

/-- The critical section of a call does what the list answers. -/
theorem owes_act
    (small : slots ≤ SizeT.halfRange)
    (represents : Represents slots state before)
    (shared : op.isShared = true)
    (answers : before.answer? op = some (result, after))
    (decides : state.verdict? slots op false = some verdict)
    (husk : α) :
    (state.afterLock op verdict (.moves husk)).Owes
        (state.act slots 0 op false verdict (.moves husk)) op result
        after ∧
      (state.afterLock op verdict (.moves husk)).stepsLeft < 4 := by
  have fits := State.verdict?_fits represents.size_le decides
  have taken :=
    takes_act small represents (by simp) 0 fits (.moves husk)
  have isDue :
      ∀ {due : Result α} {next : BoundedFifo slots α},
        Takes before (.answered op due false) next →
        due = result ∧ next = after := by
    intro due next takes
    have same := takes.answer?_eq.symm.trans answers
    rw [Option.some.injEq, Prod.mk.injEq] at same
    exact same
  cases verdict with
  | block =>
      rw [answer?_of_block represents shared fits] at answers
      cases answers
  | answer due =>
      obtain ⟨_, next, takes, representsNext⟩ := taken
      obtain ⟨rfl, rfl⟩ := isDue takes
      exact ⟨⟨rfl, representsNext⟩, by simp [State.afterLock, Pc.stepsLeft]⟩
  | enqueue value =>
      obtain ⟨_, next, takes, representsNext⟩ := taken
      obtain ⟨rfl, rfl⟩ := isDue takes
      exact ⟨⟨rfl, representsNext⟩, by simp [State.afterLock, Pc.stepsLeft]⟩
  | dequeue out =>
      obtain ⟨_, next, takes, representsNext⟩ := taken
      obtain ⟨rfl, rfl⟩ := isDue takes
      exact ⟨⟨rfl, representsNext⟩, by simp [State.afterLock, Pc.stepsLeft]⟩
  | close =>
      obtain ⟨_, next, takes, representsNext⟩ := taken
      obtain ⟨rfl, rfl⟩ := isDue takes
      exact ⟨⟨rfl, representsNext⟩, by simp [State.afterLock, Pc.stepsLeft]⟩

end CriticalSections

/-- The only thread is at a program point of a call that owes a result. -/
def Busy
    (slots : Nat)
    (op : Op α)
    (result : Result α)
    (after : BoundedFifo slots α)
    (state : State α) : Prop :=
  ∃ pc, state.threads = [pc] ∧ pc.Owes state op result after

/-- The only thread is between calls. -/
def Idle
    (slots : Nat)
    (fifo : BoundedFifo slots α)
    (state : State α) : Prop :=
  state.threads = [.idle] ∧ Represents slots state fifo

namespace Busy

variable {state next : State α} {after : BoundedFifo slots α}
variable {op : Op α} {result : Result α}

/-- Invoking an answered call makes the queue busy with it. -/
theorem of_invoke
    {fifo : BoundedFifo slots α}
    (shared : op.isShared = true)
    (idle : Idle slots fifo state)
    (answers : fifo.answer? op = some (result, after)) :
    ∃ entered,
      step? slots state ⟨0, .invoke op⟩ = some entered ∧
        Busy slots op result after entered := by
  obtain ⟨threads, represents⟩ := idle
  have isAt : state.threads[0]? = some .idle := by
    rw [threads]
    rfl
  have invoked :
      ∀ pc, Pc.start? slots op = some pc →
        step? slots state ⟨0, .invoke op⟩ =
          some ((state.invoke 0 op).goto 0 pc) := by
    intro pc starts
    simp [step?, isAt, starts]
  have alone :
      ∀ pc, ((state.invoke 0 op).goto 0 pc).threads = [pc] := by
    intro pc
    simp [State.goto, State.invoke, threads]
  by_cases isCapacity : op = .capacity
  · subst isCapacity
    obtain ⟨rfl, rfl⟩ :
        Result.capacity slots = result ∧ fifo = after := by
      simpa [BoundedFifo.answer?] using answers
    exact ⟨_, invoked _ rfl, _, alone _, rfl,
      represents.of_same rfl rfl rfl rfl rfl⟩
  · have starts : Pc.start? slots op = some (.enter op) := by
      cases op with
      | capacity => exact absurd rfl isCapacity
      | tryPushFor | tryPushN | tryPopFor | tryPopN => cases shared
      | _ => rfl
    exact ⟨_, invoked _ starts, _, alone _, rfl, shared, isCapacity, fifo,
      represents.of_same rfl rfl rfl rfl rfl, answers⟩

/-- A step within the call keeps what it owes and brings it nearer. -/
theorem step
    (small : slots ≤ SizeT.halfRange)
    (busy : Busy slots op result after state)
    {label : Label α}
    (admitted : inCall state label)
    (taken : step? slots state label = some next) :
    Busy slots op result after next ∧
      (next.threads[0]?.map Pc.stepsLeft).getD 0 <
        (state.threads[0]?.map Pc.stepsLeft).getD 0 := by
  obtain ⟨pc, threads, owes⟩ := busy
  rcases label with ⟨thread, action⟩
  obtain ⟨rfl, choice⟩ := admitted
  have here :
      ∀ {found : Pc α}, state.threads[0]? = some found → found = pc := by
    intro found isAt
    rw [threads] at isAt
    exact (Option.some.inj isAt).symm
  have lone : ∀ {moved : State α} {after : Pc α},
      moved.threads = [after] →
      (moved.threads[0]?.map Pc.stepsLeft).getD 0 = after.stepsLeft := by
    intro moved after alone
    rw [alone]
    rfl
  rw [lone threads]
  cases Step.of_step? taken with
  | invoke => exact choice.elim
  | respond => exact choice.elim
  | lock isAt locks decides =>
      rename_i found op' timedOut verdict moving
      obtain rfl := here isAt
      cases found with
      | enter entered =>
          obtain ⟨rfl, shared, _, before, represents, answers⟩ := owes
          cases locks
          cases moving with
          | throws => exact choice.elim
          | moves husk =>
              obtain ⟨owesNext, nearer⟩ :=
                owes_act small represents shared answers decides husk
              have alone :
                  (state.act slots 0 op' false verdict
                    (.moves husk)).threads =
                      [state.afterLock op' verdict (.moves husk)] := by
                rw [State.threads_act, threads]
                rfl
              rw [lone alone]
              exact ⟨⟨_, alone, owesNext⟩, nearer⟩
      | released => exact owes.elim
      | _ => cases locks
  | wake isAt | timeout isAt | lateTimeout isAt =>
      obtain rfl := here isAt
      exact owes.elim
  | notifyNobody isAt =>
      obtain rfl := here isAt
      obtain ⟨rfl, represents⟩ := owes
      rename_i due _
      have alone :
          (state.goto 0 (.returning due)).threads = [.returning due] := by
        simp [State.goto, threads]
      rw [lone alone]
      exact ⟨⟨_, alone, rfl, represents.of_same rfl rfl rfl rfl rfl⟩,
        by simp [Pc.stepsLeft]⟩
  | notifyOne isAt waits isBlocked =>
      obtain rfl := here isAt
      rw [threads, List.getElem?_singleton] at waits
      split at waits
      · cases waits
        cases isBlocked
      · cases waits
  | notifyAllNotFull isAt =>
      obtain rfl := here isAt
      obtain ⟨rfl, represents⟩ := owes
      have alone :
          ((state.notifyAll .notFull).goto 0 .notifyAllNotEmpty).threads =
            [.notifyAllNotEmpty] := by
        simp [State.goto, State.notifyAll, threads]
      rw [lone alone]
      exact ⟨⟨_, alone, rfl, represents.of_same rfl rfl rfl rfl rfl⟩,
        by simp [Pc.stepsLeft]⟩
  | notifyAllNotEmpty isAt =>
      obtain rfl := here isAt
      obtain ⟨rfl, represents⟩ := owes
      have alone :
          ((state.notifyAll .notEmpty).goto 0 (.returning .done)).threads =
            [.returning .done] := by
        simp [State.goto, State.notifyAll, threads]
      rw [lone alone]
      exact ⟨⟨_, alone, rfl, represents.of_same rfl rfl rfl rfl rfl⟩,
        by simp [Pc.stepsLeft]⟩

/-- A call that has no result yet can go on. -/
theorem enabled
    [Inhabited α]
    (busy : Busy slots op result after state)
    (unanswered : state.threads[0]?.bind Pc.result? = none) :
    ∃ label next,
      inCall state label ∧ step? slots state label = some next := by
  obtain ⟨pc, threads, owes⟩ := busy
  have isAt : state.threads[0]? = some pc := by
    rw [threads]
    rfl
  cases pc with
  | enter entered =>
      obtain ⟨rfl, shared, locks, _⟩ := owes
      obtain ⟨verdict, decides⟩ :
          ∃ verdict, state.verdict? slots entered false = some verdict :=
        exists_verdict? state shared locks
      refine ⟨⟨0, .lock (.moves default)⟩,
        state.act slots 0 entered false verdict (.moves default),
        ⟨rfl, trivial⟩, ?_⟩
      simp only [step?, isAt, State.locked?, decides, Option.map_some]
  | notifyOne condition due =>
      have nobody :
          state.threads.any (Pc.isBlockedOn condition) = false := by
        rw [threads]
        rfl
      refine ⟨⟨0, .notify none⟩, state.goto 0 (.returning due),
        ⟨rfl, trivial⟩, ?_⟩
      simp only [step?, isAt, State.notifyOne?, nobody,
        Bool.false_eq_true, if_false, Option.map_some]
  | notifyAllNotFull =>
      refine ⟨⟨0, .notifyAll⟩,
        (state.notifyAll .notFull).goto 0 .notifyAllNotEmpty,
        ⟨rfl, trivial⟩, ?_⟩
      simp only [step?, isAt]
  | notifyAllNotEmpty =>
      refine ⟨⟨0, .notifyAll⟩,
        (state.notifyAll .notEmpty).goto 0 (.returning .done),
        ⟨rfl, trivial⟩, ?_⟩
      simp only [step?, isAt]
  | returning due =>
      rw [isAt] at unanswered
      cases unanswered
  | _ => exact owes.elim

/-- The call hands back what it owes. -/
theorem respond
    (busy : Busy slots op result after state)
    {returned : Result α}
    (isResult : state.threads[0]?.bind Pc.result? = some returned) :
    returned = result ∧
      ∃ next,
        step? slots state ⟨0, .respond⟩ = some next ∧
          Idle slots after next := by
  obtain ⟨pc, threads, owes⟩ := busy
  have isAt : state.threads[0]? = some pc := by
    rw [threads]
    rfl
  rw [isAt] at isResult
  cases pc with
  | returning due =>
      cases isResult
      refine ⟨owes.1, (state.respond 0 returned).goto 0 .idle, ?_, ?_, ?_⟩
      · simp only [step?, isAt]
      · simp [State.goto, State.respond, threads]
      · exact owes.2.of_same rfl rfl rfl rfl rfl
  | _ => cases isResult

end Busy

/-- One thread sees a bounded FIFO list, however many calls it makes. -/
def serialSimulation
    [Inhabited α]
    (small : slots ≤ SizeT.halfRange)
    (limit : Nat) :
    SerialSimulation (serialObject slots)
      (BoundedFifo.answer? : BoundedFifo slots α → _)
      (fun op => op.isShared = true) limit where
  Idle _ := Idle slots
  Busy _ := Busy slots
  rank _ state := (state.threads[0]?.map Pc.stepsLeft).getD 0
  invoked _ shared idle answers := Busy.of_invoke shared idle answers
  stepped busy admitted taken := by
    obtain ⟨busyNext, nearer⟩ := busy.step small admitted taken
    exact ⟨busyNext, fun _ => nearer⟩
  enabled busy unanswered := by
    obtain ⟨label, next, admitted, taken⟩ := busy.enabled unanswered
    exact ⟨label, next, ⟨admitted, not_false⟩, taken⟩
  responded busy isResult := busy.respond isResult

/-- The constructor leaves the queue idle. -/
theorem idle_initial [Inhabited α] (positive : 0 < slots) :
    Idle slots BoundedFifo.empty (initial 1 : State α) :=
  ⟨rfl, Represents.initial positive 1⟩

end ConcurrentQueue.Mutex
