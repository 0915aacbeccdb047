import ConcurrentQueue.Mutex.Linearization

namespace ConcurrentQueue.Mutex

/-!
# Wakeups of `MutexQueue`

Threads blocked on a condition variable are counted against the notifications
still to be issued and the threads released but not yet checked again.  Every
step without a throwing move assignment is a move of the monitor, so no
wakeup is lost.
-/

variable {α : Type} {slots : Nat}

/-- What the program points mean to a condition variable. -/
def roles (condition : Condition) : Monitor.Roles (Pc α) where
  blocked := Pc.isBlockedOn condition
  notifying := Pc.isNotifying condition
  released := Pc.isReleasedFrom condition

namespace State

/-- The units that the waiters of a condition variable wait for. -/
def supply (slots : Nat) (state : State α) : Condition → Nat
  | .notFull => slots - state.size
  | .notEmpty => state.size

/-- The waiters, notifications and units of a condition variable. -/
def tally
    (slots : Nat)
    (state : State α)
    (condition : Condition) :
    Monitor.Tally :=
  (roles condition).tally state.threads (state.supply slots condition)

/-- Some thread is in the waiter set of the condition variable. -/
def Waits (state : State α) (condition : Condition) : Prop :=
  0 < state.threads.countP (Pc.isBlockedOn condition)

/-- Some `close()` has a `notify_all` for the condition still to issue. -/
def ClosingNotifies (state : State α) (condition : Condition) : Prop :=
  0 < state.threads.countP (Pc.isNotifyingAll condition)

instance (state : State α) (condition : Condition) :
    Decidable (state.Waits condition) :=
  inferInstanceAs (Decidable (0 < _))

instance (state : State α) (condition : Condition) :
    Decidable (state.ClosingNotifies condition) :=
  inferInstanceAs (Decidable (0 < _))

end State

/-- The step makes a move assignment throw, if it makes one. -/
def Action.isThrowing : Action α → Bool
  | .lock (.throws _ _) => true
  | _ => false

/-- The verdict is carried out by a move assignment of an element. -/
def Verdict.movesElement : Verdict α → Bool
  | .enqueue _ | .dequeue _ => true
  | _ => false

/-- The step leaves a call by the exception of a move assignment. -/
def throwsAt (slots : Nat) (state : State α) (label : Label α) : Bool :=
  label.action.isThrowing &&
    match (state.threads[label.thread]?).bind Pc.locks? with
    | some (op, timedOut) =>
        (state.verdict? slots op timedOut).any Verdict.movesElement
    | none => false

/-- No move assignment throws. -/
def nonthrowing : StepGuard (State α) (Label α) :=
  fun _ label => label.action.isThrowing = false

instance :
    ∀ (state : State α) (label : Label α),
      Decidable (nonthrowing state label) :=
  fun _ label => inferInstanceAs (Decidable (label.action.isThrowing = false))

/-- A thread that locks `mutex_` neither waits nor notifies. -/
theorem Pc.of_locks
    {pc : Pc α}
    {op : Op α}
    {timedOut : Bool}
    (locks : pc.locks? = some (op, timedOut))
    (condition : Condition) :
    pc.isBlockedOn condition = false ∧
      pc.isNotifying condition = false ∧
      (pc.isReleasedFrom condition = true →
        waitsOn? op = some condition) := by
  cases pc with
  | enter | released =>
      cases locks
      simp [Pc.isBlockedOn, Pc.isNotifying, Pc.isReleasedFrom]
  | _ =>
      cases locks

namespace Pc

variable {condition notified : Condition} {pc : Pc α}

/-- No condition variable matters to the thread. -/
def Plain (pc : Pc α) : Prop :=
  ∀ condition,
    pc.isBlockedOn condition = false ∧
      pc.isNotifying condition = false ∧
      pc.isReleasedFrom condition = false

/-- A call starts without waiting. -/
theorem plain_start?
    {op : Op α}
    (starts : start? slots op = some pc) :
    pc.Plain := by
  intro condition
  cases op <;> cases starts <;>
    simp [isBlockedOn, isNotifying, isReleasedFrom]

/-- A blocked thread and how it is released. -/
theorem of_isBlockedOn
    (isBlocked : pc.isBlockedOn condition = true) :
    ∃ op,
      pc = .blocked op ∧ waitsOn? op = some condition ∧
        pc.release condition = .released op false := by
  cases pc with
  | blocked op =>
      have waits : waitsOn? op = some condition := beq_iff_eq.mp isBlocked
      exact ⟨op, rfl, waits, by simp [release, waits]⟩
  | _ => cases isBlocked

/-- Only blocked threads are released. -/
theorem release_of_not_blocked
    (notBlocked : pc.isBlockedOn condition = false) :
    pc.release condition = pc := by
  cases pc with
  | blocked op =>
      have other : waitsOn? op ≠ some condition :=
        beq_eq_false_iff_ne.mp notBlocked
      simp [release, other]
  | _ => rfl

/-- Nobody is blocked after a release. -/
theorem isBlockedOn_release (condition : Condition) (pc : Pc α) :
    (pc.release condition).isBlockedOn condition = false := by
  cases isBlocked : pc.isBlockedOn condition with
  | true =>
      obtain ⟨op, _, _, released⟩ := of_isBlockedOn isBlocked
      rw [released]
      rfl
  | false =>
      rw [release_of_not_blocked isBlocked, isBlocked]

/-- A release is no notification. -/
theorem isNotifying_release
    (condition notified : Condition)
    (pc : Pc α) :
    (pc.release notified).isNotifying condition =
      pc.isNotifying condition := by
  cases isBlocked : pc.isBlockedOn notified with
  | true =>
      obtain ⟨op, rfl, _, released⟩ := of_isBlockedOn isBlocked
      rw [released]
      rfl
  | false =>
      rw [release_of_not_blocked isBlocked]

/-- The released threads are those that were blocked. -/
theorem isReleasedFrom_release (condition : Condition) (pc : Pc α) :
    ((pc.release condition).isReleasedFrom condition).toNat =
      (pc.isReleasedFrom condition).toNat +
        (pc.isBlockedOn condition).toNat := by
  cases isBlocked : pc.isBlockedOn condition with
  | true =>
      obtain ⟨op, rfl, waits, released⟩ := of_isBlockedOn isBlocked
      rw [released]
      simp [isReleasedFrom, waits]
  | false =>
      rw [release_of_not_blocked isBlocked]
      rfl

/-- A release leaves the waiters of the other condition. -/
theorem isBlockedOn_release_other
    (different : notified ≠ condition)
    (pc : Pc α) :
    (pc.release notified).isBlockedOn condition =
      pc.isBlockedOn condition := by
  cases isBlocked : pc.isBlockedOn notified with
  | true =>
      obtain ⟨op, rfl, waits, released⟩ := of_isBlockedOn isBlocked
      rw [released]
      simp [isBlockedOn, waits, different]
  | false =>
      rw [release_of_not_blocked isBlocked]

/-- A release counts for its own condition only. -/
theorem isReleasedFrom_release_other
    (different : notified ≠ condition)
    (pc : Pc α) :
    (pc.release notified).isReleasedFrom condition =
      pc.isReleasedFrom condition := by
  cases isBlocked : pc.isBlockedOn notified with
  | true =>
      obtain ⟨op, rfl, waits, released⟩ := of_isBlockedOn isBlocked
      rw [released]
      simp [isReleasedFrom, waits, different]
  | false =>
      rw [release_of_not_blocked isBlocked]

end Pc

namespace State

variable {state next : State α} {thread : Nat}

/-- A step of one thread shifts the tallies by what the thread was and is. -/
theorem shift_moved
    (slots : Nat)
    {old new : Pc α}
    (isAt : state.threads[thread]? = some old)
    (moved : next.threads = state.threads.set thread new)
    (condition : Condition) :
    Monitor.Tally.Shift (state.tally slots condition)
      (next.tally slots condition)
      ((new.isBlockedOn condition).toNat - (old.isBlockedOn condition).toNat)
      ((new.isNotifying condition).toNat - (old.isNotifying condition).toNat)
      ((new.isReleasedFrom condition).toNat -
        (old.isReleasedFrom condition).toNat)
      (next.supply slots condition - state.supply slots condition) := by
  unfold tally
  rw [moved]
  exact (roles condition).shift_set isAt new _ _

/-- What excuses a thread from taking a unit of the condition. -/
def Excuses (state : State α) (condition : Condition) : Prop :=
  condition = .notFull ∧ state.closed = true

section Locked

variable {pc : Pc α} {op : Op α} {timedOut : Bool}

/-- How a critical section shifts the tallies. -/
theorem shift_act
    (slots : Nat)
    (isAt : state.threads[thread]? = some pc)
    (locks : pc.locks? = some (op, timedOut))
    (verdict : Verdict α)
    (moving : Moving α)
    (condition : Condition) :
    Monitor.Tally.Shift (state.tally slots condition)
      ((state.act slots thread op timedOut verdict moving).tally slots
        condition)
      ((state.afterLock op verdict moving).isBlockedOn condition).toNat
      ((state.afterLock op verdict moving).isNotifying condition).toNat
      (-(pc.isReleasedFrom condition).toNat)
      ((state.act slots thread op timedOut verdict moving).supply slots
          condition - state.supply slots condition) := by
  obtain ⟨notBlocked, notNotifying, _⟩ := Pc.of_locks locks condition
  have notReleased :
      (state.afterLock op verdict moving).isReleasedFrom condition =
        false := by
    cases verdict <;> cases moving <;> rfl
  have moved :
      (state.act slots thread op timedOut verdict moving).threads =
        state.threads.set thread (state.afterLock op verdict moving) :=
    threads_act
  have shift := shift_moved slots isAt moved condition
  simpa [notBlocked, notNotifying, notReleased] using shift

/-- A thread that blocks finds no unit. -/
theorem move_block
    (isAt : state.threads[thread]? = some pc)
    (locks : pc.locks? = some (op, timedOut))
    (fits : Verdict.block.Fits slots state op timedOut)
    (moving : Moving α)
    (condition : Condition) :
    Monitor.Tally.Move (state.Excuses condition)
      (state.tally slots condition)
      ((state.act slots thread op timedOut .block moving).tally slots
        condition) := by
  obtain ⟨_, _, waits⟩ := Pc.of_locks locks condition
  have shift := shift_act slots isAt locks .block moving condition
  have unchanged :
      (state.act slots thread op timedOut .block moving).supply slots
        condition = state.supply slots condition := by
    cases condition <;> rfl
  have isBlocked :
      (state.afterLock op .block moving).isBlockedOn condition =
        (waitsOn? op == some condition) := rfl
  have notNotifying :
      (state.afterLock op .block moving).isNotifying condition = false := rfl
  rw [unchanged, sub_self, isBlocked, notNotifying] at shift
  by_cases same : waitsOn? op = some condition
  · have isEmpty : state.supply slots condition = 0 := by
      obtain ⟨_, _, ⟨onFull, isFull⟩ | ⟨onEmpty, isEmpty⟩⟩ := fits
      · rw [onFull] at same
        cases same
        simp [supply, isFull]
      · rw [onEmpty] at same
        cases same
        exact isEmpty
    exact .block isEmpty (by simpa [same] using shift)
  · have notReleased : pc.isReleasedFrom condition = false :=
      Bool.eq_false_iff.mpr fun isReleased => same (waits isReleased)
    have stays : (waitsOn? op == some condition) = false :=
      beq_eq_false_iff_ne.mpr same
    exact .keep (by simpa [stays, notReleased] using shift)

/-- A waiter that is answered without a move finds no unit, or is excused. -/
theorem unsupplied_of_answer
    {result : Result α}
    (fits : (Verdict.answer result).Fits slots state op timedOut)
    {condition : Condition}
    (waits : waitsOn? op = some condition) :
    state.supply slots condition = 0 ∨ state.Excuses condition := by
  cases result with
  | pushed accepted =>
      cases accepted with
      | true => cases fits
      | false =>
          obtain ⟨⟨value, pushes⟩, isClosed | ⟨isFull, _⟩⟩ := fits <;>
            cases op <;> cases pushes <;> cases waits
          · exact Or.inr ⟨rfl, isClosed⟩
          · exact Or.inr ⟨rfl, isClosed⟩
          · exact Or.inl (by simp [supply, isFull])
          · exact Or.inl (by simp [supply, isFull])
  | popped delivered out =>
      cases delivered with
      | true => cases fits
      | false =>
          obtain ⟨pops, isEmpty, _⟩ := fits
          cases op <;> cases pops <;> cases waits <;> exact Or.inl isEmpty
  | done | closed | size =>
      obtain ⟨rfl, _⟩ := fits
      cases waits
  | _ => cases fits

/-- A thread that is answered without a move leaves. -/
theorem move_answer
    (isAt : state.threads[thread]? = some pc)
    (locks : pc.locks? = some (op, timedOut))
    {result : Result α}
    (fits : (Verdict.answer result).Fits slots state op timedOut)
    (moving : Moving α)
    (condition : Condition) :
    Monitor.Tally.Move (state.Excuses condition)
      (state.tally slots condition)
      ((state.act slots thread op timedOut (.answer result) moving).tally
        slots condition) := by
  obtain ⟨_, _, waits⟩ := Pc.of_locks locks condition
  have shift := shift_act slots isAt locks (.answer result) moving condition
  have unchanged :
      (state.act slots thread op timedOut (.answer result) moving).supply
        slots condition = state.supply slots condition := by
    cases condition <;> rfl
  have returns :
      state.afterLock op (.answer result) moving = .returning result := rfl
  rw [unchanged, sub_self, returns] at shift
  cases isReleased : pc.isReleasedFrom condition with
  | true =>
      exact .leave (unsupplied_of_answer fits (waits isReleased)) shift
  | false =>
      exact .keep (by
        simpa [isReleased, Pc.isBlockedOn, Pc.isNotifying] using shift)

/-- A push that appends takes a free slot. -/
theorem shift_enqueue_notFull
    (slots : Nat)
    (isAt : state.threads[thread]? = some pc)
    (locks : pc.locks? = some (op, timedOut))
    (room : state.size < slots)
    (value husk : α) :
    Monitor.Tally.Shift (state.tally slots .notFull)
      ((state.act slots thread op timedOut (.enqueue value)
        (.moves husk)).tally slots .notFull)
      0 0 (-(pc.isReleasedFrom .notFull).toNat) (-1) := by
  have shift :=
    shift_act slots isAt locks (.enqueue value) (.moves husk) .notFull
  have taken :
      (((state.act slots thread op timedOut (.enqueue value)
        (.moves husk)).supply slots .notFull : Nat) : Int) -
          state.supply slots .notFull = -1 := by
    simp only [supply, act, goto, commit, enqueueLocked]
    omega
  rw [taken] at shift
  exact shift

/-- A push that appends takes a free slot and promises an element. -/
theorem move_enqueue
    (isAt : state.threads[thread]? = some pc)
    (locks : pc.locks? = some (op, timedOut))
    {value : α}
    (fits : (Verdict.enqueue value).Fits slots state op timedOut)
    (husk : α)
    (condition : Condition) :
    Monitor.Tally.Move (state.Excuses condition)
      (state.tally slots condition)
      ((state.act slots thread op timedOut (.enqueue value)
        (.moves husk)).tally slots condition) := by
  obtain ⟨pushes, _, room⟩ := fits
  cases condition with
  | notFull =>
      exact .consume (by exact_mod_cast Bool.toNat_le _)
        (shift_enqueue_notFull slots isAt locks room value husk)
  | notEmpty =>
      obtain ⟨_, _, waits⟩ := Pc.of_locks locks .notEmpty
      have shift :=
        shift_act slots isAt locks (.enqueue value) (.moves husk) .notEmpty
      have added :
          (((state.act slots thread op timedOut (.enqueue value)
            (.moves husk)).supply slots .notEmpty : Nat) : Int) -
              state.supply slots .notEmpty = 1 := by
        simp only [supply, act, goto, commit, enqueueLocked]
        omega
      have notReleased : pc.isReleasedFrom .notEmpty = false := by
        refine Bool.eq_false_iff.mpr fun isReleased => ?_
        have waits := waits isReleased
        cases op <;> cases pushes <;> cases waits
      rw [added, notReleased] at shift
      exact .produce shift

/-- A pop that removes takes an element. -/
theorem shift_dequeue_notEmpty
    (slots : Nat)
    (isAt : state.threads[thread]? = some pc)
    (locks : pc.locks? = some (op, timedOut))
    (nonempty : 0 < state.size)
    (out husk : α) :
    Monitor.Tally.Shift (state.tally slots .notEmpty)
      ((state.act slots thread op timedOut (.dequeue out)
        (.moves husk)).tally slots .notEmpty)
      0 0 (-(pc.isReleasedFrom .notEmpty).toNat) (-1) := by
  have shift :=
    shift_act slots isAt locks (.dequeue out) (.moves husk) .notEmpty
  have taken :
      (((state.act slots thread op timedOut (.dequeue out)
        (.moves husk)).supply slots .notEmpty : Nat) : Int) -
          state.supply slots .notEmpty = -1 := by
    simp only [supply, act, goto, commit, dequeueLocked]
    omega
  rw [taken] at shift
  exact shift

/-- A pop that removes takes an element and promises a free slot. -/
theorem move_dequeue
    (bounded : state.size ≤ slots)
    (isAt : state.threads[thread]? = some pc)
    (locks : pc.locks? = some (op, timedOut))
    {out : α}
    (fits : (Verdict.dequeue out).Fits slots state op timedOut)
    (husk : α)
    (condition : Condition) :
    Monitor.Tally.Move (state.Excuses condition)
      (state.tally slots condition)
      ((state.act slots thread op timedOut (.dequeue out)
        (.moves husk)).tally slots condition) := by
  obtain ⟨pops, nonempty⟩ := fits
  cases condition with
  | notEmpty =>
      exact .consume (by exact_mod_cast Bool.toNat_le _)
        (shift_dequeue_notEmpty slots isAt locks nonempty out husk)
  | notFull =>
      obtain ⟨_, _, waits⟩ := Pc.of_locks locks .notFull
      have shift :=
        shift_act slots isAt locks (.dequeue out) (.moves husk) .notFull
      have added :
          (((state.act slots thread op timedOut (.dequeue out)
            (.moves husk)).supply slots .notFull : Nat) : Int) -
              state.supply slots .notFull = 1 := by
        simp only [supply, act, goto, commit, dequeueLocked]
        omega
      have notReleased : pc.isReleasedFrom .notFull = false := by
        refine Bool.eq_false_iff.mpr fun isReleased => ?_
        have waits := waits isReleased
        cases op <;> cases pops <;> cases waits
      rw [added, notReleased] at shift
      exact .produce shift

/-- Closing changes no tally. -/
theorem move_close
    (isAt : state.threads[thread]? = some pc)
    (locks : pc.locks? = some (op, timedOut))
    (fits : Verdict.close.Fits slots state op timedOut)
    (moving : Moving α)
    (condition : Condition) :
    Monitor.Tally.Move (state.Excuses condition)
      (state.tally slots condition)
      ((state.act slots thread op timedOut .close moving).tally slots
        condition) := by
  obtain ⟨rfl, _⟩ := fits
  obtain ⟨_, _, waits⟩ := Pc.of_locks locks condition
  have shift := shift_act slots isAt locks .close moving condition
  have unchanged :
      (state.act slots thread .close timedOut .close moving).supply slots
        condition = state.supply slots condition := by
    cases condition <;> rfl
  have notReleased : pc.isReleasedFrom condition = false :=
    Bool.eq_false_iff.mpr fun isReleased => by cases waits isReleased
  rw [unchanged, sub_self, notReleased] at shift
  exact .keep shift

/-- A critical section without a throwing move is a move of the monitor. -/
theorem move_act
    (bounded : state.size ≤ slots)
    (isAt : state.threads[thread]? = some pc)
    (locks : pc.locks? = some (op, timedOut))
    {verdict : Verdict α}
    (fits : verdict.Fits slots state op timedOut)
    {moving : Moving α}
    (quiet :
      verdict.movesElement = true →
      (Action.lock moving).isThrowing = false)
    (condition : Condition) :
    Monitor.Tally.Move (state.Excuses condition)
      (state.tally slots condition)
      ((state.act slots thread op timedOut verdict moving).tally slots
        condition) := by
  cases verdict with
  | block => exact move_block isAt locks fits moving condition
  | answer => exact move_answer isAt locks fits moving condition
  | close => exact move_close isAt locks fits moving condition
  | enqueue =>
      cases moving with
      | moves husk => exact move_enqueue isAt locks fits husk condition
      | throws => cases quiet rfl
  | dequeue =>
      cases moving with
      | moves husk => exact move_dequeue bounded isAt locks fits husk condition
      | throws => cases quiet rfl

end Locked

/-- Moving one thread shifts the tallies by that thread. -/
theorem shift_goto
    (slots : Nat)
    {old : Pc α}
    (isAt : state.threads[thread]? = some old)
    (new : Pc α)
    (condition : Condition) :
    Monitor.Tally.Shift (state.tally slots condition)
      ((state.goto thread new).tally slots condition)
      ((new.isBlockedOn condition).toNat - (old.isBlockedOn condition).toNat)
      ((new.isNotifying condition).toNat - (old.isNotifying condition).toNat)
      ((new.isReleasedFrom condition).toNat -
        (old.isReleasedFrom condition).toNat) 0 := by
  have same :
      (state.goto thread new).supply slots condition =
        state.supply slots condition := by
    cases condition <;> rfl
  have moved :
      (state.goto thread new).threads = state.threads.set thread new := rfl
  have shift := shift_moved slots isAt moved condition
  rwa [same, sub_self] at shift

/-- A thread may move where no condition variable matters. -/
theorem move_plain
    {old new : Pc α}
    (isAt : state.threads[thread]? = some old)
    (oldPlain : old.Plain)
    (newPlain : new.Plain)
    (condition : Condition) :
    Monitor.Tally.Move (state.Excuses condition)
      (state.tally slots condition)
      ((state.goto thread new).tally slots condition) := by
  have shift := shift_goto slots isAt new condition
  obtain ⟨oldBlocked, oldNotifying, oldReleased⟩ := oldPlain condition
  obtain ⟨newBlocked, newNotifying, newReleased⟩ := newPlain condition
  rw [oldBlocked, oldNotifying, oldReleased, newBlocked, newNotifying,
    newReleased] at shift
  exact .keep shift

/-- A waiter that stops waiting is released. -/
theorem move_release
    {op : Op α}
    (isAt : state.threads[thread]? = some (.blocked op))
    (timedOut : Bool)
    (condition : Condition) :
    Monitor.Tally.Move (state.Excuses condition)
      (state.tally slots condition)
      ((state.goto thread (.released op timedOut)).tally slots
        condition) := by
  have shift := shift_goto slots isAt (.released op timedOut) condition
  cases waits : waitsOn? op == some condition with
  | true =>
      exact .wake (by
        simpa [Pc.isBlockedOn, Pc.isNotifying, Pc.isReleasedFrom, waits]
          using shift)
  | false =>
      exact .keep (by
        simpa [Pc.isBlockedOn, Pc.isNotifying, Pc.isReleasedFrom, waits]
          using shift)

/-- A timeout may come after the release. -/
theorem move_lateTimeout
    {op : Op α}
    {timedOut : Bool}
    (isAt : state.threads[thread]? = some (.released op timedOut))
    (condition : Condition) :
    Monitor.Tally.Move (state.Excuses condition)
      (state.tally slots condition)
      ((state.goto thread (.released op true)).tally slots condition) := by
  have shift := shift_goto slots isAt (.released op true) condition
  exact .keep (by
    simpa [Pc.isBlockedOn, Pc.isNotifying, Pc.isReleasedFrom] using shift)

/-- A notification that finds no waiter is spent. -/
theorem move_notifyNobody
    {notified : Condition}
    {result : Result α}
    (isAt : state.threads[thread]? = some (.notifyOne notified result))
    (nobody : state.threads.any (Pc.isBlockedOn notified) = false)
    (condition : Condition) :
    Monitor.Tally.Move (state.Excuses condition)
      (state.tally slots condition)
      ((state.goto thread (.returning result)).tally slots condition) := by
  have shift := shift_goto slots isAt (.returning result) condition
  cases same : notified == condition with
  | true =>
      obtain rfl := beq_iff_eq.mp same
      have nobodyWaits : (state.tally slots notified).waiting = 0 := by
        refine List.countP_eq_zero.mpr fun pc isIn isBlocked => ?_
        rw [List.any_eq_false] at nobody
        exact nobody pc isIn isBlocked
      exact .signalNobody nobodyWaits (by
        simpa [Pc.isBlockedOn, Pc.isNotifying, Pc.isReleasedFrom]
          using shift)
  | false =>
      exact .keep (by
        simpa [Pc.isBlockedOn, Pc.isNotifying, Pc.isReleasedFrom, same]
          using shift)

/-- How a notification that finds a waiter shifts the tallies. -/
theorem shift_notifyOne
    (slots : Nat)
    {notified : Condition}
    {result : Result α}
    {waiter : Nat}
    {pc : Pc α}
    (isAt : state.threads[thread]? = some (.notifyOne notified result))
    (waits : state.threads[waiter]? = some pc)
    (isBlocked : pc.isBlockedOn notified = true)
    (condition : Condition) :
    Monitor.Tally.Shift (state.tally slots condition)
      (((state.goto waiter (pc.release notified)).goto thread
        (.returning result)).tally slots condition)
      (-(notified == condition).toNat) (-(notified == condition).toNat)
      (notified == condition).toNat 0 := by
  obtain ⟨op, rfl, onNotified, released⟩ := Pc.of_isBlockedOn isBlocked
  rw [released]
  have different : waiter ≠ thread := by
    rintro rfl
    rw [isAt] at waits
    cases waits
  have stays :
      (state.goto waiter (.released op false)).threads[thread]? =
        some (.notifyOne notified result) := by
    simpa [goto, List.getElem?_set_ne different] using isAt
  have shift :=
    (shift_goto slots waits (.released op false) condition).trans
      (shift_goto slots stays (.returning result) condition)
  have sameCondition :
      (some notified == some condition) = (notified == condition) := rfl
  simpa [Pc.isBlockedOn, Pc.isNotifying, Pc.isReleasedFrom, onNotified,
    sameCondition] using shift

/-- A notification releases a waiter. -/
theorem move_notifyOne
    {notified : Condition}
    {result : Result α}
    {waiter : Nat}
    {pc : Pc α}
    (isAt : state.threads[thread]? = some (.notifyOne notified result))
    (waits : state.threads[waiter]? = some pc)
    (isBlocked : pc.isBlockedOn notified = true)
    (condition : Condition) :
    Monitor.Tally.Move (state.Excuses condition)
      (state.tally slots condition)
      (((state.goto waiter (pc.release notified)).goto thread
        (.returning result)).tally slots condition) := by
  have shift := shift_notifyOne slots isAt waits isBlocked condition
  cases same : notified == condition with
  | true =>
      rw [same] at shift
      exact .signal shift
  | false =>
      rw [same] at shift
      exact .keep shift

/-- Notifying changes no supply. -/
theorem supply_notifyAll
    (slots : Nat)
    (state : State α)
    (notified condition : Condition) :
    (state.notifyAll notified).supply slots condition =
      state.supply slots condition := by
  cases condition <;> rfl

/-- A `notify_all` releases every waiter of its condition. -/
theorem shift_notifyAll
    (slots : Nat)
    (state : State α)
    (notified : Condition) :
    Monitor.Tally.Shift (state.tally slots notified)
      ((state.notifyAll notified).tally slots notified)
      (-(state.tally slots notified).waiting) 0
      (state.tally slots notified).waiting 0 := by
  unfold tally
  rw [supply_notifyAll]
  exact
    (roles notified).shift_broadcast (Pc.isBlockedOn_release notified)
      (Pc.isNotifying_release notified notified)
      (Pc.isReleasedFrom_release notified) state.threads
      (state.supply slots notified)

/-- A `notify_all` leaves the waiters of the other condition. -/
theorem shift_notifyAll_other
    (slots : Nat)
    (state : State α)
    {notified condition : Condition}
    (different : notified ≠ condition) :
    Monitor.Tally.Shift (state.tally slots condition)
      ((state.notifyAll notified).tally slots condition) 0 0 0 0 := by
  unfold tally
  rw [supply_notifyAll]
  exact
    (roles condition).shift_map (Pc.isBlockedOn_release_other different)
      (Pc.isNotifying_release condition notified)
      (Pc.isReleasedFrom_release_other different) state.threads
      (state.supply slots condition)

/-- A `notify_all` is a move of the monitor. -/
theorem move_notifyAll
    {old new : Pc α}
    (isAt : state.threads[thread]? = some old)
    (oldPlain : old.Plain)
    (newPlain : new.Plain)
    (notified condition : Condition) :
    Monitor.Tally.Move (state.Excuses condition)
      (state.tally slots condition)
      (((state.notifyAll notified).goto thread new).tally slots
        condition) := by
  have stays : (state.notifyAll notified).threads[thread]? = some old := by
    have notBlocked := (oldPlain notified).1
    simp [notifyAll, isAt, Pc.release_of_not_blocked notBlocked]
  have second := shift_goto slots stays new condition
  obtain ⟨oldBlocked, oldNotifying, oldReleased⟩ := oldPlain condition
  obtain ⟨newBlocked, newNotifying, newReleased⟩ := newPlain condition
  rw [oldBlocked, oldNotifying, oldReleased, newBlocked, newNotifying,
    newReleased] at second
  by_cases isNotified : notified = condition
  · subst isNotified
    have first := shift_notifyAll slots state notified
    exact .broadcast (by simpa using first.trans second)
  · have first := shift_notifyAll_other slots state isNotified
    exact .keep (by simpa using first.trans second)

/-- A step without a throwing move is a move of the monitor. -/
theorem move_step
    {action : Action α}
    (bounded : state.size ≤ slots)
    (step : Step slots state thread action next)
    (quiet : throwsAt slots state ⟨thread, action⟩ = false)
    (condition : Condition) :
    Monitor.Tally.Move (state.Excuses condition)
      (state.tally slots condition) (next.tally slots condition) := by
  cases step with
  | invoke isAt starts =>
      rename_i op pc
      have isIdle : (state.invoke thread op).threads[thread]? = some .idle :=
        isAt
      exact move_plain isIdle (fun _ => ⟨rfl, rfl, rfl⟩)
        (Pc.plain_start? starts) condition
  | lock isAt locks decides =>
      refine move_act bounded isAt locks (verdict?_fits bounded decides)
        (fun movesElement => ?_) condition
      simpa [throwsAt, isAt, locks, decides, movesElement] using quiet
  | wake isAt =>
      exact move_release isAt false condition
  | timeout isAt =>
      exact move_release isAt true condition
  | lateTimeout isAt =>
      exact move_lateTimeout isAt condition
  | notifyNobody isAt nobody =>
      exact move_notifyNobody isAt nobody condition
  | notifyOne isAt waits isBlocked =>
      exact move_notifyOne isAt waits isBlocked condition
  | notifyAllNotFull isAt | notifyAllNotEmpty isAt =>
      exact move_notifyAll isAt (fun _ => ⟨rfl, rfl, rfl⟩)
        (fun _ => ⟨rfl, rfl, rfl⟩) _ condition
  | respond isAt =>
      rename_i result
      have returns :
          (state.respond thread result).threads[thread]? =
            some (.returning result) := isAt
      exact move_plain returns (fun _ => ⟨rfl, rfl, rfl⟩)
        (fun _ => ⟨rfl, rfl, rfl⟩) condition

/-- A closed queue stays closed. -/
theorem closed_step
    {action : Action α}
    (step : Step slots state thread action next)
    (isClosed : state.closed = true) :
    next.closed = true := by
  cases step with
  | @lock pc op timedOut verdict moving =>
      cases verdict <;> cases moving <;> first | exact isClosed | rfl
  | _ => exact isClosed

/-- Nobody waits for a queue under construction. -/
theorem waiting_initial
    [Inhabited α]
    (threads : Nat)
    (condition : Condition) :
    ((initial threads : State α).tally slots condition).waiting = 0 := by
  simp [tally, Monitor.Roles.tally, roles, initial, List.countP_replicate,
    Pc.isBlockedOn]

end State

/-- The size of the queue is bounded in every reachable state. -/
theorem size_le_of_run
    [Inhabited α]
    {threads : Nat}
    (positive : 0 < slots)
    (small : slots ≤ SizeT.halfRange)
    {guard : StepGuard (State α) (Label α)}
    {labels : List (Label α)}
    {state : State α}
    (run : Run (step? slots) guard (initial threads) labels state) :
    state.size ≤ slots := by
  obtain ⟨fifo, _, represents⟩ := linear_of_run positive small run
  exact represents.size_le

/-- The tallies of both condition variables are covered. -/
def Covered (slots : Nat) (state : State α) : Prop :=
  ∀ condition,
    (state.tally slots condition).Covered (state.Excuses condition)

/-- Every unit is covered where no move assignment has thrown. -/
theorem covered_of_run
    [Inhabited α]
    {threads : Nat}
    (positive : 0 < slots)
    (small : slots ≤ SizeT.halfRange)
    {labels : List (Label α)}
    {state : State α}
    (run : Run (step? slots) nonthrowing (initial threads) labels state) :
    Covered slots state := by
  have base : Covered slots (initial threads : State α) := fun condition =>
    Or.inr (Or.inl (State.waiting_initial threads condition))
  refine run.invariant_of (size_le_of_run positive small) base ?_
  intro state next label bounded _ covered quiet taken condition
  have step := Step.of_step? taken
  have excused : state.Excuses condition → next.Excuses condition :=
    fun excuses => ⟨excuses.1, State.closed_step step excuses.2⟩
  have isQuiet : label.action.isThrowing = false := quiet
  have silent : throwsAt slots state label = false := by
    simp [throwsAt, isQuiet]
  have move := State.move_step bounded step silent condition
  exact ((covered condition).move move).mono excused

section Closing

variable {state next : State α} {thread : Nat}
variable {pool : List (Pc α)} {old new : Pc α} {condition : Condition}

/-- If a thread waits then some `close()` has its notification to issue. -/
def Attended (pool : List (Pc α)) (condition : Condition) : Prop :=
  0 < pool.countP (Pc.isBlockedOn condition) →
    0 < pool.countP (Pc.isNotifyingAll condition)

/-- The notifying thread attends to every waiter. -/
theorem Attended.of_notifier
    (isAt : pool[thread]? = some old)
    (notifies : old.isNotifyingAll condition = true) :
    Attended pool condition :=
  fun _ => Monitor.countP_pos_of_getElem? isAt notifies

/-- A thread that neither notified nor blocks may move. -/
theorem Attended.set
    (attended : Attended pool condition)
    (isAt : pool[thread]? = some old)
    (silent : old.isNotifyingAll condition = false)
    (runs : new.isBlockedOn condition = false) :
    Attended (pool.set thread new) condition := by
  intro waits
  have blocked := Monitor.countP_set isAt new (Pc.isBlockedOn condition)
  have notifying := Monitor.countP_set isAt new (Pc.isNotifyingAll condition)
  rw [runs, Bool.toNat_false] at blocked
  rw [silent, Bool.toNat_false] at notifying
  have earlier := attended (by omega)
  omega

/-- A release leaves the threads that notify. -/
theorem Attended.release
    (attended : Attended pool condition)
    (notified : Condition) :
    Attended (pool.map (Pc.release notified)) condition := by
  have notifying :
      (pool.map (Pc.release notified)).countP
          (Pc.isNotifyingAll condition) =
        pool.countP (Pc.isNotifyingAll condition) := by
    rw [List.countP_map]
    refine List.countP_congr fun pc _ => ?_
    cases isBlocked : pc.isBlockedOn notified with
    | true =>
        obtain ⟨op, rfl, _, released⟩ := Pc.of_isBlockedOn isBlocked
        simp only [Function.comp_apply, released]
        cases condition <;> exact Iff.rfl
    | false =>
        simp [Pc.release_of_not_blocked isBlocked]
  intro waits
  rw [notifying]
  refine attended (lt_of_lt_of_le waits ?_)
  rw [List.countP_map]
  refine List.countP_mono_left fun pc _ isBlocked => ?_
  by_cases same : notified = condition
  · subst same
    simp [Pc.isBlockedOn_release] at isBlocked
  · simpa [Pc.isBlockedOn_release_other same] using isBlocked

/-- Nobody waits on a condition that was just notified. -/
theorem Attended.set_release
    (isAt : (pool.map (Pc.release condition))[thread]? = some old)
    (runs : new.isBlockedOn condition = false) :
    Attended ((pool.map (Pc.release condition)).set thread new)
      condition := by
  intro waits
  have nobody :
      (pool.map (Pc.release condition)).countP (Pc.isBlockedOn condition) =
        0 := by
    simp [Pc.isBlockedOn_release]
  have blocked := Monitor.countP_set isAt new (Pc.isBlockedOn condition)
  rw [runs, nobody, Bool.toNat_false] at blocked
  omega

/-- In a closed queue every waiter is attended to. -/
def Closing (state : State α) : Prop :=
  state.closed = true → ∀ condition, Attended state.threads condition

/-- A critical section leaves no waiter of a closed queue alone. -/
theorem Closing.act
    {pc : Pc α}
    {op : Op α}
    {timedOut : Bool}
    {verdict : Verdict α}
    (closing : Closing state)
    (isAt : state.threads[thread]? = some pc)
    (locks : pc.locks? = some (op, timedOut))
    (fits : verdict.Fits slots state op timedOut)
    (moving : Moving α) :
    Closing (state.act slots thread op timedOut verdict moving) := by
  intro isClosed condition
  rw [State.threads_act]
  have silent : pc.isNotifyingAll condition = false := by
    cases pc <;> cases locks <;> cases condition <;> rfl
  have isPresent : thread < state.threads.length :=
    (List.getElem?_eq_some_iff.mp isAt).1
  cases verdict with
  | block =>
      have isOpen : state.closed = false := fits.1
      have wasClosed : state.closed = true := isClosed
      rw [isOpen] at wasClosed
      cases wasClosed
  | close =>
      refine Attended.of_notifier (List.getElem?_set_self isPresent) ?_
      cases condition <;> rfl
  | answer | enqueue | dequeue =>
      have wasClosed : state.closed = true := by
        cases moving <;> exact isClosed
      refine (closing wasClosed condition).set isAt silent ?_
      cases moving <;> rfl

/-- Every step leaves every waiter of a closed queue attended to. -/
theorem Closing.step
    {action : Action α}
    (bounded : state.size ≤ slots)
    (closing : Closing state)
    (step : Step slots state thread action next) :
    Closing next := by
  cases step with
  | lock isAt locks decides =>
      exact closing.act isAt locks (State.verdict?_fits bounded decides) _
  | invoke isAt starts =>
      intro isClosed condition
      exact (closing isClosed condition).set isAt (by cases condition <;> rfl)
        (Pc.plain_start? starts condition).1
  | notifyOne isAt waits isBlocked =>
      rename_i notified result waiter pc
      intro isClosed condition
      obtain ⟨op, rfl, _, released⟩ := Pc.of_isBlockedOn isBlocked
      have different : waiter ≠ thread := by
        rintro rfl
        rw [isAt] at waits
        cases waits
      have first :
          Attended (state.threads.set waiter (.released op false))
            condition :=
        (closing isClosed condition).set waits
          (by cases condition <;> rfl) rfl
      have stays :
          (state.threads.set waiter (.released op false))[thread]? =
            some (.notifyOne notified result) := by
        rw [List.getElem?_set_ne different, isAt]
      rw [released]
      exact first.set stays (by cases condition <;> rfl) rfl
  | notifyAllNotFull isAt =>
      intro isClosed condition
      have stays :
          (state.threads.map (Pc.release .notFull))[thread]? =
            some .notifyAllNotFull := by
        simp [isAt, Pc.release]
      cases condition with
      | notFull =>
          exact Attended.set_release stays rfl
      | notEmpty =>
          have isPresent := (List.getElem?_eq_some_iff.mp stays).1
          exact Attended.of_notifier (List.getElem?_set_self isPresent) rfl
  | notifyAllNotEmpty isAt =>
      intro isClosed condition
      have stays :
          (state.threads.map (Pc.release .notEmpty))[thread]? =
            some .notifyAllNotEmpty := by
        simp [isAt, Pc.release]
      cases condition with
      | notFull =>
          exact ((closing isClosed .notFull).release .notEmpty).set stays
            rfl rfl
      | notEmpty =>
          exact Attended.set_release stays rfl
  | wake isAt | timeout isAt _ | lateTimeout isAt _ | notifyNobody isAt _
  | respond isAt =>
      intro isClosed condition
      exact (closing isClosed condition).set isAt
        (by cases condition <;> rfl) rfl

end Closing

/-- In a closed queue every waiter is attended to, in every reachable state. -/
theorem closing_of_run
    [Inhabited α]
    {threads : Nat}
    (positive : 0 < slots)
    (small : slots ≤ SizeT.halfRange)
    {guard : StepGuard (State α) (Label α)}
    {labels : List (Label α)}
    {state : State α}
    (run : Run (step? slots) guard (initial threads) labels state) :
    Closing state := by
  have base : Closing (initial threads : State α) := fun isClosed => by
    cases isClosed
  exact run.invariant_of (size_le_of_run positive small) base
    fun bounded _ closing _ taken =>
      closing.step bounded (Step.of_step? taken)

/-- What the wakeups of a queue without throwing moves keep. -/
structure WakeupsKept (slots : Nat) (state : State α) : Prop where
  /-- Every element has a notification or a released thread on its way. -/
  notEmpty :
    state.Waits .notEmpty →
    state.size ≤
      state.threads.countP (Pc.isNotifying .notEmpty) +
        state.threads.countP (Pc.isReleasedFrom .notEmpty)
  /-- So has every free slot of an open queue. -/
  notFull :
    state.closed = false →
    state.Waits .notFull →
    slots - state.size ≤
      state.threads.countP (Pc.isNotifying .notFull) +
        state.threads.countP (Pc.isReleasedFrom .notFull)
  /-- Who waits for a closed queue is about to be notified by a `close()`. -/
  closing :
    state.closed = true →
    ∀ condition,
      state.Waits condition →
      state.ClosingNotifies condition

/--
No wakeup is lost while moves do not throw: while a thread waits, every unit it
waits for has a notification or a released thread on its way, and a closed
queue wakes everybody.
-/
theorem wakeups_kept
    [Inhabited α]
    {elementSize capacity slots threads : Nat}
    (built : bufferSlots elementSize capacity = .ok slots)
    {labels : List (Label α)}
    {state : State α}
    (run : Run (step? slots) nonthrowing (initial threads) labels state) :
    WakeupsKept slots state := by
  obtain ⟨_, positive, small⟩ := bufferSlots_ok built
  have covered := covered_of_run positive small run
  refine ⟨?_, ?_, closing_of_run positive small run⟩
  · intro waits
    rcases covered .notEmpty with excuses | nobody | covers
    · cases excuses.1
    · exact (waits.ne' nobody).elim
    · exact covers
  · intro isOpen waits
    rcases covered .notFull with excuses | nobody | covers
    · cases isOpen.symm.trans excuses.2
    · exact (waits.ne' nobody).elim
    · exact covers

/-- Two pops wait, and a push has appended but not yet notified. -/
def oneForTwoSchedule : List (Label Nat) :=
  [⟨0, .invoke (.pop 0)⟩, ⟨0, .lock (.moves 0)⟩,
    ⟨1, .invoke (.tryPopFor 0)⟩, ⟨1, .lock (.moves 0)⟩,
    ⟨2, .invoke (.push 7)⟩, ⟨2, .lock (.moves 0)⟩]

theorem wakeups_kept_one_for_two :
    ∃ state,
      replay? (step? 2) nonthrowing (initial 3) oneForTwoSchedule =
          some state ∧
        state.Waits .notEmpty ∧ state.size = 1 ∧ WakeupsKept 2 state := by
  have replayed :
      ∃ state,
        replay? (step? 2) nonthrowing (initial 3) oneForTwoSchedule =
            some state ∧
          state.Waits .notEmpty ∧ state.size = 1 :=
    ⟨_, rfl, by decide, rfl⟩
  have built : bufferSlots 8 2 = .ok 2 := by
    rfl
  obtain ⟨state, accepted, waits, sized⟩ := replayed
  exact ⟨state, accepted, waits, sized,
    wakeups_kept built (Run.of_replay? accepted)⟩

/--
Two pushes wait for the only slot; a pop notifies one of them, and a `close()`
comes before that one has locked `mutex_` again.
-/
def closedBetweenSchedule : List (Label Nat) :=
  [⟨0, .invoke (.push 7)⟩, ⟨0, .lock (.moves 0)⟩, ⟨0, .notify none⟩,
    ⟨0, .respond⟩,
    ⟨1, .invoke (.push 8)⟩, ⟨1, .lock (.moves 0)⟩,
    ⟨2, .invoke (.push 9)⟩, ⟨2, .lock (.moves 0)⟩,
    ⟨0, .invoke (.pop 0)⟩, ⟨0, .lock (.moves 0)⟩, ⟨0, .notify (some 1)⟩,
    ⟨0, .respond⟩,
    ⟨0, .invoke .close⟩, ⟨0, .lock (.moves 0)⟩,
    ⟨1, .lock (.moves 0)⟩]

/-- The second push has neither a notification nor a released thread. -/
theorem slot_uncovered_while_closing :
    bufferSlots 8 1 = .ok 1 ∧
      ∃ state,
        Run (step? 1) nonthrowing (initial 3) closedBetweenSchedule state ∧
          state.Waits .notFull ∧
          ¬ 1 - state.size ≤
            state.threads.countP (Pc.isNotifying .notFull) +
              state.threads.countP (Pc.isReleasedFrom .notFull) := by
  have replayed :
      ∃ state,
        replay? (step? 1) nonthrowing (initial 3) closedBetweenSchedule =
            some state ∧
          state.Waits .notFull ∧
          ¬ 1 - state.size ≤
            state.threads.countP (Pc.isNotifying .notFull) +
              state.threads.countP (Pc.isReleasedFrom .notFull) :=
    ⟨_, rfl, by decide, by decide⟩
  obtain ⟨state, accepted, waits, uncovered⟩ := replayed
  exact ⟨rfl, state, Run.of_replay? accepted, waits, uncovered⟩

end ConcurrentQueue.Mutex
