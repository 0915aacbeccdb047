import ConcurrentQueue.Mutex.Wakeups

namespace ConcurrentQueue.Mutex

/-!
# Throwing move assignments in `MutexQueue`

A call that leaves by an exception notifies nobody.  Where it had itself been
released from a waiter set, the notification spent on it is lost; the other
waiters are stranded unless they can spare it.
-/

variable {α : Type} {slots : Nat}

namespace State

/-- The waiters of a condition can do without one thread released from it. -/
def CanSpare
    (slots : Nat)
    (state : State α)
    (condition : Condition) : Prop :=
  state.closed = true ∨
    state.threads.countP (Pc.isBlockedOn condition) ≤
      state.threads.countP (Pc.isNotifying condition) ∨
    state.supply slots condition <
      state.threads.countP (Pc.isNotifying condition) +
        state.threads.countP (Pc.isReleasedFrom condition)

/-- The queue is open and has what a thread waits for, and nobody tells it. -/
def Stranded
    (slots : Nat)
    (state : State α)
    (condition : Condition) : Prop :=
  state.closed = false ∧ 0 < state.supply slots condition ∧
    state.Waits condition ∧
    state.threads.countP (Pc.isNotifying condition) = 0 ∧
    state.threads.countP (Pc.isReleasedFrom condition) = 0

end State

/-- A released thread leaves by an exception only where it can be spared. -/
def sparing (slots : Nat) : StepGuard (State α) (Label α) :=
  fun state label =>
    throwsAt slots state label = true →
    ∀ condition,
      (state.threads[label.thread]?).any (Pc.isReleasedFrom condition) =
        true →
      state.CanSpare slots condition

instance (holds : Condition → Prop) [DecidablePred holds] :
    Decidable (∀ condition, holds condition) :=
  decidable_of_iff (holds .notFull ∧ holds .notEmpty)
    ⟨fun both => Condition.rec both.1 both.2, fun all => ⟨all _, all _⟩⟩

instance (state : State α) (condition : Condition) :
    Decidable (state.CanSpare slots condition) :=
  inferInstanceAs (Decidable (_ ∨ _ ∨ _))

instance (state : State α) (label : Label α) :
    Decidable (sparing slots state label) :=
  inferInstanceAs (Decidable (_ → ∀ _, _ → _))

/-- The tallies of both condition variables are served. -/
def Served (slots : Nat) (state : State α) : Prop :=
  ∀ condition, (state.tally slots condition).Served (state.closed = true)

section Throws

variable {state next : State α} {thread : Nat}

/-- What a critical section that throws was about to do. -/
theorem throws_of_throwsAt
    {action : Action α}
    (step : Step slots state thread action next)
    (throws : throwsAt slots state ⟨thread, action⟩ = true) :
    ∃ pc op timedOut verdict slotValue outValue,
      action = .lock (.throws slotValue outValue) ∧
        state.threads[thread]? = some pc ∧
        pc.locks? = some (op, timedOut) ∧
        state.verdict? slots op timedOut = some verdict ∧
        verdict.movesElement = true ∧
        next =
          state.act slots thread op timedOut verdict
            (.throws slotValue outValue) := by
  cases step with
  | @lock pc op timedOut verdict moving isAt locks decides =>
      cases moving with
      | throws slotValue outValue =>
          have movesElement : verdict.movesElement = true := by
            simpa [throwsAt, isAt, locks, decides, Action.isThrowing]
              using throws
          exact ⟨pc, op, timedOut, verdict, slotValue, outValue, rfl, isAt,
            locks, decides, movesElement, rfl⟩
      | moves => cases throws
  | _ => cases throws

/-- A call that throws only loses the thread that was released. -/
theorem State.shift_throws
    (slots : Nat)
    {pc : Pc α}
    {op : Op α}
    {timedOut : Bool}
    (isAt : state.threads[thread]? = some pc)
    (locks : pc.locks? = some (op, timedOut))
    {verdict : Verdict α}
    (movesElement : verdict.movesElement = true)
    (slotValue outValue : α)
    (condition : Condition) :
    Monitor.Tally.Shift (state.tally slots condition)
      ((state.act slots thread op timedOut verdict
        (.throws slotValue outValue)).tally slots condition)
      0 0 (-(pc.isReleasedFrom condition).toNat) 0 := by
  have shift :=
    State.shift_act slots isAt locks verdict (.throws slotValue outValue)
      condition
  have unchanged :
      (state.act slots thread op timedOut verdict
        (.throws slotValue outValue)).supply slots condition =
          state.supply slots condition := by
    cases verdict <;> cases movesElement <;> cases condition <;> rfl
  have returns :
      ∃ result,
        state.afterLock op verdict (.throws slotValue outValue) =
          .returning result := by
    cases verdict <;> cases movesElement <;> exact ⟨_, rfl⟩
  obtain ⟨result, returns⟩ := returns
  rw [unchanged, sub_self, returns] at shift
  exact shift

/-- Every step whose exceptions can be spared keeps the waiters served. -/
theorem Served.step
    {action : Action α}
    (bounded : state.size ≤ slots)
    (served : Served slots state)
    (step : Step slots state thread action next)
    (admitted : sparing slots state ⟨thread, action⟩) :
    Served slots next := by
  intro condition
  have kept :
      (next.tally slots condition).Served (state.closed = true) := by
    cases throws : throwsAt slots state ⟨thread, action⟩ with
    | false =>
        have move := State.move_step bounded step throws condition
        exact (served condition).move (move.mono And.right)
    | true =>
        obtain ⟨pc, op, timedOut, verdict, slotValue, outValue, rfl, isAt,
          locks, _, movesElement, rfl⟩ := throws_of_throwsAt step throws
        have shift :=
          State.shift_throws slots isAt locks movesElement slotValue outValue
            condition
        refine (served condition).abandon
          (by exact_mod_cast Bool.toNat_le _) (fun released => ?_) shift
        have isReleased : pc.isReleasedFrom condition = true := by
          cases isReleased : pc.isReleasedFrom condition with
          | true => rfl
          | false => simp [isReleased] at released
        exact admitted throws condition (by simpa [isAt] using isReleased)
  exact kept.mono (State.closed_step step)

end Throws

/-- The waiters are served where every exception could be spared. -/
theorem served_of_run
    [Inhabited α]
    {threads : Nat}
    (positive : 0 < slots)
    (small : slots ≤ SizeT.halfRange)
    {labels : List (Label α)}
    {state : State α}
    (run : Run (step? slots) (sparing slots) (initial threads) labels state) :
    Served slots state := by
  have base : Served slots (initial threads : State α) := fun condition =>
    Or.inr (Or.inl (by
      rw [State.waiting_initial threads condition]
      exact Nat.zero_le _))
  exact run.invariant_of (size_le_of_run positive small) base
    fun bounded _ served admitted taken =>
      served.step bounded (Step.of_step? taken) admitted

section Strands

variable {state next : State α} {condition : Condition}

/-- There are more waiters than notifications, and units for nobody. -/
structure Short
    (slots : Nat)
    (state : State α)
    (condition : Condition) : Prop where
  isOpen : state.closed = false
  bounded : state.size ≤ slots
  waits :
    (state.tally slots condition).pending <
      (state.tally slots condition).waiting
  units :
    (state.tally slots condition).pending +
        (state.tally slots condition).released <
      (state.tally slots condition).supply

/-- The steps until nobody is on the way to the units of a condition. -/
def underway (slots : Nat) (state : State α) (condition : Condition) : Nat :=
  2 * (state.tally slots condition).pending +
    (state.tally slots condition).released

/-- A thread that is counted is somewhere in the pool. -/
theorem exists_of_countP
    {pool : List (Pc α)}
    {count : Pc α → Bool}
    (counted : 0 < pool.countP count) :
    ∃ (thread : Nat) (pc : Pc α),
      pool[thread]? = some pc ∧ count pc = true := by
  obtain ⟨pc, isIn, isCounted⟩ := List.countP_pos_iff.mp counted
  obtain ⟨thread, isAt⟩ := List.mem_iff_getElem?.mp isIn
  exact ⟨thread, pc, isAt, isCounted⟩

/-- A signal and a consumed unit leave the condition short. -/
theorem Short.after
    (short : Short slots state condition)
    (isOpen : next.closed = false)
    (bounded : next.size ≤ slots)
    (progress :
      Monitor.Tally.Shift (state.tally slots condition)
          (next.tally slots condition) (-1) (-1) 1 0 ∨
        Monitor.Tally.Shift (state.tally slots condition)
          (next.tally slots condition) 0 0 (-1) (-1)) :
    Short slots next condition ∧
      underway slots next condition < underway slots state condition := by
  have waits := short.waits
  have units := short.units
  unfold underway
  rcases progress with
    ⟨waiting, pending, released, supply⟩
    | ⟨waiting, pending, released, supply⟩
  · exact ⟨⟨isOpen, bounded, by omega, by omega⟩, by omega⟩
  · exact ⟨⟨isOpen, bounded, by omega, by omega⟩, by omega⟩

/-- A notification still to be issued may be issued next. -/
theorem Short.signal
    (short : Short slots state condition)
    (pending : 0 < (state.tally slots condition).pending) :
    ∃ label next,
      nonthrowing state label ∧ step? slots state label = some next ∧
        Short slots next condition ∧
        underway slots next condition < underway slots state condition := by
  obtain ⟨notifier, notifying, isAt, notifies⟩ := exists_of_countP pending
  obtain ⟨waiter, waiting, waits, isBlocked⟩ :=
    exists_of_countP ((Nat.zero_le _).trans_lt short.waits)
  cases notifying with
  | notifyOne notified result =>
      obtain rfl : notified = condition := beq_iff_eq.mp notifies
      have shift := State.shift_notifyOne slots isAt waits isBlocked notified
      rw [beq_self_eq_true] at shift
      have blocks : waiting.isBlockedOn notified = true := isBlocked
      have taken :
          step? slots state ⟨notifier, .notify (some waiter)⟩ =
            some ((state.goto waiter (waiting.release notified)).goto notifier
              (.returning result)) := by
        simp [step?, isAt, State.notifyOne?, waits, blocks]
      exact ⟨⟨notifier, .notify (some waiter)⟩, _, rfl, taken,
        short.after short.isOpen short.bounded (Or.inl shift)⟩
  | _ => cases notifies

/-- A thread that was released may take its unit next. -/
theorem Short.take
    [Inhabited α]
    (short : Short slots state condition)
    (released : 0 < (state.tally slots condition).released) :
    ∃ label next,
      nonthrowing state label ∧ step? slots state label = some next ∧
        Short slots next condition ∧
        underway slots next condition < underway slots state condition := by
  obtain ⟨thread, pc, isAt, isReleased⟩ :
      ∃ (thread : Nat) (pc : Pc α),
        state.threads[thread]? = some pc ∧
          pc.isReleasedFrom condition = true :=
    exists_of_countP released
  have units := short.units
  have isOpen := short.isOpen
  have bounded := short.bounded
  cases pc with
  | released op timedOut =>
      have waits : waitsOn? op = some condition := beq_iff_eq.mp isReleased
      cases condition with
      | notFull =>
          have room : state.size < slots := by
            have supplied : 0 < slots - state.size :=
              (Nat.zero_le _).trans_lt units
            omega
          obtain ⟨value, decides⟩ :
              ∃ value,
                state.verdict? slots op timedOut = some (.enqueue value) := by
            cases op <;> cases waits <;>
              simp [State.verdict?, State.notFullOrClosed, isOpen, room]
          have taken :
              step? slots state ⟨thread, .lock (.moves default)⟩ =
                some (state.act slots thread op timedOut (.enqueue value)
                  (.moves default)) := by
            simp [step?, isAt, State.locked?, decides]
          have shift :=
            State.shift_enqueue_notFull slots isAt rfl room value default
          rw [isReleased] at shift
          exact ⟨⟨thread, .lock (.moves default)⟩, _, rfl, taken,
            short.after isOpen room (Or.inr shift)⟩
      | notEmpty =>
          have nonempty : 0 < state.size := (Nat.zero_le _).trans_lt units
          obtain ⟨out, decides⟩ :
              ∃ out,
                state.verdict? slots op timedOut = some (.dequeue out) := by
            cases op <;> cases waits <;>
              simp [State.verdict?, State.notEmptyOrClosed, nonempty,
                nonempty.ne']
          have taken :
              step? slots state ⟨thread, .lock (.moves default)⟩ =
                some (state.act slots thread op timedOut (.dequeue out)
                  (.moves default)) := by
            simp [step?, isAt, State.locked?, decides]
          have shift :=
            State.shift_dequeue_notEmpty slots isAt rfl nonempty out default
          rw [isReleased] at shift
          exact ⟨⟨thread, .lock (.moves default)⟩, _, rfl, taken,
            short.after isOpen ((Nat.sub_le _ _).trans bounded)
              (Or.inr shift)⟩
  | _ => cases isReleased

/-- A condition that is short can end up stranded without another throw. -/
theorem Short.strands
    [Inhabited α]
    (short : Short slots state condition) :
    ∃ labels final,
      Run (step? slots) nonthrowing state labels final ∧
        final.Stranded slots condition := by
  induction steps : underway slots state condition using
    Nat.strong_induction_on generalizing state with
  | _ steps inductionHypothesis =>
      by_cases pending : 0 < (state.tally slots condition).pending
      · obtain ⟨label, next, quiet, taken, shortNext, fewer⟩ :=
          short.signal pending
        obtain ⟨labels, final, run, stranded⟩ :=
          inductionHypothesis _ (steps ▸ fewer) shortNext rfl
        exact ⟨_, final, run.cons quiet taken, stranded⟩
      · by_cases released : 0 < (state.tally slots condition).released
        · obtain ⟨label, next, quiet, taken, shortNext, fewer⟩ :=
            short.take released
          obtain ⟨labels, final, run, stranded⟩ :=
            inductionHypothesis _ (steps ▸ fewer) shortNext rfl
          exact ⟨_, final, run.cons quiet taken, stranded⟩
        · have nobodyNotifies := Nat.eq_zero_of_not_pos pending
          have nobodyReleased := Nat.eq_zero_of_not_pos released
          exact ⟨[], state, .start, short.isOpen,
            (Nat.zero_le _).trans_lt short.units,
            (Nat.zero_le _).trans_lt short.waits, nobodyNotifies,
            nobodyReleased⟩

end Strands

/-- A throw that the waiters cannot spare leaves its condition short. -/
theorem short_of_not_sparing
    {state next : State α}
    {label : Label α}
    (bounded : state.size ≤ slots)
    (taken : step? slots state label = some next)
    (unspared : ¬ sparing slots state label) :
    ∃ condition, Short slots next condition := by
  unfold sparing at unspared
  push Not at unspared
  obtain ⟨throws, condition, isReleased, unspared⟩ := unspared
  obtain ⟨pc, op, timedOut, verdict, slotValue, outValue, _, isAt, locks, _,
    movesElement, rfl⟩ := throws_of_throwsAt (Step.of_step? taken) throws
  have released : pc.isReleasedFrom condition = true := by
    simpa [isAt] using isReleased
  have sameClosed :
      (state.act slots label.thread op timedOut verdict
        (.throws slotValue outValue)).closed = state.closed := by
    cases verdict <;> cases movesElement <;> rfl
  have sameSize :
      (state.act slots label.thread op timedOut verdict
        (.throws slotValue outValue)).size = state.size := by
    cases verdict <;> cases movesElement <;> rfl
  obtain ⟨waiting, pending, others, supply⟩ :=
    State.shift_throws slots isAt locks movesElement slotValue outValue
      condition
  rw [released, Bool.toNat_true] at others
  have isOpen : state.closed = false := by
    simpa using fun isClosed => unspared (Or.inl isClosed)
  have waits :
      (state.tally slots condition).pending <
        (state.tally slots condition).waiting :=
    lt_of_not_ge fun few => unspared (Or.inr (Or.inl few))
  have units :
      (state.tally slots condition).pending +
          (state.tally slots condition).released ≤
        (state.tally slots condition).supply :=
    le_of_not_gt fun fewer => unspared (Or.inr (Or.inr fewer))
  exact ⟨condition, sameClosed.trans isOpen, sameSize.trans_le bounded,
    by omega, by omega⟩

/--
Exceptions that leave the waiters what they need strand nobody; after the first
exception that does not, a thread may wait for ever for what is there.
-/
theorem waiters_spared
    [Inhabited α]
    {elementSize capacity slots threads : Nat}
    (built : bufferSlots elementSize capacity = .ok slots)
    {labels : List (Label α)}
    {state : State α}
    (run : Run (step? slots) (sparing slots) (initial threads) labels state) :
    (∀ condition, ¬ state.Stranded slots condition) ∧
      ∀ label next,
        step? slots state label = some next →
        ¬ sparing slots state label →
        ∃ condition later final,
          Run (step? slots) nonthrowing next later final ∧
            final.Stranded slots condition := by
  obtain ⟨_, positive, small⟩ := bufferSlots_ok built
  have served := served_of_run positive small run
  have bounded := size_le_of_run positive small run
  constructor
  · rintro condition ⟨isOpen, supplied, waits, nobodyNotifies, nobodyReleased⟩
    have someone :=
      (served condition).not_stranded (by simp [isOpen]) waits supplied
    change
      0 < state.threads.countP (Pc.isNotifying condition) +
        state.threads.countP (Pc.isReleasedFrom condition) at someone
    omega
  · intro label next taken unspared
    obtain ⟨condition, short⟩ := short_of_not_sparing bounded taken unspared
    obtain ⟨later, final, run, stranded⟩ := short.strands
    exact ⟨condition, later, final, run, stranded⟩

/-- Two pops wait, two pushes append, and the first pop to wake up throws. -/
def sparedSchedule : List (Label Nat) :=
  [⟨0, .invoke (.pop 0)⟩, ⟨0, .lock (.moves 0)⟩,
    ⟨1, .invoke (.pop 0)⟩, ⟨1, .lock (.moves 0)⟩,
    ⟨2, .invoke (.push 7)⟩, ⟨2, .lock (.moves 0)⟩,
    ⟨2, .notify (some 0)⟩, ⟨2, .respond⟩,
    ⟨2, .invoke (.push 8)⟩, ⟨2, .lock (.moves 0)⟩,
    ⟨0, .lock (.throws 5 6)⟩]

theorem waiters_spared_two :
    ∃ state,
      replay? (step? 2) (sparing 2) (initial 3) sparedSchedule =
          some state ∧
        state.Waits .notEmpty ∧ state.size = 2 ∧
        (∀ condition, ¬ state.Stranded 2 condition) ∧
        ∀ label next,
          step? 2 state label = some next →
          ¬ sparing 2 state label →
          ∃ condition later final,
            Run (step? 2) nonthrowing next later final ∧
              final.Stranded 2 condition := by
  have replayed :
      ∃ state,
        replay? (step? 2) (sparing 2) (initial 3) sparedSchedule =
            some state ∧
          state.Waits .notEmpty ∧ state.size = 2 :=
    ⟨_, rfl, by decide, rfl⟩
  have built : bufferSlots 8 2 = .ok 2 := by
    rfl
  obtain ⟨state, accepted, waits, sized⟩ := replayed
  exact ⟨state, accepted, waits, sized,
    waiters_spared built (Run.of_replay? accepted)⟩

/-- Two pops wait, and a push that appended one element notified the first. -/
def strandingSchedule : List (Label Nat) :=
  [⟨0, .invoke (.pop 0)⟩, ⟨0, .lock (.moves 0)⟩,
    ⟨1, .invoke (.pop 0)⟩, ⟨1, .lock (.moves 0)⟩,
    ⟨2, .invoke (.push 7)⟩, ⟨2, .lock (.moves 0)⟩,
    ⟨2, .notify (some 0)⟩, ⟨2, .respond⟩]

/-- The first pop throws, and nothing will tell the second of the element. -/
theorem throw_strands_pop :
    bufferSlots 8 1 = .ok 1 ∧
      ∃ before after,
        Run (step? 1) unrestricted (initial 3) strandingSchedule before ∧
          throwsAt 1 before ⟨0, .lock (.throws 5 6)⟩ = true ∧
          step? 1 before ⟨0, .lock (.throws 5 6)⟩ = some after ∧
          after.closed = false ∧ 0 < after.size ∧
          after.threads[1]? = some (.blocked (.pop 0)) ∧
          ∀ condition,
            after.threads.countP (Pc.isNotifying condition) = 0 ∧
              after.threads.countP (Pc.isNotifyingAll condition) = 0 ∧
              after.threads.countP (Pc.isReleasedFrom condition) = 0 := by
  have replayed :
      ∃ before,
        replay? (step? 1) unrestricted (initial 3) strandingSchedule =
            some before ∧
          throwsAt 1 before ⟨0, .lock (.throws 5 6)⟩ = true ∧
          ∃ after,
            step? 1 before ⟨0, .lock (.throws 5 6)⟩ = some after ∧
              after.closed = false ∧ 0 < after.size ∧
              after.threads[1]? = some (.blocked (.pop 0)) ∧
              ∀ condition,
                after.threads.countP (Pc.isNotifying condition) = 0 ∧
                  after.threads.countP (Pc.isNotifyingAll condition) = 0 ∧
                  after.threads.countP (Pc.isReleasedFrom condition) = 0 :=
    ⟨_, rfl, rfl, _, rfl, rfl, by decide, rfl, by decide⟩
  obtain ⟨before, accepted, throws, after, taken, stranded⟩ := replayed
  exact ⟨rfl, before, after, Run.of_replay? accepted, throws, taken, stranded⟩

end ConcurrentQueue.Mutex
