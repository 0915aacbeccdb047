import ConcurrentQueue.Checksum
import ConcurrentQueue.Mutex.Delivery

namespace ConcurrentQueue.Mutex

/-!
# `MutexQueue` drains whenever it is closed

A list that is closed and empty stays so, and each of the two ways in which a
consumer is told that the queue is drained has met such a list.  Unlike for
the lock-free queues, `close()` may race with any other call.
-/

variable {α : Type} {slots : Nat}

/-- A list that is closed and has no element left. -/
def Drained (fifo : BoundedFifo slots α) : Prop :=
  fifo.closed = true ∧ fifo.items = []

section Lists

variable {before after fifo : BoundedFifo slots α} {made : Commit α}

/-- A list that is closed and empty takes no decision that changes it. -/
theorem Takes.eq_of_drained
    (takes : Takes before made after)
    (drained : Drained before) :
    after = before := by
  have answers := takes.answer?_eq
  obtain ⟨isClosed, isEmpty⟩ := drained
  have noAppend : ∀ value, before.append? value = none :=
    fun value => BoundedFifo.append?_eq_none_iff.mpr (Or.inl isClosed)
  have noRemoval : before.removeFront? = none :=
    BoundedFifo.removeFront?_eq_none_iff.mpr isEmpty
  cases made with
  | answered op result timedOut =>
      cases op with
      | push | tryPush | tryPushFor =>
          simp [Commit.answer?, BoundedFifo.answer?, noAppend, isClosed]
            at answers
          exact answers.2.symm
      | pop | tryPop | tryPopFor =>
          simp [Commit.answer?, BoundedFifo.answer?, noRemoval, isClosed]
            at answers
          exact answers.2.symm
      | close =>
          simp only [Commit.answer?, BoundedFifo.answer?,
            Option.some.injEq, Prod.mk.injEq] at answers
          rw [← answers.2]
          exact BoundedFifo.ext rfl isClosed.symm
      | closed | size | capacity =>
          simp only [Commit.answer?, BoundedFifo.answer?,
            Option.some.injEq, Prod.mk.injEq] at answers
          exact answers.2.symm
      | tryPushN | tryPopN => cases answers
  | pushThrew op =>
      simp [Commit.answer?, isClosed] at answers
  | popThrew op slotValue outValue =>
      simp only [Commit.answer?] at answers
      split at answers
      · obtain ⟨next, replaces, _⟩ := Option.map_eq_some_iff.mp answers
        obtain ⟨_, _, shape, _⟩ :=
          BoundedFifo.replaceFront?_eq_some_iff.mp replaces
        rw [isEmpty] at shape
        cases shape
      · cases answers

/-- No sequence of decisions brings a drained list back. -/
theorem drained_of_run
    {marks : List (Commit α)}
    (run :
      Run (Commit.after? : BoundedFifo slots α → Commit α → _)
        Commit.Explained before marks after)
    (drained : Drained before) :
    Drained after := by
  induction run with
  | start =>
      exact drained
  | snoc _ explained applied inductionHypothesis =>
      rw [Takes.eq_of_drained ⟨explained, applied⟩ inductionHypothesis]
      exact inductionHypothesis

/-- `close()` leaves a closed list. -/
theorem Takes.closes
    (takes : Takes before made after)
    (isClose : made.op = .close) :
    after.closed = true := by
  have answers := takes.answer?_eq
  cases made with
  | answered op result timedOut =>
      cases isClose
      simp only [Commit.answer?, BoundedFifo.answer?, Option.some.injEq,
        Prod.mk.injEq] at answers
      rw [← answers.2]
      rfl
  | pushThrew | popThrew =>
      cases isClose
      cases answers

end Lists

/--
The README loop has reached its `break`: an attempt failed, then `closed()`
answered `true`, then an attempt failed again.
-/
def LoopBroke
    (log : CallLog Nat (Op α) (Commit α) (Result α))
    (thread : Nat) : Prop :=
  ∃ first check retry out₁ out₂ out₃ out₄,
    .invoke thread first (.tryPop out₁) ∈ log.history ∧
      Before (.respond thread first (.popped false out₂))
        (.invoke thread check .closed) log.history ∧
      Before (.respond thread check (.closed true))
        (.invoke thread retry (.tryPop out₃)) log.history ∧
      .respond thread retry (.popped false out₄) ∈ log.history

/-- A consumer was told that the queue is closed and drained. -/
def ConsumerEnded
    (log : CallLog Nat (Op α) (Commit α) (Result α))
    (thread : Nat) : Prop :=
  LoopBroke log thread ∨
    ∃ call out out',
      .invoke thread call (.pop out) ∈ log.history ∧
        .respond thread call (.popped false out') ∈ log.history

section Ended

variable {state : State α} {fifo : BoundedFifo slots α}

/-- The decision of a call that returned, and the lists on its two sides. -/
theorem Tracked.decision
    (tracked : Tracked slots state)
    {thread call : Nat}
    {op : Op α}
    {result : Result α}
    (invoked : .invoke thread call op ∈ state.log.history)
    (returned : .respond thread call result ∈ state.log.history)
    (locks : result ≠ .capacity slots) :
    ∃ made,
      made.op = op ∧ made.result = result ∧
        .mark call made ∈ state.log.history := by
  have completed :
      state.log.Completed call op (state.log.marksOf call) result :=
    ⟨thread, invoked, returned, rfl⟩
  rcases tracked.answered completed with
    ⟨made, isMarks, sameOp, sameResult⟩ | ⟨_, _, isCapacity⟩
  · refine ⟨made, sameOp, sameResult, CallLog.mem_marksOf.mp ?_⟩
    simp [isMarks]
  · exact (locks isCapacity).elim

/-- The list between two decisions whose calls do not overlap. -/
theorem between
    (legal : Legal slots state.log.marks fifo)
    {first second : Nat}
    {made made' : Commit α}
    (before :
      Before (.mark first made) (.mark second made') state.log.history) :
    ∃ atFirst afterFirst atSecond afterSecond : BoundedFifo slots α,
      ∃ middle back,
        Takes atFirst made afterFirst ∧
          Run (Commit.after? : BoundedFifo slots α → Commit α → _)
            Commit.Explained afterFirst middle atSecond ∧
          Takes atSecond made' afterSecond ∧
          Run (Commit.after? : BoundedFifo slots α → Commit α → _)
            Commit.Explained afterSecond back fifo := by
  obtain ⟨front, middle, back, shape⟩ := before.split
  obtain ⟨atFirst, afterFirst, _, takes, rest⟩ := taken_at legal shape
  have marks :
      (middle ++ .mark second made' :: back).filterMap Event.mark? =
        middle.filterMap Event.mark? ++ [made'] ++
          back.filterMap Event.mark? := by
    simp [Event.mark?]
  rw [marks] at rest
  obtain ⟨afterSecond, toSecond, later⟩ := rest.split
  obtain ⟨atSecond, walked, explained, applied⟩ := toSecond.last
  exact ⟨atFirst, afterFirst, atSecond, afterSecond, _, _, takes, walked,
    ⟨explained, applied⟩, later⟩

/-- A consumer that was told so is right, and stays right. -/
theorem Tracked.drained_of_ended
    (tracked : Tracked slots state)
    (legal : Legal slots state.log.marks fifo)
    {thread : Nat}
    (ended : ConsumerEnded state.log thread) :
    Drained fifo := by
  rcases ended with
    ⟨_, check, retry, _, _, out, out', _, checked, retried, returned⟩
    | ⟨call, out, out', invoked, returned⟩
  · obtain ⟨seen, _, toldClosed, markedSeen⟩ :=
      tracked.decision checked.second_mem retried.first_mem (by simp)
    obtain ⟨made, isPop, isRefused, marked⟩ :=
      tracked.decision retried.second_mem returned (by simp)
    have ordered :=
      tracked.wellFormed.before_of_precedes
        (CallLog.precedes_of_before retried) markedSeen marked
    obtain ⟨_, _, _, _, _, _, sees, walked, takes, later⟩ :=
      between legal ordered
    have wasClosed := sees.closed_eq toldClosed
    have isClosed := closed_of_run walked (sees.stays_closed wasClosed)
    have refuses : isRefusal made.result = true := by
      rw [isRefused]
      rfl
    obtain ⟨rfl, reason⟩ := takes.refused refuses
    rw [isPop] at reason
    exact drained_of_run later ⟨isClosed, reason⟩
  · obtain ⟨made, isPop, isRefused, marked⟩ :=
      tracked.decision invoked returned (by simp)
    obtain ⟨front, back, shape⟩ := List.append_of_mem marked
    obtain ⟨before, after, _, takes, later⟩ := taken_at legal shape
    have refuses : isRefusal made.result = true := by
      rw [isRefused]
      rfl
    obtain ⟨rfl, reason⟩ := takes.refused refuses
    rw [isPop] at reason
    exact drained_of_run later reason

/-- A push that was accepted was not invoked after a `close()` returned. -/
theorem Tracked.refused_after_close
    (tracked : Tracked slots state)
    (legal : Legal slots state.log.marks fifo)
    {closer close pusher call : Nat}
    {op : Op α}
    (closes : .invoke closer close .close ∈ state.log.history)
    (before :
      Before (.respond closer close .done) (.invoke pusher call op)
        state.log.history) :
    .respond pusher call (.pushed true) ∉ state.log.history := by
  intro accepted
  obtain ⟨closing, isClose, _, markedClose⟩ :=
    tracked.decision closes before.first_mem (by simp)
  obtain ⟨made, _, isPushed, marked⟩ :=
    tracked.decision before.second_mem accepted (by simp)
  have ordered :=
    tracked.wellFormed.before_of_precedes
      (CallLog.precedes_of_before before) markedClose marked
  obtain ⟨_, _, _, _, _, _, closed, walked, takes, _⟩ :=
    between legal ordered
  have isClosed := closed_of_run walked (closed.closes isClose)
  obtain ⟨_, _, isOpen, _⟩ := takes.appended isPushed
  rw [isClosed] at isOpen
  cases isOpen

end Ended

/-- What closing the queue guarantees, whatever races with `close()`. -/
structure DrainsWhenClosed (state : State α) : Prop where
  /-- When a consumer is told so, the queue is closed and empty. -/
  drained :
    ∀ {thread},
      ConsumerEnded state.log thread →
      state.closed = true ∧ state.size = 0 ∧
        state.popped.length = state.pushed.length
  /-- What was delivered is what was accepted, in order. -/
  delivered :
    ∀ {thread},
      ConsumerEnded state.log thread →
      ∀ {position},
        position ∉ state.spoiled →
        state.popped[position]? = state.pushed[position]?
  /-- No push invoked after a `close()` has returned is accepted. -/
  refused :
    ∀ {closer close pusher call op},
      .invoke closer close .close ∈ state.log.history →
      Before (.respond closer close .done) (.invoke pusher call op)
        state.log.history →
      .respond pusher call (.pushed true) ∉ state.log.history

/-- In a drained ring what was popped is what was pushed. -/
theorem Delivers.all_delivered
    {state : State α}
    (delivers : Delivers slots state)
    (sameLength : state.popped.length = state.pushed.length)
    {position : Nat}
    (intact : position ∉ state.spoiled) :
    state.popped[position]? = state.pushed[position]? := by
  cases isPopped : state.popped[position]? with
  | none =>
      have beyond := List.getElem?_eq_none_iff.mp isPopped
      exact (List.getElem?_eq_none (by omega)).symm
  | some value =>
      exact (delivers.delivery.delivered isPopped intact).symm

/--
`MutexQueue` drains completely in every run: `close()` may be called at any
moment, also while pushes are in progress.
-/
theorem drains_when_closed
    [Inhabited α]
    {elementSize capacity slots threads : Nat}
    (built : bufferSlots elementSize capacity = .ok slots)
    {labels : List (Label α)}
    {state : State α}
    (run : Run (step? slots) unrestricted (initial threads) labels state) :
    DrainsWhenClosed state := by
  obtain ⟨_, positive, small⟩ := bufferSlots_ok built
  have tracked : Tracked slots state := Tracked.of_run run
  have delivers : Delivers slots state :=
    Delivers.of_run positive small run
  obtain ⟨fifo, legal, represents⟩ := linear_of_run positive small run
  have drained :
      ∀ {thread},
        ConsumerEnded state.log thread →
        state.closed = true ∧ state.size = 0 ∧
          state.popped.length = state.pushed.length := by
    intro thread ended
    obtain ⟨isClosed, isEmpty⟩ := tracked.drained_of_ended legal ended
    have count := delivers.count
    have noneLeft : state.size = 0 := by
      rw [represents.size_eq, isEmpty]
      rfl
    refine ⟨represents.closed.trans isClosed, noneLeft, ?_⟩
    omega
  exact {
    drained := drained
    delivered := fun ended _ intact =>
      delivers.all_delivered (drained ended).2.2 intact
    refused := fun closes before =>
      tracked.refused_after_close legal closes before }

/--
Thread `1` pops in vain, a push and a `close()` of thread `0` slip in, and the
retry of thread `1` takes the element.
-/
def racingSchedule : List (Label Nat) :=
  [⟨1, .invoke (.tryPop 5)⟩, ⟨1, .lock (.moves 0)⟩, ⟨1, .respond⟩,
    ⟨0, .invoke (.push 7)⟩, ⟨2, .invoke .close⟩, ⟨0, .lock (.moves 0)⟩,
    ⟨2, .lock (.moves 0)⟩, ⟨0, .notify none⟩, ⟨2, .notifyAll⟩,
    ⟨2, .notifyAll⟩, ⟨0, .respond⟩, ⟨2, .respond⟩,
    ⟨1, .invoke .closed⟩, ⟨1, .lock (.moves 0)⟩, ⟨1, .respond⟩,
    ⟨1, .invoke (.tryPop 5)⟩, ⟨1, .lock (.moves 0)⟩, ⟨1, .notify none⟩,
    ⟨1, .respond⟩,
    ⟨1, .invoke (.tryPop 5)⟩, ⟨1, .lock (.moves 0)⟩, ⟨1, .respond⟩,
    ⟨1, .invoke .closed⟩, ⟨1, .lock (.moves 0)⟩, ⟨1, .respond⟩,
    ⟨1, .invoke (.tryPop 5)⟩, ⟨1, .lock (.moves 0)⟩, ⟨1, .respond⟩]

theorem drains_when_closed_one :
    ∃ state,
      replay? (step? 1) unrestricted (initial 3) racingSchedule =
          some state ∧
        ConsumerEnded state.log 1 ∧
        state.popped = [7] ∧
        DrainsWhenClosed state := by
  have replayed :
      ∃ state,
        replay? (step? 1) unrestricted (initial 3) racingSchedule =
            some state ∧
          ConsumerEnded state.log 1 ∧
          state.popped = [7] :=
    ⟨_, rfl,
      Or.inl ⟨5, 6, 7, 5, 5, 5, 5, by decide, by decide, by decide,
        by decide⟩,
      rfl⟩
  have built : bufferSlots 8 1 = .ok 1 := by
    rfl
  obtain ⟨state, accepted, ended, popped⟩ := replayed
  exact ⟨state, accepted, ended, popped,
    drains_when_closed built (Run.of_replay? accepted)⟩

section Checksum

/-- A decision transfers what its call put in and took out. -/
theorem Takes.transfers_eq
    {before after : BoundedFifo slots α}
    {made : Commit α}
    (takes : Takes before made after) :
    transfers.given made = made.op.given made.result ∧
      transfers.taken made = made.result.taken := by
  have answers := takes.answer?_eq
  cases made with
  | answered op result timedOut =>
      cases result with
      | pushed accepted | popped accepted out =>
          cases accepted <;> exact ⟨rfl, rfl⟩
      | pushedN count items | poppedN count items =>
          exfalso
          simp only [Commit.answer?, Commit.result] at answers
          cases op <;> simp only [BoundedFifo.answer?] at answers <;>
            repeat' split at answers
          all_goals cases answers
      | _ => exact ⟨rfl, rfl⟩
  | pushThrew | popThrew => exact ⟨rfl, rfl⟩

variable {state : State α}

/-- A call put in and took out what its decision transferred. -/
theorem Tracked.transferred
    (tracked : Tracked slots state)
    {fifo : BoundedFifo slots α}
    (legal : Legal slots state.log.marks fifo)
    {call : Nat}
    {op : Op α}
    {marks : List (Commit α)}
    {result : Result α}
    (completed : state.log.Completed call op marks result) :
    marks.flatMap transfers.given = op.given result ∧
      marks.flatMap transfers.taken = result.taken := by
  rcases tracked.answered completed with
    ⟨made, rfl, rfl, rfl⟩ | ⟨rfl, rfl, rfl⟩
  · obtain ⟨_, _, _, isMarks⟩ := completed
    have marked : .mark call made ∈ state.log.history := by
      apply CallLog.mem_marksOf.mp
      simp [isMarks]
    obtain ⟨front, back, shape⟩ := List.append_of_mem marked
    obtain ⟨before, after, _, takes, _⟩ := taken_at legal shape
    simpa using takes.transfers_eq
  · exact ⟨rfl, rfl⟩

/-- At rest no element is spoiled if no pop threw. -/
theorem Tracked.spoiled_eq_nil
    (tracked : Tracked slots state)
    (quiescent : state.log.Quiescent)
    (unharmed : noPopThrew state.log = true) :
    state.spoiled = [] := by
  apply Transfers.spoiledFrom_eq_nil
  intro made member
  obtain ⟨call, op, marks, result, completed, isOwn⟩ :=
    tracked.wellFormed.owned_of_quiescent quiescent member
  have returned := ne_popThrew_of_completed unharmed completed
  rcases tracked.answered completed with
    ⟨only, rfl, _, rfl⟩ | ⟨_, rfl, _⟩
  · rw [List.mem_singleton.mp isOwn]
    cases only with
    | answered | pushThrew => rfl
    | popThrew op slotValue outValue => exact (returned _ rfl).elim
  · cases isOwn

/--
When no pop threw and all calls have returned after a consumer was told that
the queue is drained, the totals reconcile and `size()` is zero; pushes may
have raced with `close()`.
-/
theorem locked_checksum_reconciles
    [Inhabited α]
    {elementSize capacity slots threads : Nat}
    (built : bufferSlots elementSize capacity = .ok slots)
    {labels : List (Label α)}
    {state : State α}
    (run : Run (step? slots) unrestricted (initial threads) labels state)
    (quiescent : state.log.Quiescent)
    (unharmed : noPopThrew state.log = true)
    {thread : Nat}
    (ended : ConsumerEnded state.log thread) :
    Reconciles state.log ∧ state.size = 0 := by
  obtain ⟨_, positive, small⟩ := bufferSlots_ok built
  have tracked : Tracked slots state := Tracked.of_run run
  have delivers : Delivers slots state :=
    Delivers.of_run positive small run
  obtain ⟨fifo, legal, represents⟩ := linear_of_run positive small run
  obtain ⟨_, isEmpty⟩ := tracked.drained_of_ended legal ended
  have noneLeft : state.size = 0 := by
    rw [represents.size_eq, isEmpty]
    rfl
  have sameLength : state.popped.length = state.pushed.length := by
    have count := delivers.count
    omega
  have nothing := tracked.spoiled_eq_nil quiescent unharmed
  have same : state.popped = state.pushed := by
    apply List.ext_getElem?
    intro position
    apply delivers.all_delivered sameLength
    simp [nothing]
  constructor
  · apply Reconciles.of_marks tracked.wellFormed quiescent
    · intro call op marks result completed
      exact (tracked.transferred legal completed).1
    · intro call op marks result completed
      exact (tracked.transferred legal completed).2
    · exact same
  · exact noneLeft

theorem locked_checksum_reconciles_one :
    ∃ state,
      replay? (step? 1) unrestricted (initial 3) racingSchedule =
          some state ∧
        deliveredValues state.log = [7] ∧
        Reconciles state.log ∧ state.size = 0 := by
  have replayed :
      ∃ state,
        replay? (step? 1) unrestricted (initial 3) racingSchedule =
            some state ∧
          deliveredValues state.log = [7] ∧
          ConsumerEnded state.log 1 ∧
          noPopThrew state.log = true ∧
          state.log.Quiescent :=
    ⟨_, rfl, rfl,
      Or.inl ⟨5, 6, 7, 5, 5, 5, 5, by decide, by decide, by decide,
        by decide⟩,
      rfl,
      fun
      | 0 | 1 | 2 => rfl
      | _ + 3 => rfl⟩
  have built : bufferSlots 8 1 = .ok 1 := by
    rfl
  obtain ⟨state, accepted, taken, ended, unharmed, quiescent⟩ := replayed
  exact ⟨state, accepted, taken,
    locked_checksum_reconciles built (Run.of_replay? accepted) quiescent
      unharmed ended⟩

end Checksum

end ConcurrentQueue.Mutex
