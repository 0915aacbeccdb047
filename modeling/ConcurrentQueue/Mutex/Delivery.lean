import ConcurrentQueue.Library.Instants
import ConcurrentQueue.Library.RingDelivery
import ConcurrentQueue.Library.Transfers
import ConcurrentQueue.Mutex.Wakeups

namespace ConcurrentQueue.Mutex

/-!
# Elements and exceptions in `MutexQueue`

The decisions of a history list the elements appended, the elements removed
and the positions that a throwing move spoiled.  The ring delivers the first to
the second, and a call that leaves by an exception touches one slot.
-/

variable {α : Type}

/-- What a decision does to the elements that pass through the queue. -/
def transfers : Transfers (Commit α) α where
  given
    | .answered op (.pushed true) _ => op.argument?.toList
    | _ => []
  taken
    | .answered _ (.popped true out) _ => [out]
    | _ => []
  spoils
    | .popThrew _ _ _ => true
    | _ => false

namespace State

/-- All elements ever appended, in order. -/
def pushed (state : State α) : List α :=
  state.log.marks.flatMap transfers.given

/-- All elements ever removed, in order. -/
def popped (state : State α) : List α :=
  state.log.marks.flatMap transfers.taken

/-- The positions whose element a throwing move spoiled. -/
def spoiled (state : State α) : List Nat :=
  transfers.spoiledFrom 0 state.log.marks

end State

/-- The elements in the ring are those appended and not yet removed. -/
structure Delivers (slots : Nat) (state : State α) : Prop where
  count : state.pushed.length = state.popped.length + state.size
  headAt : state.head = state.popped.length % slots
  tailAt : state.tail = state.pushed.length % slots
  delivery :
    Ring.Delivery slots state.buffer state.pushed state.popped state.spoiled

namespace Delivers

variable {slots thread : Nat} {state next : State α} {action : Action α}

/-- The constructor has nothing to deliver. -/
theorem initial [Inhabited α] (threads : Nat) :
    Delivers slots (initial threads : State α) where
  count := by
    rfl
  headAt := (Nat.zero_mod slots).symm
  tailAt := (Nat.zero_mod slots).symm
  delivery := Ring.Delivery.initial _

/-- Only the ring and the decisions matter. -/
theorem of_same
    (delivers : Delivers slots state)
    (sameRing : next.ring = state.ring)
    (sameMarks : next.log.marks = state.log.marks) :
    Delivers slots next := by
  simp only [State.ring, Prod.mk.injEq] at sameRing
  obtain ⟨sameBuffer, sameHead, sameTail, sameSize, _⟩ := sameRing
  obtain ⟨count, headAt, tailAt, delivery⟩ := delivers
  constructor <;>
    simp only [State.pushed, State.popped, State.spoiled, sameBuffer,
      sameHead, sameTail, sameSize, sameMarks] at *
  · exact count
  · exact headAt
  · exact tailAt
  · exact delivery

section Marks

variable {made : Commit α}

/-- One more decision adds the elements it appends. -/
theorem pushed_append
    (marked : next.log.marks = state.log.marks ++ [made]) :
    next.pushed = state.pushed ++ transfers.given made := by
  simp [State.pushed, marked]

theorem popped_append
    (marked : next.log.marks = state.log.marks ++ [made]) :
    next.popped = state.popped ++ transfers.taken made := by
  simp [State.popped, marked]

theorem spoiled_append
    (marked : next.log.marks = state.log.marks ++ [made]) :
    next.spoiled =
      state.spoiled ++
        transfers.spoiledFrom state.popped.length [made] := by
  unfold State.spoiled State.popped
  rw [marked, Transfers.spoiledFrom_append, Nat.zero_add]

/-- A decision that transfers nothing leaves a ring that delivers. -/
theorem neutral
    (delivers : Delivers slots state)
    (marked : next.log.marks = state.log.marks ++ [made])
    (givesNothing : transfers.given made = [])
    (takesNothing : transfers.taken made = [])
    (spoilsNothing : transfers.spoils made = false)
    (sameHead : next.head = state.head)
    (sameTail : next.tail = state.tail)
    (sameSize : next.size = state.size)
    (delivery :
      Ring.Delivery slots next.buffer state.pushed state.popped
        state.spoiled) :
    Delivers slots next := by
  have samePushed := pushed_append marked
  have samePopped := popped_append marked
  have sameSpoiled := spoiled_append marked
  simp only [givesNothing, List.append_nil] at samePushed
  simp only [takesNothing, List.append_nil] at samePopped
  simp only [Transfers.spoiledFrom, spoilsNothing, Bool.false_eq_true,
    if_false, List.append_nil] at sameSpoiled
  obtain ⟨count, headAt, tailAt, _⟩ := delivers
  constructor
  · rw [samePushed, samePopped, sameSize, count]
  · rw [samePopped, sameHead, headAt]
  · rw [samePushed, sameTail, tailAt]
  · rw [samePushed, samePopped, sameSpoiled]
    exact delivery

end Marks

/-- Every decision of a critical section leaves a ring that delivers. -/
theorem act
    (delivers : Delivers slots state)
    (positive : 0 < slots)
    (small : slots ≤ SizeT.halfRange)
    {call : Nat}
    {op : Op α}
    {timedOut : Bool}
    {verdict : Verdict α}
    (isCurrent : state.log.current thread = some ⟨call, op, []⟩)
    (fits : verdict.Fits slots state op timedOut)
    (moving : Moving α) :
    Delivers slots
      (state.act slots thread op timedOut verdict moving) := by
  have marks :
      ∀ made : Commit α,
        (state.log.mark thread made).marks = state.log.marks ++ [made] :=
    fun made => state.log.marks_mark isCurrent made
  have delivery := delivers.delivery
  cases verdict with
  | block =>
      exact delivers.of_same rfl rfl
  | answer result =>
      have transfersNothing :
          transfers.given (.answered op result timedOut) = [] ∧
            transfers.taken (.answered op result timedOut) = [] := by
        cases result with
        | pushed accepted | popped accepted out =>
            cases accepted
            · exact ⟨rfl, rfl⟩
            · cases fits
        | _ => exact ⟨rfl, rfl⟩
      exact delivers.neutral (marks _) transfersNothing.1
        transfersNothing.2 rfl rfl rfl rfl delivery
  | close =>
      exact delivers.neutral (marks _) rfl rfl rfl rfl rfl rfl delivery
  | enqueue value =>
      obtain ⟨isArgument, _, room⟩ := fits
      have free : state.pushed.length < state.popped.length + slots := by
        rw [delivers.count]
        omega
      cases moving with
      | throws slotValue outValue =>
          have written := delivery.writeFree free slotValue
          rw [← delivers.tailAt] at written
          exact delivers.neutral (marks _) rfl rfl rfl rfl rfl rfl written
      | moves husk =>
          have marked :
              (state.act slots thread op timedOut (.enqueue value)
                (.moves husk)).log.marks = _ :=
            marks (.answered op (.pushed true) timedOut)
          have gives :
              transfers.given (.answered op (.pushed true) timedOut) =
                [value] := by
            simp [transfers, isArgument]
          have grown := pushed_append marked
          have samePopped := popped_append marked
          have sameSpoiled := spoiled_append marked
          rw [gives] at grown
          simp only [transfers, List.append_nil, Transfers.spoiledFrom,
            Bool.false_eq_true, if_false] at samePopped sameSpoiled
          have written := delivery.push free value
          rw [← delivers.tailAt] at written
          constructor
          · rw [grown, samePopped, List.length_append,
              List.length_singleton, delivers.count]
            simp only [State.act, State.goto, State.commit,
              State.enqueueLocked]
            omega
          · rw [samePopped]
            exact delivers.headAt
          · rw [grown, List.length_append, List.length_singleton,
              ← Ring.next_mod positive small, ← delivers.tailAt]
            rfl
          · rw [grown, samePopped, sameSpoiled]
            exact written
  | dequeue out =>
      obtain ⟨_, nonempty⟩ := fits
      have held : state.popped.length < state.pushed.length := by
        rw [delivers.count]
        omega
      cases moving with
      | throws slotValue outValue =>
          have marked :
              (state.act slots thread op timedOut (.dequeue out)
                (.throws slotValue outValue)).log.marks = _ :=
            marks (.popThrew op slotValue outValue)
          have samePushed := pushed_append marked
          have samePopped := popped_append marked
          have spoiled := spoiled_append marked
          simp only [transfers, List.append_nil, Transfers.spoiledFrom,
            if_true] at samePushed samePopped spoiled
          have written := delivery.spoil held slotValue
          rw [← delivers.headAt] at written
          constructor
          · rw [samePushed, samePopped]
            exact delivers.count
          · rw [samePopped]
            exact delivers.headAt
          · rw [samePushed]
            exact delivers.tailAt
          · rw [samePushed, samePopped, spoiled]
            exact written
      | moves husk =>
          have marked :
              (state.act slots thread op timedOut (.dequeue out)
                (.moves husk)).log.marks = _ :=
            marks (.answered op (.popped true (state.buffer state.head))
              timedOut)
          have samePushed := pushed_append marked
          have grown := popped_append marked
          have sameSpoiled := spoiled_append marked
          simp only [transfers, List.append_nil, Transfers.spoiledFrom,
            Bool.false_eq_true, if_false] at samePushed grown sameSpoiled
          have moved := delivery.pop held husk
          rw [← delivers.headAt] at moved
          constructor
          · rw [samePushed, grown, List.length_append,
              List.length_singleton, delivers.count]
            simp only [State.act, State.goto, State.commit,
              State.dequeueLocked]
            omega
          · rw [grown, List.length_append, List.length_singleton,
              ← Ring.next_mod positive small, ← delivers.headAt]
            rfl
          · rw [samePushed]
            exact delivers.tailAt
          · rw [samePushed, grown, sameSpoiled]
            exact moved

/-- Every step leaves a ring that delivers. -/
theorem step
    (delivers : Delivers slots state)
    (positive : 0 < slots)
    (small : slots ≤ SizeT.halfRange)
    (bounded : state.size ≤ slots)
    (tracked : Tracked slots state)
    (step : Step slots state thread action next) :
    Delivers slots next := by
  cases step with
  | lock isAt locks decides =>
      obtain ⟨⟨call, isCurrent⟩, _⟩ :=
        Pc.undecided_of_locks locks (tracked.agrees isAt)
      exact delivers.act positive small isCurrent
        (State.verdict?_fits bounded decides) _
  | invoke => exact delivers.of_same rfl (state.log.marks_invoke _ _)
  | respond => exact delivers.of_same rfl (state.log.marks_respond _ _)
  | _ => exact delivers.of_same rfl rfl

/-- The ring delivers in every reachable state. -/
theorem of_run
    [Inhabited α]
    {threads : Nat}
    (positive : 0 < slots)
    (small : slots ≤ SizeT.halfRange)
    {guard : StepGuard (State α) (Label α)}
    {labels : List (Label α)}
    (run : Run (step? slots) guard (Mutex.initial threads) labels state) :
    Delivers slots state := by
  have known :
      ∀ {labels : List (Label α)} {state : State α},
        Run (step? slots) guard (Mutex.initial threads) labels state →
        Tracked slots state ∧ state.size ≤ slots :=
    fun earlier =>
      ⟨Tracked.of_run earlier, size_le_of_run positive small earlier⟩
  exact run.invariant_of known (Delivers.initial threads)
    fun before _ delivers _ taken =>
      delivers.step positive small before.2 before.1 (Step.of_step? taken)

end Delivers

/-- A step leaves everything of the ring but one slot. -/
structure OnlySlot (slot : Nat) (state next : State α) : Prop where
  head : next.head = state.head
  tail : next.tail = state.tail
  size : next.size = state.size
  closed : next.closed = state.closed
  buffer : ∀ index, index ≠ slot → next.buffer index = state.buffer index

/-- The slot that a call would assign. -/
def State.slotOf (state : State α) (op : Op α) : Nat :=
  if op.isPush then state.tail else state.head

/-- A call from its invocation to the result it is about to return. -/
structure WholeCall
    [Inhabited α]
    (slots threads thread : Nat)
    (op : Op α)
    (result : Result α)
    (during : List (Label α))
    (before last : State α) : Prop where
  reached :
    ∃ earlier, Run (step? slots) unrestricted (initial threads) earlier before
  runs :
    Run (step? slots) unrestricted before
      (⟨thread, .invoke op⟩ :: during) last
  unanswered : ∀ label ∈ during, label ≠ ⟨thread, .respond⟩
  returns : last.threads[thread]? = some (.returning result)

section Exceptions

variable {slots thread : Nat} {state next last : State α}

/-- An invocation opens a call without decisions. -/
theorem invoked_current
    {op : Op α}
    (step : Step slots state thread (.invoke op) next) :
    next.log.current thread = some ⟨state.log.nextCall, op, []⟩ := by
  cases step
  simp [State.invoke, State.goto]

/-- Until it is answered a call only makes more decisions. -/
theorem Step.current_grows
    {mover : Nat}
    {action : Action α}
    (step : Step slots state mover action next)
    (tracked : Tracked slots state)
    (unanswered : (⟨mover, action⟩ : Label α) ≠ ⟨thread, .respond⟩)
    {call : Nat}
    {op : Op α}
    {marks : List (Commit α)}
    (isCurrent : state.log.current thread = some ⟨call, op, marks⟩) :
    ∃ more,
      next.log.current thread = some ⟨call, op, marks ++ more⟩ := by
  have unchanged :
      state.log.current thread = some ⟨call, op, marks ++ []⟩ := by
    rw [List.append_nil]
    exact isCurrent
  by_cases same : thread = mover
  · subst same
    cases step with
    | invoke isAt =>
        have idle : state.log.current thread = none :=
          tracked.agrees isAt
        rw [idle] at isCurrent
        cases isCurrent
    | respond => exact absurd rfl unanswered
    | @lock _ op' timedOut verdict moving =>
        rw [State.log_act]
        cases state.commit? op' timedOut verdict moving with
        | none => exact ⟨[], unchanged⟩
        | some made =>
            exact ⟨[made], by simp [CallLog.mark_of_current _ isCurrent]⟩
    | _ => exact ⟨[], unchanged⟩
  · rw [tracked.current_other step same]
    exact ⟨[], unchanged⟩

/-- Over several steps as well. -/
theorem current_grows_of_run
    [Inhabited α]
    {threads : Nat}
    {earlier labels : List (Label α)}
    (reached :
      Run (step? slots) unrestricted (initial threads) earlier state)
    (run : Run (step? slots) unrestricted state labels last)
    (unanswered : ∀ label ∈ labels, label ≠ ⟨thread, .respond⟩)
    {call : Nat}
    {op : Op α}
    {marks : List (Commit α)}
    (isCurrent : state.log.current thread = some ⟨call, op, marks⟩) :
    ∃ more,
      last.log.current thread = some ⟨call, op, marks ++ more⟩ := by
  induction run with
  | start =>
      exact ⟨[], by simpa using isCurrent⟩
  | @snoc _ middle after label shorter _ taken inductionHypothesis =>
      obtain ⟨more, isOpen⟩ := inductionHypothesis fun label member =>
        unanswered label (List.mem_append_left _ member)
      obtain ⟨last, isLast⟩ :=
        (Step.of_step? taken).current_grows
          (Tracked.of_run (reached.append shorter))
          (unanswered _ (by simp)) isOpen
      exact ⟨more ++ last, by rw [isLast, List.append_assoc]⟩

/-- A critical section that decides on an exception assigns one slot. -/
theorem State.act_exception
    {op : Op α}
    {timedOut : Bool}
    {verdict : Verdict α}
    {moving : Moving α}
    (fits : verdict.Fits slots state op timedOut)
    (exceptional :
      ∀ made,
        state.commit? op timedOut verdict moving = some made →
        made.result.isException = true) :
    OnlySlot (state.slotOf op) state
      (state.act slots thread op timedOut verdict moving) := by
  cases verdict with
  | block => exact ⟨rfl, rfl, rfl, rfl, fun _ _ => rfl⟩
  | answer => exact ⟨rfl, rfl, rfl, rfl, fun _ _ => rfl⟩
  | close =>
      have raises := exceptional _ rfl
      cases raises
  | enqueue value =>
      cases moving with
      | moves =>
          have raises := exceptional _ rfl
          cases raises
      | throws slotValue outValue =>
          have isPush : op.isPush = true := by
            obtain ⟨isArgument, _⟩ := fits
            cases op <;>
              first
                | rfl
                | cases isArgument
          refine ⟨rfl, rfl, rfl, rfl, fun index notSlot => ?_⟩
          rw [State.slotOf, if_pos isPush] at notSlot
          exact Function.update_of_ne notSlot _ _
  | dequeue out =>
      cases moving with
      | moves =>
          have raises := exceptional _ rfl
          cases raises
      | throws slotValue outValue =>
          have isPop : ¬ op.isPush = true := by
            obtain ⟨isOut, _⟩ := fits
            cases op <;>
              first
                | exact Bool.false_ne_true
                | cases isOut
          refine ⟨rfl, rfl, rfl, rfl, fun index notSlot => ?_⟩
          rw [State.slotOf, if_neg isPop] at notSlot
          exact Function.update_of_ne notSlot _ _

/-- A call that leaves by an exception assigns one slot in all its steps. -/
theorem WholeCall.only_slot
    [Inhabited α]
    {threads : Nat}
    (positive : 0 < slots)
    (small : slots ≤ SizeT.halfRange)
    {op : Op α}
    {result : Result α}
    {during : List (Label α)}
    {before : State α}
    (whole :
      WholeCall slots threads thread op result during before last)
    (raises : result.isException = true) :
    EachStep (step? slots) unrestricted before
      (⟨thread, .invoke op⟩ :: during) fun state label next =>
        label.thread = thread →
        OnlySlot (state.slotOf op) state next := by
  obtain ⟨opening, reached⟩ := whole.reached
  intro earlier label later state next shape run taken isOwn
  have runs := whole.runs
  rw [shape] at runs
  obtain ⟨_, rest⟩ := runs.after run taken
  have atState := reached.append run
  have atNext := atState.snoc trivial taken
  have tracked : Tracked slots state := Tracked.of_run atState
  have bounded := size_le_of_run positive small atState
  obtain ⟨mover, action⟩ := label
  subst isOwn
  have step := Step.of_step? taken
  cases step with
  | invoke | wake | timeout | lateTimeout | notifyNobody | notifyOne
  | notifyAllNotFull | notifyAllNotEmpty | respond =>
      exact ⟨rfl, rfl, rfl, rfl, fun _ _ => rfl⟩
  | @lock pc op' timedOut verdict moving isAt locks decides =>
      obtain ⟨⟨call, isCurrent⟩, _⟩ :=
        Pc.undecided_of_locks locks (tracked.agrees isAt)
      have sameOp : op' = op := by
        cases earlier with
        | nil => cases shape
        | cons opens earlier =>
            obtain ⟨isFirst, isDuring⟩ := List.cons.inj shape
            subst isFirst
            obtain ⟨invoked, _, opened, run⟩ := run.uncons
            have asked := invoked_current (Step.of_step? opened)
            obtain ⟨more, isSame⟩ :=
              current_grows_of_run (reached.snoc trivial opened) run
                (fun label member => whole.unanswered label
                  (isDuring ▸ List.mem_append_left _ member)) asked
            rw [isCurrent] at isSame
            cases isSame
            rfl
      subst sameOp
      refine State.act_exception (State.verdict?_fits bounded decides) ?_
      intro made decided
      have marked :
          (state.act slots mover op' timedOut verdict moving).log.current
              mover =
            some ⟨call, op', [made]⟩ := by
        rw [State.log_act, decided]
        simp [CallLog.mark_of_current _ isCurrent]
      have unanswered : ∀ label ∈ later, label ≠ ⟨mover, .respond⟩ := by
        intro label member
        cases earlier with
        | nil => cases shape
        | cons opens earlier =>
            obtain ⟨_, isDuring⟩ := List.cons.inj shape
            exact whole.unanswered label (by simp [isDuring, member])
      obtain ⟨more, isLast⟩ :=
        current_grows_of_run atNext rest unanswered marked
      have atLast : Tracked slots last :=
        Tracked.of_run (atNext.append rest)
      obtain ⟨_, _, marks, isOpen, answers⟩ := atLast.agrees whole.returns
      rw [isLast] at isOpen
      cases isOpen
      rcases answers with ⟨only, isOnly, _, sameResult⟩ | ⟨_, nothing, _⟩
      · cases isOnly
        rw [sameResult]
        exact raises
      · cases nothing

end Exceptions

end ConcurrentQueue.Mutex
