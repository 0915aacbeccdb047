import ConcurrentQueue.Mutex.Calls

namespace ConcurrentQueue.Mutex

/-!
# `MutexQueue` as a bounded FIFO list

The ring represents a bounded FIFO list, and every decision noted in the
history is the answer that list gives, in the order in which the critical
sections ran.
-/

variable {α : Type} {slots : Nat}

/-- The result is the refusal of a push or of a pop. -/
def isRefusal : Result α → Bool
  | .pushed false | .popped false _ => true
  | _ => false

namespace Commit

/-- The answer of a bounded FIFO list to a decided call, and its new content. -/
def answer?
    (fifo : BoundedFifo slots α) :
    Commit α → Option (Result α × BoundedFifo slots α)
  | .answered op _ _ => fifo.answer? op
  | .pushThrew op =>
      if op.isPush = true ∧ fifo.closed = false ∧
          fifo.items.length < slots then
        some (.pushThrew, fifo)
      else
        none
  | .popThrew op slotValue outValue =>
      if op.isPop then
        (fifo.replaceFront? slotValue).map fun next =>
          (.popThrew outValue, next)
      else
        none

/-- The content after a decided call. -/
def after? (fifo : BoundedFifo slots α) (made : Commit α) :
    Option (BoundedFifo slots α) :=
  (made.answer? fifo).map Prod.snd

/-- A timed call is refused by an open queue only when its time is up. -/
def HasWaited (fifo : BoundedFifo slots α) : Commit α → Prop
  | .answered op result timedOut =>
      isTimed op = true → isRefusal result = true →
        fifo.closed = false → timedOut = true
  | _ => True

/-- The decision is the answer of the list. -/
def Explained (fifo : BoundedFifo slots α) (made : Commit α) : Prop :=
  (made.answer? fifo).map Prod.fst = some made.result ∧
    made.HasWaited fifo

end Commit

/-- A legal sequence of decisions from an open, empty list. -/
abbrev Legal (slots : Nat) (marks : List (Commit α)) :
    BoundedFifo slots α → Prop :=
  Run (Commit.after? : BoundedFifo slots α → Commit α → _)
    Commit.Explained BoundedFifo.empty marks

/-- The ring holds the elements of the list. -/
structure Represents
    (slots : Nat)
    (state : State α)
    (fifo : BoundedFifo slots α) : Prop where
  items :
    Ring.contents slots state.buffer state.head state.size = fifo.items
  closed : state.closed = fifo.closed
  headBound : state.head < slots
  tailAt : state.tail = (state.head + state.size) % slots

namespace Represents

variable {state : State α} {fifo : BoundedFifo slots α}

/-- `size_` counts the elements. -/
theorem size_eq (represents : Represents slots state fifo) :
    state.size = fifo.items.length := by
  rw [← represents.items, Ring.length_contents]

theorem size_le (represents : Represents slots state fifo) :
    state.size ≤ slots := by
  rw [represents.size_eq]
  exact fifo.bounded

/-- The constructor represents the open, empty list. -/
theorem initial [Inhabited α] (positive : 0 < slots) (threads : Nat) :
    Represents slots (initial threads : State α) BoundedFifo.empty where
  items := by
    rfl
  closed := by
    rfl
  headBound := positive
  tailAt := (Nat.zero_mod slots).symm

/-- Only the ring and the closed flag matter. -/
theorem of_same
    {next : State α}
    (represents : Represents slots state fifo)
    (sameBuffer : next.buffer = state.buffer)
    (sameHead : next.head = state.head)
    (sameTail : next.tail = state.tail)
    (sameSize : next.size = state.size)
    (sameClosed : next.closed = state.closed) :
    Represents slots next fifo := by
  obtain ⟨items, closed, headBound, tailAt⟩ := represents
  constructor
  · rw [sameBuffer, sameHead, sameSize, items]
  · rw [sameClosed, closed]
  · rw [sameHead]
    exact headBound
  · rw [sameTail, sameHead, sameSize, tailAt]

/-- `enqueue_locked` appends. -/
theorem enqueueLocked
    (represents : Represents slots state fifo)
    (small : slots ≤ SizeT.halfRange)
    (room : state.size < slots)
    {value : α}
    {after : BoundedFifo slots α}
    (appends : fifo.append? value = some after) :
    Represents slots (state.enqueueLocked slots value) after := by
  obtain ⟨items, closed, headBound, tailAt⟩ := represents
  obtain ⟨_, _, grown, sameClosed⟩ :=
    BoundedFifo.append?_eq_some_iff.mp appends
  have positive : 0 < slots := Nat.zero_lt_of_lt headBound
  constructor
  · simp only [State.enqueueLocked, State.setSlot]
    rw [tailAt, Ring.contents_append room, items, grown]
  · rw [sameClosed]
    exact closed
  · exact headBound
  · simp only [State.enqueueLocked, State.setSlot, next]
    rw [tailAt, Ring.next_mod positive small]
    rfl

/-- `dequeue_locked` removes the front. -/
theorem dequeueLocked
    (represents : Represents slots state fifo)
    (small : slots ≤ SizeT.halfRange)
    (nonempty : 0 < state.size)
    (husk : α) :
    ∃ after,
      fifo.removeFront? = some (state.buffer state.head, after) ∧
        Represents slots (state.dequeueLocked slots husk) after := by
  have bound := represents.size_le
  obtain ⟨items, closed, headBound, tailAt⟩ := represents
  have positive : 0 < slots := Nat.zero_lt_of_lt headBound
  obtain ⟨rest, isSize⟩ :=
    Nat.exists_eq_succ_of_ne_zero (Nat.ne_of_gt nonempty)
  have headMod : state.head % slots = state.head :=
    Nat.mod_eq_of_lt headBound
  rw [isSize, Ring.contents_succ, headMod] at items
  cases removes : fifo.removeFront? with
  | none =>
      rw [BoundedFifo.removeFront?_eq_none_iff.mp removes] at items
      cases items
  | some removed =>
      obtain ⟨front, after⟩ := removed
      obtain ⟨shape, sameClosed⟩ :=
        BoundedFifo.removeFront?_eq_some_iff.mp removes
      rw [shape] at items
      obtain ⟨rfl, itemsAfter⟩ := List.cons.inj items
      have kept :
          Ring.contents slots
              (Function.update state.buffer (state.head % slots) husk)
              (state.head + 1) rest =
            Ring.contents slots state.buffer (state.head + 1) rest :=
        Ring.contents_tail_update (by omega) husk
      rw [headMod] at kept
      have headNext :
          next slots state.head = (state.head + 1) % slots := by
        rw [next, ← Ring.next_mod positive small, headMod]
      refine ⟨after, rfl, ?_, ?_, ?_, ?_⟩
      · simp only [State.dequeueLocked, State.setSlot, isSize,
          Nat.succ_eq_add_one, Nat.add_sub_cancel, headNext,
          Ring.contents_mod]
        rw [kept, itemsAfter]
      · rw [sameClosed]
        exact closed
      · simp only [State.dequeueLocked, State.setSlot, headNext]
        exact Nat.mod_lt _ positive
      · simp only [State.dequeueLocked, State.setSlot, headNext, tailAt,
          isSize, Nat.succ_eq_add_one, Nat.add_sub_cancel,
          Nat.mod_add_mod]
        congr 1
        omega

/-- A throwing move into the ring changes no element. -/
theorem spoilFree
    (represents : Represents slots state fifo)
    (room : state.size < slots)
    (value : α) :
    Represents slots (state.setSlot state.tail value) fifo := by
  obtain ⟨items, closed, headBound, tailAt⟩ := represents
  refine ⟨?_, closed, headBound, tailAt⟩
  simp only [State.setSlot]
  rw [tailAt, Ring.contents_writeFree room, items]

/-- A throwing move out of the ring changes the front only. -/
theorem spoilFront
    (represents : Represents slots state fifo)
    (nonempty : 0 < state.size)
    (value : α) :
    ∃ after,
      fifo.replaceFront? value = some after ∧
        Represents slots (state.setSlot state.head value) after := by
  have bound := represents.size_le
  obtain ⟨items, closed, headBound, tailAt⟩ := represents
  obtain ⟨rest, isSize⟩ :=
    Nat.exists_eq_succ_of_ne_zero (Nat.ne_of_gt nonempty)
  have headMod : state.head % slots = state.head :=
    Nat.mod_eq_of_lt headBound
  rw [isSize, Ring.contents_succ, headMod] at items
  cases replaces : fifo.replaceFront? value with
  | none =>
      unfold BoundedFifo.replaceFront? at replaces
      split at replaces
      · rename_i isEmpty
        rw [isEmpty] at items
        cases items
      · cases replaces
  | some after =>
      obtain ⟨front, others, shape, itemsAfter, sameClosed⟩ :=
        BoundedFifo.replaceFront?_eq_some_iff.mp replaces
      rw [shape] at items
      obtain ⟨_, rfl⟩ := List.cons.inj items
      have kept :
          Ring.contents slots
              (Function.update state.buffer (state.head % slots) value)
              (state.head + 1) rest =
            Ring.contents slots state.buffer (state.head + 1) rest :=
        Ring.contents_tail_update (by omega) value
      rw [headMod] at kept
      refine ⟨after, rfl, ?_, ?_, headBound, tailAt⟩
      · simp only [State.setSlot, isSize]
        rw [Ring.contents_succ, headMod, Function.update_self, kept,
          itemsAfter]
      · rw [sameClosed]
        exact closed

end Represents

section Sections

variable {state : State α} {fifo : BoundedFifo slots α}
variable {op : Op α} {timedOut : Bool}

/-- The parts of the state that critical sections protect. -/
def State.ring (state : State α) :
    (Nat → α) × Nat × Nat × Nat × Bool :=
  (state.buffer, state.head, state.tail, state.size, state.closed)

/-- The list takes a decision. -/
def Takes
    (before : BoundedFifo slots α)
    (made : Commit α)
    (after : BoundedFifo slots α) : Prop :=
  made.Explained before ∧ made.after? before = some after

/-- An answer of the list is a decision that it takes. -/
theorem takes_of_answer?
    {made : Commit α}
    {after : BoundedFifo slots α}
    (answers : made.answer? fifo = some (made.result, after))
    (waited : made.HasWaited fifo) :
    Takes fifo made after := by
  refine ⟨⟨?_, waited⟩, ?_⟩
  · rw [answers]
    rfl
  · rw [Commit.after?, answers]
    rfl

/-- Calls whose time is up, and those that never wait, do not block. -/
theorem isBlocking_of_ended
    (timed : timedOut = true → isTimed op = true)
    (ended : timedOut = true ∨ waitsOn? op = none) :
    op.isBlocking = false := by
  cases op <;> simp_all [isTimed, waitsOn?, Op.isBlocking]

/-- An answer decided without touching the ring is the answer of the list. -/
theorem takes_answer
    (represents : Represents slots state fifo)
    (timed : timedOut = true → isTimed op = true)
    {result : Result α}
    (fits : (Verdict.answer result).Fits slots state op timedOut) :
    Takes fifo (.answered op result timedOut) fifo := by
  have isSize := represents.size_eq
  have sameClosed := represents.closed
  have blocking :
      timedOut = true ∨ waitsOn? op = none → op.isBlocking = false :=
    isBlocking_of_ended timed
  have waited :
      isTimed op = true → waitsOn? op ≠ none := by
    cases op <;> simp [isTimed, waitsOn?]
  cases result with
  | pushed accepted =>
      cases accepted with
      | true => exact fits.elim
      | false =>
          obtain ⟨⟨value, pushes⟩, refused⟩ := fits
          refine takes_of_answer? (BoundedFifo.answer?_of_full pushes
            (BoundedFifo.append?_eq_none_iff.mpr ?_) ?_) ?_
          · rw [← sameClosed, ← isSize]
            exact refused.imp_right And.left
          · rw [← sameClosed]
            exact refused.imp_right fun full => blocking full.2
          · intro isTimed _ isOpen
            rw [← sameClosed] at isOpen
            rcases refused with isClosed | ⟨_, ended⟩
            · rw [isOpen] at isClosed
              cases isClosed
            · exact ended.resolve_right (waited isTimed)
  | popped delivered out =>
      cases delivered with
      | true => exact fits.elim
      | false =>
          obtain ⟨pops, isEmpty, ended⟩ := fits
          refine takes_of_answer? (BoundedFifo.answer?_of_empty pops
            (BoundedFifo.removeFront?_eq_none_iff.mpr ?_) ?_) ?_
          · rw [isEmpty] at isSize
            exact List.length_eq_zero_iff.mp isSize.symm
          · rw [← sameClosed]
            exact ended.imp_right blocking
          · intro isTimed _ isOpen
            rw [← sameClosed] at isOpen
            rcases ended with isClosed | ended
            · rw [isOpen] at isClosed
              cases isClosed
            · exact ended.resolve_right (waited isTimed)
  | done =>
      obtain ⟨rfl, isClosed⟩ := fits
      refine takes_of_answer? ?_ (by simp [Commit.HasWaited, isTimed])
      rw [sameClosed] at isClosed
      simp only [Commit.answer?, BoundedFifo.answer?, Commit.result,
        Option.some.injEq, Prod.mk.injEq, true_and]
      exact BoundedFifo.ext rfl isClosed.symm
  | closed flag =>
      obtain ⟨rfl, rfl⟩ := fits
      refine takes_of_answer? ?_ (by simp [Commit.HasWaited, isTimed])
      rw [sameClosed]
      rfl
  | size count =>
      obtain ⟨rfl, rfl⟩ := fits
      refine takes_of_answer? ?_ (by simp [Commit.HasWaited, isTimed])
      rw [isSize]
      rfl
  | pushedN | poppedN | capacity | pushThrew | popThrew =>
      exact fits.elim

/-- What the list has to say about one critical section. -/
theorem takes_act
    (small : slots ≤ SizeT.halfRange)
    (represents : Represents slots state fifo)
    (timed : timedOut = true → isTimed op = true)
    (thread : Nat)
    {verdict : Verdict α}
    (fits : verdict.Fits slots state op timedOut)
    (moving : Moving α) :
    match state.commit? op timedOut verdict moving with
    | none =>
        (state.act slots thread op timedOut verdict moving).ring =
          state.ring
    | some made =>
        (isRefusal made.result = true →
          (state.act slots thread op timedOut verdict moving).ring =
            state.ring) ∧
          ∃ after,
            Takes fifo made after ∧
              Represents slots
                (state.act slots thread op timedOut verdict moving)
                after := by
  have notRefused :
      ∀ {result : Result α},
        isRefusal result = false →
        isRefusal result = true →
        (state.act slots thread op timedOut verdict moving).ring =
          state.ring := by
    intro result accepted refused
    rw [accepted] at refused
    cases refused
  cases verdict with
  | block =>
      rfl
  | answer result =>
      refine ⟨fun _ => rfl, fifo, takes_answer represents timed fits, ?_⟩
      exact represents.of_same rfl rfl rfl rfl rfl
  | close =>
      obtain ⟨rfl, isOpen⟩ := fits
      refine ⟨notRefused rfl, fifo.close, ?_, ?_⟩
      · exact takes_of_answer? rfl (by simp [Commit.HasWaited, isTimed])
      · exact ⟨represents.items, rfl, represents.headBound,
          represents.tailAt⟩
  | enqueue value =>
      obtain ⟨pushes, isOpen, room⟩ := fits
      have isOpen' : fifo.closed = false := by
        rw [← represents.closed]
        exact isOpen
      have room' : fifo.items.length < slots := by
        rw [← represents.size_eq]
        exact room
      cases moving with
      | moves husk =>
          cases appends : fifo.append? value with
          | none =>
              rcases BoundedFifo.append?_eq_none_iff.mp appends with
                isClosed | isFull
              · rw [isOpen'] at isClosed
                cases isClosed
              · omega
          | some after =>
              refine ⟨notRefused rfl, after, ?_, ?_⟩
              · refine takes_of_answer?
                  (BoundedFifo.answer?_of_append? pushes appends) ?_
                intro _ refused
                cases refused
              · exact (represents.enqueueLocked small room appends).of_same
                  rfl rfl rfl rfl rfl
      | throws slotValue outValue =>
          refine ⟨notRefused rfl, fifo, takes_of_answer? ?_ trivial, ?_⟩
          · have isPush : op.isPush = true := by
              cases op <;> cases pushes <;> rfl
            simp [Commit.answer?, isPush, isOpen', room', Commit.result]
          · exact (represents.spoilFree room slotValue).of_same
              rfl rfl rfl rfl rfl
  | dequeue out =>
      obtain ⟨pops, nonempty⟩ := fits
      cases moving with
      | moves husk =>
          obtain ⟨after, removes, representsAfter⟩ :=
            represents.dequeueLocked small nonempty husk
          refine ⟨notRefused rfl, after, ?_, ?_⟩
          · refine takes_of_answer?
              (BoundedFifo.answer?_of_removeFront? pops removes) ?_
            intro _ refused
            cases refused
          · exact representsAfter.of_same rfl rfl rfl rfl rfl
      | throws slotValue outValue =>
          obtain ⟨after, replaces, representsAfter⟩ :=
            represents.spoilFront nonempty slotValue
          refine ⟨notRefused rfl, after, takes_of_answer? ?_ trivial, ?_⟩
          · have isPop : op.isPop = true := by
              cases op <;> cases pops <;> rfl
            simp [Commit.answer?, isPop, replaces, Commit.result]
          · exact representsAfter.of_same rfl rfl rfl rfl rfl

end Sections

/-- The reason a list has to refuse a call. -/
def RefusedBy (fifo : BoundedFifo slots α) : Op α → Prop
  | .push _ => fifo.closed = true
  | .tryPush _ | .tryPushFor _ =>
      fifo.closed = true ∨ fifo.items.length = slots
  | .pop _ => fifo.closed = true ∧ fifo.items = []
  | .tryPop _ | .tryPopFor _ => fifo.items = []
  | _ => False

namespace Takes

variable {before after : BoundedFifo slots α} {made : Commit α}

/-- The answer behind a decision that the list takes. -/
theorem answer?_eq
    (takes : Takes before made after) :
    made.answer? before = some (made.result, after) := by
  obtain ⟨⟨result, _⟩, content⟩ := takes
  cases answers : made.answer? before with
  | none =>
      rw [answers] at result
      cases result
  | some answer =>
      simp only [Commit.after?, answers, Option.map_some,
        Option.some.injEq] at result content
      rw [← result, ← content]

/-- A push that succeeded appended its argument to an open list with room. -/
theorem appended
    (takes : Takes before made after)
    (accepted : made.result = .pushed true) :
    ∃ value,
      made.op.argument? = some value ∧ before.closed = false ∧
        before.items.length < slots ∧
        after.items = before.items ++ [value] ∧
        after.closed = before.closed := by
  have answers := takes.answer?_eq
  cases made with
  | answered op result timedOut =>
      simp only [Commit.result] at accepted
      subst accepted
      obtain ⟨value, pushes, appends⟩ :=
        BoundedFifo.append?_of_answer? answers
      exact ⟨value, pushes, BoundedFifo.append?_eq_some_iff.mp appends⟩
  | pushThrew | popThrew =>
      cases accepted

/-- A pop that succeeded removed the front of the list. -/
theorem removed
    (takes : Takes before made after)
    {out : α}
    (delivered : made.result = .popped true out) :
    (∃ target, made.op.out? = some target) ∧
      before.items = out :: after.items ∧
        after.closed = before.closed := by
  have answers := takes.answer?_eq
  cases made with
  | answered op result timedOut =>
      simp only [Commit.result] at delivered
      subst delivered
      obtain ⟨pops, removes⟩ := BoundedFifo.removeFront?_of_answer? answers
      exact ⟨pops, BoundedFifo.removeFront?_eq_some_iff.mp removes⟩
  | pushThrew | popThrew =>
      cases delivered

/-- A refused call left alone a list that had reason to refuse it. -/
theorem refused
    (takes : Takes before made after)
    (refuses : isRefusal made.result = true) :
    after = before ∧ RefusedBy before made.op := by
  have answers := takes.answer?_eq
  cases made with
  | answered op result timedOut =>
      cases result with
      | pushed accepted =>
          cases accepted with
          | true => cases refuses
          | false =>
              obtain ⟨same, ⟨value, pushes⟩, reason⟩ :=
                BoundedFifo.refused_push answers
              refine ⟨same, ?_⟩
              cases op <;> cases pushes <;>
                simp_all [Commit.op, RefusedBy, Op.isBlocking]
      | popped delivered out =>
          cases delivered with
          | true => cases refuses
          | false =>
              obtain ⟨same, pops, isEmpty, reason⟩ :=
                BoundedFifo.failed_pop answers
              refine ⟨same, ?_⟩
              cases op <;> cases pops <;>
                simp_all [Commit.op, RefusedBy, Op.isBlocking]
      | _ => cases refuses
  | pushThrew | popThrew =>
      cases refuses

/-- A timed call that an open list refused had used up its time. -/
theorem timedOut
    {op : Op α}
    {result : Result α}
    {isUp : Bool}
    (takes : Takes before (.answered op result isUp) after)
    (timed : isTimed op = true)
    (refuses : isRefusal result = true)
    (isOpen : before.closed = false) :
    isUp = true :=
  takes.1.2 timed refuses isOpen

/-- `closed()` answers with the flag of the list. -/
theorem closed_eq
    {flag : Bool}
    (takes : Takes before made after)
    (answered : made.result = .closed flag) :
    before.closed = flag := by
  have answers := takes.answer?_eq
  rw [answered] at answers
  cases made with
  | answered op result timedOut =>
      cases op with
      | push value | tryPush value | tryPushFor value =>
          cases appends : before.append? value <;>
            simp [Commit.answer?, BoundedFifo.answer?, appends] at answers
      | pop out | tryPop out | tryPopFor out =>
          cases removes : before.removeFront? <;>
            simp [Commit.answer?, BoundedFifo.answer?, removes] at answers
      | closed =>
          simp only [Commit.answer?, BoundedFifo.answer?,
            Option.some.injEq, Prod.mk.injEq, Result.closed.injEq]
            at answers
          exact answers.1
      | _ => simp [Commit.answer?, BoundedFifo.answer?] at answers
  | pushThrew | popThrew => cases answered

/-- A closed list stays closed. -/
theorem stays_closed
    (takes : Takes before made after)
    (isClosed : before.closed = true) :
    after.closed = true := by
  have answers := takes.answer?_eq
  cases made with
  | answered op result timedOut =>
      cases op with
      | push value | tryPush value | tryPushFor value =>
          cases appends : before.append? value with
          | some after =>
              obtain ⟨isOpen, _⟩ := BoundedFifo.append?_eq_some_iff.mp appends
              rw [isOpen] at isClosed
              cases isClosed
          | none =>
              simp_all [Commit.answer?, BoundedFifo.answer?]
      | pop out | tryPop out | tryPopFor out =>
          cases removes : before.removeFront? with
          | some removed =>
              obtain ⟨oldest, rest⟩ := removed
              have same :=
                (BoundedFifo.removeFront?_eq_some_iff.mp removes).2
              simp_all [Commit.answer?, BoundedFifo.answer?]
          | none =>
              simp_all [Commit.answer?, BoundedFifo.answer?]
      | close =>
          simp only [Commit.answer?, BoundedFifo.answer?,
            Option.some.injEq, Prod.mk.injEq] at answers
          rw [← answers.2]
          rfl
      | closed | size | capacity =>
          simp only [Commit.answer?, BoundedFifo.answer?,
            Option.some.injEq, Prod.mk.injEq] at answers
          rw [← answers.2]
          exact isClosed
      | tryPushN | tryPopN => cases answers
  | pushThrew op =>
      simp [Commit.answer?, isClosed] at answers
  | popThrew op slotValue outValue =>
      simp only [Commit.answer?] at answers
      split at answers
      · obtain ⟨after', replaces, shape⟩ := Option.map_eq_some_iff.mp answers
        cases shape
        obtain ⟨_, _, _, _, same⟩ :=
          BoundedFifo.replaceFront?_eq_some_iff.mp replaces
        rw [same]
        exact isClosed
      · cases answers

end Takes

/-- A list that is closed stays closed over any sequence of decisions. -/
theorem closed_of_run
    {before after : BoundedFifo slots α}
    {marks : List (Commit α)}
    (run :
      Run (Commit.after? : BoundedFifo slots α → Commit α → _)
        Commit.Explained before marks after)
    (isClosed : before.closed = true) :
    after.closed = true := by
  induction run with
  | start =>
      exact isClosed
  | snoc _ explained applied inductionHypothesis =>
      exact Takes.stays_closed ⟨explained, applied⟩ inductionHypothesis

section Linearization

variable {thread : Nat} {state next : State α} {action : Action α}
variable {fifo : BoundedFifo slots α}

/-- A step changes the ring only by a decision that the list takes. -/
theorem ring_step
    (small : slots ≤ SizeT.halfRange)
    (tracked : Tracked slots state)
    (represents : Represents slots state fifo)
    (step : Step slots state thread action next) :
    next.log.marks = state.log.marks ∧ next.ring = state.ring ∨
      ∃ made after,
        next.log.marks = state.log.marks ++ [made] ∧
          (isRefusal made.result = true → next.ring = state.ring) ∧
          Takes fifo made after ∧ Represents slots next after := by
  cases step with
  | lock isAt locks decides =>
      rename_i pc op timedOut verdict moving
      obtain ⟨⟨call, isCurrent⟩, timed⟩ :=
        Pc.undecided_of_locks locks (tracked.agrees isAt)
      have fits := State.verdict?_fits represents.size_le decides
      have taken :=
        takes_act small represents timed thread fits moving
      rw [State.log_act]
      split at taken
      · rename_i undecided
        rw [undecided]
        exact Or.inl ⟨rfl, taken⟩
      · rename_i made decided
        rw [decided]
        obtain ⟨unchanged, after, takes, representsAfter⟩ := taken
        exact Or.inr ⟨made, after, state.log.marks_mark isCurrent made,
          unchanged, takes, representsAfter⟩
  | invoke => exact Or.inl ⟨state.log.marks_invoke _ _, rfl⟩
  | respond => exact Or.inl ⟨state.log.marks_respond _ _, rfl⟩
  | _ => exact Or.inl ⟨rfl, rfl⟩

/-- A state with the same ring represents the same list. -/
theorem Represents.of_ring
    (represents : Represents slots state fifo)
    (same : next.ring = state.ring) :
    Represents slots next fifo := by
  simp only [State.ring, Prod.mk.injEq] at same
  obtain ⟨buffer, head, tail, size, closed⟩ := same
  exact represents.of_same buffer head tail size closed

/-- The bounds of a constructed buffer. -/
theorem bufferSlots_ok
    {elementSize capacity : Nat}
    (built : bufferSlots elementSize capacity = .ok slots) :
    slots = capacity ∧ 0 < slots ∧ slots ≤ SizeT.halfRange := by
  unfold bufferSlots at built
  split at built
  · cases built
  · split at built
    · cases built
    · rename_i fits nonzero
      cases built
      have bound := vectorMaxSize_le elementSize
      omega

/-- The decisions noted so far are legal and explain the ring. -/
theorem linear_of_run
    [Inhabited α]
    (positive : 0 < slots)
    (small : slots ≤ SizeT.halfRange)
    {threads : Nat}
    {guard : StepGuard (State α) (Label α)}
    {labels : List (Label α)}
    (run : Run (step? slots) guard (initial threads) labels state) :
    ∃ fifo : BoundedFifo slots α,
      Legal slots state.log.marks fifo ∧ Represents slots state fifo := by
  induction run with
  | start =>
      exact ⟨BoundedFifo.empty, .start,
        Represents.initial positive threads⟩
  | snoc earlier admitted taken inductionHypothesis =>
      obtain ⟨fifo, legal, represents⟩ := inductionHypothesis
      rcases ring_step small (Tracked.of_run earlier) represents
          (Step.of_step? taken) with
        ⟨sameMarks, sameRing⟩
        | ⟨made, after, grown, _, takes, representsAfter⟩
      · refine ⟨fifo, ?_, represents.of_ring sameRing⟩
        rw [sameMarks]
        exact legal
      · refine ⟨after, ?_, representsAfter⟩
        rw [grown]
        exact legal.snoc takes.1 takes.2

/-- Every decision in a legal history is taken by the list of its moment. -/
theorem taken_at
    {log : CallLog Nat (Op α) (Commit α) (Result α)}
    (legal : Legal slots log.marks fifo)
    {front back : List (Event Nat (Op α) (Commit α) (Result α))}
    {call : Nat}
    {made : Commit α}
    (shape : log.history = front ++ .mark call made :: back) :
    ∃ before after,
      Legal slots (front.filterMap Event.mark?) before ∧
        Takes before made after ∧
        Run (Commit.after? : BoundedFifo slots α → Commit α → _)
          Commit.Explained after (back.filterMap Event.mark?) fifo := by
  have marks :
      log.marks =
        front.filterMap Event.mark? ++ [made] ++
          back.filterMap Event.mark? := by
    simp [CallLog.marks, shape, Event.mark?]
  unfold Legal at legal
  rw [marks] at legal
  obtain ⟨after, first, second⟩ := legal.split
  obtain ⟨before, earlier, explained, applied⟩ := first.last
  exact ⟨before, after, earlier, ⟨explained, applied⟩, second⟩

end Linearization

/-- What linearizability of the queue means in one state of a run. -/
structure Linearizable (slots : Nat) (state : State α) : Prop where
  /-- All decisions together are legal and have produced the ring. -/
  legal :
    ∃ fifo : BoundedFifo slots α,
      Legal slots state.log.marks fifo ∧ Represents slots state fifo
  /-- A call that returned took effect once, as it returned. -/
  once :
    ∀ {call op marks result},
      state.log.Completed call op marks result →
      Answers slots op marks result
  /-- The effects of calls that do not overlap are in their order. -/
  realTime :
    ∀ {first second made made'},
      state.log.Precedes first second →
      .mark first made ∈ state.log.history →
      .mark second made' ∈ state.log.history →
      Before (.mark first made) (.mark second made') state.log.history
  /-- An effect is an append, a removal, or a refusal with a reason. -/
  effects :
    ∀ {front call made back},
      state.log.history = front ++ .mark call made :: back →
      ∃ before after : BoundedFifo slots α,
        Legal slots (front.filterMap Event.mark?) before ∧
          (made.result = .pushed true →
            ∃ value,
              made.op.argument? = some value ∧ before.closed = false ∧
                before.items.length < slots ∧
                after.items = before.items ++ [value]) ∧
          (∀ {out},
            made.result = .popped true out →
            before.items = out :: after.items) ∧
          (isRefusal made.result = true →
            after = before ∧ RefusedBy before made.op) ∧
          Takes before made after
  /-- A refused timed call followed by `closed() == false` ran out of time. -/
  timedOut :
    ∀ {timed op marks result closing closedMarks},
      state.log.Completed timed op marks result →
      isTimed op = true →
      isRefusal result = true →
      state.log.Completed closing .closed closedMarks (.closed false) →
      state.log.Precedes timed closing →
      marks = [.answered op result true] ∧
        ∃ front back, ∃ before : BoundedFifo slots α,
          state.log.history =
              front ++ .mark timed (.answered op result true) :: back ∧
            Legal slots (front.filterMap Event.mark?) before ∧
            before.closed = false ∧
            (op.isPush = true → before.items.length = slots) ∧
            (op.isPop = true → before.items = [])

section Timed

variable {state : State α}

/-- A completed call that took the lock has noted its decision. -/
theorem Tracked.marked_of_completed
    (tracked : Tracked slots state)
    {call : Nat}
    {op : Op α}
    {marks : List (Commit α)}
    {result : Result α}
    (completed : state.log.Completed call op marks result)
    (locks : op ≠ .capacity) :
    ∃ made,
      marks = [made] ∧ made.op = op ∧ made.result = result ∧
        .mark call made ∈ state.log.history := by
  rcases tracked.answered completed with
    ⟨made, rfl, sameOp, sameResult⟩ | ⟨isCapacity, _⟩
  · obtain ⟨_, _, _, isMarks⟩ := completed
    refine ⟨made, rfl, sameOp, sameResult, CallLog.mem_marksOf.mp ?_⟩
    simp [isMarks]
  · exact (locks isCapacity).elim

/-- A timed call that was refused before a `closed()` answered `false`. -/
theorem Tracked.timed_out
    (tracked : Tracked slots state)
    {fifo : BoundedFifo slots α}
    (legal : Legal slots state.log.marks fifo)
    {timed closing : Nat}
    {op : Op α}
    {result : Result α}
    {marks closedMarks : List (Commit α)}
    (completed : state.log.Completed timed op marks result)
    (isTimedOp : isTimed op = true)
    (refuses : isRefusal result = true)
    (closed :
      state.log.Completed closing .closed closedMarks (.closed false))
    (precedes : state.log.Precedes timed closing) :
    marks = [.answered op result true] ∧
      ∃ front back, ∃ before : BoundedFifo slots α,
        state.log.history =
            front ++ .mark timed (.answered op result true) :: back ∧
          Legal slots (front.filterMap Event.mark?) before ∧
          before.closed = false ∧
          (op.isPush = true → before.items.length = slots) ∧
          (op.isPop = true → before.items = []) := by
  have locks : op ≠ .capacity := by
    rintro rfl
    cases isTimedOp
  obtain ⟨made, rfl, sameOp, sameResult, marked⟩ :=
    tracked.marked_of_completed completed locks
  obtain ⟨made', _, sameOp', sameResult', marked'⟩ :=
    tracked.marked_of_completed closed (by simp)
  obtain ⟨front, middle, back, shape⟩ :=
    (tracked.wellFormed.before_of_precedes precedes marked marked').split
  obtain ⟨before, after, legalBefore, takes, rest⟩ := taken_at legal shape
  have marks :
      (middle ++ .mark closing made' :: back).filterMap Event.mark? =
        middle.filterMap Event.mark? ++ [made'] ++
          back.filterMap Event.mark? := by
    simp [Event.mark?]
  rw [marks] at rest
  obtain ⟨later, toClosed, _⟩ := rest.split
  obtain ⟨atClosed, between, explained, applied⟩ := toClosed.last
  have wasOpen : atClosed.closed = false :=
    Takes.closed_eq ⟨explained, applied⟩ sameResult'
  have isOpen : before.closed = false := by
    cases isClosed : before.closed with
    | false => rfl
    | true =>
        rw [closed_of_run between (takes.stays_closed isClosed)] at wasOpen
        cases wasOpen
  cases made with
  | answered op' result' isUp =>
      cases sameOp
      cases sameResult
      have isTimedOut := takes.timedOut isTimedOp refuses isOpen
      subst isTimedOut
      obtain ⟨_, reason⟩ := takes.refused refuses
      refine ⟨rfl, front, _, before, shape, legalBefore, isOpen, ?_, ?_⟩
      · intro isPush
        cases op' <;> simp_all [RefusedBy, Commit.op, isTimed, Op.isPush]
      · intro isPop
        cases op' <;> simp_all [RefusedBy, Commit.op, isTimed, Op.isPop]
  | pushThrew | popThrew =>
      cases sameResult
      cases refuses

end Timed

/--
`MutexQueue` is a linearizable bounded FIFO queue under all three waiting
disciplines, and its critical sections change the ring only by what the list
does; a refused call changes nothing.
-/
theorem linearizable
    [Inhabited α]
    {elementSize capacity slots threads : Nat}
    (built : bufferSlots elementSize capacity = .ok slots)
    {labels : List (Label α)}
    {state : State α}
    (run : Run (step? slots) unrestricted (initial threads) labels state) :
    Linearizable slots state ∧
      ∀ label next,
        step? slots state label = some next →
        next.log.marks = state.log.marks ∧ next.ring = state.ring ∨
          ∃ made,
            next.log.marks = state.log.marks ++ [made] ∧
              (isRefusal made.result = true → next.ring = state.ring) ∧
              ∃ before after : BoundedFifo slots α,
                Represents slots state before ∧
                  Takes before made after ∧
                  Represents slots next after := by
  obtain ⟨_, positive, small⟩ := bufferSlots_ok built
  have tracked : Tracked slots state := Tracked.of_run run
  obtain ⟨fifo, legal, represents⟩ := linear_of_run positive small run
  constructor
  · exact
      { legal := ⟨fifo, legal, represents⟩
        once := tracked.answered
        realTime := tracked.wellFormed.before_of_precedes
        effects := by
          intro front call made back shape
          obtain ⟨before, after, legalBefore, takes, _⟩ :=
            taken_at legal shape
          refine ⟨before, after, legalBefore, ?_, ?_, takes.refused, takes⟩
          · intro accepted
            obtain ⟨value, pushes, isOpen, room, items, _⟩ :=
              takes.appended accepted
            exact ⟨value, pushes, isOpen, room, items⟩
          · intro out delivered
            exact (takes.removed delivered).2.1
        timedOut := tracked.timed_out legal }
  · intro label next taken
    rcases ring_step small tracked represents (Step.of_step? taken) with
      unchanged | ⟨made, after, grown, refused, takes, representsAfter⟩
    · exact Or.inl unchanged
    · exact Or.inr ⟨made, grown, refused, fifo, after, represents, takes,
        representsAfter⟩

/-- A push into the only slot, a timed push in vain, and a `closed()`. -/
def timeoutSchedule : List (Label Nat) :=
  [⟨0, .invoke (.push 7)⟩, ⟨0, .lock (.moves 0)⟩, ⟨0, .notify none⟩,
    ⟨0, .respond⟩,
    ⟨1, .invoke (.tryPushFor 8)⟩, ⟨1, .lock (.moves 0)⟩, ⟨1, .timeout⟩,
    ⟨1, .lock (.moves 0)⟩, ⟨1, .respond⟩,
    ⟨0, .invoke .closed⟩, ⟨0, .lock (.moves 0)⟩, ⟨0, .respond⟩]

theorem linearizable_timeout :
    ∃ state,
      replay? (step? 1) unrestricted (initial 2) timeoutSchedule =
          some state ∧
        .respond 1 1 (.pushed false) ∈ state.log.history ∧
        Linearizable 1 state ∧
        ∀ label next,
          step? 1 state label = some next →
          next.log.marks = state.log.marks ∧ next.ring = state.ring ∨
            ∃ made,
              next.log.marks = state.log.marks ++ [made] ∧
                (isRefusal made.result = true → next.ring = state.ring) ∧
                ∃ before after : BoundedFifo 1 Nat,
                  Represents 1 state before ∧
                    Takes before made after ∧
                    Represents 1 next after := by
  have replayed :
      ∃ state,
        replay? (step? 1) unrestricted (initial 2) timeoutSchedule =
            some state ∧
          .respond 1 1 (.pushed false) ∈ state.log.history :=
    ⟨_, rfl, by decide⟩
  have built : bufferSlots 8 1 = .ok 1 := by
    rfl
  obtain ⟨state, accepted, timedOut⟩ := replayed
  exact ⟨state, accepted, timedOut,
    linearizable built (Run.of_replay? accepted)⟩

end ConcurrentQueue.Mutex
