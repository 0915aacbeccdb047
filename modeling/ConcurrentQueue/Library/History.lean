import Mathlib.Logic.Function.Basic
import Mathlib.Data.List.Basic
import Mathlib.Data.List.Nodup
import Mathlib.Data.List.Pairwise

namespace ConcurrentQueue

/-!
# Call histories

A history is the list of invocations, responses and internal marks of the
calls made on one shared object, in the order in which they happened.  A mark
records a moment inside a call that matters to its meaning, such as the taking
of a ticket or the critical section that decides its result.

`CallLog` keeps a history together with the calls in progress.  Its three
operations keep it well formed, and marks then respect real time: if one call
returned before another was invoked, the marks of the first precede the marks
of the second.
-/

/-- Strict occurrence order in a finite list. -/
def Before (first second : β) (items : List β) : Prop :=
  [first, second].Sublist items

instance [DecidableEq β] (first second : β) (items : List β) :
    Decidable (Before first second items) :=
  inferInstanceAs (Decidable ([first, second].Sublist items))

namespace Before

variable {first second item : β} {items : List β}

/-- The earlier endpoint occurs in the list. -/
theorem first_mem (before : Before first second items) :
    first ∈ items :=
  List.Sublist.subset before (by simp)

/-- The later endpoint occurs in the list. -/
theorem second_mem (before : Before first second items) :
    second ∈ items :=
  List.Sublist.subset before (by simp)

/-- Occurrence order survives appending one item. -/
theorem concat
    (before : Before first second items)
    (item : β) :
    Before first second (items ++ [item]) :=
  List.Sublist.trans before (List.sublist_append_left items [item])

/-- Occurrence order survives any extension of the list. -/
theorem mono
    {later : List β}
    (kept : items.Sublist later)
    (before : Before first second items) :
    Before first second later :=
  List.Sublist.trans before kept

/-- The two endpoints cut the list into three parts. -/
theorem split
    (before : Before first second items) :
    ∃ front middle back,
      items = front ++ first :: (middle ++ second :: back) := by
  obtain ⟨early, late, rfl, firstMember, secondSublist⟩ :=
    List.cons_sublist_iff.mp before
  obtain ⟨front, rest, rfl⟩ := List.append_of_mem firstMember
  obtain ⟨middle, back, rfl⟩ :=
    List.append_of_mem (List.singleton_sublist.mp secondSublist)
  exact ⟨front, rest ++ middle, back, by simp⟩

/-- Everything already present occurs before a newly appended item. -/
theorem concat_of_mem
    (member : first ∈ items) :
    Before first item (items ++ [item]) :=
  (List.singleton_sublist.mpr member).append (List.Sublist.refl [item])

/-- Appending an item adds exactly the orders that end in that item. -/
theorem concat_iff :
    Before first second (items ++ [item]) ↔
      Before first second items ∨ first ∈ items ∧ second = item := by
  constructor
  · intro before
    obtain ⟨front, back, shape, frontSublist, backSublist⟩ :=
      List.sublist_append_iff.mp before
    rcases List.sublist_singleton.mp backSublist with empty | single
    · left
      rw [empty, List.append_nil] at shape
      rwa [Before, shape]
    · right
      have split : [first] ++ [second] = front ++ [item] := by
        rw [← single]
        exact shape
      obtain ⟨frontShape, backShape⟩ := List.append_inj' split rfl
      rw [← frontShape] at frontSublist
      exact ⟨List.singleton_sublist.mp frontSublist,
        List.singleton_inj.mp backShape⟩
  · rintro (before | ⟨member, rfl⟩)
    · exact before.concat item
    · exact concat_of_mem member

/-- Extraction keeps the order of the endpoints it retains. -/
theorem extract
    {extract : β → Option γ}
    {firstValue secondValue : γ}
    (before : Before first second items)
    (firstExtracts : extract first = some firstValue)
    (secondExtracts : extract second = some secondValue) :
    Before firstValue secondValue (items.filterMap extract) := by
  have retained := List.Sublist.filterMap extract before
  simpa [Before, firstExtracts, secondExtracts] using retained

/-- In an initial segment of the naturals the earlier number is smaller. -/
theorem lt_of_range
    {first second bound : Nat}
    (before : Before first second (List.range bound)) :
    first < second := by
  have ordered : [first, second].Pairwise (· < ·) :=
    List.Pairwise.sublist before List.pairwise_lt_range
  exact List.rel_of_pairwise_cons ordered (by simp)

end Before

/-- Where no extraction is repeated, it determines the item it came from. -/
theorem eq_of_nodup_extraction
    {extract : β → Option γ}
    {items : List β}
    (distinct : (items.filterMap extract).Nodup)
    {first second : β}
    {value : γ}
    (firstMember : first ∈ items)
    (secondMember : second ∈ items)
    (firstExtracts : extract first = some value)
    (secondExtracts : extract second = some value) :
    first = second := by
  by_contra different
  let Apart : β → β → Prop :=
    fun left right =>
      ∀ b, extract left = some b → ∀ b', extract right = some b' → b ≠ b'
  have symmetric : Std.Symm Apart :=
    ⟨fun _ _ apart b leftExtracts b' rightExtracts =>
      (apart b' rightExtracts b leftExtracts).symm⟩
  have pairwise : items.Pairwise Apart :=
    List.pairwise_filterMap.mp distinct
  exact pairwise.forall firstMember secondMember different
    value firstExtracts value secondExtracts rfl

/-- One event of a history; `call` identifies the call it belongs to. -/
inductive Event (Thread Op Mark Result : Type) where
  | invoke (thread : Thread) (call : Nat) (op : Op)
  | mark (call : Nat) (made : Mark)
  | respond (thread : Thread) (call : Nat) (result : Result)
  deriving Repr, DecidableEq

namespace Event

variable {Thread Op Mark Result : Type}

/-- The call an event belongs to. -/
def call : Event Thread Op Mark Result → Nat
  | .invoke _ call _ => call
  | .mark call _ => call
  | .respond _ call _ => call

/-- The mark an event makes, if it is one. -/
def mark? : Event Thread Op Mark Result → Option Mark
  | .mark _ made => some made
  | _ => none

/-- The event is the invocation of the given call. -/
def isInvocationOf (call : Nat) : Event Thread Op Mark Result → Bool
  | .invoke _ owner _ => owner == call
  | _ => false

/-- The event is the response to the given call. -/
def isResponseTo (call : Nat) : Event Thread Op Mark Result → Bool
  | .respond _ owner _ => owner == call
  | _ => false

/-- The same event with its mark converted. -/
def mapMark (convert : Mark → Mark') :
    Event Thread Op Mark Result → Event Thread Op Mark' Result
  | .invoke thread call op => .invoke thread call op
  | .mark call made => .mark call (convert made)
  | .respond thread call result => .respond thread call result

/-- The mark an event puts on one given call. -/
def markOf? (call : Nat) : Event Thread Op Mark Result → Option Mark
  | .mark owner made => if owner = call then some made else none
  | _ => none

end Event

variable {Thread Op Mark Mark' Result : Type}

/-- A call in progress: its identity, its arguments and the marks it made. -/
structure OpenCall (Op Mark : Type) where
  call : Nat
  op : Op
  marks : List Mark := []
  deriving Repr, DecidableEq

/-- The same call with its marks converted. -/
def OpenCall.mapMarks
    (convert : Mark → Mark')
    (opened : OpenCall Op Mark) :
    OpenCall Op Mark' where
  call := opened.call
  op := opened.op
  marks := opened.marks.map convert

/-- A history together with the calls in progress. -/
structure CallLog (Thread Op Mark Result : Type) where
  history : List (Event Thread Op Mark Result) := []
  nextCall : Nat := 0
  current : Thread → Option (OpenCall Op Mark) := fun _ => none

namespace CallLog

/-- The same history with every mark converted. -/
def mapMarks
    (convert : Mark → Mark')
    (log : CallLog Thread Op Mark Result) :
    CallLog Thread Op Mark' Result where
  history := log.history.map (Event.mapMark convert)
  nextCall := log.nextCall
  current thread := (log.current thread).map (OpenCall.mapMarks convert)

/-- All marks in order. -/
def marks (log : CallLog Thread Op Mark Result) : List Mark :=
  log.history.filterMap Event.mark?

/-- The marks made by one call, in order. -/
def marksOf
    (log : CallLog Thread Op Mark Result)
    (call : Nat) : List Mark :=
  log.history.filterMap (Event.markOf? call)

section Operations

variable [DecidableEq Thread]

/-- Start a call under a fresh identity. -/
def invoke
    (log : CallLog Thread Op Mark Result)
    (thread : Thread)
    (op : Op) :
    CallLog Thread Op Mark Result where
  history := log.history ++ [.invoke thread log.nextCall op]
  nextCall := log.nextCall + 1
  current :=
    Function.update log.current thread
      (some { call := log.nextCall, op := op })

/-- Put a mark on the call that `thread` has in progress. -/
def mark
    (log : CallLog Thread Op Mark Result)
    (thread : Thread)
    (made : Mark) :
    CallLog Thread Op Mark Result :=
  match log.current thread with
  | none => log
  | some opened =>
      { log with
        history := log.history ++ [.mark opened.call made]
        current :=
          Function.update log.current thread
            (some { opened with marks := opened.marks ++ [made] }) }

/-- Finish the call that `thread` has in progress. -/
def respond
    (log : CallLog Thread Op Mark Result)
    (thread : Thread)
    (result : Result) :
    CallLog Thread Op Mark Result :=
  match log.current thread with
  | none => log
  | some opened =>
      { log with
        history := log.history ++ [.respond thread opened.call result]
        current := Function.update log.current thread none }

end Operations

/-- A call that has returned, with its arguments, its marks and its result. -/
def Completed
    (log : CallLog Thread Op Mark Result)
    (call : Nat)
    (op : Op)
    (marks : List Mark)
    (result : Result) : Prop :=
  ∃ thread,
    .invoke thread call op ∈ log.history ∧
      .respond thread call result ∈ log.history ∧
      log.marksOf call = marks

/-- Every call of a selected operation has returned. -/
def noneInProgress
    (log : CallLog Thread Op Mark Result)
    (select : Op → Bool) : Bool :=
  log.history.all fun event =>
    match event with
    | .invoke _ call op =>
        !select op || log.history.any (Event.isResponseTo call)
    | _ => true

/-- The call was made on a selected operation. -/
def isCallOf
    (log : CallLog Thread Op Mark Result)
    (select : Op → Bool)
    (call : Nat) : Bool :=
  log.history.any fun event =>
    match event with
    | .invoke _ owner op => owner == call && select op
    | _ => false

/-- One call returned before another was invoked. -/
def Precedes
    (log : CallLog Thread Op Mark Result)
    (first second : Nat) : Prop :=
  ∃ response ∈ log.history, ∃ invocation ∈ log.history,
    response.isResponseTo first ∧ invocation.isInvocationOf second ∧
      Before response invocation log.history

/-- No call is in progress. -/
def Quiescent (log : CallLog Thread Op Mark Result) : Prop :=
  ∀ thread, log.current thread = none

/--
Structural well-formedness: identities are fresh, every call is invoked once
and returns at most once, and marks lie between invocation and response.
-/
structure WellFormed (log : CallLog Thread Op Mark Result) : Prop where
  fresh :
    ∀ event ∈ log.history, event.call < log.nextCall
  invokeFresh :
    ∀ {event thread call op},
      Before event (.invoke thread call op) log.history →
      event.call < call
  currentFresh :
    ∀ {thread opened},
      log.current thread = some opened →
      opened.call < log.nextCall
  currentInvoked :
    ∀ {thread opened},
      log.current thread = some opened →
      .invoke thread opened.call opened.op ∈ log.history
  currentMarks :
    ∀ {thread opened},
      log.current thread = some opened →
      log.marksOf opened.call = opened.marks
  currentOpen :
    ∀ {thread opened},
      log.current thread = some opened →
      ∀ owner result,
        .respond owner opened.call result ∉ log.history
  currentInjective :
    ∀ {thread other opened opened'},
      log.current thread = some opened →
      log.current other = some opened' →
      opened.call = opened'.call →
      thread = other
  invokeUnique :
    ∀ {thread thread' call op op'},
      .invoke thread call op ∈ log.history →
      .invoke thread' call op' ∈ log.history →
      thread = thread' ∧ op = op'
  respondUnique :
    ∀ {thread thread' call result result'},
      .respond thread call result ∈ log.history →
      .respond thread' call result' ∈ log.history →
      thread = thread' ∧ result = result'
  markInvoked :
    ∀ {call made},
      .mark call made ∈ log.history →
      ∃ thread op,
        Before (.invoke thread call op) (.mark call made) log.history
  respondInvoked :
    ∀ {thread call result},
      .respond thread call result ∈ log.history →
      ∃ op,
        Before (.invoke thread call op) (.respond thread call result)
          log.history
  markedBeforeResponse :
    ∀ {thread call result made},
      .respond thread call result ∈ log.history →
      .mark call made ∈ log.history →
      Before (.mark call made) (.respond thread call result) log.history
  invokedIsOpenOrReturned :
    ∀ {thread call op},
      .invoke thread call op ∈ log.history →
      (∃ opened,
        log.current thread = some opened ∧ opened.call = call) ∨
        ∃ result, .respond thread call result ∈ log.history
  realTime :
    ∀ {thread thread' call call' result op made made'},
      Before (.respond thread call result) (.invoke thread' call' op)
        log.history →
      .mark call made ∈ log.history →
      .mark call' made' ∈ log.history →
      Before (.mark call made) (.mark call' made') log.history

instance
    [DecidableEq Thread] [DecidableEq Op] [DecidableEq Mark]
    [DecidableEq Result]
    (log : CallLog Thread Op Mark Result)
    (first second : Nat) :
    Decidable (log.Precedes first second) :=
  inferInstanceAs (Decidable (∃ _ ∈ _, ∃ _ ∈ _, _ ∧ _ ∧ _))

/-- An invocation tells which operation its call was made on. -/
theorem isCallOf_of_invoke
    {log : CallLog Thread Op Mark Result}
    {select : Op → Bool}
    {thread : Thread}
    {call : Nat}
    {op : Op}
    (invoked : .invoke thread call op ∈ log.history)
    (selected : select op = true) :
    log.isCallOf select call = true :=
  List.any_eq_true.mpr ⟨_, invoked, by simp [selected]⟩

/-- The order of calls that do not overlap is never revised. -/
theorem Precedes.mono
    {log later : CallLog Thread Op Mark Result}
    {first second : Nat}
    (kept : log.history.Sublist later.history)
    (precedes : log.Precedes first second) :
    later.Precedes first second := by
  obtain ⟨response, member, invocation, member', isResponse, isInvocation,
    before⟩ := precedes
  exact ⟨response, kept.subset member, invocation, kept.subset member',
    isResponse, isInvocation, before.mono kept⟩

/-- A response recorded before an invocation orders the two calls. -/
theorem precedes_of_before
    {log : CallLog Thread Op Mark Result}
    {thread thread' : Thread}
    {first second : Nat}
    {result : Result}
    {op : Op}
    (before :
      Before (.respond thread first result) (.invoke thread' second op)
        log.history) :
    log.Precedes first second :=
  ⟨_, before.first_mem, _, before.second_mem,
    by simp [Event.isResponseTo], by simp [Event.isInvocationOf], before⟩

section Lookup

variable [DecidableEq Thread]
variable (log : CallLog Thread Op Mark Result)
variable {thread : Thread} {opened : OpenCall Op Mark}

@[simp] theorem history_invoke (thread : Thread) (op : Op) :
    (log.invoke thread op).history =
      log.history ++ [.invoke thread log.nextCall op] := by
  rfl

@[simp] theorem current_invoke (thread : Thread) (op : Op) :
    (log.invoke thread op).current =
      Function.update log.current thread
        (some { call := log.nextCall, op := op }) := by
  rfl

@[simp] theorem nextCall_invoke (thread : Thread) (op : Op) :
    (log.invoke thread op).nextCall = log.nextCall + 1 := by
  rfl

/-- Marking acts on the call that the thread has in progress. -/
theorem mark_of_current
    (isCurrent : log.current thread = some opened)
    (made : Mark) :
    log.mark thread made =
      { log with
        history := log.history ++ [.mark opened.call made]
        current :=
          Function.update log.current thread
            (some { opened with marks := opened.marks ++ [made] }) } := by
  simp [mark, isCurrent]

/-- Responding closes the call that the thread has in progress. -/
theorem respond_of_current
    (isCurrent : log.current thread = some opened)
    (result : Result) :
    log.respond thread result =
      { log with
        history := log.history ++ [.respond thread opened.call result]
        current := Function.update log.current thread none } := by
  simp [respond, isCurrent]

@[simp] theorem marks_invoke (thread : Thread) (op : Op) :
    (log.invoke thread op).marks = log.marks := by
  simp [marks, Event.mark?]

@[simp] theorem marks_respond (thread : Thread) (result : Result) :
    (log.respond thread result).marks = log.marks := by
  unfold respond marks
  split <;> simp [Event.mark?]

/-- A mark of a call in progress comes after all earlier marks. -/
theorem marks_mark
    (isCurrent : log.current thread = some opened)
    (made : Mark) :
    (log.mark thread made).marks = log.marks ++ [made] := by
  simp [log.mark_of_current isCurrent, marks, Event.mark?]

/-- An invocation makes no mark. -/
@[simp] theorem marksOf_invoke (thread : Thread) (op : Op) (call : Nat) :
    (log.invoke thread op).marksOf call = log.marksOf call := by
  simp [marksOf, Event.markOf?]

/-- A response makes no mark. -/
@[simp] theorem marksOf_respond
    (thread : Thread)
    (result : Result)
    (call : Nat) :
    (log.respond thread result).marksOf call = log.marksOf call := by
  unfold respond marksOf
  split <;> simp [Event.markOf?]

/-- A mark is added to the marks of its own call only. -/
theorem marksOf_mark
    (isCurrent : log.current thread = some opened)
    (made : Mark)
    (call : Nat) :
    (log.mark thread made).marksOf call =
      log.marksOf call ++ if opened.call = call then [made] else [] := by
  simp only [log.mark_of_current isCurrent, marksOf,
    List.filterMap_append, List.filterMap_cons, Event.markOf?,
    List.filterMap_nil]
  split <;> simp_all

/-- Operations only ever extend the history. -/
theorem history_sublist_mark (thread : Thread) (made : Mark) :
    log.history.Sublist (log.mark thread made).history := by
  unfold mark
  split <;> simp

theorem history_sublist_respond (thread : Thread) (result : Result) :
    log.history.Sublist (log.respond thread result).history := by
  unfold respond
  split <;> simp

section MapMarks

variable (convert : Mark → Mark')

/-- Converting marks commutes with the operations of the log. -/
theorem mapMarks_invoke (thread : Thread) (op : Op) :
    (log.invoke thread op).mapMarks convert =
      (log.mapMarks convert).invoke thread op := by
  simp only [invoke, mapMarks, CallLog.mk.injEq, true_and]
  constructor
  · simp [Event.mapMark]
  · funext other
    by_cases same : other = thread <;>
      simp [same, OpenCall.mapMarks]

theorem mapMarks_mark (thread : Thread) (made : Mark) :
    (log.mark thread made).mapMarks convert =
      (log.mapMarks convert).mark thread (convert made) := by
  cases isCurrent : log.current thread with
  | none =>
      simp [mark, mapMarks, isCurrent]
  | some opened =>
      simp only [mark, mapMarks, isCurrent, Option.map_some,
        CallLog.mk.injEq, true_and]
      constructor
      · simp [Event.mapMark, OpenCall.mapMarks]
      · funext other
        by_cases same : other = thread <;>
          simp [same, OpenCall.mapMarks]

theorem mapMarks_respond (thread : Thread) (result : Result) :
    (log.respond thread result).mapMarks convert =
      (log.mapMarks convert).respond thread result := by
  cases isCurrent : log.current thread with
  | none =>
      simp [respond, mapMarks, isCurrent]
  | some opened =>
      simp only [respond, mapMarks, isCurrent, Option.map_some,
        CallLog.mk.injEq, true_and]
      constructor
      · simp [Event.mapMark, OpenCall.mapMarks]
      · funext other
        by_cases same : other = thread <;>
          simp [same]

end MapMarks

/-- Marking leaves the calls of other threads alone. -/
theorem current_mark_of_ne
    {other : Thread}
    (different : other ≠ thread)
    (made : Mark) :
    (log.mark thread made).current other = log.current other := by
  unfold mark
  split <;> simp [different]

theorem current_respond_of_ne
    {other : Thread}
    (different : other ≠ thread)
    (result : Result) :
    (log.respond thread result).current other = log.current other := by
  unfold respond
  split <;> simp [different]

end Lookup

/-- The marks of a call are the marks recorded under its identity. -/
theorem mem_marksOf
    {log : CallLog Thread Op Mark Result}
    {call : Nat}
    {made : Mark} :
    made ∈ log.marksOf call ↔ .mark call made ∈ log.history := by
  constructor
  · intro member
    obtain ⟨event, eventMember, extracts⟩ := List.mem_filterMap.mp member
    cases event with
    | invoke | respond =>
        simp [Event.markOf?] at extracts
    | mark owner recorded =>
        simp only [Event.markOf?, Option.ite_none_right_eq_some,
          Option.some.injEq] at extracts
        obtain ⟨rfl, rfl⟩ := extracts
        exact eventMember
  · intro member
    exact List.mem_filterMap.mpr ⟨_, member, by simp [Event.markOf?]⟩

namespace WellFormed

variable {log : CallLog Thread Op Mark Result}

/-- The empty log is well formed. -/
theorem empty :
    (({} : CallLog Thread Op Mark Result)).WellFormed where
  fresh := by simp
  invokeFresh := by
    intro _ _ _ _ before
    simpa using before.first_mem
  currentFresh := by simp
  currentInvoked := by simp
  currentMarks := by simp
  currentOpen := by simp
  currentInjective := by simp
  invokeUnique := by simp
  respondUnique := by simp
  markInvoked := by simp
  respondInvoked := by simp
  markedBeforeResponse := by simp
  invokedIsOpenOrReturned := by simp
  realTime := by
    intro _ _ _ _ _ _ _ _ _ member
    simp at member

/-- Identities are given out in the order of invocation. -/
theorem lt_of_precedes
    (wellFormed : log.WellFormed)
    {first second : Nat}
    (precedes : log.Precedes first second) :
    first < second := by
  obtain ⟨response, _, invocation, _, isResponse, isInvocation, before⟩ :=
    precedes
  cases response with
  | invoke | mark =>
      simp [Event.isResponseTo] at isResponse
  | respond owner call result =>
      cases invocation with
      | mark | respond =>
          simp [Event.isInvocationOf] at isInvocation
      | invoke owner' call' op =>
          simp only [Event.isResponseTo, beq_iff_eq] at isResponse
          simp only [Event.isInvocationOf, beq_iff_eq] at isInvocation
          have fresh := wellFormed.invokeFresh before
          rw [← isResponse, ← isInvocation]
          exact fresh

/-- The marks of calls that do not overlap are in their order. -/
theorem before_of_precedes
    (wellFormed : log.WellFormed)
    {first second : Nat}
    {made made' : Mark}
    (precedes : log.Precedes first second)
    (marked : .mark first made ∈ log.history)
    (marked' : .mark second made' ∈ log.history) :
    Before (.mark first made) (.mark second made') log.history := by
  obtain ⟨response, _, invocation, _, isResponse, isInvocation, before⟩ :=
    precedes
  cases response with
  | respond thread call result =>
      cases invocation with
      | invoke thread' call' op =>
          simp only [Event.isResponseTo, Event.isInvocationOf, beq_iff_eq]
            at isResponse isInvocation
          subst isResponse
          subst isInvocation
          exact wellFormed.realTime before marked marked'
      | mark | respond => cases isInvocation
  | invoke | mark => cases isResponse

/-- With no selected call in progress, a current call is not selected. -/
theorem not_selected_of_noneInProgress
    (wellFormed : log.WellFormed)
    {select : Op → Bool}
    (none : log.noneInProgress select = true)
    {thread : Thread}
    {opened : OpenCall Op Mark}
    (isCurrent : log.current thread = some opened) :
    select opened.op = false := by
  have noneSelected :=
    List.all_eq_true.mp none _ (wellFormed.currentInvoked isCurrent)
  simp only [Bool.or_eq_true, Bool.not_eq_eq_eq_not, Bool.not_true,
    List.any_eq_true] at noneSelected
  rcases noneSelected with notSelected | ⟨event, member, isResponse⟩
  · exact notSelected
  · cases event with
    | invoke | mark =>
        simp [Event.isResponseTo] at isResponse
    | respond owner call result =>
        simp only [Event.isResponseTo, beq_iff_eq] at isResponse
        subst isResponse
        exact (wellFormed.currentOpen isCurrent owner result member).elim

/-- No event of the history carries an identity not yet given out. -/
theorem not_mem_of_nextCall_le
    (wellFormed : log.WellFormed)
    {event : Event Thread Op Mark Result}
    (unused : log.nextCall ≤ event.call) :
    event ∉ log.history := by
  intro member
  have := wellFormed.fresh event member
  omega

/-- Starting a call keeps the log well formed if the thread had none. -/
theorem invoke
    [DecidableEq Thread]
    (wellFormed : log.WellFormed)
    {thread : Thread}
    (isIdle : log.current thread = none)
    (op : Op) :
    (log.invoke thread op).WellFormed where
  fresh := by
    intro event member
    simp only [history_invoke, List.mem_append, List.mem_singleton] at member
    rcases member with old | isNew
    · have := wellFormed.fresh event old
      simp only [nextCall_invoke]
      omega
    · subst isNew
      simp [Event.call]
  invokeFresh := by
    intro event owner call op' before
    simp only [history_invoke, Before.concat_iff,
      Event.invoke.injEq] at before
    rcases before with old | ⟨member, rfl, rfl, rfl⟩
    · exact wellFormed.invokeFresh old
    · exact wellFormed.fresh event member
  currentFresh := by
    intro owner opened isCurrent
    by_cases same : owner = thread
    · subst same
      simp only [current_invoke, Function.update_self,
        Option.some.injEq] at isCurrent
      subst isCurrent
      simp
    · simp only [current_invoke, Function.update_of_ne same] at isCurrent
      have := wellFormed.currentFresh isCurrent
      simp only [nextCall_invoke]
      omega
  currentInvoked := by
    intro owner opened isCurrent
    by_cases same : owner = thread
    · subst same
      simp only [current_invoke, Function.update_self,
        Option.some.injEq] at isCurrent
      subst isCurrent
      simp
    · simp only [current_invoke, Function.update_of_ne same] at isCurrent
      simp [wellFormed.currentInvoked isCurrent]
  currentMarks := by
    intro owner opened isCurrent
    by_cases same : owner = thread
    · subst same
      simp only [current_invoke, Function.update_self,
        Option.some.injEq] at isCurrent
      subst isCurrent
      simp only [marksOf_invoke]
      rw [List.eq_nil_iff_forall_not_mem]
      intro made member
      exact wellFormed.not_mem_of_nextCall_le (Nat.le_refl _)
        (mem_marksOf.mp member)
    · simp only [current_invoke, Function.update_of_ne same] at isCurrent
      simp [wellFormed.currentMarks isCurrent]
  currentOpen := by
    intro owner opened isCurrent other result member
    simp only [history_invoke, List.mem_append, List.mem_singleton,
      reduceCtorEq, or_false] at member
    by_cases same : owner = thread
    · subst same
      simp only [current_invoke, Function.update_self,
        Option.some.injEq] at isCurrent
      subst isCurrent
      exact wellFormed.not_mem_of_nextCall_le (Nat.le_refl _) member
    · simp only [current_invoke, Function.update_of_ne same] at isCurrent
      exact wellFormed.currentOpen isCurrent other result member
  currentInjective := by
    intro owner other opened opened' isCurrent isCurrent' sameCall
    simp only [current_invoke, Function.update_apply] at isCurrent isCurrent'
    split at isCurrent <;> split at isCurrent'
    · simp_all
    · have := wellFormed.currentFresh isCurrent'
      simp only [Option.some.injEq] at isCurrent
      subst isCurrent
      simp only at sameCall
      omega
    · have := wellFormed.currentFresh isCurrent
      simp only [Option.some.injEq] at isCurrent'
      subst isCurrent'
      simp only at sameCall
      omega
    · exact wellFormed.currentInjective isCurrent isCurrent' sameCall
  invokeUnique := by
    intro owner other call op₁ op₂ first second
    simp only [history_invoke, List.mem_append, List.mem_singleton,
      Event.invoke.injEq] at first second
    rcases first with first | ⟨rfl, rfl, rfl⟩ <;>
      rcases second with second | ⟨rfl, same, rfl⟩
    · exact wellFormed.invokeUnique first second
    · subst same
      exact (wellFormed.not_mem_of_nextCall_le (Nat.le_refl _) first).elim
    · exact (wellFormed.not_mem_of_nextCall_le (Nat.le_refl _) second).elim
    · exact ⟨rfl, rfl⟩
  respondUnique := by
    intro owner other call result result' first second
    simp only [history_invoke, List.mem_append, List.mem_singleton,
      reduceCtorEq, or_false] at first second
    exact wellFormed.respondUnique first second
  markInvoked := by
    intro call made member
    simp only [history_invoke, List.mem_append, List.mem_singleton,
      reduceCtorEq, or_false] at member
    obtain ⟨owner, op, before⟩ := wellFormed.markInvoked member
    exact ⟨owner, op, before.concat _⟩
  respondInvoked := by
    intro owner call result member
    simp only [history_invoke, List.mem_append, List.mem_singleton,
      reduceCtorEq, or_false] at member
    obtain ⟨op, before⟩ := wellFormed.respondInvoked member
    exact ⟨op, before.concat _⟩
  markedBeforeResponse := by
    intro owner call result made response marked
    simp only [history_invoke, List.mem_append, List.mem_singleton,
      reduceCtorEq, or_false] at response marked
    exact (wellFormed.markedBeforeResponse response marked).concat _
  invokedIsOpenOrReturned := by
    intro owner call op' member
    simp only [history_invoke, List.mem_append, List.mem_singleton,
      Event.invoke.injEq, reduceCtorEq, or_false] at member ⊢
    rcases member with old | ⟨rfl, rfl, rfl⟩
    · rcases wellFormed.invokedIsOpenOrReturned old with
        ⟨opened, isCurrent, same⟩ | returned
      · have different : owner ≠ thread := by
          intro same
          subst same
          simp [isIdle] at isCurrent
        exact Or.inl ⟨opened, by
          simp [Function.update_of_ne different, isCurrent], same⟩
      · exact Or.inr returned
    · exact Or.inl ⟨{ call := log.nextCall, op := op' }, by simp, rfl⟩
  realTime := by
    intro owner owner' call call' result op' made made' before marked marked'
    simp only [history_invoke, List.mem_append, List.mem_singleton,
      reduceCtorEq, or_false] at marked marked'
    simp only [history_invoke, Before.concat_iff] at before
    rcases before with old | ⟨_, isNew⟩
    · exact (wellFormed.realTime old marked marked').concat _
    · injection isNew with _ sameCall _
      subst sameCall
      exact (wellFormed.not_mem_of_nextCall_le (Nat.le_refl _) marked').elim

/-- Marking a call in progress keeps the log well formed. -/
theorem mark
    [DecidableEq Thread]
    (wellFormed : log.WellFormed)
    {thread : Thread}
    {opened : OpenCall Op Mark}
    (isCurrent : log.current thread = some opened)
    (made : Mark) :
    (log.mark thread made).WellFormed where
  fresh := by
    intro event member
    simp only [log.mark_of_current isCurrent, List.mem_append,
      List.mem_singleton] at member ⊢
    rcases member with old | isNew
    · exact wellFormed.fresh event old
    · subst isNew
      exact wellFormed.currentFresh isCurrent
  invokeFresh := by
    intro event owner call op before
    simp only [log.mark_of_current isCurrent, Before.concat_iff,
      reduceCtorEq, and_false, or_false] at before
    exact wellFormed.invokeFresh before
  currentFresh := by
    intro owner opened' isCurrent'
    simp only [log.mark_of_current isCurrent, Function.update_apply]
      at isCurrent' ⊢
    split at isCurrent'
    · simp only [Option.some.injEq] at isCurrent'
      have bound := wellFormed.currentFresh isCurrent
      rwa [← isCurrent']
    · exact wellFormed.currentFresh isCurrent'
  currentInvoked := by
    intro owner opened' isCurrent'
    simp only [log.mark_of_current isCurrent, Function.update_apply,
      List.mem_append, List.mem_singleton, reduceCtorEq, or_false]
      at isCurrent' ⊢
    split at isCurrent'
    · rename_i same
      subst same
      simp only [Option.some.injEq] at isCurrent'
      have invoked := wellFormed.currentInvoked isCurrent
      rwa [← isCurrent']
    · exact wellFormed.currentInvoked isCurrent'
  currentMarks := by
    intro owner opened' isCurrent'
    rw [log.marksOf_mark isCurrent]
    simp only [log.mark_of_current isCurrent, Function.update_apply]
      at isCurrent'
    split at isCurrent'
    · simp only [Option.some.injEq] at isCurrent'
      subst isCurrent'
      simp [wellFormed.currentMarks isCurrent]
    · rename_i different
      have apart : opened.call ≠ opened'.call := by
        intro sameCall
        exact different
          (wellFormed.currentInjective isCurrent' isCurrent sameCall.symm)
      simp [apart, wellFormed.currentMarks isCurrent']
  currentOpen := by
    intro owner opened' isCurrent' other result member
    simp only [log.mark_of_current isCurrent, Function.update_apply,
      List.mem_append, List.mem_singleton, reduceCtorEq, or_false]
      at isCurrent' member
    split at isCurrent'
    · simp only [Option.some.injEq] at isCurrent'
      subst isCurrent'
      exact wellFormed.currentOpen isCurrent other result member
    · exact wellFormed.currentOpen isCurrent' other result member
  currentInjective := by
    intro owner other first second isFirst isSecond sameCall
    simp only [log.mark_of_current isCurrent, Function.update_apply]
      at isFirst isSecond
    split at isFirst <;> split at isSecond
    · simp_all
    · simp only [Option.some.injEq] at isFirst
      subst isFirst
      rename_i same _
      subst same
      exact wellFormed.currentInjective isCurrent isSecond sameCall
    · simp only [Option.some.injEq] at isSecond
      subst isSecond
      rename_i same
      subst same
      exact wellFormed.currentInjective isFirst isCurrent sameCall
    · exact wellFormed.currentInjective isFirst isSecond sameCall
  invokeUnique := by
    intro owner other call op op' first second
    simp only [log.mark_of_current isCurrent, List.mem_append,
      List.mem_singleton, reduceCtorEq, or_false] at first second
    exact wellFormed.invokeUnique first second
  respondUnique := by
    intro owner other call result result' first second
    simp only [log.mark_of_current isCurrent, List.mem_append,
      List.mem_singleton, reduceCtorEq, or_false] at first second
    exact wellFormed.respondUnique first second
  markInvoked := by
    intro call made' member
    simp only [log.mark_of_current isCurrent, List.mem_append,
      List.mem_singleton, Event.mark.injEq] at member ⊢
    rcases member with old | ⟨rfl, rfl⟩
    · obtain ⟨owner, op, before⟩ := wellFormed.markInvoked old
      exact ⟨owner, op, before.concat _⟩
    · exact ⟨thread, opened.op,
        Before.concat_of_mem (wellFormed.currentInvoked isCurrent)⟩
  respondInvoked := by
    intro owner call result member
    simp only [log.mark_of_current isCurrent, List.mem_append,
      List.mem_singleton, reduceCtorEq, or_false] at member ⊢
    obtain ⟨op, before⟩ := wellFormed.respondInvoked member
    exact ⟨op, before.concat _⟩
  markedBeforeResponse := by
    intro owner call result made' response marked
    simp only [log.mark_of_current isCurrent, List.mem_append,
      List.mem_singleton, Event.mark.injEq, reduceCtorEq, or_false]
      at response marked ⊢
    rcases marked with old | ⟨rfl, rfl⟩
    · exact (wellFormed.markedBeforeResponse response old).concat _
    · exact (wellFormed.currentOpen isCurrent _ _ response).elim
  invokedIsOpenOrReturned := by
    intro owner call op member
    simp only [log.mark_of_current isCurrent, List.mem_append,
      List.mem_singleton, reduceCtorEq, or_false] at member ⊢
    rcases wellFormed.invokedIsOpenOrReturned member with
      ⟨opened', isCurrent', same⟩ | returned
    · by_cases sameThread : owner = thread
      · subst sameThread
        rw [isCurrent] at isCurrent'
        cases isCurrent'
        exact Or.inl ⟨{ opened with marks := opened.marks ++ [made] },
          by simp, same⟩
      · exact Or.inl ⟨opened', by
          simp [Function.update_of_ne sameThread, isCurrent'], same⟩
    · exact Or.inr returned
  realTime := by
    intro owner owner' call call' result op first second before
      marked marked'
    simp only [log.mark_of_current isCurrent, Before.concat_iff,
      List.mem_append, List.mem_singleton, Event.mark.injEq, reduceCtorEq,
      and_false, or_false] at before marked marked' ⊢
    rcases marked with old | ⟨rfl, rfl⟩
    · rcases marked' with old' | ⟨rfl, rfl⟩
      · exact Or.inl (wellFormed.realTime before old old')
      · exact Or.inr ⟨old, rfl, rfl⟩
    · exact (wellFormed.currentOpen isCurrent _ _ before.first_mem).elim

/-- Returning from a call in progress keeps the log well formed. -/
theorem respond
    [DecidableEq Thread]
    (wellFormed : log.WellFormed)
    {thread : Thread}
    {opened : OpenCall Op Mark}
    (isCurrent : log.current thread = some opened)
    (result : Result) :
    (log.respond thread result).WellFormed where
  fresh := by
    intro event member
    simp only [log.respond_of_current isCurrent, List.mem_append,
      List.mem_singleton] at member ⊢
    rcases member with old | isNew
    · exact wellFormed.fresh event old
    · subst isNew
      exact wellFormed.currentFresh isCurrent
  invokeFresh := by
    intro event owner call op before
    simp only [log.respond_of_current isCurrent, Before.concat_iff,
      reduceCtorEq, and_false, or_false] at before
    exact wellFormed.invokeFresh before
  currentFresh := by
    intro owner opened' isCurrent'
    simp only [log.respond_of_current isCurrent, Function.update_apply,
      Option.ite_none_left_eq_some] at isCurrent' ⊢
    exact wellFormed.currentFresh isCurrent'.2
  currentInvoked := by
    intro owner opened' isCurrent'
    simp only [log.respond_of_current isCurrent, Function.update_apply,
      Option.ite_none_left_eq_some, List.mem_append, List.mem_singleton,
      reduceCtorEq, or_false] at isCurrent' ⊢
    exact wellFormed.currentInvoked isCurrent'.2
  currentMarks := by
    intro owner opened' isCurrent'
    rw [marksOf_respond]
    simp only [log.respond_of_current isCurrent, Function.update_apply,
      Option.ite_none_left_eq_some] at isCurrent'
    exact wellFormed.currentMarks isCurrent'.2
  currentOpen := by
    intro owner opened' isCurrent' other result' member
    simp only [log.respond_of_current isCurrent, Function.update_apply,
      Option.ite_none_left_eq_some, List.mem_append, List.mem_singleton,
      Event.respond.injEq] at isCurrent' member
    rcases member with old | ⟨rfl, sameCall, rfl⟩
    · exact wellFormed.currentOpen isCurrent'.2 other result' old
    · exact isCurrent'.1
        (wellFormed.currentInjective isCurrent'.2 isCurrent sameCall)
  currentInjective := by
    intro owner other first second isFirst isSecond sameCall
    simp only [log.respond_of_current isCurrent, Function.update_apply,
      Option.ite_none_left_eq_some] at isFirst isSecond
    exact wellFormed.currentInjective isFirst.2 isSecond.2 sameCall
  invokeUnique := by
    intro owner other call op op' first second
    simp only [log.respond_of_current isCurrent, List.mem_append,
      List.mem_singleton, reduceCtorEq, or_false] at first second
    exact wellFormed.invokeUnique first second
  respondUnique := by
    intro owner other call first second isFirst isSecond
    simp only [log.respond_of_current isCurrent, List.mem_append,
      List.mem_singleton, Event.respond.injEq] at isFirst isSecond
    rcases isFirst with old | ⟨rfl, rfl, rfl⟩ <;>
      rcases isSecond with old' | ⟨rfl, same, rfl⟩
    · exact wellFormed.respondUnique old old'
    · subst same
      exact (wellFormed.currentOpen isCurrent _ _ old).elim
    · exact (wellFormed.currentOpen isCurrent _ _ old').elim
    · exact ⟨rfl, rfl⟩
  markInvoked := by
    intro call made member
    simp only [log.respond_of_current isCurrent, List.mem_append,
      List.mem_singleton, reduceCtorEq, or_false] at member ⊢
    obtain ⟨owner, op, before⟩ := wellFormed.markInvoked member
    exact ⟨owner, op, before.concat _⟩
  respondInvoked := by
    intro owner call result' member
    simp only [log.respond_of_current isCurrent, List.mem_append,
      List.mem_singleton, Event.respond.injEq] at member ⊢
    rcases member with old | ⟨rfl, rfl, rfl⟩
    · obtain ⟨op, before⟩ := wellFormed.respondInvoked old
      exact ⟨op, before.concat _⟩
    · exact ⟨opened.op,
        Before.concat_of_mem (wellFormed.currentInvoked isCurrent)⟩
  markedBeforeResponse := by
    intro owner call result' made response marked
    simp only [log.respond_of_current isCurrent, List.mem_append,
      List.mem_singleton, Event.respond.injEq, reduceCtorEq, or_false]
      at response marked ⊢
    rcases response with old | ⟨rfl, rfl, rfl⟩
    · exact (wellFormed.markedBeforeResponse old marked).concat _
    · exact Before.concat_of_mem marked
  invokedIsOpenOrReturned := by
    intro owner call op member
    simp only [log.respond_of_current isCurrent, List.mem_append,
      List.mem_singleton, reduceCtorEq, or_false] at member ⊢
    rcases wellFormed.invokedIsOpenOrReturned member with
      ⟨opened', isCurrent', same⟩ | ⟨result', returned⟩
    · by_cases sameThread : owner = thread
      · subst sameThread
        rw [isCurrent] at isCurrent'
        cases isCurrent'
        exact Or.inr ⟨result, Or.inr (by rw [same])⟩
      · exact Or.inl ⟨opened', by
          simp [Function.update_of_ne sameThread, isCurrent'], same⟩
    · exact Or.inr ⟨result', Or.inl returned⟩
  realTime := by
    intro owner owner' call call' result' op made made' before
      marked marked'
    simp only [log.respond_of_current isCurrent, Before.concat_iff,
      List.mem_append, List.mem_singleton, reduceCtorEq, and_false,
      or_false] at before marked marked' ⊢
    exact wellFormed.realTime before marked marked'

/-- Starting a call completes none. -/
theorem completed_invoke
    [DecidableEq Thread]
    (wellFormed : log.WellFormed)
    {thread : Thread}
    {op op' : Op}
    {call : Nat}
    {marks : List Mark}
    {result : Result} :
    (log.invoke thread op).Completed call op' marks result ↔
      log.Completed call op' marks result := by
  simp only [Completed, history_invoke, List.mem_append,
    List.mem_singleton, Event.invoke.injEq, reduceCtorEq, or_false,
    marksOf_invoke]
  constructor
  · rintro ⟨owner, old | ⟨_, sameCall, _⟩, returned, marked⟩
    · exact ⟨owner, old, returned, marked⟩
    · subst sameCall
      exact (wellFormed.not_mem_of_nextCall_le (Nat.le_refl _)
        returned).elim
  · rintro ⟨owner, old, returned, marked⟩
    exact ⟨owner, Or.inl old, returned, marked⟩

/-- Marking a call in progress completes none and changes no completed one. -/
theorem completed_mark
    [DecidableEq Thread]
    (wellFormed : log.WellFormed)
    {thread : Thread}
    {opened : OpenCall Op Mark}
    (isCurrent : log.current thread = some opened)
    {made : Mark}
    {call : Nat}
    {op : Op}
    {marks : List Mark}
    {result : Result} :
    (log.mark thread made).Completed call op marks result ↔
      log.Completed call op marks result := by
  simp only [Completed, log.marksOf_mark isCurrent]
  simp only [log.mark_of_current isCurrent, List.mem_append,
    List.mem_singleton, reduceCtorEq, or_false]
  constructor
  · rintro ⟨owner, invoked, returned, marked⟩
    have apart : opened.call ≠ call := by
      rintro rfl
      exact wellFormed.currentOpen isCurrent _ _ returned
    exact ⟨owner, invoked, returned, by simpa [apart] using marked⟩
  · rintro ⟨owner, invoked, returned, marked⟩
    have apart : opened.call ≠ call := by
      rintro rfl
      exact wellFormed.currentOpen isCurrent _ _ returned
    exact ⟨owner, invoked, returned, by simpa [apart] using marked⟩

/-- A response completes exactly the call it answers. -/
theorem completed_respond
    [DecidableEq Thread]
    (wellFormed : log.WellFormed)
    {thread : Thread}
    {opened : OpenCall Op Mark}
    (isCurrent : log.current thread = some opened)
    {result : Result}
    {call : Nat}
    {op : Op}
    {marks : List Mark}
    {result' : Result} :
    (log.respond thread result).Completed call op marks result' ↔
      log.Completed call op marks result' ∨
        call = opened.call ∧ op = opened.op ∧
          marks = opened.marks ∧ result' = result := by
  simp only [Completed, marksOf_respond]
  simp only [log.respond_of_current isCurrent, List.mem_append,
    List.mem_singleton, reduceCtorEq, or_false, Event.respond.injEq]
  constructor
  · rintro ⟨owner, invoked, returned | ⟨rfl, rfl, rfl⟩, marked⟩
    · exact Or.inl ⟨owner, invoked, returned, marked⟩
    · have same :=
        wellFormed.invokeUnique invoked
          (wellFormed.currentInvoked isCurrent)
      exact Or.inr ⟨rfl, same.2, by
        rw [← marked, wellFormed.currentMarks isCurrent], rfl⟩
  · rintro (⟨owner, invoked, returned, marked⟩ | ⟨rfl, rfl, rfl, rfl⟩)
    · exact ⟨owner, invoked, Or.inl returned, marked⟩
    · exact ⟨thread, wellFormed.currentInvoked isCurrent,
        Or.inr ⟨rfl, rfl, rfl⟩, wellFormed.currentMarks isCurrent⟩

/-- Every response belongs to a completed call. -/
theorem completed_of_respond
    (wellFormed : log.WellFormed)
    {thread : Thread}
    {call : Nat}
    {result : Result}
    (returned : .respond thread call result ∈ log.history) :
    ∃ op marks, log.Completed call op marks result := by
  obtain ⟨op, before⟩ := wellFormed.respondInvoked returned
  exact ⟨op, log.marksOf call, thread, before.first_mem, returned, rfl⟩

/-- A mark of a call that is not in progress belongs to a completed call. -/
theorem completed_of_mark
    (wellFormed : log.WellFormed)
    {call : Nat}
    {made : Mark}
    (notOpen :
      ∀ {thread opened},
        log.current thread = some opened → opened.call ≠ call)
    (marked : .mark call made ∈ log.history) :
    ∃ op marks result,
      log.Completed call op marks result ∧ made ∈ marks := by
  obtain ⟨thread, op, before⟩ := wellFormed.markInvoked marked
  rcases wellFormed.invokedIsOpenOrReturned before.first_mem with
    ⟨opened, isCurrent, same⟩ | ⟨result, returned⟩
  · exact (notOpen isCurrent same).elim
  · exact ⟨op, log.marksOf call, result,
      ⟨thread, before.first_mem, returned, rfl⟩, mem_marksOf.mpr marked⟩

end WellFormed

end CallLog

end ConcurrentQueue
