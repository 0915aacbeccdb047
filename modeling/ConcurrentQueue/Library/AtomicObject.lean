import ConcurrentQueue.Library.History
import Mathlib.Data.List.Count

namespace ConcurrentQueue

/-!
# Linearizability by effects

A sequential object answers every operation in one step.  A concurrent history
is linearizable to it when its calls can be listed in an order that the object
accepts and that respects the order of calls that do not overlap.  Such a list
is found by letting each call take its effect at one moment between its
invocation and its response; the effects are kept in a history of their own,
which a simulation extends step by step.
-/

/-- An object that answers operations one at a time. -/
structure SequentialObject (Object Op Result : Type) where
  start : Object
  takes : Object → Op → Result → Object → Prop

/-- The object reached when the listed calls are answered one by one. -/
inductive SequentialObject.Serves
    {Object Op Result : Type}
    (spec : SequentialObject Object Op Result) :
    List (Op × Result) → Object → Prop where
  | start :
      Serves spec [] spec.start
  | snoc
      {effects : List (Op × Result)}
      {before after : Object}
      {op : Op}
      {result : Result} :
      Serves spec effects before →
      spec.takes before op result after →
      Serves spec (effects ++ [(op, result)]) after

/-- An event without the marks, which a client cannot see. -/
def Event.visible?
    {Thread Op Mark Result : Type} :
    Event Thread Op Mark Result → Option (Event Thread Op Empty Result)
  | .invoke thread call op => some (.invoke thread call op)
  | .mark _ _ => none
  | .respond thread call result => some (.respond thread call result)

/-- An order among extracted values comes from an order of their items. -/
theorem Before.of_filterMap
    {extract : β → Option γ}
    {items : List β}
    {first second : γ}
    (before : Before first second (items.filterMap extract)) :
    ∃ item item',
      Before item item' items ∧
        extract item = some first ∧ extract item' = some second := by
  obtain ⟨kept, isKept, shape⟩ := List.sublist_filterMap_iff.mp before
  obtain ⟨_, item, rest, rfl, _, isFirst, later⟩ :=
    List.filterMap_eq_cons_iff.mp shape.symm
  obtain ⟨_, item', _, rfl, _, isSecond, _⟩ :=
    List.filterMap_eq_cons_iff.mp later
  refine ⟨item, item', ?_, isFirst, isSecond⟩
  refine List.Sublist.trans ?_ isKept
  simp [List.sublist_append_of_sublist_right]

section Effects

variable {Thread Op Mark Result Object : Type}

/-- A history whose marks are the effects of its calls. -/
abbrev EffectLog (Thread Op Result : Type) :=
  CallLog Thread Op (Op × Result) Result

/-- The identity and the operation of a call in progress. -/
def OpenCall.made (opened : OpenCall Op Mark) : Nat × Op :=
  (opened.call, opened.op)

/-- The effects of a history and the object they have produced. -/
structure Explains
    (spec : SequentialObject Object Op Result)
    (log : CallLog Thread Op Mark Result)
    (effects : EffectLog Thread Op Result)
    (object : Object) : Prop where
  visible :
    effects.history.filterMap Event.visible? =
      log.history.filterMap Event.visible?
  nextCall : effects.nextCall = log.nextCall
  sameCalls :
    ∀ thread,
      (effects.current thread).map OpenCall.made =
        (log.current thread).map OpenCall.made
  wellFormed : effects.WellFormed
  legal : spec.Serves effects.marks object
  single : ∀ call, (effects.marksOf call).length ≤ 1
  owned :
    ∀ {call op result},
      .mark call (op, result) ∈ effects.history →
      ∃ thread, .invoke thread call op ∈ effects.history
  answered :
    ∀ {call op marks result},
      effects.Completed call op marks result → marks = [(op, result)]

namespace Explains

variable {spec : SequentialObject Object Op Result}
variable {log : CallLog Thread Op Mark Result}
variable {effects : EffectLog Thread Op Result}
variable {object : Object}

/-- Before the first call there is nothing to explain. -/
theorem empty :
    Explains spec ({} : CallLog Thread Op Mark Result) {} spec.start where
  visible := by
    rfl
  nextCall := by
    rfl
  sameCalls := by
    intro thread
    rfl
  wellFormed := CallLog.WellFormed.empty
  legal := .start
  single := by
    intro call
    exact Nat.zero_le 1
  owned := by
    intro call op result recorded
    cases recorded
  answered := by
    rintro call op marks result ⟨thread, invoked, _⟩
    cases invoked

/-- The call that a thread has in progress is the same in both histories. -/
theorem current_of_effects
    (explains : Explains spec log effects object)
    {thread : Thread}
    {opened : OpenCall Op (Op × Result)}
    (isCurrent : effects.current thread = some opened) :
    ∃ marks, log.current thread = some ⟨opened.call, opened.op, marks⟩ := by
  have same := explains.sameCalls thread
  rw [isCurrent] at same
  obtain ⟨found, isFound, agrees⟩ := Option.map_eq_some_iff.mp same.symm
  obtain ⟨call, op, marks⟩ := found
  cases agrees
  exact ⟨marks, isFound⟩

section Steps

variable [DecidableEq Thread]

/-- A call starts without an effect. -/
theorem invoke
    (explains : Explains spec log effects object)
    {thread : Thread}
    (isIdle : effects.current thread = none)
    (op : Op) :
    Explains spec (log.invoke thread op) (effects.invoke thread op)
      object where
  visible := by
    simp [explains.visible, explains.nextCall, Event.visible?]
  nextCall := by
    simp [explains.nextCall]
  sameCalls := by
    intro other
    by_cases same : other = thread
    · subst same
      simp [explains.nextCall, OpenCall.made]
    · simpa [same] using explains.sameCalls other
  wellFormed := explains.wellFormed.invoke isIdle op
  legal := by
    simpa using explains.legal
  single := by
    intro call
    simpa using explains.single call
  owned := by
    intro call op' result recorded
    simp only [CallLog.history_invoke, List.mem_append,
      List.mem_singleton, reduceCtorEq, or_false] at recorded
    obtain ⟨owner, invoked⟩ := explains.owned recorded
    exact ⟨owner, List.mem_append_left _ invoked⟩
  answered := by
    intro call op' marks result completed
    exact explains.answered
      (explains.wellFormed.completed_invoke.mp completed)

/-- What the code notes for itself, clients do not see. -/
theorem note
    (explains : Explains spec log effects object)
    (thread : Thread)
    (made : Mark) :
    Explains spec (log.mark thread made) effects object := by
  obtain ⟨visible, nextCall, sameCalls, wellFormed, legal, single, owned,
    answered⟩ := explains
  cases isCurrent : log.current thread with
  | none =>
      have same : log.mark thread made = log := by
        simp [CallLog.mark, isCurrent]
      rw [same]
      exact ⟨visible, nextCall, sameCalls, wellFormed, legal, single,
        owned, answered⟩
  | some opened =>
      rw [log.mark_of_current isCurrent]
      refine ⟨?_, nextCall, ?_, wellFormed, legal, single, owned,
        answered⟩
      · simp [visible, Event.visible?]
      · intro other
        by_cases same : other = thread
        · subst same
          simp [sameCalls other, isCurrent, OpenCall.made]
        · simpa [same] using sameCalls other

/-- A call takes its effect where the object gives its answer. -/
theorem effect
    (explains : Explains spec log effects object)
    {thread : Thread}
    {call : Nat}
    {op : Op}
    (isCurrent : effects.current thread = some ⟨call, op, []⟩)
    {result : Result}
    {after : Object}
    (takes : spec.takes object op result after) :
    Explains spec log (effects.mark thread (op, result)) after where
  visible := by
    rw [effects.mark_of_current isCurrent]
    simp [explains.visible, Event.visible?]
  nextCall := by
    rw [effects.mark_of_current isCurrent]
    exact explains.nextCall
  sameCalls := by
    intro other
    have same := explains.sameCalls other
    rw [effects.mark_of_current isCurrent]
    by_cases isOwn : other = thread
    · subst isOwn
      rw [isCurrent] at same
      simpa [OpenCall.made] using same
    · simpa [isOwn] using same
  wellFormed := explains.wellFormed.mark isCurrent (op, result)
  legal := by
    rw [effects.marks_mark isCurrent]
    exact explains.legal.snoc takes
  single := by
    intro other
    rw [effects.marksOf_mark isCurrent]
    split
    · rename_i isOwn
      subst isOwn
      rw [explains.wellFormed.currentMarks isCurrent]
      exact Nat.le_refl 1
    · simpa using explains.single other
  owned := by
    intro other op' result' recorded
    simp only [effects.mark_of_current isCurrent, List.mem_append,
      List.mem_singleton, Event.mark.injEq, Prod.mk.injEq] at recorded ⊢
    rcases recorded with old | ⟨rfl, rfl, rfl⟩
    · obtain ⟨owner, invoked⟩ := explains.owned old
      exact ⟨owner, Or.inl invoked⟩
    · exact ⟨thread,
        Or.inl (explains.wellFormed.currentInvoked isCurrent)⟩
  answered := by
    intro other op' marks result' completed
    exact explains.answered
      ((explains.wellFormed.completed_mark isCurrent).mp completed)

/-- A call returns what its effect was. -/
theorem respond
    (explains : Explains spec log effects object)
    {thread : Thread}
    {call : Nat}
    {op : Op}
    {result : Result}
    (isCurrent : effects.current thread = some ⟨call, op, [(op, result)]⟩) :
    Explains spec (log.respond thread result)
      (effects.respond thread result) object := by
  obtain ⟨marks, isOpen⟩ := explains.current_of_effects isCurrent
  exact {
    visible := by
      rw [effects.respond_of_current isCurrent,
        log.respond_of_current isOpen]
      simp [explains.visible, Event.visible?]
    nextCall := by
      rw [effects.respond_of_current isCurrent,
        log.respond_of_current isOpen]
      exact explains.nextCall
    sameCalls := by
      intro other
      rw [effects.respond_of_current isCurrent,
        log.respond_of_current isOpen]
      by_cases same : other = thread
      · simp [same]
      · simpa [same] using explains.sameCalls other
    wellFormed := explains.wellFormed.respond isCurrent result
    legal := by
      simpa using explains.legal
    single := by
      intro other
      simpa using explains.single other
    owned := by
      intro other op' result' recorded
      simp only [effects.respond_of_current isCurrent, List.mem_append,
        List.mem_singleton, reduceCtorEq, or_false] at recorded ⊢
      exact explains.owned recorded
    answered := by
      intro other op' marks' result' completed
      rcases (explains.wellFormed.completed_respond isCurrent).mp completed
        with old | ⟨rfl, rfl, rfl, rfl⟩
      · exact explains.answered old
      · rfl }

end Steps

section Order

/-- Calls that do not overlap do not do so in either history. -/
theorem precedes
    (explains : Explains spec log effects object)
    {first second : Nat}
    (precedes : log.Precedes first second) :
    effects.Precedes first second := by
  obtain ⟨response, _, invocation, _, isResponse, isInvocation, before⟩ :=
    precedes
  cases response with
  | invoke | mark => cases isResponse
  | respond thread call result =>
      cases invocation with
      | mark | respond => cases isInvocation
      | invoke thread' call' op =>
          have seen :
              Before (.respond thread call result)
                (.invoke thread' call' op)
                (log.history.filterMap Event.visible?) :=
            before.extract rfl rfl
          rw [← explains.visible] at seen
          obtain ⟨item, item', ordered, isFirst, isSecond⟩ :=
            seen.of_filterMap
          cases item <;> cases isFirst
          cases item' <;> cases isSecond
          exact ⟨_, ordered.first_mem, _, ordered.second_mem, isResponse,
            isInvocation, ordered⟩

end Order

end Explains

/-- How far the call of a thread has come. -/
inductive Phase (Result : Type) where
  | idle
  | pending
  | decided (result : Result)
  deriving Repr, DecidableEq

/-- A call has had its effect as soon as its result is decided. -/
def Phase.Shown (opened : Option (OpenCall Op (Op × Result))) :
    Phase Result → Prop
  | .idle => opened = none
  | .pending => ∃ call op, opened = some ⟨call, op, []⟩
  | .decided result =>
      ∃ call op, opened = some ⟨call, op, [(op, result)]⟩

/-- Effects can be put into the history that lead to the object. -/
def Follows
    (spec : SequentialObject Object Op Result)
    (log : CallLog Thread Op Mark Result)
    (object : Object)
    (phases : Thread → Phase Result) : Prop :=
  ∃ effects : EffectLog Thread Op Result,
    Explains spec log effects object ∧
      ∀ thread, (phases thread).Shown (effects.current thread)

namespace Follows

variable {spec : SequentialObject Object Op Result}
variable {log : CallLog Thread Op Mark Result}
variable {object : Object}
variable {phases : Thread → Phase Result}

/-- Nothing has been called. -/
theorem empty :
    Follows spec ({} : CallLog Thread Op Mark Result) spec.start
      fun _ => .idle :=
  ⟨{}, Explains.empty, fun _ => rfl⟩

variable [DecidableEq Thread]

/-- A call is invoked. -/
theorem invoke
    (follows : Follows spec log object phases)
    {thread : Thread}
    (isIdle : phases thread = .idle)
    (op : Op) :
    Follows spec (log.invoke thread op) object
      (Function.update phases thread .pending) := by
  obtain ⟨effects, explains, shown⟩ := follows
  have isShown := shown thread
  rw [isIdle] at isShown
  refine ⟨effects.invoke thread op, explains.invoke isShown op, ?_⟩
  intro other
  by_cases same : other = thread
  · subst same
    simp [Phase.Shown]
  · simpa [same] using shown other

/-- The code notes something for itself. -/
theorem note
    (follows : Follows spec log object phases)
    (thread : Thread)
    (made : Mark) :
    Follows spec (log.mark thread made) object phases := by
  obtain ⟨effects, explains, shown⟩ := follows
  exact ⟨effects, explains.note thread made, shown⟩

/-- A call takes effect. -/
theorem effect
    (follows : Follows spec log object phases)
    {thread : Thread}
    (isPending : phases thread = .pending)
    {opened : OpenCall Op Mark}
    (isCurrent : log.current thread = some opened)
    {result : Result}
    {after : Object}
    (takes : spec.takes object opened.op result after) :
    Follows spec log after
      (Function.update phases thread (.decided result)) := by
  obtain ⟨effects, explains, shown⟩ := follows
  have isShown := shown thread
  rw [isPending] at isShown
  obtain ⟨call, op, isOpen⟩ := isShown
  obtain ⟨marks, found⟩ := explains.current_of_effects isOpen
  rw [isCurrent] at found
  cases found
  refine ⟨effects.mark thread (op, result), explains.effect isOpen takes,
    ?_⟩
  intro other
  rw [effects.mark_of_current isOpen]
  by_cases same : other = thread
  · subst same
    simp [Phase.Shown]
  · simpa [same] using shown other

/-- A call returns. -/
theorem respond
    (follows : Follows spec log object phases)
    {thread : Thread}
    {result : Result}
    (isDecided : phases thread = .decided result) :
    Follows spec (log.respond thread result) object
      (Function.update phases thread .idle) := by
  obtain ⟨effects, explains, shown⟩ := follows
  have isShown := shown thread
  rw [isDecided] at isShown
  obtain ⟨call, op, isOpen⟩ := isShown
  refine ⟨effects.respond thread result, explains.respond isOpen, ?_⟩
  intro other
  rw [effects.respond_of_current isOpen]
  by_cases same : other = thread
  · subst same
    simp [Phase.Shown]
  · simpa [same] using shown other

end Follows

end Effects

end ConcurrentQueue
