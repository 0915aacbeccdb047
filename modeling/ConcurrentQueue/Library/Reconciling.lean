import ConcurrentQueue.Library.History
import Mathlib.Data.List.Perm.Basic

namespace ConcurrentQueue

/-!
# What all calls of a finished history did together

Once no call is in progress, the marks of a history are those of its calls,
whatever the order in which the calls made them.  A quantity that each call can
read off its operation and result is then accounted for by the marks.
-/

variable {Thread Op Mark Result Value : Type}

/-- The call that an event invokes. -/
def Event.invokedCall? : Event Thread Op Mark Result → Option Nat
  | .invoke _ call _ => some call
  | _ => none

/-- The result that an event gives to one call. -/
def Event.resultOf? (call : Nat) : Event Thread Op Mark Result → Option Result
  | .respond _ owner result => if owner = call then some result else none
  | _ => none

namespace CallLog

/-- The calls of a history in the order of their invocations. -/
def calls (log : CallLog Thread Op Mark Result) : List Nat :=
  log.history.filterMap Event.invokedCall?

/-- The result that a call has returned. -/
def resultOf? (log : CallLog Thread Op Mark Result) (call : Nat) :
    Option Result :=
  (log.history.filterMap (Event.resultOf? call)).head?

/-- The operation and result of an invocation that has been answered. -/
def completed? (log : CallLog Thread Op Mark Result) :
    Event Thread Op Mark Result → Option (Op × Result)
  | .invoke _ call op => (log.resultOf? call).map fun result => (op, result)
  | _ => none

/-- The calls that have returned, each with its operation and its result. -/
def completedCalls (log : CallLog Thread Op Mark Result) :
    List (Op × Result) :=
  log.history.filterMap log.completed?

/-- One quantity of all calls that have returned. -/
def tallied
    (log : CallLog Thread Op Mark Result)
    (valuesOf : Op → Result → List Value) :
    List Value :=
  log.completedCalls.flatMap fun entry => valuesOf entry.1 entry.2

end CallLog

section Marks

variable {events : List (Event Thread Op Mark Result)}

/-- A mark is put on exactly one of the calls. -/
theorem flatMap_markOf?_mark
    {calls : List Nat}
    (distinct : calls.Nodup)
    {owner : Nat}
    (isCall : owner ∈ calls)
    (made : Mark) :
    (calls.flatMap fun call =>
        [(.mark owner made : Event Thread Op Mark Result)].filterMap
          (Event.markOf? call)) = [made] := by
  induction calls with
  | nil =>
      simp at isCall
  | cons first rest inductionHypothesis =>
      obtain ⟨notLater, distinctRest⟩ := List.nodup_cons.mp distinct
      rw [List.flatMap_cons]
      rcases List.mem_cons.mp isCall with rfl | later
      · have others :
            (rest.flatMap fun call =>
              [(.mark owner made : Event Thread Op Mark Result)].filterMap
                (Event.markOf? call)) = [] := by
          apply List.flatMap_eq_nil_iff.mpr
          intro call member
          have different : owner ≠ call := by
            rintro rfl
            exact notLater member
          simp [Event.markOf?, different]
        rw [others]
        simp [Event.markOf?]
      · have different : owner ≠ first := by
          rintro rfl
          exact notLater later
        rw [inductionHypothesis distinctRest later]
        simp [Event.markOf?, different]

/-- The marks in order are the marks of the calls, call by call. -/
theorem perm_flatMap_markOf?
    {calls : List Nat}
    (distinct : calls.Nodup)
    (covered :
      ∀ {owner made}, .mark owner made ∈ events → owner ∈ calls) :
    (events.filterMap Event.mark?).Perm
      (calls.flatMap fun call => events.filterMap (Event.markOf? call)) := by
  induction events with
  | nil =>
      simp
  | cons event rest inductionHypothesis =>
      have later :=
        inductionHypothesis fun member =>
          covered (List.mem_cons_of_mem _ member)
      have split :
          ∀ call,
            (event :: rest).filterMap (Event.markOf? call) =
              [event].filterMap (Event.markOf? call) ++
                rest.filterMap (Event.markOf? call) := by
        intro call
        rw [← List.filterMap_append, List.singleton_append]
      have first :
          [event].filterMap Event.mark? =
            calls.flatMap fun call =>
              [event].filterMap (Event.markOf? call) := by
        cases event with
        | mark owner made =>
            rw [flatMap_markOf?_mark distinct
              (covered List.mem_cons_self) made]
            rfl
        | invoke | respond =>
            symm
            apply List.flatMap_eq_nil_iff.mpr
            intro call _
            rfl
      rw [← List.singleton_append, List.filterMap_append, first]
      simp only [List.singleton_append, split]
      exact (later.append_left _).trans (List.flatMap_append_perm _ _ _)

end Marks

namespace CallLog.WellFormed

variable {log : CallLog Thread Op Mark Result}

/-- No call is invoked twice. -/
theorem nodup_calls (wellFormed : log.WellFormed) : log.calls.Nodup := by
  apply List.pairwise_filterMap.mpr
  apply List.pairwise_iff_forall_sublist.mpr
  intro event invocation before call isCall call' isCall'
  cases invocation with
  | mark | respond => cases isCall'
  | invoke thread other op =>
      cases isCall'
      have earlier := wellFormed.invokeFresh before
      cases event with
      | mark | respond => cases isCall
      | invoke =>
          cases isCall
          exact Nat.ne_of_lt earlier

/-- A call that has returned has the result it returned. -/
theorem resultOf?_eq
    (wellFormed : log.WellFormed)
    {thread : Thread}
    {call : Nat}
    {result : Result}
    (returned : .respond thread call result ∈ log.history) :
    log.resultOf? call = some result := by
  have only :
      ∀ other ∈ log.history.filterMap (Event.resultOf? call),
        other = result := by
    intro other member
    obtain ⟨event, isEvent, isResult⟩ := List.mem_filterMap.mp member
    cases event with
    | invoke | mark => cases isResult
    | respond owner answered found =>
        simp only [Event.resultOf?, Option.ite_none_right_eq_some,
          Option.some.injEq] at isResult
        obtain ⟨rfl, rfl⟩ := isResult
        exact (wellFormed.respondUnique isEvent returned).2
  have member : result ∈ log.history.filterMap (Event.resultOf? call) :=
    List.mem_filterMap.mpr ⟨_, returned, by simp [Event.resultOf?]⟩
  unfold resultOf?
  cases shape : log.history.filterMap (Event.resultOf? call) with
  | nil =>
      rw [shape] at member
      cases member
  | cons first rest =>
      rw [shape] at only
      rw [List.head?_cons, only first List.mem_cons_self]

/-- When no call is in progress, every invoked call has completed. -/
theorem completed_of_quiescent
    (wellFormed : log.WellFormed)
    (quiescent : log.Quiescent)
    {thread : Thread}
    {call : Nat}
    {op : Op}
    (invoked : .invoke thread call op ∈ log.history) :
    ∃ result,
      log.Completed call op (log.marksOf call) result ∧
        log.resultOf? call = some result := by
  rcases wellFormed.invokedIsOpenOrReturned invoked with
    ⟨opened, isCurrent, _⟩ | ⟨result, returned⟩
  · rw [quiescent thread] at isCurrent
    cases isCurrent
  · exact ⟨result, ⟨thread, invoked, returned, rfl⟩,
      wellFormed.resultOf?_eq returned⟩

/-- When no call is in progress, every mark belongs to a completed call. -/
theorem owned_of_quiescent
    (wellFormed : log.WellFormed)
    (quiescent : log.Quiescent)
    {made : Mark}
    (member : made ∈ log.marks) :
    ∃ call op marks result,
      log.Completed call op marks result ∧ made ∈ marks := by
  obtain ⟨event, isEvent, isMark⟩ := List.mem_filterMap.mp member
  cases event with
  | invoke | respond => cases isMark
  | mark call found =>
      cases isMark
      have notOpen :
          ∀ {thread opened},
            log.current thread = some opened → opened.call ≠ call := by
        intro thread opened isCurrent
        rw [quiescent thread] at isCurrent
        cases isCurrent
      exact ⟨call, wellFormed.completed_of_mark notOpen isEvent⟩

/-- What the calls say call by call is what their marks say. -/
theorem flatMap_calls
    (wellFormed : log.WellFormed)
    (quiescent : log.Quiescent)
    {values : Mark → List Value}
    {valuesOf : Op → Result → List Value}
    (agrees :
      ∀ {call op marks result},
        log.Completed call op marks result →
        marks.flatMap values = valuesOf op result) :
    (log.calls.flatMap fun call => (log.marksOf call).flatMap values) =
      log.tallied valuesOf := by
  have onlyEvents :
      ∀ events : List (Event Thread Op Mark Result),
        events ⊆ log.history →
        ((events.filterMap Event.invokedCall?).flatMap fun call =>
            (log.marksOf call).flatMap values) =
          (events.filterMap log.completed?).flatMap fun entry =>
            valuesOf entry.1 entry.2 := by
    intro events kept
    induction events with
    | nil =>
        rfl
    | cons event rest inductionHypothesis =>
        obtain ⟨isEvent, keptRest⟩ := List.cons_subset.mp kept
        have later := inductionHypothesis keptRest
        cases event with
        | mark | respond => exact later
        | invoke thread call op =>
            obtain ⟨result, completed, isResult⟩ :=
              wellFormed.completed_of_quiescent quiescent isEvent
            simp [Event.invokedCall?, completed?, isResult, later,
              agrees completed]
  exact onlyEvents log.history (List.Subset.refl _)

/--
When no call is in progress, the marks of the history account for what its
calls did, up to the order.
-/
theorem tallied_perm
    (wellFormed : log.WellFormed)
    (quiescent : log.Quiescent)
    {values : Mark → List Value}
    {valuesOf : Op → Result → List Value}
    (agrees :
      ∀ {call op marks result},
        log.Completed call op marks result →
        marks.flatMap values = valuesOf op result) :
    (log.marks.flatMap values).Perm (log.tallied valuesOf) := by
  have covered :
      ∀ {owner made},
        .mark owner made ∈ log.history → owner ∈ log.calls := by
    intro owner made marked
    obtain ⟨thread, op, before⟩ := wellFormed.markInvoked marked
    exact List.mem_filterMap.mpr ⟨_, before.first_mem, rfl⟩
  have byCall :=
    perm_flatMap_markOf? wellFormed.nodup_calls covered
  rw [← wellFormed.flatMap_calls quiescent agrees]
  have spread := byCall.flatMap_right values
  rwa [List.flatMap_assoc] at spread

end CallLog.WellFormed

end ConcurrentQueue
