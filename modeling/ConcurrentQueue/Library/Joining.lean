import ConcurrentQueue.Library.Awareness

namespace ConcurrentQueue

/-!
# Calls that are joined before others are made

Clients may order two kinds of calls by joining: a call of the second kind is
only made when all calls of the first kind have returned, and by a thread that
knows what was known at their ends.
-/

variable {State Label Thread Location Cell Op Mark Result : Type}
variable [DecidableEq Location] [DecidableEq Cell]

/-- The thread knows all that was known at the end of every selected call. -/
def hasJoined
    (recording : Recording State Label Thread Location Op Mark Result)
    (select : Op → Bool)
    (ordered : Ordered State Thread Location Cell)
    (thread : Thread) : Bool :=
  (recording.log ordered.state).history.all fun event =>
    match event with
    | .invoke _ call op =>
        !select op ||
          (ordered.memory.ended call).all
            (ordered.memory.knows thread).contains
    | _ => true

/--
Calls of the second kind start in threads that have joined all calls of the
first kind.
-/
def joining
    (accesses : Accesses State Label Thread Location Cell)
    (recording : Recording State Label Thread Location Op Mark Result)
    (first second : Op → Bool) :
    StepGuard (Ordered State Thread Location Cell) (Move Label Thread)
  | ordered, .step label =>
      ∀ op ∈ recording.op? label,
        second op = true →
          (recording.log ordered.state).noneInProgress first = true ∧
            hasJoined recording first ordered (accesses.thread label) = true
  | _, _ => True

instance
    (accesses : Accesses State Label Thread Location Cell)
    (recording : Recording State Label Thread Location Op Mark Result)
    (first second : Op → Bool) :
    ∀ (ordered : Ordered State Thread Location Cell)
      (move : Move Label Thread),
      Decidable (joining accesses recording first second ordered move)
  | _, .step _ => inferInstanceAs (Decidable (∀ _ ∈ _, _ → _ ∧ _))
  | _, .act _ _ => .isTrue trivial
  | _, .synchronize _ _ => .isTrue trivial

/-- Calls of the second kind know how the earlier first ones ended. -/
structure JoinedBefore
    (recording : Recording State Label Thread Location Op Mark Result)
    (first second : Op → Bool)
    (ordered : Ordered State Thread Location Cell) : Prop where
  known :
    ∀ {owner owner' call call' op op'},
      .invoke owner call op ∈ (recording.log ordered.state).history →
      .invoke owner' call' op' ∈ (recording.log ordered.state).history →
      first op = true →
      second op' = true →
      call < call' →
      (∃ responder result,
        .respond responder call result ∈
          (recording.log ordered.state).history) ∧
        ordered.memory.ended call ⊆ ordered.memory.begun call'

section Joining

variable {recording : Recording State Label Thread Location Op Mark Result}
variable {ordered : Ordered State Thread Location Cell}
variable {first second select : Op → Bool} {thread : Thread}

/-- A joined call has taught the thread all it knew at its end. -/
theorem ended_subset_of_hasJoined
    (joined : hasJoined recording select ordered thread = true)
    {owner : Thread}
    {call : Nat}
    {op : Op}
    (invoked :
      .invoke owner call op ∈ (recording.log ordered.state).history)
    (selected : select op = true) :
    ordered.memory.ended call ⊆ ordered.memory.knows thread := by
  intro occurrence isEnded
  have each := List.all_eq_true.mp joined _ invoked
  simp only [selected, Bool.not_true, Bool.false_or, List.all_eq_true]
    at each
  exact List.contains_iff_mem.mp (each occurrence isEnded)

end Joining

section Calls

variable {log : CallLog Thread Op Mark Result} {select : Op → Bool}

/-- With no selected call in progress, every selected call has returned. -/
theorem CallLog.exists_respond_of_noneInProgress
    (none : log.noneInProgress select = true)
    {owner : Thread}
    {call : Nat}
    {op : Op}
    (invoked : .invoke owner call op ∈ log.history)
    (selected : select op = true) :
    ∃ responder result, .respond responder call result ∈ log.history := by
  have each := List.all_eq_true.mp none _ invoked
  simp only [selected, Bool.not_true, Bool.false_or, List.any_eq_true]
    at each
  obtain ⟨event, member, isResponse⟩ := each
  cases event with
  | respond responder other result =>
      simp only [Event.isResponseTo, beq_iff_eq] at isResponse
      subst isResponse
      exact ⟨responder, result, member⟩
  | invoke | mark =>
      simp [Event.isResponseTo] at isResponse

/-- A selected call was invoked on a selected operation. -/
theorem CallLog.exists_invoke_of_isCallOf
    {call : Nat}
    (isCall : log.isCallOf select call = true) :
    ∃ owner op,
      .invoke owner call op ∈ log.history ∧ select op = true := by
  obtain ⟨event, member, isInvocation⟩ := List.any_eq_true.mp isCall
  cases event with
  | invoke owner other op =>
      simp only [Bool.and_eq_true, beq_iff_eq] at isInvocation
      obtain ⟨rfl, selected⟩ := isInvocation
      exact ⟨owner, op, member, selected⟩
  | mark | respond =>
      simp at isInvocation

end Calls

namespace JoinedBefore

variable [DecidableEq Thread]
variable {accesses : Accesses State Label Thread Location Cell}
variable {recording : Recording State Label Thread Location Op Mark Result}
variable {state next : State} {label : Label}
variable {memory : Memory Thread Location Cell}
variable {first second : Op → Bool}

omit [DecidableEq Thread] [DecidableEq Location] [DecidableEq Cell] in
/-- No call was made yet. -/
theorem initial
    (noCalls : recording.log state = {}) :
    JoinedBefore recording first second
      (⟨state, memory⟩ : Ordered State Thread Location Cell) where
  known := by
    intro owner owner' call call' op op' invoked
    simp [noCalls] at invoked

/-- Every admitted step keeps the calls joined. -/
theorem step
    (joined :
      JoinedBefore recording first second
        (⟨state, memory⟩ : Ordered State Thread Location Cell))
    (wellFormed : (recording.log state).WellFormed)
    (admitted :
      joining accesses recording first second
        (⟨state, memory⟩ : Ordered State Thread Location Cell) (.step label))
    (records : Records accesses recording state label next) :
    JoinedBefore recording first second
      (⟨next, memory.after accesses state label⟩ :
        Ordered State Thread Location Cell) where
  known := by
    intro owner owner' call call' op op' invoked invoked' isFirst isSecond
      earlier
    have kept := records.history_subset
    rcases records.invoke_cases invoked with old | ⟨isNew, _, _⟩
    · rcases records.invoke_cases invoked' with
        old' | ⟨isNew', starts, isEffect⟩
      · have fresh : call' < (recording.log state).nextCall :=
          wellFormed.fresh _ old'
        obtain ⟨⟨responder, result, returned⟩, known⟩ :=
          joined.known old old' isFirst isSecond earlier
        simp only [records.ended_eq wellFormed returned,
          records.begun_eq fresh]
        exact ⟨⟨responder, result, kept returned⟩, known⟩
      · obtain ⟨none, hasJoined⟩ := admitted op' starts isSecond
        obtain ⟨responder, result, returned⟩ :=
          CallLog.exists_respond_of_noneInProgress none old isFirst
        simp only [records.ended_eq wellFormed returned]
        refine ⟨⟨responder, result, kept returned⟩, ?_⟩
        simpa [Memory.after, isEffect, Memory.applyAll, Memory.apply]
          using ended_subset_of_hasJoined hasJoined old isFirst
    · exfalso
      rcases records.invoke_cases invoked' with old' | ⟨isNew', _, _⟩
      · have fresh : call' < (recording.log state).nextCall :=
          wellFormed.fresh _ old'
        omega
      · omega

omit [DecidableEq Thread] [DecidableEq Location] [DecidableEq Cell] in
/-- A call in progress has joined every other call of the other kind. -/
theorem known_of_current
    (joined :
      JoinedBefore recording first second
        (⟨state, memory⟩ : Ordered State Thread Location Cell))
    (converse :
      JoinedBefore recording second first
        (⟨state, memory⟩ : Ordered State Thread Location Cell))
    (aware :
      Aware recording (⟨state, memory⟩ : Ordered State Thread Location Cell))
    (wellFormed : (recording.log state).WellFormed)
    {thread owner : Thread}
    {opened : OpenCall Op Mark}
    {call : Nat}
    {op : Op}
    (isCurrent : (recording.log state).current thread = some opened)
    (isSecond : second opened.op = true)
    (invoked : .invoke owner call op ∈ (recording.log state).history)
    (isFirst : first op = true)
    (disjoint : second op = false) :
    (∃ responder result,
      .respond responder call result ∈ (recording.log state).history) ∧
      memory.ended call ⊆ memory.knows thread := by
  have invoked' := wellFormed.currentInvoked isCurrent
  have different : call ≠ opened.call := by
    rintro rfl
    rw [← (wellFormed.invokeUnique invoked invoked').2, disjoint] at isSecond
    cases isSecond
  rcases Nat.lt_or_gt_of_ne different with earlier | later
  · obtain ⟨returned, known⟩ :=
      joined.known invoked invoked' isFirst isSecond earlier
    exact ⟨returned,
      List.Subset.trans known (aware.remembered isCurrent)⟩
  · obtain ⟨⟨responder, result, returned⟩, _⟩ :=
      converse.known invoked' invoked isSecond isFirst later
    exact absurd returned (wellFormed.currentOpen isCurrent _ _)

end JoinedBefore

end ConcurrentQueue
