import ConcurrentQueue.Library.Run

namespace ConcurrentQueue

/-!
# The instants of a run

What a concurrent operation may be said to have seen is a state passed at some
instant between two of its steps.  The instants of a run are the states that
its prefixes reach, the first and the last state included.
-/

/-- A run from `first` with these labels passes through `state`. -/
def Passes
    (step? : StepFunction State Label)
    (guard : StepGuard State Label)
    (first : State)
    (labels : List Label)
    (state : State) : Prop :=
  ∃ earlier later,
    labels = earlier ++ later ∧ Run step? guard first earlier state

/-- The states passed by following labels for as long as they are enabled. -/
def trace (step? : StepFunction State Label) :
    State → List Label → List State
  | state, [] =>
      [state]
  | state, label :: rest =>
      state ::
        match step? state label with
        | some next => trace step? next rest
        | none => []

/--
A run from `first` with these labels takes a step that is such an `event`,
given the state before it, its label and the state after it.
-/
def Happens
    (step? : StepFunction State Label)
    (guard : StepGuard State Label)
    (first : State)
    (labels : List Label)
    (event : State → Label → State → Prop) : Prop :=
  ∃ earlier label later state next,
    labels = earlier ++ label :: later ∧
      Run step? guard first earlier state ∧
      guard state label ∧
      step? state label = some next ∧
      event state label next

/-- Every step of a run from `first` with these labels is such an `event`. -/
def EachStep
    (step? : StepFunction State Label)
    (guard : StepGuard State Label)
    (first : State)
    (labels : List Label)
    (event : State → Label → State → Prop) : Prop :=
  ∀ earlier label later state next,
    labels = earlier ++ label :: later →
    Run step? guard first earlier state →
    step? state label = some next →
    event state label next

variable {State Label : Type}
variable {step? : StepFunction State Label}
variable {guard : StepGuard State Label}
variable {first state last : State}
variable {labels : List Label}

namespace Run

/-- A run ends where any run with the same labels ends. -/
theorem deterministic
    {other : State}
    (run : Run step? guard first labels state)
    (again : Run step? guard first labels other) :
    state = other := by
  induction run generalizing other with
  | start =>
      generalize shape : ([] : List Label) = none at again
      cases again with
      | start =>
          rfl
      | snoc =>
          simp at shape
  | snoc _ _ taken inductionHypothesis =>
      obtain ⟨middle, earlier, _, takenAgain⟩ := again.last
      rw [inductionHypothesis earlier, takenAgain] at taken
      exact (Option.some.inj taken).symm

/-- The first step of a run. -/
theorem uncons
    {label : Label}
    (run : Run step? guard first (label :: labels) last) :
    ∃ middle,
      guard first label ∧ step? first label = some middle ∧
        Run step? guard middle labels last := by
  rw [← List.singleton_append] at run
  obtain ⟨middle, head, tail⟩ := run.split
  rw [← List.nil_append [label]] at head
  obtain ⟨before, nothing, admitted, taken⟩ := head.last
  rw [nothing.deterministic .start] at admitted taken
  exact ⟨middle, admitted, taken, tail⟩

/-- What follows a step of a run is a run from the state after it. -/
theorem after
    {earlier later : List Label}
    {label : Label}
    {next : State}
    (run : Run step? guard first (earlier ++ label :: later) last)
    (reaches : Run step? guard first earlier state)
    (taken : step? state label = some next) :
    guard state label ∧ Run step? guard next later last := by
  obtain ⟨middle, before, rest⟩ := run.split
  rw [← reaches.deterministic before] at rest
  obtain ⟨after, admitted, takes, rest⟩ := rest.uncons
  rw [taken] at takes
  cases takes
  exact ⟨admitted, rest⟩

/-- A run passes through the state it starts in. -/
theorem passes_first
    (_ : Run step? guard first labels last) :
    Passes step? guard first labels first :=
  ⟨[], labels, rfl, .start⟩

/-- A run passes through the state it ends in. -/
theorem passes_last
    (run : Run step? guard first labels last) :
    Passes step? guard first labels last :=
  ⟨labels, [], (List.append_nil _).symm, run⟩

end Run

namespace Passes

/-- The instants of a run are instants of every longer run. -/
theorem extend
    (passes : Passes step? guard first labels state)
    (more : List Label) :
    Passes step? guard first (labels ++ more) state := by
  obtain ⟨earlier, later, rfl, reaches⟩ := passes
  exact ⟨earlier, later ++ more, List.append_assoc _ _ _, reaches⟩

/-- What follows an instant of a run is a run from there. -/
theorem rest
    (passes : Passes step? guard first labels state)
    (run : Run step? guard first labels last) :
    ∃ later,
      (∀ label ∈ later, label ∈ labels) ∧
        Run step? guard state later last := by
  obtain ⟨earlier, later, rfl, reaches⟩ := passes
  obtain ⟨middle, before, after⟩ := run.split
  rw [reaches.deterministic before]
  exact ⟨later, fun _ member => List.mem_append_right _ member, after⟩

/-- Every instant of a run is a state of its trace. -/
theorem mem_trace
    (passes : Passes step? guard first labels state) :
    state ∈ trace step? first labels := by
  obtain ⟨earlier, later, rfl, reaches⟩ := passes
  induction earlier generalizing first with
  | nil =>
      rw [reaches.deterministic .start]
      cases later <;> simp [trace]
  | cons label rest inductionHypothesis =>
      obtain ⟨middle, _, taken, tail⟩ := reaches.uncons
      simp only [List.cons_append, trace, taken, List.mem_cons]
      exact Or.inr (inductionHypothesis tail)

end Passes

namespace Happens

variable {event : State → Label → State → Prop}

/-- Nothing happens before the first step. -/
theorem not_nil :
    ¬ Happens step? guard first [] event := by
  rintro ⟨earlier, label, later, state, next, shape, _⟩
  simp at shape

/-- What happens in a longer run happened before or in its last step. -/
theorem snoc_iff
    {label : Label}
    {next : State}
    (run : Run step? guard first labels state)
    (admitted : guard state label)
    (taken : step? state label = some next) :
    Happens step? guard first (labels ++ [label]) event ↔
      Happens step? guard first labels event ∨
        event state label next := by
  constructor
  · rintro ⟨earlier, found, later, before, after, shape, reaches, allowed,
      takes, holds⟩
    rcases List.eq_nil_or_concat later with isLast | ⟨more, last, isMore⟩
    · subst isLast
      obtain ⟨same, isLabel⟩ := List.append_inj' shape rfl
      cases isLabel
      rw [← same] at reaches
      rw [reaches.deterministic run] at takes holds
      rw [taken] at takes
      cases takes
      exact Or.inr holds
    · subst isMore
      rw [List.concat_eq_append, ← List.cons_append,
        ← List.append_assoc] at shape
      obtain ⟨same, _⟩ := List.append_inj' shape rfl
      exact Or.inl ⟨earlier, found, more, before, after, same, reaches,
        allowed, takes, holds⟩
  · rintro (⟨earlier, found, later, before, after, rfl, reaches, allowed,
      takes, holds⟩ | holds)
    · exact ⟨earlier, found, later ++ [label], before, after, by simp,
        reaches, allowed, takes, holds⟩
    · exact ⟨labels, label, [], state, next, rfl, run, admitted, taken,
        holds⟩

end Happens

namespace EachStep

variable {event : State → Label → State → Prop}

/-- What holds of every step holds of every step of a shorter run. -/
theorem front
    {more : List Label}
    (each : EachStep step? guard first (labels ++ more) event) :
    EachStep step? guard first labels event := by
  intro earlier label later before next shape reaches taken
  apply each earlier label (later ++ more) before next _ reaches taken
  simp [shape]

/-- What holds of every step holds of the last one. -/
theorem final
    {label : Label}
    {next : State}
    (each : EachStep step? guard first (labels ++ [label]) event)
    (run : Run step? guard first labels state)
    (taken : step? state label = some next) :
    event state label next :=
  each labels label [] state next rfl run taken

end EachStep

/-- A number that no step lowers is not lower at the end of a run. -/
theorem Run.monotone
    (measure : State → Nat)
    (grows :
      ∀ {state next label},
        step? state label = some next → measure state ≤ measure next)
    (run : Run step? guard first labels last) :
    measure first ≤ measure last := by
  induction run with
  | start =>
      exact Nat.le_refl _
  | snoc _ _ taken inductionHypothesis =>
      exact Nat.le_trans inductionHypothesis (grows taken)

/-- A run that takes a number beyond a bound has a step that does. -/
theorem Happens.of_crossing
    (measure : State → Nat)
    (bound : Nat)
    (run : Run step? guard first labels last)
    (below : measure first ≤ bound)
    (beyond : bound < measure last) :
    Happens step? guard first labels
      fun state _ next => measure state ≤ bound ∧ bound < measure next := by
  induction run with
  | start =>
      exact absurd beyond (Nat.not_lt_of_le below)
  | snoc earlier admitted taken inductionHypothesis =>
      rename_i labels state next label
      rw [Happens.snoc_iff earlier admitted taken]
      by_cases crossed : bound < measure state
      · left
        exact inductionHypothesis crossed
      · right
        exact ⟨Nat.le_of_not_lt crossed, beyond⟩

/-- What none of a run's steps changes is the same at its end. -/
theorem Run.keeps
    {Value : Type}
    (value : State → Value)
    (kept :
      ∀ {state next label},
        label ∈ labels →
        step? state label = some next → value next = value state)
    (run : Run step? guard first labels last) :
    value last = value first := by
  induction run with
  | start =>
      rfl
  | snoc _ _ taken inductionHypothesis =>
      rw [kept (by simp) taken]
      exact inductionHypothesis fun member =>
        kept (List.mem_append_left _ member)

/--
A window of a run: an opening step that an earlier run enables, and steps that
follow it without a closing step among them.
-/
structure Window
    (step? : StepFunction State Label)
    (guard : StepGuard State Label)
    (initial : State)
    (opening closing : Label)
    (earlier during : List Label)
    (opened last : State) : Prop where
  opens :
    ∃ before,
      Run step? guard initial earlier before ∧
        guard before opening ∧ step? before opening = some opened
  runs : Run step? guard opened during last
  unclosed : ∀ label ∈ during, label ≠ closing

namespace Window

variable {initial opened : State}
variable {opening closing : Label}
variable {earlier during : List Label}

/-- The state in which a window opens is reachable. -/
theorem reached
    (window :
      Window step? guard initial opening closing earlier during opened
        last) :
    Run step? guard initial (earlier ++ [opening]) opened := by
  obtain ⟨before, run, admitted, taken⟩ := window.opens
  exact run.snoc admitted taken

/-- The state at the end of a window is reachable. -/
theorem run
    (window :
      Window step? guard initial opening closing earlier during opened
        last) :
    Run step? guard initial (earlier ++ [opening] ++ during) last :=
  window.reached.append window.runs

/-- A window is a shorter one and one more step, or just its opening. -/
theorem step_induction
    (window :
      Window step? guard initial opening closing earlier during opened
        last)
    (Holds : List Label → State → Prop)
    (base :
      ∀ before,
        Run step? guard initial earlier before →
        guard before opening →
        step? before opening = some opened →
        Holds [] opened)
    (preserved :
      ∀ labels state label next,
        Window step? guard initial opening closing earlier labels opened
          state →
        Holds labels state →
        guard state label →
        label ≠ closing →
        step? state label = some next →
        Holds (labels ++ [label]) next) :
    Holds during last := by
  obtain ⟨opens, runs, unclosed⟩ := window
  induction runs with
  | start =>
      obtain ⟨before, run, admitted, taken⟩ := opens
      exact base before run admitted taken
  | snoc shorter admitted taken inductionHypothesis =>
      have open' :
          ∀ label ∈ _, label ≠ closing :=
        fun label member =>
          unclosed label (List.mem_append_left _ member)
      apply preserved
      · exact ⟨opens, shorter, open'⟩
      · exact inductionHypothesis open'
      · exact admitted
      · exact unclosed _ (by simp)
      · exact taken

/-- Replays before and after an opening step make a window. -/
theorem of_replay?
    [∀ state label, Decidable (guard state label)]
    {before : State}
    (reaches : replay? step? guard initial earlier = some before)
    (admitted : guard before opening)
    (taken : step? before opening = some opened)
    (follows : replay? step? guard opened during = some last)
    (unclosed : ∀ label ∈ during, label ≠ closing) :
    Window step? guard initial opening closing earlier during opened
      last where
  opens := ⟨before, Run.of_replay? reaches, admitted, taken⟩
  runs := Run.of_replay? follows
  unclosed := unclosed

end Window

end ConcurrentQueue
