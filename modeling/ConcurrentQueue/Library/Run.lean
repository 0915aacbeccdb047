import Mathlib.Data.List.Induction

namespace ConcurrentQueue

/-!
# Runs of labelled step functions

A concurrent program is modelled by a partial step function: a label names the
thread that moves and resolves every choice the step has, and the function
answers `none` where that move is not enabled.  This module is independent of
any particular program.  It defines the runs whose labels all satisfy a side
condition, and the induction rules by which invariants are carried from the
initial state to every state a run reaches.
-/

/-- A partial step function, deterministic once its label is fixed. -/
abbrev StepFunction (State Label : Type) :=
  State → Label → Option State

/-- A side condition that a run may put on each of its steps. -/
abbrev StepGuard (State Label : Type) :=
  State → Label → Prop

/-- The side condition that admits every step. -/
def unrestricted : StepGuard State Label :=
  fun _ _ => True

/-- Finite runs from `initial` whose steps all satisfy `guard`. -/
inductive Run
    (step? : StepFunction State Label)
    (guard : StepGuard State Label)
    (initial : State) :
    List Label → State → Prop where
  | start :
      Run step? guard initial [] initial
  | snoc
      {labels : List Label}
      {state next : State}
      {label : Label} :
      Run step? guard initial labels state →
      guard state label →
      step? state label = some next →
      Run step? guard initial (labels ++ [label]) next

/-- Replay labels, refusing a step that is not enabled or not admitted. -/
def replay?
    (step? : StepFunction State Label)
    (guard : StepGuard State Label)
    [∀ state label, Decidable (guard state label)] :
    State → List Label → Option State
  | state, [] =>
      some state
  | state, label :: rest =>
      if guard state label then
        match step? state label with
        | some next => replay? step? guard next rest
        | none => none
      else
        none

instance :
    ∀ (state : State) (label : Label),
      Decidable (unrestricted state label) :=
  fun _ _ => .isTrue trivial

namespace Run

variable {step? : StepFunction State Label}
variable {guard : StepGuard State Label}
variable {initial state : State}
variable {labels : List Label}

/-- Runs whose boundary states agree can be concatenated. -/
theorem append
    {middle : State}
    {later : List Label}
    (first : Run step? guard initial labels middle)
    (second : Run step? guard middle later state) :
    Run step? guard initial (labels ++ later) state := by
  induction second with
  | start =>
      simpa using first
  | snoc _ admitted taken inductionHypothesis =>
      rw [← List.append_assoc]
      exact .snoc inductionHypothesis admitted taken

/-- A run may begin with one more step. -/
theorem cons
    {next : State}
    {label : Label}
    (rest : Run step? guard next labels state)
    (admitted : guard initial label)
    (taken : step? initial label = some next) :
    Run step? guard initial (label :: labels) state :=
  (Run.start.snoc admitted taken).append rest

/-- The last step of a run. -/
theorem last
    {label : Label}
    (run : Run step? guard initial (labels ++ [label]) state) :
    ∃ middle,
      Run step? guard initial labels middle ∧
        guard middle label ∧ step? middle label = some state := by
  generalize shape : labels ++ [label] = all at run
  cases run with
  | start =>
      simp at shape
  | snoc earlier admitted taken =>
      obtain ⟨rfl, same⟩ := List.append_inj' shape rfl
      cases same
      exact ⟨_, earlier, admitted, taken⟩

/-- A run can be cut after any of its labels. -/
theorem split
    {earlier later : List Label}
    (run : Run step? guard initial (earlier ++ later) state) :
    ∃ middle,
      Run step? guard initial earlier middle ∧
        Run step? guard middle later state := by
  induction later using List.reverseRecOn generalizing state with
  | nil =>
      rw [List.append_nil] at run
      exact ⟨state, run, .start⟩
  | append_singleton rest label inductionHypothesis =>
      rw [← List.append_assoc] at run
      obtain ⟨before, shorter, admitted, taken⟩ := run.last
      obtain ⟨middle, first, second⟩ := inductionHypothesis shorter
      exact ⟨middle, first, second.snoc admitted taken⟩

/-- A run may be checked against a weaker side condition. -/
theorem mono
    {weaker : StepGuard State Label}
    (implied :
      ∀ state label, guard state label → weaker state label)
    (run : Run step? guard initial labels state) :
    Run step? weaker initial labels state := by
  induction run with
  | start =>
      exact .start
  | snoc _ admitted taken inductionHypothesis =>
      exact .snoc inductionHypothesis (implied _ _ admitted) taken

/-- Every run is a run without side condition. -/
theorem free
    (run : Run step? guard initial labels state) :
    Run step? unrestricted initial labels state :=
  run.mono fun _ _ _ => trivial

/-- What holds of every label of a run may be made a side condition. -/
theorem guarded
    {admits : Label → Prop}
    (run : Run step? guard initial labels state)
    (admitted : ∀ label ∈ labels, admits label) :
    Run step? (fun _ label => admits label) initial labels state := by
  induction run with
  | start =>
      exact .start
  | snoc earlier _ taken inductionHypothesis =>
      refine .snoc (inductionHypothesis ?_) (admitted _ (by simp)) taken
      intro label member
      exact admitted label (List.mem_append_left _ member)

/--
An invariant that holds initially and is preserved by every admitted step of a
run holds in the state the run reaches.
-/
theorem invariant
    {Holds : State → Prop}
    (base : Holds initial)
    (preserved :
      ∀ {state next label},
        Holds state →
        guard state label →
        step? state label = some next →
        Holds next)
    (run : Run step? guard initial labels state) :
    Holds state := by
  induction run with
  | start =>
      exact base
  | snoc _ admitted taken inductionHypothesis =>
      exact preserved inductionHypothesis admitted taken

/-- The same rule for a second invariant that rests on an established one. -/
theorem invariant_of
    {Known Holds : State → Prop}
    (known :
      ∀ {labels state},
        Run step? guard initial labels state → Known state)
    (base : Holds initial)
    (preserved :
      ∀ {state next label},
        Known state →
        Known next →
        Holds state →
        guard state label →
        step? state label = some next →
        Holds next)
    (run : Run step? guard initial labels state) :
    Holds state := by
  induction run with
  | start =>
      exact base
  | snoc earlier admitted taken inductionHypothesis =>
      exact preserved (known earlier)
        (known (earlier.snoc admitted taken))
        inductionHypothesis admitted taken

/-- A successful replay is a run. -/
theorem of_replay?
    [∀ state label, Decidable (guard state label)]
    (accepted : replay? step? guard initial labels = some state) :
    Run step? guard initial labels state := by
  induction labels generalizing initial with
  | nil =>
      simp only [replay?, Option.some.injEq] at accepted
      subst state
      exact .start
  | cons label rest inductionHypothesis =>
      unfold replay? at accepted
      split at accepted
      · rename_i admitted
        cases taken : step? initial label with
        | none =>
            simp [taken] at accepted
        | some next =>
            simp only [taken] at accepted
            exact (inductionHypothesis accepted).cons admitted taken
      · contradiction

end Run

end ConcurrentQueue
