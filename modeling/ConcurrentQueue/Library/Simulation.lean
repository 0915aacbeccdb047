import ConcurrentQueue.Library.Run

namespace ConcurrentQueue

/-!
# Forward simulations with stuttering

One step function simulates another along a view of its states when every
admitted step is seen as an admitted step of the other one or as no change.
Whole runs are then seen as runs.
-/

variable {State Label Seen SeenLabel : Type}

/-- Every admitted step from a known state is seen as a step or as nothing. -/
def Simulates
    (step? : StepFunction State Label)
    (guard : StepGuard State Label)
    (Known : State → Prop)
    (view : State → Seen)
    (seenStep? : StepFunction Seen SeenLabel)
    (seenGuard : StepGuard Seen SeenLabel) : Prop :=
  ∀ state next label,
    Known state →
    guard state label →
    step? state label = some next →
    view next = view state ∨
      ∃ seen,
        seenGuard (view state) seen ∧
          seenStep? (view state) seen = some (view next)

/-- A run through known states is seen as a run. -/
theorem Simulates.run
    {step? : StepFunction State Label}
    {guard : StepGuard State Label}
    {Known : State → Prop}
    {view : State → Seen}
    {seenStep? : StepFunction Seen SeenLabel}
    {seenGuard : StepGuard Seen SeenLabel}
    {initial state : State}
    {labels : List Label}
    (simulates :
      Simulates step? guard Known view seenStep? seenGuard)
    (known :
      ∀ {labels state},
        Run step? guard initial labels state → Known state)
    (run : Run step? guard initial labels state) :
    ∃ seenLabels,
      Run seenStep? seenGuard (view initial) seenLabels (view state) := by
  induction run with
  | start =>
      exact ⟨[], .start⟩
  | snoc earlier admitted taken inductionHypothesis =>
      obtain ⟨seenLabels, seenRun⟩ := inductionHypothesis
      rcases simulates _ _ _ (known earlier) admitted taken with
        same | ⟨seen, seenAdmitted, seenTaken⟩
      · rw [same]
        exact ⟨seenLabels, seenRun⟩
      · exact ⟨seenLabels ++ [seen],
          seenRun.snoc seenAdmitted seenTaken⟩

end ConcurrentQueue
