import ConcurrentQueue.Checksum
import ConcurrentQueue.Spsc.Drain
import ConcurrentQueue.Spsc.Exactness
import ConcurrentQueue.Spsc.Throws

namespace ConcurrentQueue.Spsc

/-!
# `SpscQueue` passes the checksum gate

The marks of a call carry the very elements that its result speaks of, and a
drained ring has handed out what was handed over.
-/

variable {α : Type}

/-- A call that spoiled an element returned by an exception. -/
theorem Answers.spoils_eq_false
    {op : Op α}
    {marks : List (Handover α)}
    {result : Result α}
    (answers : Answers op marks result)
    (returned : ∀ out, result ≠ .popThrew out)
    {made : Handover α}
    (member : made ∈ marks) :
    transfers.spoils made = false := by
  cases made with
  | pushed | popped => rfl
  | spoiled =>
      exfalso
      cases result with
      | popThrew out => exact returned out rfl
      | pushed accepted =>
          cases accepted with
          | true =>
              obtain ⟨value, _, rfl⟩ := answers
              simp at member
          | false => simp [answers.2] at member
      | popped isDelivered out =>
          cases isDelivered <;> simp [answers.2] at member
      | pushedN count items =>
          obtain ⟨originals, _, _, _, _, rfl⟩ := answers
          by_cases none : count = 0 <;> simp [marksOf, none] at member
      | poppedN count out =>
          obtain ⟨before, _, _, _, _, rfl⟩ := answers
          by_cases none : count = 0 <;> simp [marksOf, none] at member
      | pushThrew | done | closed | size | capacity =>
          simp [answers.2] at member

/-- At rest no element is spoiled if no pop threw. -/
theorem Tracked.spoiled_eq_nil
    {state : State α}
    (tracked : Tracked state)
    (quiescent : state.log.Quiescent)
    (unharmed : noPopThrew state.log = true) :
    state.spoiled = [] := by
  unfold State.spoiled
  apply Transfers.spoiledFrom_eq_nil
  intro made member
  obtain ⟨call, op, marks, result, completed, isOwn⟩ :=
    tracked.wellFormed.owned_of_quiescent quiescent member
  apply (tracked.answered completed).spoils_eq_false
  · exact ne_popThrew_of_completed unharmed completed
  · exact isOwn

end ConcurrentQueue.Spsc
