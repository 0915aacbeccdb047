import ConcurrentQueue.Library.BoundedFifo
import ConcurrentQueue.Library.Run

namespace ConcurrentQueue

/-!
# Appends and removals of a bounded FIFO list

The two effects a call can have on the content of a queue, and the sequences
of them that an open, empty list of bounded length admits.
-/

/-- One value put into a queue or taken out of it. -/
inductive Transfer (α : Type) where
  | appended (value : α)
  | removed (value : α)
  deriving Repr, DecidableEq

namespace Transfer

variable {capacity : Nat} {α : Type}

/-- The value put in, if one was. -/
def appended? : Transfer α → Option α
  | .appended value => some value
  | .removed _ => none

/-- The value taken out, if one was. -/
def removed? : Transfer α → Option α
  | .appended _ => none
  | .removed value => some value

/-- The list after a transfer, if there was room, or anything to remove. -/
def after? (fifo : BoundedFifo capacity α) :
    Transfer α → Option (BoundedFifo capacity α)
  | .appended value => fifo.append? value
  | .removed _ => fifo.removeFront?.map Prod.snd

/-- Only the oldest element is ever removed. -/
def Explained (fifo : BoundedFifo capacity α) : Transfer α → Prop
  | .appended _ => True
  | .removed value => fifo.removeFront?.map Prod.fst = some value

end Transfer

/-- A sequence of transfers that takes the open, empty list to `fifo`. -/
abbrev Admitted
    {capacity : Nat}
    {α : Type}
    (transfers : List (Transfer α)) :
    BoundedFifo capacity α → Prop :=
  Run (Transfer.after? : BoundedFifo capacity α → Transfer α → _)
    Transfer.Explained BoundedFifo.empty transfers

namespace Admitted

variable {capacity : Nat} {α : Type}
variable {transfers : List (Transfer α)} {fifo : BoundedFifo capacity α}

/-- No transfer closes the list. -/
theorem isOpen (admitted : Admitted transfers fifo) :
    fifo.closed = false := by
  induction admitted with
  | start =>
      rfl
  | @snoc _ before after made _ _ applied inductionHypothesis =>
      cases made with
      | appended value =>
          obtain ⟨_, _, _, same⟩ := BoundedFifo.append?_eq_some_iff.mp applied
          rw [same, inductionHypothesis]
      | removed value =>
          simp only [Transfer.after?, Option.map_eq_some_iff] at applied
          obtain ⟨⟨front, rest⟩, removes, rfl⟩ := applied
          obtain ⟨_, same⟩ := BoundedFifo.removeFront?_eq_some_iff.mp removes
          rw [same, inductionHypothesis]

/-- While there is room, one more append is admitted. -/
theorem append
    (admitted : Admitted transfers fifo)
    (room : fifo.items.length < capacity)
    (value : α) :
    ∃ after : BoundedFifo capacity α,
      Admitted (transfers ++ [.appended value]) after ∧
        after.items = fifo.items ++ [value] := by
  cases appends : fifo.append? value with
  | none =>
      exfalso
      rcases BoundedFifo.append?_eq_none_iff.mp appends with isClosed | isFull
      · rw [admitted.isOpen] at isClosed
        cases isClosed
      · omega
  | some after =>
      obtain ⟨_, _, grown, _⟩ := BoundedFifo.append?_eq_some_iff.mp appends
      exact ⟨after, admitted.snoc trivial appends, grown⟩

/-- The oldest element may be removed. -/
theorem remove
    (admitted : Admitted transfers fifo)
    {front : α}
    {rest : List α}
    (shape : fifo.items = front :: rest) :
    ∃ after : BoundedFifo capacity α,
      Admitted (transfers ++ [.removed front]) after ∧
        after.items = rest := by
  cases removes : fifo.removeFront? with
  | none =>
      rw [BoundedFifo.removeFront?_eq_none_iff.mp removes] at shape
      cases shape
  | some removed =>
      obtain ⟨oldest, after⟩ := removed
      obtain ⟨same, _⟩ := BoundedFifo.removeFront?_eq_some_iff.mp removes
      rw [shape] at same
      obtain ⟨rfl, sameRest⟩ := List.cons.inj same
      refine ⟨after, admitted.snoc ?_ ?_, sameRest.symm⟩
      · simp [Transfer.Explained, removes]
      · simp [Transfer.after?, removes]

end Admitted

end ConcurrentQueue
