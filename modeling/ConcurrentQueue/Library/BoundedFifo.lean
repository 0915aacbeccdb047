import Mathlib.Logic.Function.Basic

namespace ConcurrentQueue

/-!
# Bounded FIFO lists with a one-way closed flag

The abstract object behind every bounded queue: the queued elements, oldest
first, never more than `capacity` of them, and a flag that is only ever set.
-/

/-- At most `capacity` queued elements, oldest first, and the closed flag. -/
@[ext]
structure BoundedFifo (capacity : Nat) (α : Type) where
  items : List α
  closed : Bool
  bounded : items.length ≤ capacity
  deriving DecidableEq

namespace BoundedFifo

variable {capacity : Nat} {α : Type}

/-- The open, empty queue. -/
def empty : BoundedFifo capacity α where
  items := []
  closed := false
  bounded := Nat.zero_le _

/-- Append an element, if the queue is open and has room for it. -/
def append?
    (fifo : BoundedFifo capacity α)
    (value : α) :
    Option (BoundedFifo capacity α) :=
  if room : fifo.closed = false ∧ fifo.items.length < capacity then
    some {
      items := fifo.items ++ [value]
      closed := fifo.closed
      bounded := by
        have fits := room.2
        simp only [List.length_append, List.length_singleton]
        omega }
  else
    none

/-- Remove the oldest element, if there is one. -/
def removeFront?
    (fifo : BoundedFifo capacity α) :
    Option (α × BoundedFifo capacity α) :=
  match shape : fifo.items with
  | [] => none
  | front :: rest =>
      some (front, {
        items := rest
        closed := fifo.closed
        bounded := by
          have bound := fifo.bounded
          rw [shape, List.length_cons] at bound
          exact Nat.le_of_succ_le bound })

/-- Put another element in the place of the oldest one, if there is one. -/
def replaceFront?
    (fifo : BoundedFifo capacity α)
    (value : α) :
    Option (BoundedFifo capacity α) :=
  match shape : fifo.items with
  | [] => none
  | front :: rest =>
      some {
        items := value :: rest
        closed := fifo.closed
        bounded := by
          have bound := fifo.bounded
          rw [shape] at bound
          exact bound }

/-- Set the closed flag. -/
def close (fifo : BoundedFifo capacity α) : BoundedFifo capacity α :=
  { fifo with closed := true }

/-- Appending fails exactly when the queue is closed or full. -/
theorem append?_eq_none_iff
    {fifo : BoundedFifo capacity α}
    {value : α} :
    fifo.append? value = none ↔
      fifo.closed = true ∨ fifo.items.length = capacity := by
  have bound := fifo.bounded
  unfold append?
  split
  · rename_i room
    simp only [reduceCtorEq, room.1, Bool.false_eq_true, false_or,
      false_iff]
    omega
  · rename_i noRoom
    simp only [true_iff]
    by_cases isClosed : fifo.closed = true
    · exact Or.inl isClosed
    · right
      by_contra notFull
      exact noRoom ⟨by simpa using isClosed, by omega⟩

/-- What a successful append does. -/
theorem append?_eq_some_iff
    {fifo next : BoundedFifo capacity α}
    {value : α} :
    fifo.append? value = some next ↔
      fifo.closed = false ∧ fifo.items.length < capacity ∧
        next.items = fifo.items ++ [value] ∧ next.closed = fifo.closed := by
  unfold append?
  split
  · rename_i room
    simp only [Option.some.injEq, room.1, room.2, true_and]
    constructor
    · rintro rfl
      exact ⟨rfl, rfl⟩
    · rintro ⟨items, closed⟩
      exact BoundedFifo.ext items.symm closed.symm
  · rename_i noRoom
    simp only [reduceCtorEq, false_iff]
    rintro ⟨isOpen, fits, _⟩
    exact noRoom ⟨isOpen, fits⟩

/-- Removal fails exactly when the queue is empty. -/
theorem removeFront?_eq_none_iff
    {fifo : BoundedFifo capacity α} :
    fifo.removeFront? = none ↔ fifo.items = [] := by
  unfold removeFront?
  split <;> simp_all

/-- What a successful removal does. -/
theorem removeFront?_eq_some_iff
    {fifo next : BoundedFifo capacity α}
    {front : α} :
    fifo.removeFront? = some (front, next) ↔
      fifo.items = front :: next.items ∧ next.closed = fifo.closed := by
  unfold removeFront?
  split
  · rename_i isEmpty
    simp [isEmpty]
  · rename_i head rest shape
    simp only [Option.some.injEq, Prod.mk.injEq, shape, List.cons.injEq]
    constructor
    · rintro ⟨rfl, rfl⟩
      exact ⟨⟨rfl, rfl⟩, rfl⟩
    · rintro ⟨⟨rfl, items⟩, closed⟩
      exact ⟨rfl, BoundedFifo.ext items closed.symm⟩

/-- What a successful replacement does. -/
theorem replaceFront?_eq_some_iff
    {fifo next : BoundedFifo capacity α}
    {value : α} :
    fifo.replaceFront? value = some next ↔
      ∃ front rest,
        fifo.items = front :: rest ∧ next.items = value :: rest ∧
          next.closed = fifo.closed := by
  unfold replaceFront?
  split
  · rename_i isEmpty
    simp [isEmpty]
  · rename_i front rest shape
    simp only [Option.some.injEq, shape, List.cons.injEq]
    constructor
    · rintro rfl
      exact ⟨front, rest, ⟨rfl, rfl⟩, rfl, rfl⟩
    · rintro ⟨_, _, ⟨rfl, rfl⟩, items, closed⟩
      exact BoundedFifo.ext items.symm closed.symm

end BoundedFifo

end ConcurrentQueue
