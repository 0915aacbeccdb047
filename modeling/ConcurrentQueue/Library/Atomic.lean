import Mathlib.Logic.Function.Basic

namespace ConcurrentQueue

/-!
# Atomic objects and their modification order

An atomic object is the list of all stores ever made to it, in modification
order, after the value it was constructed with.  Message `0` is the initial
value and message `k + 1` the `k`-th store.  A load names the message it
reads, so a stale load is a load of an earlier message; a read-modify-write
acts on the newest one.  Each store also carries ghost data about its author.
-/

/-- An atomic object with every store made to it in modification order. -/
structure Atomic (Author Value : Type) where
  initial : Value
  stores : List (Author × Value) := []
  deriving Repr, DecidableEq

namespace Atomic

variable {Author Value : Type}

/-- The number of the newest message. -/
def newest (object : Atomic Author Value) : Nat :=
  object.stores.length

/-- The value carried by one message. -/
def read? (object : Atomic Author Value) : Nat → Option Value
  | 0 => some object.initial
  | message + 1 => object.stores[message]?.map Prod.snd

/-- The author of one message; the initial value has none. -/
def author? (object : Atomic Author Value) : Nat → Option Author
  | 0 => none
  | message + 1 => object.stores[message]?.map Prod.fst

/-- The value that a read-modify-write acts on. -/
def latest (object : Atomic Author Value) : Value :=
  (object.stores.getLast?.map Prod.snd).getD object.initial

/-- Append one store to the modification order. -/
def store
    (object : Atomic Author Value)
    (author : Author)
    (value : Value) :
    Atomic Author Value :=
  { object with stores := object.stores ++ [(author, value)] }

/-- The same stores with every value converted. -/
def map
    (convert : Value → Value')
    (object : Atomic Author Value) :
    Atomic Author Value' where
  initial := convert object.initial
  stores :=
    object.stores.map fun message => (message.1, convert message.2)

variable (object : Atomic Author Value) (author : Author) (value : Value)

@[simp] theorem initial_store :
    (object.store author value).initial = object.initial := by
  rfl

@[simp] theorem newest_store :
    (object.store author value).newest = object.newest + 1 := by
  simp [store, newest]

@[simp] theorem latest_store :
    (object.store author value).latest = value := by
  simp [store, latest]

@[simp] theorem newest_mk (initial : Value) :
    (Atomic.mk initial [] : Atomic Author Value).newest = 0 := by
  rfl

/-- A store adds exactly one message, after all earlier ones. -/
theorem read?_store (message : Nat) :
    (object.store author value).read? message =
      if message = object.newest + 1 then some value
      else object.read? message := by
  cases message with
  | zero =>
      simp [read?, store]
  | succ index =>
      simp only [read?, store, newest, Nat.add_right_cancel_iff]
      by_cases isNew : index = object.stores.length
      · simp [isNew]
      · rw [if_neg isNew]
        congr 1
        by_cases isOld : index < object.stores.length
        · exact List.getElem?_append_left isOld
        · rw [List.getElem?_eq_none (by simp; omega),
            List.getElem?_eq_none (by omega)]

/-- The author of the added message is the author of the store. -/
theorem author?_store (message : Nat) :
    (object.store author value).author? message =
      if message = object.newest + 1 then some author
      else object.author? message := by
  cases message with
  | zero =>
      simp [author?]
  | succ index =>
      simp only [author?, store, newest, Nat.add_right_cancel_iff]
      by_cases isNew : index = object.stores.length
      · simp [isNew]
      · rw [if_neg isNew]
        congr 1
        by_cases isOld : index < object.stores.length
        · exact List.getElem?_append_left isOld
        · rw [List.getElem?_eq_none (by simp; omega),
            List.getElem?_eq_none (by omega)]

/-- Exactly the messages up to the newest one can be read. -/
theorem read?_isSome_iff {message : Nat} :
    (object.read? message).isSome ↔ message ≤ object.newest := by
  cases message with
  | zero =>
      simp [read?]
  | succ index =>
      have inBounds :
          index < object.stores.length ↔ index + 1 ≤ object.newest :=
        Nat.lt_iff_add_one_le
      simp [read?, inBounds]

/-- A message that was read is not newer than the newest one. -/
theorem le_newest_of_read?
    {message : Nat}
    {read : Value}
    (reads : object.read? message = some read) :
    message ≤ object.newest := by
  rw [← read?_isSome_iff]
  simp [reads]

/-- Every message up to the newest one carries some value. -/
theorem exists_read?
    {message : Nat}
    (bound : message ≤ object.newest) :
    ∃ read, object.read? message = some read :=
  Option.isSome_iff_exists.mp
    ((object.read?_isSome_iff).mpr bound)

/-- Every message that has an author is at most the newest one. -/
theorem le_newest_of_author?
    {message : Nat}
    (known : object.author? message = some author) :
    message ≤ object.newest := by
  cases message with
  | zero =>
      exact Nat.zero_le _
  | succ index =>
      have inBounds : index < object.stores.length := by
        by_contra outside
        have absent : object.stores[index]? = none :=
          List.getElem?_eq_none (by omega)
        simp [author?, absent] at known
      exact inBounds

/-- A message that is yet to be stored has no author. -/
theorem author?_newest_succ :
    object.author? (object.newest + 1) = none := by
  cases authored : object.author? (object.newest + 1) with
  | none =>
      rfl
  | some author =>
      exact absurd (object.le_newest_of_author? _ authored)
        (Nat.not_succ_le_self _)

/-- Every message after the initial one has an author. -/
theorem exists_author?
    {message : Nat}
    (bound : message + 1 ≤ object.newest) :
    ∃ writer, object.author? (message + 1) = some writer := by
  have inBounds : message < object.stores.length := bound
  exact ⟨object.stores[message].1, by
    simp [author?, List.getElem?_eq_getElem inBounds]⟩

/-- A value other than the initial one was stored by somebody. -/
theorem exists_author?_of_read?
    {message : Nat}
    {read : Value}
    (reads : object.read? message = some read)
    (changed : read ≠ object.initial) :
    ∃ writer, object.author? message = some writer := by
  cases message with
  | zero => exact (changed (Option.some.inj reads).symm).elim
  | succ earlier =>
      exact object.exists_author? (object.le_newest_of_read? reads)

/-- Reading the newest message gives the latest value. -/
theorem read?_newest :
    object.read? object.newest = some object.latest := by
  rcases object with ⟨initial, stores⟩
  rcases List.eq_nil_or_concat stores with empty | ⟨earlier, last, shape⟩
  · subst empty
    rfl
  · subst shape
    simp [read?, newest, latest]

section Map

variable (convert : Value → Value')

@[simp] theorem newest_map :
    (object.map convert).newest = object.newest := by
  simp [map, newest]

@[simp] theorem read?_map (message : Nat) :
    (object.map convert).read? message =
      (object.read? message).map convert := by
  cases message with
  | zero =>
      rfl
  | succ index =>
      simp [map, read?, Function.comp_def]

@[simp] theorem latest_map :
    (object.map convert).latest = convert object.latest := by
  rcases object with ⟨initial, stores⟩
  rcases List.eq_nil_or_concat stores with empty | ⟨earlier, last, shape⟩
  · subst empty
    rfl
  · subst shape
    simp [map, latest]

/-- Converting commutes with storing. -/
theorem map_store :
    (object.store author value).map convert =
      (object.map convert).store author (convert value) := by
  simp [map, store]

end Map

end Atomic

end ConcurrentQueue
