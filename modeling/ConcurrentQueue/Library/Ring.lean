import ConcurrentQueue.Library.SizeT
import Mathlib.Data.List.Basic
import Mathlib.Data.Nat.ModEq

namespace ConcurrentQueue.Ring

/-!
# Positions on a ring of slots

A queue counts the elements that ever entered it; element number `position`
lives in slot `position % slots`.  `next` walks from slot to slot, and
`contents` reads the slots from a start on.
-/

variable {α : Type} {slots : Nat}

/-- The slot after one, from the last slot back to the first. -/
def next (slots index : Nat) : Nat :=
  if SizeT.add index 1 = slots then 0 else SizeT.add index 1

/-- Walking to the next slot is going to the next position. -/
theorem next_mod
    (positive : 0 < slots)
    (small : slots ≤ SizeT.halfRange)
    (position : Nat) :
    next slots (position % slots) = (position + 1) % slots := by
  have inRange := Nat.mod_lt position positive
  have exact : SizeT.add (position % slots) 1 = position % slots + 1 :=
    SizeT.add_of_lt (by rw [SizeT.modulus_eq]; omega)
  have shifted : (position % slots + 1) % slots = (position + 1) % slots :=
    Nat.mod_add_mod position slots 1
  unfold next
  rw [exact, ← shifted]
  split
  · rename_i last
    rw [last, Nat.mod_self]
  · exact (Nat.mod_eq_of_lt (by omega)).symm

/-- Distinct positions less than one lap apart have distinct slots. -/
theorem mod_ne_of_lt
    {first second : Nat}
    (ordered : first < second)
    (near : second < first + slots) :
    first % slots ≠ second % slots := by
  intro same
  have divides : slots ∣ second - first :=
    Nat.dvd_of_mod_eq_zero (Nat.sub_mod_eq_zero_of_mod_eq same.symm)
  have := Nat.le_of_dvd (by omega) divides
  omega

/-- A remainder is determined by what it adds up to, modulo the slots. -/
theorem mod_eq_of_add_mod
    {total distance : Nat}
    (position : Nat)
    (inRange : distance < slots)
    (same : (total + position) % slots = (distance + position) % slots) :
    total % slots = distance := by
  have cancelled : total ≡ distance [MOD slots] :=
    Nat.ModEq.add_right_cancel' position same
  rw [cancelled]
  exact Nat.mod_eq_of_lt inRange

/-- The items in `count` slots from position `start` on. -/
def contents
    (slots : Nat)
    (buffer : Nat → α)
    (start count : Nat) : List α :=
  (List.range count).map fun offset => buffer ((start + offset) % slots)

section Contents

variable {buffer : Nat → α} {start count : Nat}

@[simp] theorem length_contents :
    (contents slots buffer start count).length = count := by
  simp [contents]

/-- The first item and the items after it. -/
theorem contents_succ :
    contents slots buffer start (count + 1) =
      buffer (start % slots) ::
        contents slots buffer (start + 1) count := by
  have shift :
      ∀ offset, start + 1 + offset = start + (offset + 1) := by
    intro offset
    omega
  simp [contents, List.range_succ_eq_map, Function.comp_def, shift]

/-- Contents depend on the start only up to whole laps. -/
theorem contents_mod :
    contents slots buffer (start % slots) count =
      contents slots buffer start count := by
  simp [contents]

/-- Writing outside the slots read changes nothing. -/
theorem contents_update_of_ne
    {index : Nat}
    (value : α)
    (outside :
      ∀ offset < count, (start + offset) % slots ≠ index) :
    contents slots (Function.update buffer index value) start count =
      contents slots buffer start count := by
  unfold contents
  refine List.map_congr_left ?_
  intro offset member
  exact Function.update_of_ne
    (outside offset (List.mem_range.mp member)) _ _

/-- Spoiling the slot after the last item changes no item. -/
theorem contents_writeFree
    (room : count < slots)
    (value : α) :
    contents slots
        (Function.update buffer ((start + count) % slots) value)
        start count =
      contents slots buffer start count :=
  contents_update_of_ne value fun offset inside =>
    mod_ne_of_lt (by omega) (by omega)

/-- Writing the slot after the last item appends to the items. -/
theorem contents_append
    (room : count < slots)
    (value : α) :
    contents slots
        (Function.update buffer ((start + count) % slots) value)
        start (count + 1) =
      contents slots buffer start count ++ [value] := by
  have kept :
      contents slots
          (Function.update buffer ((start + count) % slots) value)
          start count =
        contents slots buffer start count :=
    contents_writeFree room value
  unfold contents at kept ⊢
  rw [List.range_succ, List.map_append, kept]
  simp

/-- Spoiling the first slot keeps the items after the first. -/
theorem contents_tail_update
    (room : count < slots)
    (value : α) :
    contents slots (Function.update buffer (start % slots) value)
        (start + 1) count =
      contents slots buffer (start + 1) count :=
  contents_update_of_ne value fun offset inside =>
    (mod_ne_of_lt (by omega) (by omega)).symm

/-- The items with one more at the end. -/
theorem contents_succ_last :
    contents slots buffer start (count + 1) =
      contents slots buffer start count ++
        [buffer ((start + count) % slots)] := by
  simp [contents, List.range_succ]

end Contents

/-- The slots after values were written from position `start` on. -/
def written (slots : Nat) (buffer : Nat → α) (start : Nat) :
    List α → Nat → α
  | [] => buffer
  | value :: rest =>
      written slots (Function.update buffer (start % slots) value)
        (start + 1) rest

section Written

variable {start : Nat}

/-- Writing some values and then more is writing all of them. -/
theorem written_append
    (buffer : Nat → α)
    (start : Nat)
    (first second : List α) :
    written slots buffer start (first ++ second) =
      written slots (written slots buffer start first)
        (start + first.length) second := by
  induction first generalizing buffer start with
  | nil =>
      rfl
  | cons value rest inductionHypothesis =>
      simp [written, inductionHypothesis, Nat.add_assoc, Nat.add_comm 1]

/-- Writing one value more. -/
theorem written_snoc
    (buffer : Nat → α)
    (values : List α)
    (value : α) :
    written slots buffer start (values ++ [value]) =
      Function.update (written slots buffer start values)
        ((start + values.length) % slots) value := by
  rw [written_append]
  rfl

/-- A slot that is not written keeps its item. -/
theorem written_of_ne
    {buffer : Nat → α}
    {values : List α}
    {index : Nat}
    (outside :
      ∀ offset < values.length, (start + offset) % slots ≠ index) :
    written slots buffer start values index = buffer index := by
  induction values generalizing buffer start with
  | nil =>
      rfl
  | cons value rest inductionHypothesis =>
      have first : start % slots ≠ index :=
        outside 0 (Nat.succ_pos _)
      rw [written, inductionHypothesis]
      · exact Function.update_of_ne first.symm _ _
      · intro offset inside
        rw [Nat.add_assoc, Nat.add_comm 1]
        exact outside (offset + 1) (Nat.succ_lt_succ inside)

/-- The slot after those written keeps its item, short of a full lap. -/
theorem written_next
    {buffer : Nat → α}
    {values : List α}
    (room : values.length < slots) :
    written slots buffer start values ((start + values.length) % slots) =
      buffer ((start + values.length) % slots) :=
  written_of_ne fun offset inside => mod_ne_of_lt (by omega) (by omega)

end Written

end ConcurrentQueue.Ring
