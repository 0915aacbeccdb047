import ConcurrentQueue.Library.Ring
import Mathlib.Data.List.Basic

namespace ConcurrentQueue.Ring

/-!
# Delivery over a ring

A ring hands elements from a writer to a reader: element number `position` is
written to slot `position % slots` and later moved out of it.  A move out that
fails may leave anything in its slot; the position is then recorded as
spoiled.  `Delivery` relates the slots, the elements written, the elements
moved out and the spoiled positions.
-/

variable {α : Type} {slots : Nat}

/-- What the slots and the reader still have of the elements written. -/
structure Delivery
    (slots : Nat)
    (buffer : Nat → α)
    (pushed popped : List α)
    (spoiled : List Nat) : Prop where
  ordered : popped.length ≤ pushed.length
  near : pushed.length ≤ popped.length + slots
  delivered :
    ∀ {position value},
      popped[position]? = some value →
      position ∉ spoiled →
      pushed[position]? = some value
  held :
    ∀ {position value},
      popped.length ≤ position →
      pushed[position]? = some value →
      position ∉ spoiled →
      buffer (position % slots) = value
  spoiledWritten : ∀ position ∈ spoiled, position < pushed.length

namespace Delivery

variable {buffer : Nat → α} {pushed popped : List α} {spoiled : List Nat}

/-- Before the first element there is nothing to deliver. -/
theorem initial (buffer : Nat → α) : Delivery slots buffer [] [] [] where
  ordered := Nat.le_refl _
  near := Nat.zero_le _
  delivered := by
    intro position value isPopped
    simp at isPopped
  held := by
    intro position value _ isPushed
    simp at isPushed
  spoiledWritten := by
    simp

/-- Writing the next free slot keeps all elements that are still held. -/
theorem writeFree
    (delivery : Delivery slots buffer pushed popped spoiled)
    (room : pushed.length < popped.length + slots)
    (value : α) :
    Delivery slots
      (Function.update buffer (pushed.length % slots) value)
      pushed popped spoiled where
  ordered := delivery.ordered
  near := delivery.near
  delivered := delivery.delivered
  held := by
    intro position kept notPopped isPushed intact
    have isWritten : position < pushed.length :=
      (List.getElem?_eq_some_iff.mp isPushed).1
    rw [Function.update_of_ne (mod_ne_of_lt isWritten (by omega))]
    exact delivery.held notPopped isPushed intact
  spoiledWritten := delivery.spoiledWritten

/-- Writing the next element. -/
theorem push
    (delivery : Delivery slots buffer pushed popped spoiled)
    (room : pushed.length < popped.length + slots)
    (value : α) :
    Delivery slots
      (Function.update buffer (pushed.length % slots) value)
      (pushed ++ [value]) popped spoiled where
  ordered := by
    have ordered := delivery.ordered
    simp only [List.length_append, List.length_singleton]
    omega
  near := by
    simp only [List.length_append, List.length_singleton]
    omega
  delivered := by
    intro position kept isPopped intact
    have isPushed := delivery.delivered isPopped intact
    have isWritten : position < pushed.length :=
      (List.getElem?_eq_some_iff.mp isPushed).1
    rw [List.getElem?_append_left isWritten]
    exact isPushed
  held := by
    intro position kept notPopped isPushed intact
    by_cases isWritten : position < pushed.length
    · rw [List.getElem?_append_left isWritten] at isPushed
      exact (delivery.writeFree room value).held notPopped isPushed intact
    · have bound := (List.getElem?_eq_some_iff.mp isPushed).1
      simp only [List.length_append, List.length_singleton] at bound
      have isLast : position = pushed.length := by omega
      subst isLast
      simp only [List.getElem?_append_right (Nat.le_refl _), Nat.sub_self,
        List.getElem?_cons_zero, Option.some.injEq] at isPushed
      rw [Function.update_self, isPushed]
  spoiledWritten := by
    intro position isSpoiled
    have isWritten := delivery.spoiledWritten position isSpoiled
    simp only [List.length_append, List.length_singleton]
    omega

/-- Moving the next element out, whatever the move leaves behind. -/
theorem pop
    (delivery : Delivery slots buffer pushed popped spoiled)
    (nonempty : popped.length < pushed.length)
    (husk : α) :
    Delivery slots
      (Function.update buffer (popped.length % slots) husk)
      pushed (popped ++ [buffer (popped.length % slots)]) spoiled where
  ordered := by
    simp only [List.length_append, List.length_singleton]
    omega
  near := by
    have near := delivery.near
    simp only [List.length_append, List.length_singleton]
    omega
  delivered := by
    intro position value isPopped intact
    by_cases isOld : position < popped.length
    · rw [List.getElem?_append_left isOld] at isPopped
      exact delivery.delivered isPopped intact
    · have bound := (List.getElem?_eq_some_iff.mp isPopped).1
      simp only [List.length_append, List.length_singleton] at bound
      have isLast : position = popped.length := by omega
      subst isLast
      simp only [List.getElem?_append_right (Nat.le_refl _), Nat.sub_self,
        List.getElem?_cons_zero, Option.some.injEq] at isPopped
      have isPushed := List.getElem?_eq_getElem nonempty
      rw [isPushed, ← delivery.held (Nat.le_refl _) isPushed intact,
        isPopped]
  held := by
    intro position value notPopped isPushed intact
    have isWritten := (List.getElem?_eq_some_iff.mp isPushed).1
    have near := delivery.near
    simp only [List.length_append, List.length_singleton] at notPopped
    rw [Function.update_of_ne (mod_ne_of_lt notPopped (by omega)).symm]
    exact delivery.held (by omega) isPushed intact
  spoiledWritten := delivery.spoiledWritten

/-- A failed move out spoils the next element and nothing else. -/
theorem spoil
    (delivery : Delivery slots buffer pushed popped spoiled)
    (nonempty : popped.length < pushed.length)
    (husk : α) :
    Delivery slots
      (Function.update buffer (popped.length % slots) husk)
      pushed popped (spoiled ++ [popped.length]) where
  ordered := delivery.ordered
  near := delivery.near
  delivered := by
    intro position value isPopped intact
    exact delivery.delivered isPopped
      (fun isSpoiled => intact (List.mem_append_left _ isSpoiled))
  held := by
    intro position value notPopped isPushed intact
    have isWritten := (List.getElem?_eq_some_iff.mp isPushed).1
    have different : position ≠ popped.length := by
      rintro rfl
      exact intact (by simp)
    have near := delivery.near
    rw [Function.update_of_ne
      (mod_ne_of_lt (by omega) (by omega)).symm]
    exact delivery.held notPopped isPushed
      (fun isSpoiled => intact (List.mem_append_left _ isSpoiled))
  spoiledWritten := by
    intro position isSpoiled
    rcases List.mem_append.mp isSpoiled with old | isNew
    · exact delivery.spoiledWritten position old
    · rw [List.mem_singleton.mp isNew]
      exact nonempty

end Delivery

end ConcurrentQueue.Ring
