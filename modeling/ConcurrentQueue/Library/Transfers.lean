import ConcurrentQueue.Library.History

namespace ConcurrentQueue

/-!
# Transfers through a shared object

Some marks of a history hand values in, some hand values out, and some spoil
the value that is to be handed out next.  The position of a value is the
number of values handed in, or out, before it.
-/

/-- What the marks of an object do to the values that pass through it. -/
structure Transfers (Mark Value : Type) where
  given : Mark → List Value
  taken : Mark → List Value
  spoils : Mark → Bool

/-- The values of a history, each with the call that made the mark. -/
def tagged
    {Thread Op Mark Result Value : Type}
    (values : Mark → List Value)
    (history : List (Event Thread Op Mark Result)) :
    List (Nat × Value) :=
  history.flatMap fun
    | .mark call made => (values made).map fun value => (call, value)
    | _ => []

namespace Transfers

variable {Mark Value : Type}

/-- The positions spoiled, where `taken` values were handed out before. -/
def spoiledFrom
    (transfers : Transfers Mark Value)
    (taken : Nat) :
    List Mark → List Nat
  | [] => []
  | made :: rest =>
      let later :=
        spoiledFrom transfers (taken + (transfers.taken made).length) rest
      if transfers.spoils made then taken :: later else later

variable {transfers : Transfers Mark Value}

/-- One more mark spoils at most the position that is handed out next. -/
theorem spoiledFrom_append
    (taken : Nat)
    (marks : List Mark)
    (made : Mark) :
    transfers.spoiledFrom taken (marks ++ [made]) =
      transfers.spoiledFrom taken marks ++
        transfers.spoiledFrom
          (taken + (marks.flatMap transfers.taken).length) [made] := by
  induction marks generalizing taken with
  | nil =>
      rfl
  | cons first rest inductionHypothesis =>
      simp only [List.cons_append, spoiledFrom, inductionHypothesis,
        List.flatMap_cons, List.length_append, Nat.add_assoc]
      split <;> rfl

/-- Marks that spoil nothing leave no position spoiled. -/
theorem spoiledFrom_eq_nil
    {marks : List Mark}
    (harmless : ∀ made ∈ marks, transfers.spoils made = false)
    (taken : Nat) :
    transfers.spoiledFrom taken marks = [] := by
  induction marks generalizing taken with
  | nil =>
      rfl
  | cons first rest inductionHypothesis =>
      have isHarmless := harmless first List.mem_cons_self
      simp only [spoiledFrom, isHarmless, Bool.false_eq_true, if_false]
      apply inductionHypothesis
      intro made member
      exact harmless made (List.mem_cons_of_mem first member)

end Transfers

section Tagged

variable {Thread Op Mark Result Value : Type}
variable {values : Mark → List Value}

/-- Without their calls the values are those of the marks. -/
theorem map_snd_tagged
    (history : List (Event Thread Op Mark Result)) :
    (tagged values history).map Prod.snd =
      (history.filterMap Event.mark?).flatMap values := by
  induction history with
  | nil =>
      rfl
  | cons event rest inductionHypothesis =>
      unfold tagged at inductionHypothesis ⊢
      cases event <;>
        simp [List.filterMap_cons, Event.mark?, inductionHypothesis,
          Function.comp_def]

/-- The values that one call handed over are those of its marks. -/
theorem filter_tagged
    (history : List (Event Thread Op Mark Result))
    (call : Nat) :
    (tagged values history).filter (fun entry => entry.1 == call) =
      ((history.filterMap (Event.markOf? call)).flatMap values).map
        fun value => (call, value) := by
  induction history with
  | nil =>
      rfl
  | cons event rest inductionHypothesis =>
      unfold tagged at inductionHypothesis ⊢
      rw [List.flatMap_cons, List.filter_append, inductionHypothesis]
      cases event with
      | invoke | respond =>
          simp [List.filterMap_cons, Event.markOf?]
      | mark owner made =>
          by_cases same : owner = call
          · subst same
            have all :
                ((values made).map fun value => (owner, value)).filter
                    (fun entry => entry.1 == owner) =
                  (values made).map fun value => (owner, value) := by
              simp [List.filter_eq_self]
            simp [Event.markOf?, all]
          · have none :
                ((values made).map fun value => (owner, value)).filter
                    (fun entry => entry.1 == call) = [] := by
              simp [List.filter_eq_nil_iff, same]
            simp [Event.markOf?, same, none]

/-- A value with its call, looked up without the call. -/
theorem getElem?_tagged
    {history : List (Event Thread Op Mark Result)}
    {position : Nat}
    {value : Value} :
    ((history.filterMap Event.mark?).flatMap values)[position]? =
        some value ↔
      ∃ call, (tagged values history)[position]? = some (call, value) := by
  rw [← map_snd_tagged, List.getElem?_map, Option.map_eq_some_iff]
  constructor
  · rintro ⟨⟨call, found⟩, isFound, rfl⟩
    exact ⟨call, isFound⟩
  · rintro ⟨call, isFound⟩
    exact ⟨_, isFound, rfl⟩

end Tagged

end ConcurrentQueue
