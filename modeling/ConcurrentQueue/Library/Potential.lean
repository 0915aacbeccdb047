import ConcurrentQueue.Library.Instants
import Mathlib.Algebra.Order.BigOperators.Group.List
import Mathlib.Algebra.Order.Ring.Nat

namespace ConcurrentQueue

/-!
# Runs paid for by a potential

If every counted step of a run spends a unit of a potential that only a budget
can refill, the counted steps are bounded by the potential at the start and
what the budget has grown by since.  Where the potential is refilled by single
steps, the bound charges a price for each of them.  The potential of a pool of
threads is the sum of the weights of its program counters.
-/

section Paying

variable {State Label : Type}
variable {step? : StepFunction State Label}
variable {guard : StepGuard State Label}
variable {initial state : State}
variable {labels : List Label}

/-- A step is paid for by the potential and by the growth of the budget. -/
def Pays
    (counted : Label → Bool)
    (potential budget : State → Nat)
    (state : State)
    (label : Label)
    (next : State) : Prop :=
  (counted label).toNat + potential next + budget state ≤
    potential state + budget next

/-- A run whose steps are paid for has only so many counted steps. -/
theorem Run.countP_add_le
    {Known : State → Prop}
    (counted : Label → Bool)
    (potential budget : State → Nat)
    (start : Known initial)
    (kept :
      ∀ {state next label},
        Known state →
        guard state label →
        step? state label = some next →
        Known next)
    (pays :
      ∀ {state next label},
        Known state →
        guard state label →
        step? state label = some next →
        Pays counted potential budget state label next)
    (run : Run step? guard initial labels state) :
    Known state ∧
      labels.countP counted + potential state + budget initial ≤
        potential initial + budget state := by
  induction run with
  | start =>
      exact ⟨start, by simp⟩
  | @snoc labels state next label earlier admitted taken inductionHypothesis =>
      obtain ⟨known, paid⟩ := inductionHypothesis
      refine ⟨kept known admitted taken, ?_⟩
      have last := pays known admitted taken
      unfold Pays at last
      rw [List.countP_append, List.countP_singleton]
      cases isCounted : counted label <;>
        simp only [isCounted, Bool.toNat_true, Bool.toNat_false, if_true,
          Bool.false_eq_true, if_false] at last ⊢ <;>
        omega

end Paying

section Charging

variable {State Label : Type}
variable {step? : StepFunction State Label}
variable {guard : StepGuard State Label}
variable {initial middle state : State}
variable {labels : List Label}

/-- How many of the steps that these labels take are charged for. -/
def charges
    (step? : StepFunction State Label)
    (charged : State → Label → Bool) :
    State → List Label → Nat
  | _, [] => 0
  | state, label :: rest =>
      (charged state label).toNat +
        match step? state label with
        | some next => charges step? charged next rest
        | none => 0

/-- What follows a run is charged for from the state it reaches. -/
theorem Run.charges_append
    (charged : State → Label → Bool)
    (later : List Label)
    (run : Run step? guard initial labels middle) :
    charges step? charged initial (labels ++ later) =
      charges step? charged initial labels +
        charges step? charged middle later := by
  induction labels generalizing initial with
  | nil =>
      rw [run.deterministic .start]
      simp [charges]
  | cons label rest inductionHypothesis =>
      obtain ⟨next, _, taken, tail⟩ := run.uncons
      simp only [List.cons_append, charges, taken]
      rw [inductionHypothesis tail]
      omega

/-- Each counted step spends a unit, and each charged one may add a price. -/
theorem Window.countP_le_charges
    {opening closing : Label}
    {earlier during : List Label}
    {opened last : State}
    (counted : Label → Bool)
    (potential : State → Nat)
    (charged : State → Label → Bool)
    (price : Nat)
    (pays :
      ∀ {labels state label next},
        Window step? guard initial opening closing earlier labels opened
          state →
        guard state label →
        label ≠ closing →
        step? state label = some next →
        (counted label).toNat + potential next ≤
          potential state + price * (charged state label).toNat)
    (window :
      Window step? guard initial opening closing earlier during opened
        last) :
    during.countP counted + potential last ≤
      potential opened + price * charges step? charged opened during := by
  refine window.step_induction
    (fun labels state =>
      labels.countP counted + potential state ≤
        potential opened + price * charges step? charged opened labels)
    ?_ ?_
  · intro before _ _ _
    simp [charges]
  · intro labels state label next shorter paid admitted unclosed taken
    have last := pays shorter admitted unclosed taken
    have single :
        charges step? charged state [label] =
          (charged state label).toNat := by
      simp [charges, taken]
    rw [shorter.runs.charges_append charged, single, Nat.mul_add,
      List.countP_append, List.countP_singleton]
    cases isCounted : counted label <;>
      simp only [isCounted, Bool.toNat_true, Bool.toNat_false, if_true,
        Bool.false_eq_true, if_false] at last ⊢ <;>
      omega

end Charging

section Pool

variable {Pc : Type} {pool : List Pc}

/-- Moving one thread changes the sum by the weight of that thread. -/
theorem sum_map_set
    (weight : Pc → Nat)
    {thread : Nat}
    {old : Pc}
    (isAt : pool[thread]? = some old)
    (new : Pc) :
    ((pool.set thread new).map weight).sum + weight old =
      (pool.map weight).sum + weight new := by
  induction pool generalizing thread with
  | nil =>
      simp at isAt
  | cons first rest inductionHypothesis =>
      cases thread with
      | zero =>
          simp only [List.getElem?_cons_zero, Option.some.injEq] at isAt
          subst isAt
          simp only [List.set_cons_zero, List.map_cons, List.sum_cons]
          omega
      | succ thread =>
          simp only [List.getElem?_cons_succ] at isAt
          have moved := inductionHypothesis isAt
          simp only [List.set_cons_succ, List.map_cons, List.sum_cons]
          omega

/-- A change that adds at most one everywhere adds at most the pool's size. -/
theorem sum_map_map_le
    (weight : Pc → Nat)
    {change : Pc → Pc}
    (grows : ∀ pc ∈ pool, weight (change pc) ≤ weight pc + 1) :
    ((pool.map change).map weight).sum ≤
      (pool.map weight).sum + pool.length := by
  induction pool with
  | nil =>
      simp
  | cons first rest inductionHypothesis =>
      have head := grows first List.mem_cons_self
      have tail := inductionHypothesis fun pc member =>
        grows pc (List.mem_cons_of_mem _ member)
      simp only [List.map_cons, List.sum_cons, List.length_cons]
      omega

/-- A pool weighs no more than its size times the heaviest weight. -/
theorem sum_map_le_mul
    (weight : Pc → Nat)
    {bound : Nat}
    (bounded : ∀ pc ∈ pool, weight pc ≤ bound) :
    (pool.map weight).sum ≤ pool.length * bound := by
  have total :=
    List.sum_le_card_nsmul (pool.map weight) bound (by simpa using bounded)
  simpa using total

end Pool

end ConcurrentQueue
