import ConcurrentQueue.Contract
import ConcurrentQueue.Library.Reconciling
import Mathlib.Algebra.Order.BigOperators.Group.List
import Mathlib.Algebra.Order.Ring.Nat

namespace ConcurrentQueue

/-!
# The checksum gate

The stress test lets producers push known values, joins them, closes the queue
and lets the consumers pop until they are told that it is drained.  Then the
totals must reconcile: what all consumers received together is what all
producers handed in.
-/

variable {α Thread Mark : Type}

/-- The elements that a call put into the queue, by its result. -/
def Op.given (op : Op α) : Result α → List α
  | .pushed true => op.argument?.toList
  | .pushedN count _ => op.operands.take count
  | _ => []

/-- The elements that a call took out of the queue. -/
def Result.taken : Result α → List α
  | .popped true out => [out]
  | .poppedN count out => out.take count
  | _ => []

/-- Everything the calls of a history put in, by call. -/
def acceptedValues
    (log : CallLog Thread (Op α) Mark (Result α)) : List α :=
  log.tallied Op.given

/-- Everything the calls of a history took out, by call. -/
def deliveredValues
    (log : CallLog Thread (Op α) Mark (Result α)) : List α :=
  log.tallied fun _ result => result.taken

/-- No pop was left by the exception of its move assignment. -/
def noPopThrew (log : CallLog Thread (Op α) Mark (Result α)) : Bool :=
  log.history.all fun event =>
    match event with
    | .respond _ _ (.popThrew _) => false
    | _ => true

/-- A call that returned from such a history did not throw. -/
theorem ne_popThrew_of_completed
    {log : CallLog Thread (Op α) Mark (Result α)}
    (unharmed : noPopThrew log = true)
    {call : Nat}
    {op : Op α}
    {marks : List Mark}
    {result : Result α}
    (completed : log.Completed call op marks result)
    (out : α) :
    result ≠ .popThrew out := by
  rintro rfl
  obtain ⟨thread, _, returned, _⟩ := completed
  have isFine := List.all_eq_true.mp unharmed _ returned
  cases isFine

/-- The totals of the gate reconcile. -/
structure Reconciles
    (log : CallLog Thread (Op α) Mark (Result α)) : Prop where
  values : (deliveredValues log).Perm (acceptedValues log)
  /-- `consumed_count` -/
  count : (deliveredValues log).length = (acceptedValues log).length
  /-- `consumed_sum`, whatever the weight of a value. -/
  sum :
    ∀ weight : α → Nat,
      ((deliveredValues log).map weight).sum =
        ((acceptedValues log).map weight).sum

/-- Counts and sums do not depend on the order of the values. -/
theorem Reconciles.of_perm
    {log : CallLog Thread (Op α) Mark (Result α)}
    (values : (deliveredValues log).Perm (acceptedValues log)) :
    Reconciles log where
  values := values
  count := values.length_eq
  sum weight := (values.map weight).sum_eq

/--
A history whose marks hand out what they take in reconciles once no call is in
progress.
-/
theorem Reconciles.of_marks
    {log : CallLog Thread (Op α) Mark (Result α)}
    (wellFormed : log.WellFormed)
    (quiescent : log.Quiescent)
    {given taken : Mark → List α}
    (gives :
      ∀ {call op marks result},
        log.Completed call op marks result →
        marks.flatMap given = op.given result)
    (takes :
      ∀ {call op marks result},
        log.Completed call op marks result →
        marks.flatMap taken = result.taken)
    (same : log.marks.flatMap taken = log.marks.flatMap given) :
    Reconciles log := by
  apply Reconciles.of_perm
  have delivered := wellFormed.tallied_perm quiescent takes
  have accepted := wellFormed.tallied_perm quiescent gives
  rw [same] at delivered
  exact delivered.symm.trans accepted

end ConcurrentQueue
