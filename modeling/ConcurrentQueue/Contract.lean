import ConcurrentQueue.Library.BoundedFifo
import ConcurrentQueue.Library.SizeT

namespace ConcurrentQueue

/-!
# The shared contract of the three queues

The member functions of `MutexQueue`, `SpscQueue` and `MpmcQueue`, the results
of their calls, and the bounded FIFO list that every call made on its own must
act on.  A push takes its argument by value; a pop carries the caller's
variable, whose content after the call is part of the result.
-/

/-- A call of a public member function with its arguments. -/
inductive Op (α : Type) where
  | push (value : α)
  | tryPush (value : α)
  | tryPushFor (value : α)
  | tryPushN (items : List α)
  | pop (out : α)
  | tryPop (out : α)
  | tryPopFor (out : α)
  | tryPopN (out : List α)
  | close
  | closed
  | size
  | capacity
  deriving Repr, DecidableEq

/-- What a call hands back, together with the final content of `out`. -/
inductive Result (α : Type) where
  | pushed (accepted : Bool)
  | popped (delivered : Bool) (out : α)
  | pushedN (count : Nat) (items : List α)
  | poppedN (count : Nat) (out : List α)
  | done
  | closed (flag : Bool)
  | size (count : Nat)
  | capacity (count : Nat)
  | pushThrew
  | popThrew (out : α)
  deriving Repr, DecidableEq

/-- The call left by the exception of a move assignment. -/
def Result.isException {α : Type} : Result α → Bool
  | .pushThrew | .popThrew _ => true
  | _ => false

/-- The call moved nothing. -/
def Result.isRefusal {α : Type} : Result α → Bool
  | .pushed false | .popped false _ => true
  | _ => false

namespace Op

variable {α : Type}

/-- The element a single push was called with. -/
def argument? : Op α → Option α
  | .push value => some value
  | .tryPush value => some value
  | .tryPushFor value => some value
  | _ => none

/-- The variable a single pop was called with. -/
def out? : Op α → Option α
  | .pop out => some out
  | .tryPop out => some out
  | .tryPopFor out => some out
  | _ => none

/-- The call waits for as long as it takes. -/
def isBlocking : Op α → Bool
  | .push _ | .pop _ => true
  | _ => false

/-- The values or variables that a call was made with. -/
def operands : Op α → List α
  | .push value | .tryPush value | .tryPushFor value => [value]
  | .tryPushN items => items
  | .pop out | .tryPop out | .tryPopFor out => [out]
  | .tryPopN out => out
  | _ => []

/-- Calls of the producer side. -/
def isPush : Op α → Bool
  | .push _ | .tryPush _ | .tryPushFor _ | .tryPushN _ => true
  | _ => false

/-- Calls of the consumer side. -/
def isPop : Op α → Bool
  | .pop _ | .tryPop _ | .tryPopFor _ | .tryPopN _ => true
  | _ => false

/-- Calls of `close()`. -/
def isClose : Op α → Bool
  | .close => true
  | _ => false

/-- Calls that all three queues offer. -/
def isShared : Op α → Bool
  | .push _ | .tryPush _ | .pop _ | .tryPop _ => true
  | .close | .closed | .size | .capacity => true
  | _ => false

end Op

/-- The exceptions a constructor may throw. -/
inductive ConstructionError where
  | invalidArgument
  | lengthError
  deriving Repr, DecidableEq

/-- `std::vector::max_size()` for elements of `elementSize` bytes. -/
def vectorMaxSize (elementSize : Nat) : Nat :=
  (SizeT.halfRange - 1) / elementSize

/-- No vector has more elements than a `std::ptrdiff_t` can count. -/
theorem vectorMaxSize_le (elementSize : Nat) :
    vectorMaxSize elementSize ≤ SizeT.halfRange - 1 :=
  Nat.div_le_self _ _

namespace BoundedFifo

variable {capacity : Nat} {α : Type}

/--
The result of one call on the bounded FIFO list and the list it leaves;
`none` for a call that would have to wait, and for the bulk operations, which
are not part of the shared contract.
-/
def answer?
    (fifo : BoundedFifo capacity α) :
    Op α → Option (Result α × BoundedFifo capacity α)
  | .push value =>
      match fifo.append? value with
      | some next => some (.pushed true, next)
      | none => if fifo.closed then some (.pushed false, fifo) else none
  | .tryPush value | .tryPushFor value =>
      match fifo.append? value with
      | some next => some (.pushed true, next)
      | none => some (.pushed false, fifo)
  | .pop out =>
      match fifo.removeFront? with
      | some (front, next) => some (.popped true front, next)
      | none => if fifo.closed then some (.popped false out, fifo) else none
  | .tryPop out | .tryPopFor out =>
      match fifo.removeFront? with
      | some (front, next) => some (.popped true front, next)
      | none => some (.popped false out, fifo)
  | .close => some (.done, fifo.close)
  | .closed => some (.closed fifo.closed, fifo)
  | .size => some (.size fifo.items.length, fifo)
  | .capacity => some (.capacity capacity, fifo)
  | .tryPushN _ | .tryPopN _ => none

section Answers

variable {fifo next : BoundedFifo capacity α} {op : Op α} {value front : α}

/-- A push that finds room appends its argument. -/
theorem answer?_of_append?
    (pushes : op.argument? = some value)
    (appends : fifo.append? value = some next) :
    fifo.answer? op = some (.pushed true, next) := by
  cases op <;> cases pushes <;> simp [answer?, appends]

/-- A push that finds none is refused, unless it would have to wait. -/
theorem answer?_of_full
    (pushes : op.argument? = some value)
    (refuses : fifo.append? value = none)
    (ends : fifo.closed = true ∨ op.isBlocking = false) :
    fifo.answer? op = some (.pushed false, fifo) := by
  cases op <;> cases pushes <;> simp_all [answer?, Op.isBlocking]

/-- A pop that finds an element removes it. -/
theorem answer?_of_removeFront?
    (pops : op.out? = some value)
    (removes : fifo.removeFront? = some (front, next)) :
    fifo.answer? op = some (.popped true front, next) := by
  cases op <;> cases pops <;> simp [answer?, removes]

/-- A pop that finds none fails, unless it would have to wait. -/
theorem answer?_of_empty
    (pops : op.out? = some value)
    (isEmpty : fifo.removeFront? = none)
    (ends : fifo.closed = true ∨ op.isBlocking = false) :
    fifo.answer? op = some (.popped false value, fifo) := by
  cases op <;> cases pops <;> simp_all [answer?, Op.isBlocking]

/-- Only an appended element makes a push succeed. -/
theorem append?_of_answer?
    (answers : fifo.answer? op = some (.pushed true, next)) :
    ∃ value,
      op.argument? = some value ∧ fifo.append? value = some next := by
  cases op with
  | push value | tryPush value | tryPushFor value =>
      refine ⟨value, rfl, ?_⟩
      cases appends : fifo.append? value with
      | some after => simp_all [answer?]
      | none => simp [answer?, appends] at answers
  | pop out | tryPop out | tryPopFor out =>
      cases removes : fifo.removeFront? <;>
        simp [answer?, removes] at answers
  | _ => simp [answer?] at answers

/-- Only a removed element makes a pop succeed. -/
theorem removeFront?_of_answer?
    (answers : fifo.answer? op = some (.popped true front, next)) :
    (∃ out, op.out? = some out) ∧
      fifo.removeFront? = some (front, next) := by
  cases op with
  | pop out | tryPop out | tryPopFor out =>
      refine ⟨⟨out, rfl⟩, ?_⟩
      cases removes : fifo.removeFront? with
      | some removed =>
          obtain ⟨oldest, after⟩ := removed
          simp_all [answer?]
      | none => simp [answer?, removes] at answers
  | push value | tryPush value | tryPushFor value =>
      cases appends : fifo.append? value <;>
        simp [answer?, appends] at answers
  | _ => simp [answer?] at answers

/-- A push is refused by a closed or full queue, which it leaves alone. -/
theorem refused_push
    (answers : fifo.answer? op = some (.pushed false, next)) :
    next = fifo ∧ (∃ value, op.argument? = some value) ∧
      (fifo.closed = true ∨
        fifo.items.length = capacity ∧ op.isBlocking = false) := by
  cases op with
  | push value | tryPush value | tryPushFor value =>
      cases appends : fifo.append? value with
      | some after => simp [answer?, appends] at answers
      | none =>
          have refuses := append?_eq_none_iff.mp appends
          simp only [answer?, appends, Option.some.injEq, Prod.mk.injEq,
            true_and] at answers
          first
            | exact ⟨answers.symm, ⟨value, rfl⟩,
                refuses.imp_right fun full => ⟨full, rfl⟩⟩
            | split at answers
              · rename_i isClosed
                cases answers
                exact ⟨rfl, ⟨value, rfl⟩, Or.inl isClosed⟩
              · cases answers
  | pop out | tryPop out | tryPopFor out =>
      cases removes : fifo.removeFront? <;>
        simp [answer?, removes] at answers
  | _ => simp [answer?] at answers

/-- A pop fails on an empty queue, which it leaves alone. -/
theorem failed_pop
    (answers : fifo.answer? op = some (.popped false value, next)) :
    next = fifo ∧ op.out? = some value ∧ fifo.items = [] ∧
      (fifo.closed = true ∨ op.isBlocking = false) := by
  cases op with
  | pop out | tryPop out | tryPopFor out =>
      cases removes : fifo.removeFront? with
      | some after => simp [answer?, removes] at answers
      | none =>
          have isEmpty := removeFront?_eq_none_iff.mp removes
          simp only [answer?, removes, Option.some.injEq, Prod.mk.injEq,
            Result.popped.injEq, true_and] at answers
          first
            | obtain ⟨rfl, rfl⟩ := answers
              exact ⟨rfl, rfl, isEmpty, Or.inr rfl⟩
            | split at answers
              · rename_i isClosed
                cases answers
                exact ⟨rfl, rfl, isEmpty, Or.inl isClosed⟩
              · cases answers
  | push value | tryPush value | tryPushFor value =>
      cases appends : fifo.append? value <;>
        simp [answer?, appends] at answers
  | _ => simp [answer?] at answers

/-- A push either appends its argument or is refused. -/
theorem answer?_push_cases
    {result : Result α}
    (pushes : op.argument? = some value)
    (answers : fifo.answer? op = some (result, next)) :
    fifo.append? value = some next ∧ result = .pushed true ∨
      fifo.append? value = none ∧ next = fifo ∧ result = .pushed false ∧
        (fifo.closed = true ∨ op.isBlocking = false) := by
  cases appends : fifo.append? value with
  | some after =>
      rw [answer?_of_append? pushes appends] at answers
      cases answers
      exact Or.inl ⟨rfl, rfl⟩
  | none =>
      right
      have ends : fifo.closed = true ∨ op.isBlocking = false := by
        cases isClosed : fifo.closed with
        | true => exact Or.inl rfl
        | false =>
            right
            cases op <;> cases pushes <;>
              first
                | rfl
                | simp [answer?, appends, isClosed] at answers
      rw [answer?_of_full pushes appends ends] at answers
      cases answers
      exact ⟨rfl, rfl, rfl, ends⟩

/-- A pop either removes the oldest element or fails. -/
theorem answer?_pop_cases
    {result : Result α}
    (pops : op.out? = some value)
    (answers : fifo.answer? op = some (result, next)) :
    (∃ front,
      fifo.removeFront? = some (front, next) ∧
        result = .popped true front) ∨
      fifo.items = [] ∧ next = fifo ∧ result = .popped false value ∧
        (fifo.closed = true ∨ op.isBlocking = false) := by
  cases removes : fifo.removeFront? with
  | some removed =>
      obtain ⟨front, after⟩ := removed
      rw [answer?_of_removeFront? pops removes] at answers
      cases answers
      exact Or.inl ⟨front, rfl, rfl⟩
  | none =>
      right
      have ends : fifo.closed = true ∨ op.isBlocking = false := by
        cases isClosed : fifo.closed with
        | true => exact Or.inl rfl
        | false =>
            right
            cases op <;> cases pops <;>
              first
                | rfl
                | simp [answer?, removes, isClosed] at answers
      rw [answer?_of_empty pops removes ends] at answers
      cases answers
      exact ⟨removeFront?_eq_none_iff.mp removes, rfl, rfl, ends⟩

/-- A shared call has no answer where it would have to wait. -/
theorem answer?_eq_none_iff (shared : op.isShared = true) :
    fifo.answer? op = none ↔
      fifo.closed = false ∧
        ((∃ value, op = .push value) ∧ fifo.items.length = capacity ∨
          (∃ out, op = .pop out) ∧ fifo.items = []) := by
  cases op with
  | push value =>
      cases appends : fifo.append? value with
      | some after =>
          have room := (append?_eq_some_iff.mp appends).2.1
          simp only [answer?, appends, reduceCtorEq, Op.push.injEq,
            exists_eq', true_and, exists_false, false_and, or_false,
            false_iff, not_and]
          omega
      | none =>
          have refuses := append?_eq_none_iff.mp appends
          cases isClosed : fifo.closed <;>
            simp_all [answer?]
  | pop out =>
      cases removes : fifo.removeFront? with
      | some removed =>
          have nonempty := removeFront?_eq_some_iff.mp removes
          simp [answer?, removes, nonempty.1]
      | none =>
          have isEmpty := removeFront?_eq_none_iff.mp removes
          cases isClosed : fifo.closed <;>
            simp_all [answer?]
  | tryPush value => cases appends : fifo.append? value <;> simp_all [answer?]
  | tryPop out => cases removes : fifo.removeFront? <;> simp_all [answer?]
  | close | closed | size | capacity => simp [answer?]
  | tryPushFor | tryPushN | tryPopFor | tryPopN => cases shared

end Answers

/-- The results of a sequence of calls and the list it leaves. -/
def answers?
    (fifo : BoundedFifo capacity α) :
    List (Op α) → Option (List (Result α) × BoundedFifo capacity α)
  | [] =>
      some ([], fifo)
  | op :: rest => do
      let (result, next) ← fifo.answer? op
      let (results, final) ← next.answers? rest
      return (result :: results, final)

end BoundedFifo

end ConcurrentQueue
