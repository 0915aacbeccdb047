import ConcurrentQueue.Contract
import ConcurrentQueue.Library.History
import ConcurrentQueue.Library.Monitor
import ConcurrentQueue.Library.Ring
import ConcurrentQueue.Library.Run

namespace ConcurrentQueue.Mutex

/-!
# The steps of `MutexQueue`

Any number of threads run member functions.  A critical section under
`mutex_` is one step; notifying comes after the unlock and is a step of its
own.  A thread blocked on a condition variable is released by a notification,
by its timeout or spuriously, and then evaluates its predicate again in a
critical section of its own.
-/

/-- The condition variables. -/
inductive Condition where
  | notFull
  | notEmpty
  deriving Repr, DecidableEq

/-- The construction of `buffer_`, and the check of the constructor. -/
def bufferSlots
    (elementSize capacity : Nat) :
    Except ConstructionError Nat :=
  if vectorMaxSize elementSize < capacity then
    .error .lengthError
  else if capacity = 0 then
    .error .invalidArgument
  else
    .ok capacity

/-- `next(index)` -/
def next (slots index : Nat) : Nat :=
  Ring.next slots index

/-- The condition variable that a call may wait on. -/
def waitsOn? : Op α → Option Condition
  | .push _ | .tryPushFor _ => some .notFull
  | .pop _ | .tryPopFor _ => some .notEmpty
  | _ => none

/-- The call waits with a timeout. -/
def isTimed : Op α → Bool
  | .tryPushFor _ | .tryPopFor _ => true
  | _ => false

/-- What the evaluations of a critical section lead to. -/
inductive Verdict (α : Type) where
  | block
  | answer (result : Result α)
  | enqueue (value : α)
  | dequeue (out : α)
  | close
  deriving Repr, DecidableEq

/-- How a move assignment ends, with what it leaves behind. -/
inductive Moving (α : Type) where
  | moves (husk : α)
  | throws (slotValue outValue : α)
  deriving Repr, DecidableEq

/-- What a critical section decided about its call. -/
inductive Commit (α : Type) where
  | answered (op : Op α) (result : Result α) (timedOut : Bool)
  | pushThrew (op : Op α)
  | popThrew (op : Op α) (slotValue outValue : α)
  deriving Repr, DecidableEq

/-- Where a thread is between two of its steps. -/
inductive Pc (α : Type) where
  | idle
  | enter (op : Op α)
  | blocked (op : Op α)
  | released (op : Op α) (timedOut : Bool)
  | notifyOne (condition : Condition) (result : Result α)
  | notifyAllNotFull
  | notifyAllNotEmpty
  | returning (result : Result α)
  deriving Repr, DecidableEq

namespace Pc

variable {α : Type}

/-- The first program point of a call; only `capacity()` takes no lock. -/
def start? (slots : Nat) : Op α → Option (Pc α)
  | .capacity => some (.returning (.capacity slots))
  | .tryPushN _ | .tryPopN _ => none
  | op => some (.enter op)

/-- The thread is in the waiter set of a condition variable. -/
def isBlockedOn (condition : Condition) : Pc α → Bool
  | .blocked op => waitsOn? op == some condition
  | _ => false

/-- The thread has left the waiter set and not evaluated its predicate. -/
def isReleasedFrom (condition : Condition) : Pc α → Bool
  | .released op _ => waitsOn? op == some condition
  | _ => false

/-- The thread has a `notify_one` for the condition still to issue. -/
def isNotifying (condition : Condition) : Pc α → Bool
  | .notifyOne notified _ => notified == condition
  | _ => false

/-- The thread has a `notify_all` for the condition still to issue. -/
def isNotifyingAll : Condition → Pc α → Bool
  | .notFull, .notifyAllNotFull => true
  | .notEmpty, .notifyAllNotFull => true
  | .notEmpty, .notifyAllNotEmpty => true
  | _, _ => false

/-- Leave the waiter set of a condition variable, if blocked on it. -/
def release (condition : Condition) : Pc α → Pc α
  | .blocked op =>
      if waitsOn? op = some condition then .released op false
      else .blocked op
  | pc => pc

end Pc

/-- The queue object, the threads and the history of their calls. -/
structure State (α : Type) where
  buffer : Nat → α
  head : Nat
  tail : Nat
  size : Nat
  closed : Bool
  threads : List (Pc α)
  log : CallLog Nat (Op α) (Commit α) (Result α)

/-- The choices that a step may resolve. -/
inductive Action (α : Type) where
  | invoke (op : Op α)
  | lock (moving : Moving α)
  | wake
  | timeout
  | notify (waiter : Option Nat)
  | notifyAll
  | respond
  deriving Repr, DecidableEq

/-- A step: the thread that moves and its choices. -/
structure Label (α : Type) where
  thread : Nat
  action : Action α
  deriving Repr, DecidableEq

/-- The constructor, with `threads` users. -/
def initial [Inhabited α] (threads : Nat) : State α where
  buffer _ := default
  head := 0
  tail := 0
  size := 0
  closed := false
  threads := List.replicate threads .idle
  log := {}

namespace State

variable {α : Type}

/-- `not_full_or_closed_locked()` -/
def notFullOrClosed (slots : Nat) (state : State α) : Bool :=
  state.closed || decide (state.size < slots)

/-- `not_empty_or_closed_locked()` -/
def notEmptyOrClosed (state : State α) : Bool :=
  state.closed || decide (0 < state.size)

/-- The evaluations of one critical section of a call. -/
def verdict?
    (slots : Nat)
    (state : State α)
    (op : Op α)
    (timedOut : Bool) :
    Option (Verdict α) :=
  match op with
  | .push value | .tryPushFor value =>
      if state.notFullOrClosed slots then
        if state.closed then some (.answer (.pushed false))
        else some (.enqueue value)
      else if timedOut then some (.answer (.pushed false))
      else some .block
  | .tryPush value =>
      if state.closed || state.size == slots then
        some (.answer (.pushed false))
      else some (.enqueue value)
  | .pop out | .tryPopFor out =>
      if state.notEmptyOrClosed then
        if state.size = 0 then some (.answer (.popped false out))
        else some (.dequeue out)
      else if timedOut then some (.answer (.popped false out))
      else some .block
  | .tryPop out =>
      if state.size = 0 then some (.answer (.popped false out))
      else some (.dequeue out)
  | .close =>
      if state.closed then some (.answer .done) else some .close
  | .closed => some (.answer (.closed state.closed))
  | .size => some (.answer (.size state.size))
  | .capacity | .tryPushN _ | .tryPopN _ => none

/-- Move a thread to a program point. -/
def goto (state : State α) (thread : Nat) (pc : Pc α) : State α :=
  { state with threads := state.threads.set thread pc }

/-- Start a call. -/
def invoke (state : State α) (thread : Nat) (op : Op α) : State α :=
  { state with log := state.log.invoke thread op }

/-- Finish a call. -/
def respond (state : State α) (thread : Nat) (result : Result α) : State α :=
  { state with log := state.log.respond thread result }

/-- Note what a critical section decided. -/
def commit (state : State α) (thread : Nat) (made : Commit α) : State α :=
  { state with log := state.log.mark thread made }

/-- Assign one slot. -/
def setSlot (state : State α) (index : Nat) (value : α) : State α :=
  { state with buffer := Function.update state.buffer index value }

/-- `enqueue_locked(value)` -/
def enqueueLocked (slots : Nat) (state : State α) (value : α) : State α :=
  { state.setSlot state.tail value with
    tail := next slots state.tail
    size := state.size + 1 }

/-- `dequeue_locked(out)`, which leaves a `husk` in the slot. -/
def dequeueLocked (slots : Nat) (state : State α) (husk : α) : State α :=
  { state.setSlot state.head husk with
    head := next slots state.head
    size := state.size - 1 }

/-- `closed_ = true` -/
def setClosed (state : State α) : State α :=
  { state with closed := true }

/-- The rest of a critical section once its evaluations are made. -/
def act
    (slots : Nat)
    (state : State α)
    (thread : Nat)
    (op : Op α)
    (timedOut : Bool) :
    Verdict α → Moving α → State α
  | .block, _ =>
      state.goto thread (.blocked op)
  | .answer result, _ =>
      (state.commit thread (.answered op result timedOut)).goto thread
        (.returning result)
  | .enqueue value, .moves _ =>
      ((state.enqueueLocked slots value).commit thread
        (.answered op (.pushed true) timedOut)).goto thread
          (.notifyOne .notEmpty (.pushed true))
  | .enqueue _, .throws slotValue _ =>
      ((state.setSlot state.tail slotValue).commit thread
        (.pushThrew op)).goto thread (.returning .pushThrew)
  | .dequeue _, .moves husk =>
      ((state.dequeueLocked slots husk).commit thread
        (.answered op (.popped true (state.buffer state.head))
          timedOut)).goto thread
          (.notifyOne .notFull (.popped true (state.buffer state.head)))
  | .dequeue _, .throws slotValue outValue =>
      ((state.setSlot state.head slotValue).commit thread
        (.popThrew op slotValue outValue)).goto thread
          (.returning (.popThrew outValue))
  | .close, _ =>
      (state.setClosed.commit thread
        (.answered op .done timedOut)).goto thread .notifyAllNotFull

/-- One critical section. -/
def locked?
    (slots : Nat)
    (state : State α)
    (thread : Nat)
    (op : Op α)
    (timedOut : Bool)
    (moving : Moving α) :
    Option (State α) :=
  (state.verdict? slots op timedOut).map fun verdict =>
    state.act slots thread op timedOut verdict moving

/-- `notify_one()`: some waiter is released, unless there is none. -/
def notifyOne?
    (state : State α)
    (condition : Condition) :
    Option Nat → Option (State α)
  | none =>
      if state.threads.any (Pc.isBlockedOn condition) then none
      else some state
  | some waiter =>
      match state.threads[waiter]? with
      | some pc =>
          if pc.isBlockedOn condition then
            some (state.goto waiter (pc.release condition))
          else
            none
      | none => none

/-- `notify_all()` -/
def notifyAll (state : State α) (condition : Condition) : State α :=
  { state with threads := state.threads.map (Pc.release condition) }

end State

/-- One step of one thread. -/
def step?
    (slots : Nat)
    (state : State α)
    (label : Label α) :
    Option (State α) :=
  let thread := label.thread
  match state.threads[thread]?, label.action with
  | some .idle, .invoke op =>
      (Pc.start? slots op).map fun pc =>
        (state.invoke thread op).goto thread pc
  | some (.enter op), .lock moving =>
      state.locked? slots thread op false moving
  | some (.released op timedOut), .lock moving =>
      state.locked? slots thread op timedOut moving
  | some (.blocked op), .wake =>
      some (state.goto thread (.released op false))
  | some (.blocked op), .timeout | some (.released op _), .timeout =>
      if isTimed op then
        some (state.goto thread (.released op true))
      else
        none
  | some (.notifyOne condition result), .notify waiter =>
      (state.notifyOne? condition waiter).map fun next =>
        next.goto thread (.returning result)
  | some .notifyAllNotFull, .notifyAll =>
      some ((state.notifyAll .notFull).goto thread .notifyAllNotEmpty)
  | some .notifyAllNotEmpty, .notifyAll =>
      some ((state.notifyAll .notEmpty).goto thread (.returning .done))
  | some (.returning result), .respond =>
      some ((state.respond thread result).goto thread .idle)
  | _, _ => none

end ConcurrentQueue.Mutex
