import ConcurrentQueue.Contract
import ConcurrentQueue.Library.Atomic
import ConcurrentQueue.Library.History
import ConcurrentQueue.Library.Run
import ConcurrentQueue.Library.SizeT
import ConcurrentQueue.Library.TicketRing

namespace ConcurrentQueue.Mpmc

/-!
# The atomic steps of `MpmcQueue`

Each thread runs one member function at a time, and every access to a shared
atomic object or to a slot's value is a step of its own.  A load names the
message it reads, so it may be stale; a successful compare-exchange acts on
the newest value of its counter, and a failed one may read any message, which
covers spurious failures.  `Backoff::wait` touches nothing shared and is no
step: the loops of `push` and `pop` go straight to their next access.

The two claim loops differ in their counter, in the sequence they expect and
publish, and in the direction of the move.  They are one set of program points
with the calling function as a parameter.  The arithmetic on positions and
sequences is a parameter too, so the same machine runs on unbounded tickets
and on 64-bit words.
-/

/-- The arithmetic of positions and sequences. -/
structure Arithmetic where
  /-- `slots_.size()` -/
  slots : Nat
  /-- `ticket + 1` -/
  next : Nat → Nat
  /-- The sequence that lets a side claim a ticket. -/
  expected : Side → Nat → Nat
  /-- The sequence that a side stores when it is done with a ticket. -/
  published : Side → Nat → Nat
  /-- `slot_index(ticket)` -/
  slotIndex : Nat → Nat
  /-- The difference of two words read as `std::ptrdiff_t`. -/
  difference : Nat → Nat → Int

/-- Unbounded tickets, with slot `ticket % slots`. -/
def Arithmetic.exact (capacity : Nat) : Arithmetic where
  slots := capacity
  next ticket := ticket + 1
  expected
    | .producer, ticket => 2 * ticket
    | .consumer, ticket => 2 * ticket + 1
  published
    | .producer, ticket => 2 * ticket + 1
    | .consumer, ticket => 2 * (ticket + capacity)
  slotIndex ticket := ticket % capacity
  difference left right := (left : Int) - right

/-- `mask_`: `capacity - 1` if the capacity is a power of two, else `0`. -/
def mask (capacity : Nat) : Nat :=
  if capacity.isPowerOfTwo then capacity - 1 else 0

/-- `slot_index`: the ticket under the mask if there is one, else modulo. -/
def slotIndex (capacity ticket : Nat) : Nat :=
  if mask capacity ≠ 0 then ticket &&& mask capacity else ticket % capacity

/-- The 64-bit arithmetic of the source. -/
def Arithmetic.sizeT (capacity : Nat) : Arithmetic where
  slots := capacity
  next ticket := SizeT.add ticket 1
  expected
    | .producer, ticket => SizeT.mul 2 ticket
    | .consumer, ticket => SizeT.add (SizeT.mul 2 ticket) 1
  published
    | .producer, ticket => SizeT.add (SizeT.mul 2 ticket) 1
    | .consumer, ticket => SizeT.mul 2 (SizeT.add ticket capacity)
  slotIndex ticket := Mpmc.slotIndex capacity ticket
  difference left right := SizeT.signed (SizeT.sub left right)

/-- A lower bound for `sizeof(Slot)`: an atomic word and a value, aligned. -/
def slotSize : Nat := 16

/-- `make_slots`: the number of slots, or the exception thrown. -/
def makeSlots (capacity : Nat) : Except ConstructionError Nat :=
  if capacity = 0 then
    .error .invalidArgument
  else if vectorMaxSize slotSize < capacity then
    .error .lengthError
  else
    .ok capacity

/-- `struct Slot`; stores to the sequence are authored by calls. -/
@[ext]
structure Slot (α : Type) where
  sequence : Atomic Nat Nat
  value : α

/-- The function that runs a claim loop, with the local it moves from or to. -/
inductive Caller (α : Type) where
  | push (value : α)
  | tryPush (value : α)
  | pop (out : α) (closedSeen : Bool)
  | tryPop (out : α)
  deriving Repr, DecidableEq

/-- Where a thread is between two of its steps. -/
inductive Pc (α : Type) where
  | idle
  | checkClosed (caller : Caller α)
  | loadPos (caller : Caller α)
  | loadSequence (caller : Caller α) (ticket : Nat)
  | exchange (caller : Caller α) (ticket : Nat)
  | reloadPos (caller : Caller α) (ticket : Nat)
  | moveValue (caller : Caller α) (ticket : Nat)
  | storeSequence (caller : Caller α) (ticket : Nat)
  | storeClosed
  | loadClosed
  | sizeTail
  | sizeHead (tail : Nat)
  | returning (result : Result α)
  deriving Repr, DecidableEq

namespace Caller

variable {α : Type}

/-- `try_enqueue` runs on the producer side, `try_dequeue` on the consumer's. -/
def side : Caller α → Side
  | .push _ | .tryPush _ => .producer
  | .pop _ _ | .tryPop _ => .consumer

/-- What follows the load of `closed_`. -/
def afterClosedLoad (flag : Bool) : Caller α → Pc α
  | .push value =>
      if flag then .returning (.pushed false) else .loadPos (.push value)
  | .tryPush value =>
      if flag then .returning (.pushed false) else .loadPos (.tryPush value)
  | .pop out _ => .loadPos (.pop out flag)
  | .tryPop out => .loadPos (.tryPop out)

/-- What follows a claim loop that returned `false`. -/
def afterFailure : Caller α → Pc α
  | .push value => .checkClosed (.push value)
  | .tryPush _ => .returning (.pushed false)
  | .pop out false => .checkClosed (.pop out false)
  | .pop out true => .returning (.popped false out)
  | .tryPop out => .returning (.popped false out)

/-- What follows a claim loop that returned `true`. -/
def afterSuccess : Caller α → Pc α
  | .push _ | .tryPush _ => .returning (.pushed true)
  | .pop out _ | .tryPop out => .returning (.popped true out)

/--
The move assignment between the slot's value and the caller's local: the
destination gets the value and the source is left as some `husk`.
-/
def transfer (slotValue husk : α) : Caller α → Caller α × α
  | .push value => (.push husk, value)
  | .tryPush value => (.tryPush husk, value)
  | .pop _ closedSeen => (.pop slotValue closedSeen, husk)
  | .tryPop _ => (.tryPop slotValue, husk)

end Caller

namespace Pc

variable {α : Type}

/-- The first program point of each member function. -/
def start? (slots : Nat) : Op α → Option (Pc α)
  | .push value => some (.checkClosed (.push value))
  | .tryPush value => some (.checkClosed (.tryPush value))
  | .pop out => some (.loadPos (.pop out false))
  | .tryPop out => some (.loadPos (.tryPop out))
  | .close => some .storeClosed
  | .closed => some .loadClosed
  | .size => some .sizeTail
  | .capacity => some (.returning (.capacity slots))
  | _ => none

/-- What follows the sequence load, by the sign of `dif`. -/
def classify (caller : Caller α) (ticket : Nat) (dif : Int) : Pc α :=
  if dif = 0 then
    .exchange caller ticket
  else if dif < 0 then
    caller.afterFailure
  else
    .reloadPos caller ticket

/-- The ticket held between a winning exchange and the sequence store. -/
def holding : Pc α → Option Ticket
  | .moveValue caller ticket => some ⟨caller.side, ticket⟩
  | .storeSequence caller ticket => some ⟨caller.side, ticket⟩
  | _ => none

end Pc

/--
A thread.  Two fields are ghosts: how many tickets its side had drawn when the
claim loop it runs was entered, and the `close()` calls whose store it read.
-/
structure Thread (α : Type) where
  pc : Pc α
  entered : Nat := 0
  closesRead : List Nat := []

/-- The queue object, the threads using it and the history of their calls. -/
structure State (α : Type) where
  slots : Nat → Slot α
  enqueuePos : Atomic Nat Nat
  dequeuePos : Atomic Nat Nat
  closed : Atomic Nat Bool
  threads : Nat → Thread α
  log : CallLog Nat (Op α) Ticket (Result α)

/-- The choices that a step may resolve. -/
inductive Action (α : Type) where
  | invoke (op : Op α)
  | load (message : Nat)
  | exchange (failure : Option Nat)
  | move (husk : α)
  | store
  | respond
  deriving Repr, DecidableEq

/-- A step: the thread that moves and its choices. -/
structure Label (α : Type) where
  thread : Nat
  action : Action α
  deriving Repr, DecidableEq

namespace State

variable {α : Type}

/-- The position counter of a side. -/
def pos (state : State α) : Side → Atomic Nat Nat
  | .producer => state.enqueuePos
  | .consumer => state.dequeuePos

/-- The identity of the call a thread has in progress. -/
def callOf (state : State α) (thread : Nat) : Nat :=
  match state.log.current thread with
  | some opened => opened.call
  | none => 0

/-- Move a thread to a program point, noting where a claim loop is entered. -/
def goto (state : State α) (thread : Nat) (pc : Pc α) : State α :=
  { state with
    threads :=
      Function.update state.threads thread
        { state.threads thread with
          pc := pc
          entered :=
            match pc with
            | .loadPos caller => (state.pos caller.side).newest
            | _ => (state.threads thread).entered } }

/-- Note which `close()` call a load of `closed_` read from, if any. -/
def noteClose (state : State α) (thread message : Nat) : State α :=
  match state.closed.author? message with
  | none => state
  | some call =>
      { state with
        threads :=
          Function.update state.threads thread
            { state.threads thread with
              closesRead := call :: (state.threads thread).closesRead } }

/-- Start a call. -/
def invoke (state : State α) (thread : Nat) (op : Op α) : State α :=
  { state with log := state.log.invoke thread op }

/-- Finish a call. -/
def respond (state : State α) (thread : Nat) (result : Result α) : State α :=
  { state with log := state.log.respond thread result }

/-- Replace the position counter of a side. -/
def setPos
    (state : State α) :
    Side → Atomic Nat Nat → State α
  | .producer, counter => { state with enqueuePos := counter }
  | .consumer, counter => { state with dequeuePos := counter }

/-- The winning exchange: advance the counter and take the ticket. -/
def claim
    (arithmetic : Arithmetic)
    (state : State α)
    (thread : Nat)
    (side : Side)
    (ticket : Nat) :
    State α :=
  let advanced :=
    (state.pos side).store (state.callOf thread) (arithmetic.next ticket)
  { state.setPos side advanced with
    log := state.log.mark thread ⟨side, ticket⟩ }

/-- Assign the value of one slot. -/
def setValue (state : State α) (index : Nat) (value : α) : State α :=
  { state with
    slots :=
      Function.update state.slots index
        { state.slots index with value := value } }

/-- Store the sequence of one slot. -/
def storeSequence
    (state : State α)
    (thread index sequence : Nat) :
    State α :=
  { state with
    slots :=
      Function.update state.slots index
        { state.slots index with
          sequence :=
            (state.slots index).sequence.store
              (state.callOf thread) sequence } }

/-- `closed_.store(true)` -/
def storeClosed (state : State α) (thread : Nat) : State α :=
  { state with
    closed := state.closed.store (state.callOf thread) true }

end State

/-- The constructor: every slot is free for the producer of the first lap. -/
def initial [Inhabited α] (arithmetic : Arithmetic) : State α where
  slots index :=
    { sequence := { initial := arithmetic.expected .producer index }
      value := default }
  enqueuePos := { initial := 0 }
  dequeuePos := { initial := 0 }
  closed := { initial := false }
  threads _ := { pc := .idle }
  log := {}

/-- `size()` from the two loaded positions. -/
def sizeOf (arithmetic : Arithmetic) (tail head : Nat) : Nat :=
  let dif := arithmetic.difference tail head
  if dif < 0 then
    0
  else
    let queued := dif.toNat
    if queued < arithmetic.slots then queued else arithmetic.slots

/-- One atomic step of one thread. -/
def step?
    (arithmetic : Arithmetic)
    (state : State α)
    (label : Label α) :
    Option (State α) :=
  let thread := label.thread
  match (state.threads thread).pc, label.action with
  | .idle, .invoke op =>
      (Pc.start? arithmetic.slots op).map fun pc =>
        (state.invoke thread op).goto thread pc
  | .checkClosed caller, .load message =>
      (state.closed.read? message).map fun flag =>
        (state.noteClose thread message).goto thread
          (caller.afterClosedLoad flag)
  | .loadPos caller, .load message =>
      ((state.pos caller.side).read? message).map fun ticket =>
        state.goto thread (.loadSequence caller ticket)
  | .reloadPos caller _, .load message =>
      ((state.pos caller.side).read? message).map fun ticket =>
        state.goto thread (.loadSequence caller ticket)
  | .loadSequence caller ticket, .load message =>
      ((state.slots (arithmetic.slotIndex ticket)).sequence.read?
          message).map fun sequence =>
        state.goto thread
          (.classify caller ticket
            (arithmetic.difference sequence
              (arithmetic.expected caller.side ticket)))
  | .exchange caller ticket, .exchange none =>
      if (state.pos caller.side).latest = ticket then
        some ((state.claim arithmetic thread caller.side ticket).goto
          thread (.moveValue caller ticket))
      else
        none
  | .exchange caller _, .exchange (some message) =>
      ((state.pos caller.side).read? message).map fun ticket =>
        state.goto thread (.loadSequence caller ticket)
  | .moveValue caller ticket, .move husk =>
      let index := arithmetic.slotIndex ticket
      let moved := caller.transfer (state.slots index).value husk
      some ((state.setValue index moved.2).goto thread
        (.storeSequence moved.1 ticket))
  | .storeSequence caller ticket, .store =>
      some ((state.storeSequence thread (arithmetic.slotIndex ticket)
        (arithmetic.published caller.side ticket)).goto thread
          caller.afterSuccess)
  | .storeClosed, .store =>
      some ((state.storeClosed thread).goto thread (.returning .done))
  | .loadClosed, .load message =>
      (state.closed.read? message).map fun flag =>
        (state.noteClose thread message).goto thread
          (.returning (.closed flag))
  | .sizeTail, .load message =>
      (state.enqueuePos.read? message).map fun tail =>
        state.goto thread (.sizeHead tail)
  | .sizeHead tail, .load message =>
      (state.dequeuePos.read? message).map fun head =>
        state.goto thread
          (.returning (.size (sizeOf arithmetic tail head)))
  | .returning result, .respond =>
      some ((state.respond thread result).goto thread .idle)
  | _, _ => none

end ConcurrentQueue.Mpmc
