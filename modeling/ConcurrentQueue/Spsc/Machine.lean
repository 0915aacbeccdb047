import ConcurrentQueue.Contract
import ConcurrentQueue.Library.Atomic
import ConcurrentQueue.Library.History
import ConcurrentQueue.Library.Ring
import ConcurrentQueue.Library.Run
import ConcurrentQueue.Library.SizeT

namespace ConcurrentQueue.Spsc

/-!
# The atomic steps of `SpscQueue`

One producer, one consumer and any number of observers run member functions.
Every move of an element, every store of an index and every load of the other
side's index or of `closed_` is a step of its own, and a load of the other
side's index may read any message not older than the last one that side has
received.  A side's own index is loaded as part of the step that uses it,
since nobody else writes it.
-/

/-- Who makes a call. -/
inductive Agent where
  | producer
  | consumer
  | observer (thread : Nat)
  deriving Repr, DecidableEq

/-- The call that stored an index, and the elements counted up to there. -/
structure Publication where
  call : Nat
  total : Nat
  deriving Repr, DecidableEq

/--
The elements that one index store hands over, or the moment at which a
throwing move spoiled the element about to be popped.
-/
inductive Handover (α : Type) where
  | pushed (values : List α)
  | popped (values : List α)
  | spoiled
  deriving Repr, DecidableEq

/-- `ring_slots` and the construction of `buffer_`. -/
def ringSlots
    (elementSize capacity : Nat) :
    Except ConstructionError Nat :=
  if capacity = 0 then
    .error .invalidArgument
  else if capacity = SizeT.modulus - 1 then
    .error .lengthError
  else if vectorMaxSize elementSize < capacity + 1 then
    .error .lengthError
  else
    .ok (capacity + 1)

/-- `next(index)` -/
def next (slots index : Nat) : Nat :=
  Ring.next slots index

/-- `free_slots()` of `try_push_n`. -/
def freeSlots (slots headCache tail : Nat) : Nat :=
  SizeT.sub (SizeT.sub (SizeT.add headCache slots) 1) tail % slots

/-- `available()` of `try_pop_n`. -/
def available (slots tailCache head : Nat) : Nat :=
  SizeT.sub (SizeT.add tailCache slots) head % slots

/-- `size()` from the two loaded indices. -/
def sizeOf (slots head tail : Nat) : Nat :=
  SizeT.sub (SizeT.add tail slots) head % slots

/-- A call of the producer with the values it still holds. -/
inductive Pusher (α : Type) where
  | push (value : α)
  | tryPush (value : α)
  | tryPushN (items : List α)
  deriving Repr, DecidableEq

/-- A call of the consumer with the variables it moves into. -/
inductive Popper (α : Type) where
  | pop (out : α) (closedSeen : Bool)
  | tryPop (out : α)
  | tryPopN (out : List α)
  deriving Repr, DecidableEq

/-- Where the producer is between two of its steps. -/
inductive ProducerPc (α : Type) where
  | idle
  | checkClosed (pusher : Pusher α)
  | checkRoom (pusher : Pusher α)
  | refreshHead (pusher : Pusher α)
  | moveIn (pusher : Pusher α) (index : Nat) (moved : List α) (count : Nat)
  | publishTail (pusher : Pusher α) (index : Nat) (moved : List α)
  | returning (result : Result α)
  deriving Repr, DecidableEq

/-- Where the consumer is between two of its steps. -/
inductive ConsumerPc (α : Type) where
  | idle
  | checkData (popper : Popper α)
  | refreshTail (popper : Popper α)
  | popClosed (out : α)
  | moveOut (popper : Popper α) (index : Nat) (moved : List α) (count : Nat)
  | publishHead (popper : Popper α) (index : Nat) (moved : List α)
  | loadClosed
  | returning (result : Result α)
  deriving Repr, DecidableEq

/-- Where an observer is between two of its steps. -/
inductive ObserverPc (α : Type) where
  | idle
  | storeClosed
  | loadClosed
  | sizeHead
  | sizeTail (head : Nat)
  | returning (result : Result α)
  deriving Repr, DecidableEq

namespace Pusher

variable {α : Type}

/-- `has_room(next(tail))`, or `free_slots() != 0`, against the cache. -/
def hasRoom (slots headCache tail : Nat) : Pusher α → Bool
  | .push _ | .tryPush _ => next slots tail != headCache
  | .tryPushN _ => freeSlots slots headCache tail != 0

/-- How many elements are moved once there is room. -/
def count (slots headCache tail : Nat) : Pusher α → Nat
  | .push _ | .tryPush _ => 1
  | .tryPushN items => min items.length (freeSlots slots headCache tail)

/-- The result where nothing was pushed. -/
def refused : Pusher α → Result α
  | .push _ | .tryPush _ => .pushed false
  | .tryPushN items => .pushedN 0 items

/-- The result where `count` elements were pushed. -/
def accepted (count : Nat) : Pusher α → Result α
  | .push _ | .tryPush _ => .pushed true
  | .tryPushN items => .pushedN count items

/-- What follows a check that found the ring full. -/
def afterFull : Pusher α → ProducerPc α
  | .push value => .checkClosed (.push value)
  | .tryPush _ => .returning (.pushed false)
  | .tryPushN items => .returning (.pushedN 0 items)

/-- Take the next value to be moved, leaving some `husk` in its place. -/
def take? (moved : Nat) (husk : α) : Pusher α → Option (α × Pusher α)
  | .push value => some (value, .push husk)
  | .tryPush value => some (value, .tryPush husk)
  | .tryPushN items =>
      items[moved]?.map fun value =>
        (value, .tryPushN (items.set moved husk))

/-- The bulk operations require a move assignment that cannot throw. -/
def mayThrow : Pusher α → Bool
  | .push _ | .tryPush _ => true
  | .tryPushN _ => false

end Pusher

namespace Popper

variable {α : Type}

/-- `has_data(head)`, or `available() != 0`, against the cache. -/
def hasData (slots tailCache head : Nat) : Popper α → Bool
  | .pop _ _ | .tryPop _ => head != tailCache
  | .tryPopN _ => available slots tailCache head != 0

/-- How many elements are moved once there is data. -/
def count (slots tailCache head : Nat) : Popper α → Nat
  | .pop _ _ | .tryPop _ => 1
  | .tryPopN out => min out.length (available slots tailCache head)

/-- The result where `count` elements were popped. -/
def delivered (count : Nat) : Popper α → Result α
  | .pop out _ | .tryPop out => .popped true out
  | .tryPopN out => .poppedN count out

/-- What follows a check that found the ring empty. -/
def afterEmpty : Popper α → ConsumerPc α
  | .pop out false => .popClosed out
  | .pop out true => .returning (.popped false out)
  | .tryPop out => .returning (.popped false out)
  | .tryPopN out => .returning (.poppedN 0 out)

/-- Receive the next value. -/
def receive (moved : Nat) (value : α) : Popper α → Popper α
  | .pop _ closedSeen => .pop value closedSeen
  | .tryPop _ => .tryPop value
  | .tryPopN out => .tryPopN (out.set moved value)

/-- The bulk operations require a move assignment that cannot throw. -/
def mayThrow : Popper α → Bool
  | .pop _ _ | .tryPop _ => true
  | .tryPopN _ => false

end Popper

/-- The first program point of a call of the producer. -/
def ProducerPc.start? : Op α → Option (ProducerPc α)
  | .push value => some (.checkClosed (.push value))
  | .tryPush value => some (.checkClosed (.tryPush value))
  | .tryPushN items =>
      some (if items.isEmpty then .returning (.pushedN 0 items)
        else .checkClosed (.tryPushN items))
  | _ => none

/-- The first program point of a call of the consumer. -/
def ConsumerPc.start? : Op α → Option (ConsumerPc α)
  | .pop out => some (.checkData (.pop out false))
  | .tryPop out => some (.checkData (.tryPop out))
  | .tryPopN out =>
      some (if out.isEmpty then .returning (.poppedN 0 out)
        else .checkData (.tryPopN out))
  | .closed => some .loadClosed
  | _ => none

/-- The first program point of a call of an observer. -/
def ObserverPc.start? (slots : Nat) : Op α → Option (ObserverPc α)
  | .close => some .storeClosed
  | .closed => some .loadClosed
  | .size => some .sizeHead
  | .capacity => some (.returning (.capacity (slots - 1)))
  | _ => none

/--
The queue object, its users and the history of their calls.  `headSeen` and
`tailSeen` are the messages behind `head_cache_` and `tail_cache_`, and
`closesRead` the `close()` calls whose store the consumer has read.
-/
structure State (α : Type) where
  buffer : Nat → α
  head : Atomic Publication Nat
  tail : Atomic Publication Nat
  closed : Atomic Nat Bool
  headCache : Nat
  headSeen : Nat
  tailCache : Nat
  tailSeen : Nat
  producer : ProducerPc α
  consumer : ConsumerPc α
  observers : Nat → ObserverPc α
  closesRead : List Nat
  log : CallLog Agent (Op α) (Handover α) (Result α)

/-- The choices that a step may resolve. -/
inductive Action (α : Type) where
  | invoke (op : Op α)
  | load (message : Nat)
  | check
  | move (husk : α)
  | throw (slotValue outValue : α)
  | store
  | respond
  deriving Repr, DecidableEq

/-- A step: the agent that moves and its choices. -/
structure Label (α : Type) where
  agent : Agent
  action : Action α
  deriving Repr, DecidableEq

/-- The constructor: all indices zero, all slots default. -/
def initial [Inhabited α] : State α where
  buffer _ := default
  head := { initial := 0 }
  tail := { initial := 0 }
  closed := { initial := false }
  headCache := 0
  headSeen := 0
  tailCache := 0
  tailSeen := 0
  producer := .idle
  consumer := .idle
  observers _ := .idle
  closesRead := []
  log := {}

/-- The elements counted up to one message; none before the first store. -/
def totalAt (index : Atomic Publication Nat) (message : Nat) : Nat :=
  ((index.author? message).map Publication.total).getD 0

/-- The elements counted up to the newest message. -/
def total (index : Atomic Publication Nat) : Nat :=
  totalAt index index.newest

namespace State

variable {α : Type}

/-- The identity of the call an agent has in progress. -/
def callOf (state : State α) (agent : Agent) : Nat :=
  match state.log.current agent with
  | some opened => opened.call
  | none => 0

/-- Move the producer to a program point. -/
def atProducer (state : State α) (pc : ProducerPc α) : State α :=
  { state with producer := pc }

/-- Move the consumer to a program point. -/
def atConsumer (state : State α) (pc : ConsumerPc α) : State α :=
  { state with consumer := pc }

/-- Move an observer to a program point. -/
def atObserver
    (state : State α)
    (thread : Nat)
    (pc : ObserverPc α) :
    State α :=
  { state with observers := Function.update state.observers thread pc }

/-- Start a call. -/
def invoke (state : State α) (agent : Agent) (op : Op α) : State α :=
  { state with log := state.log.invoke agent op }

/-- Finish a call. -/
def respond (state : State α) (agent : Agent) (result : Result α) : State α :=
  { state with log := state.log.respond agent result }

/-- Assign one slot. -/
def setSlot (state : State α) (index : Nat) (value : α) : State α :=
  { state with buffer := Function.update state.buffer index value }

/-- A throwing move out of a slot leaves some value there. -/
def spoilSlot (state : State α) (index : Nat) (value : α) : State α :=
  { state with
    buffer := Function.update state.buffer index value
    log := state.log.mark .consumer .spoiled }

/-- `head_cache_ = head_.load()` -/
def cacheHead (state : State α) (message index : Nat) : State α :=
  { state with headCache := index, headSeen := message }

/-- `tail_cache_ = tail_.load()` -/
def cacheTail (state : State α) (message index : Nat) : State α :=
  { state with tailCache := index, tailSeen := message }

/-- Store `tail_`, which hands `moved` over to the consumer. -/
def publishTail
    (state : State α)
    (index : Nat)
    (moved : List α) :
    State α :=
  { state with
    tail :=
      state.tail.store
        ⟨state.callOf .producer, total state.tail + moved.length⟩ index
    log := state.log.mark .producer (.pushed moved) }

/-- Store `head_`, which hands the slots of `moved` back to the producer. -/
def publishHead
    (state : State α)
    (index : Nat)
    (moved : List α) :
    State α :=
  { state with
    head :=
      state.head.store
        ⟨state.callOf .consumer, total state.head + moved.length⟩ index
    log := state.log.mark .consumer (.popped moved) }

/-- `closed_.store(true)` -/
def storeClosed (state : State α) (agent : Agent) : State α :=
  { state with closed := state.closed.store (state.callOf agent) true }

/-- Note which `close()` call the consumer's load of `closed_` read from. -/
def noteClose (state : State α) (message : Nat) : State α :=
  { state with
    closesRead :=
      (state.closed.author? message).toList ++ state.closesRead }

/-- Start moving in where there is room, else go on to `otherwise`. -/
def tryMoveIn
    (slots : Nat)
    (state : State α)
    (pusher : Pusher α)
    (otherwise : ProducerPc α) :
    State α :=
  if pusher.hasRoom slots state.headCache state.tail.latest then
    state.atProducer
      (.moveIn pusher state.tail.latest []
        (pusher.count slots state.headCache state.tail.latest))
  else
    state.atProducer otherwise

/-- Start moving out where there is data, else go on to `otherwise`. -/
def tryMoveOut
    (slots : Nat)
    (state : State α)
    (popper : Popper α)
    (otherwise : ConsumerPc α) :
    State α :=
  if popper.hasData slots state.tailCache state.head.latest then
    state.atConsumer
      (.moveOut popper state.head.latest []
        (popper.count slots state.tailCache state.head.latest))
  else
    state.atConsumer otherwise

end State

/-- What follows one element moved into the ring. -/
def ProducerPc.afterMove
    (slots : Nat)
    (pusher : Pusher α)
    (index : Nat)
    (moved : List α)
    (count : Nat) :
    ProducerPc α :=
  if moved.length < count then
    .moveIn pusher (next slots index) moved count
  else
    .publishTail pusher (next slots index) moved

/-- What follows one element moved out of the ring. -/
def ConsumerPc.afterMove
    (slots : Nat)
    (popper : Popper α)
    (index : Nat)
    (moved : List α)
    (count : Nat) :
    ConsumerPc α :=
  if moved.length < count then
    .moveOut popper (next slots index) moved count
  else
    .publishHead popper (next slots index) moved

/-- One atomic step of the producer. -/
def producerStep?
    (slots : Nat)
    (state : State α)
    (action : Action α) :
    Option (State α) :=
  match state.producer, action with
  | .idle, .invoke op =>
      (ProducerPc.start? op).map fun pc =>
        (state.invoke .producer op).atProducer pc
  | .checkClosed pusher, .load message =>
      (state.closed.read? message).map fun flag =>
        state.atProducer
          (if flag then .returning pusher.refused else .checkRoom pusher)
  | .checkRoom pusher, .check =>
      some (state.tryMoveIn slots pusher (.refreshHead pusher))
  | .refreshHead pusher, .load message =>
      if state.headSeen ≤ message then
        (state.head.read? message).map fun index =>
          (state.cacheHead message index).tryMoveIn slots pusher
            pusher.afterFull
      else
        none
  | .moveIn pusher index moved count, .move husk =>
      (pusher.take? moved.length husk).map fun (value, left) =>
        (state.setSlot index value).atProducer
          (.afterMove slots left index (moved ++ [value]) count)
  | .moveIn pusher index _ _, .throw slotValue _ =>
      if pusher.mayThrow then
        some ((state.setSlot index slotValue).atProducer
          (.returning .pushThrew))
      else
        none
  | .publishTail pusher index moved, .store =>
      some ((state.publishTail index moved).atProducer
        (.returning (pusher.accepted moved.length)))
  | .returning result, .respond =>
      some ((state.respond .producer result).atProducer .idle)
  | _, _ => none

/-- One atomic step of the consumer. -/
def consumerStep?
    (slots : Nat)
    (state : State α)
    (action : Action α) :
    Option (State α) :=
  match state.consumer, action with
  | .idle, .invoke op =>
      (ConsumerPc.start? op).map fun pc =>
        (state.invoke .consumer op).atConsumer pc
  | .checkData popper, .check =>
      some (state.tryMoveOut slots popper (.refreshTail popper))
  | .refreshTail popper, .load message =>
      if state.tailSeen ≤ message then
        (state.tail.read? message).map fun index =>
          (state.cacheTail message index).tryMoveOut slots popper
            popper.afterEmpty
      else
        none
  | .popClosed out, .load message =>
      (state.closed.read? message).map fun flag =>
        (state.noteClose message).atConsumer (.checkData (.pop out flag))
  | .moveOut popper index moved count, .move husk =>
      some ((state.setSlot index husk).atConsumer
        (.afterMove slots
          (popper.receive moved.length (state.buffer index))
          index (moved ++ [state.buffer index]) count))
  | .moveOut popper index _ _, .throw slotValue outValue =>
      if popper.mayThrow then
        some ((state.spoilSlot index slotValue).atConsumer
          (.returning (.popThrew outValue)))
      else
        none
  | .publishHead popper index moved, .store =>
      some ((state.publishHead index moved).atConsumer
        (.returning (popper.delivered moved.length)))
  | .loadClosed, .load message =>
      (state.closed.read? message).map fun flag =>
        (state.noteClose message).atConsumer (.returning (.closed flag))
  | .returning result, .respond =>
      some ((state.respond .consumer result).atConsumer .idle)
  | _, _ => none

/-- One atomic step of an observer. -/
def observerStep?
    (slots : Nat)
    (state : State α)
    (thread : Nat)
    (action : Action α) :
    Option (State α) :=
  match state.observers thread, action with
  | .idle, .invoke op =>
      (ObserverPc.start? slots op).map fun pc =>
        (state.invoke (.observer thread) op).atObserver thread pc
  | .storeClosed, .store =>
      some ((state.storeClosed (.observer thread)).atObserver thread
        (.returning .done))
  | .loadClosed, .load message =>
      (state.closed.read? message).map fun flag =>
        state.atObserver thread (.returning (.closed flag))
  | .sizeHead, .load message =>
      (state.head.read? message).map fun head =>
        state.atObserver thread (.sizeTail head)
  | .sizeTail head, .load message =>
      (state.tail.read? message).map fun tail =>
        state.atObserver thread (.returning (.size (sizeOf slots head tail)))
  | .returning result, .respond =>
      some ((state.respond (.observer thread) result).atObserver thread
        .idle)
  | _, _ => none

/-- One atomic step of one agent. -/
def step?
    (slots : Nat)
    (state : State α)
    (label : Label α) :
    Option (State α) :=
  match label.agent with
  | .producer => producerStep? slots state label.action
  | .consumer => consumerStep? slots state label.action
  | .observer thread => observerStep? slots state thread label.action

end ConcurrentQueue.Spsc
