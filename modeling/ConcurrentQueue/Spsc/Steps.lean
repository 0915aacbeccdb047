import ConcurrentQueue.Spsc.Machine

namespace ConcurrentQueue.Spsc

/-!
# What one step can do

The transitions of each agent with their guards and their exact effect, and
the inversion of `step?` into them.
-/

variable {α : Type}

attribute [simp] State.atProducer State.atConsumer State.atObserver
attribute [simp] State.invoke State.respond
attribute [simp] State.setSlot State.spoilSlot
attribute [simp] State.cacheHead State.cacheTail State.noteClose
attribute [simp] State.publishTail State.publishHead State.storeClosed

/-- The transitions of the producer. -/
inductive ProducerStep (slots : Nat) (state : State α) :
    Action α → State α → Prop where
  | invoke {op pc}
      (isAt : state.producer = .idle)
      (starts : ProducerPc.start? op = some pc) :
      ProducerStep slots state (.invoke op)
        ((state.invoke .producer op).atProducer pc)
  | refused {pusher message}
      (isAt : state.producer = .checkClosed pusher)
      (reads : state.closed.read? message = some true) :
      ProducerStep slots state (.load message)
        (state.atProducer (.returning pusher.refused))
  | admitted {pusher message}
      (isAt : state.producer = .checkClosed pusher)
      (reads : state.closed.read? message = some false) :
      ProducerStep slots state (.load message)
        (state.atProducer (.checkRoom pusher))
  | room {pusher}
      (isAt : state.producer = .checkRoom pusher)
      (hasRoom :
        pusher.hasRoom slots state.headCache state.tail.latest = true) :
      ProducerStep slots state .check
        (state.atProducer
          (.moveIn pusher state.tail.latest []
            (pusher.count slots state.headCache state.tail.latest)))
  | noRoom {pusher}
      (isAt : state.producer = .checkRoom pusher)
      (isFull :
        pusher.hasRoom slots state.headCache state.tail.latest = false) :
      ProducerStep slots state .check
        (state.atProducer (.refreshHead pusher))
  | refreshedRoom {pusher message index}
      (isAt : state.producer = .refreshHead pusher)
      (fresh : state.headSeen ≤ message)
      (reads : state.head.read? message = some index)
      (hasRoom : pusher.hasRoom slots index state.tail.latest = true) :
      ProducerStep slots state (.load message)
        ((state.cacheHead message index).atProducer
          (.moveIn pusher state.tail.latest []
            (pusher.count slots index state.tail.latest)))
  | refreshedFull {pusher message index}
      (isAt : state.producer = .refreshHead pusher)
      (fresh : state.headSeen ≤ message)
      (reads : state.head.read? message = some index)
      (isFull : pusher.hasRoom slots index state.tail.latest = false) :
      ProducerStep slots state (.load message)
        ((state.cacheHead message index).atProducer pusher.afterFull)
  | moveIn {pusher index moved count husk value left}
      (isAt : state.producer = .moveIn pusher index moved count)
      (taken : pusher.take? moved.length husk = some (value, left)) :
      ProducerStep slots state (.move husk)
        ((state.setSlot index value).atProducer
          (.afterMove slots left index (moved ++ [value]) count))
  | throwIn {pusher index moved count slotValue outValue}
      (isAt : state.producer = .moveIn pusher index moved count)
      (mayThrow : pusher.mayThrow = true) :
      ProducerStep slots state (.throw slotValue outValue)
        ((state.setSlot index slotValue).atProducer (.returning .pushThrew))
  | publishTail {pusher index moved}
      (isAt : state.producer = .publishTail pusher index moved) :
      ProducerStep slots state .store
        ((state.publishTail index moved).atProducer
          (.returning (pusher.accepted moved.length)))
  | respond {result}
      (isAt : state.producer = .returning result) :
      ProducerStep slots state .respond
        ((state.respond .producer result).atProducer .idle)

/-- The transitions of the consumer. -/
inductive ConsumerStep (slots : Nat) (state : State α) :
    Action α → State α → Prop where
  | invoke {op pc}
      (isAt : state.consumer = .idle)
      (starts : ConsumerPc.start? op = some pc) :
      ConsumerStep slots state (.invoke op)
        ((state.invoke .consumer op).atConsumer pc)
  | data {popper}
      (isAt : state.consumer = .checkData popper)
      (hasData :
        popper.hasData slots state.tailCache state.head.latest = true) :
      ConsumerStep slots state .check
        (state.atConsumer
          (.moveOut popper state.head.latest []
            (popper.count slots state.tailCache state.head.latest)))
  | noData {popper}
      (isAt : state.consumer = .checkData popper)
      (isEmpty :
        popper.hasData slots state.tailCache state.head.latest = false) :
      ConsumerStep slots state .check
        (state.atConsumer (.refreshTail popper))
  | refreshedData {popper message index}
      (isAt : state.consumer = .refreshTail popper)
      (fresh : state.tailSeen ≤ message)
      (reads : state.tail.read? message = some index)
      (hasData : popper.hasData slots index state.head.latest = true) :
      ConsumerStep slots state (.load message)
        ((state.cacheTail message index).atConsumer
          (.moveOut popper state.head.latest []
            (popper.count slots index state.head.latest)))
  | refreshedEmpty {popper message index}
      (isAt : state.consumer = .refreshTail popper)
      (fresh : state.tailSeen ≤ message)
      (reads : state.tail.read? message = some index)
      (isEmpty : popper.hasData slots index state.head.latest = false) :
      ConsumerStep slots state (.load message)
        ((state.cacheTail message index).atConsumer popper.afterEmpty)
  | popClosed {out message flag}
      (isAt : state.consumer = .popClosed out)
      (reads : state.closed.read? message = some flag) :
      ConsumerStep slots state (.load message)
        ((state.noteClose message).atConsumer (.checkData (.pop out flag)))
  | moveOut {popper index moved count husk}
      (isAt : state.consumer = .moveOut popper index moved count) :
      ConsumerStep slots state (.move husk)
        ((state.setSlot index husk).atConsumer
          (.afterMove slots
            (popper.receive moved.length (state.buffer index))
            index (moved ++ [state.buffer index]) count))
  | throwOut {popper index moved count slotValue outValue}
      (isAt : state.consumer = .moveOut popper index moved count)
      (mayThrow : popper.mayThrow = true) :
      ConsumerStep slots state (.throw slotValue outValue)
        ((state.spoilSlot index slotValue).atConsumer
          (.returning (.popThrew outValue)))
  | publishHead {popper index moved}
      (isAt : state.consumer = .publishHead popper index moved) :
      ConsumerStep slots state .store
        ((state.publishHead index moved).atConsumer
          (.returning (popper.delivered moved.length)))
  | loadClosed {message flag}
      (isAt : state.consumer = .loadClosed)
      (reads : state.closed.read? message = some flag) :
      ConsumerStep slots state (.load message)
        ((state.noteClose message).atConsumer (.returning (.closed flag)))
  | respond {result}
      (isAt : state.consumer = .returning result) :
      ConsumerStep slots state .respond
        ((state.respond .consumer result).atConsumer .idle)

/-- The transitions of an observer. -/
inductive ObserverStep (slots : Nat) (state : State α) (thread : Nat) :
    Action α → State α → Prop where
  | invoke {op pc}
      (isAt : state.observers thread = .idle)
      (starts : ObserverPc.start? slots op = some pc) :
      ObserverStep slots state thread (.invoke op)
        ((state.invoke (.observer thread) op).atObserver thread pc)
  | storeClosed
      (isAt : state.observers thread = .storeClosed) :
      ObserverStep slots state thread .store
        ((state.storeClosed (.observer thread)).atObserver thread
          (.returning .done))
  | loadClosed {message flag}
      (isAt : state.observers thread = .loadClosed)
      (reads : state.closed.read? message = some flag) :
      ObserverStep slots state thread (.load message)
        (state.atObserver thread (.returning (.closed flag)))
  | sizeHead {message head}
      (isAt : state.observers thread = .sizeHead)
      (reads : state.head.read? message = some head) :
      ObserverStep slots state thread (.load message)
        (state.atObserver thread (.sizeTail head))
  | sizeTail {head message tail}
      (isAt : state.observers thread = .sizeTail head)
      (reads : state.tail.read? message = some tail) :
      ObserverStep slots state thread (.load message)
        (state.atObserver thread
          (.returning (.size (sizeOf slots head tail))))
  | respond {result}
      (isAt : state.observers thread = .returning result) :
      ObserverStep slots state thread .respond
        ((state.respond (.observer thread) result).atObserver thread .idle)

/-- The transitions of the whole system. -/
inductive Step (slots : Nat) (state : State α) :
    Agent → Action α → State α → Prop where
  | producer {action next} :
      ProducerStep slots state action next →
      Step slots state .producer action next
  | consumer {action next} :
      ConsumerStep slots state action next →
      Step slots state .consumer action next
  | observer {thread action next} :
      ObserverStep slots state thread action next →
      Step slots state (.observer thread) action next

/-- Every step of the producer is one of its transitions. -/
theorem ProducerStep.of_producerStep?
    {slots : Nat}
    {state next : State α}
    {action : Action α}
    (taken : producerStep? slots state action = some next) :
    ProducerStep slots state action next := by
  simp only [producerStep?] at taken
  split at taken
  case h_1 op isAt =>
      obtain ⟨pc, starts, rfl⟩ := Option.map_eq_some_iff.mp taken
      exact .invoke isAt starts
  case h_2 pusher message isAt =>
      obtain ⟨flag, reads, rfl⟩ := Option.map_eq_some_iff.mp taken
      cases flag with
      | true => exact .refused isAt reads
      | false => exact .admitted isAt reads
  case h_3 pusher isAt =>
      cases taken
      cases hasRoom :
          pusher.hasRoom slots state.headCache state.tail.latest with
      | true =>
          simp only [State.tryMoveIn, hasRoom, if_true]
          exact .room isAt hasRoom
      | false =>
          simp only [State.tryMoveIn, hasRoom, Bool.false_eq_true, if_false]
          exact .noRoom isAt hasRoom
  case h_4 pusher message isAt =>
      split at taken
      · rename_i fresh
        obtain ⟨index, reads, rfl⟩ := Option.map_eq_some_iff.mp taken
        cases hasRoom : pusher.hasRoom slots index state.tail.latest with
        | true =>
            simp only [State.tryMoveIn, State.cacheHead, hasRoom, if_true]
            exact .refreshedRoom isAt fresh reads hasRoom
        | false =>
            simp only [State.tryMoveIn, State.cacheHead, hasRoom,
              Bool.false_eq_true, if_false]
            exact .refreshedFull isAt fresh reads hasRoom
      · contradiction
  case h_5 pusher index moved count husk isAt =>
      obtain ⟨⟨value, left⟩, takes, rfl⟩ :=
        Option.map_eq_some_iff.mp taken
      exact .moveIn isAt takes
  case h_6 pusher index moved count slotValue outValue isAt =>
      split at taken
      · rename_i mayThrow
        cases taken
        exact .throwIn isAt mayThrow
      · contradiction
  case h_7 pusher index moved isAt =>
      cases taken
      exact .publishTail isAt
  case h_8 result isAt =>
      cases taken
      exact .respond isAt
  case h_9 =>
      contradiction

/-- Every step of the consumer is one of its transitions. -/
theorem ConsumerStep.of_consumerStep?
    {slots : Nat}
    {state next : State α}
    {action : Action α}
    (taken : consumerStep? slots state action = some next) :
    ConsumerStep slots state action next := by
  simp only [consumerStep?] at taken
  split at taken
  case h_1 op isAt =>
      obtain ⟨pc, starts, rfl⟩ := Option.map_eq_some_iff.mp taken
      exact .invoke isAt starts
  case h_2 popper isAt =>
      cases taken
      cases hasData :
          popper.hasData slots state.tailCache state.head.latest with
      | true =>
          simp only [State.tryMoveOut, hasData, if_true]
          exact .data isAt hasData
      | false =>
          simp only [State.tryMoveOut, hasData, Bool.false_eq_true, if_false]
          exact .noData isAt hasData
  case h_3 popper message isAt =>
      split at taken
      · rename_i fresh
        obtain ⟨index, reads, rfl⟩ := Option.map_eq_some_iff.mp taken
        cases hasData : popper.hasData slots index state.head.latest with
        | true =>
            simp only [State.tryMoveOut, State.cacheTail, hasData, if_true]
            exact .refreshedData isAt fresh reads hasData
        | false =>
            simp only [State.tryMoveOut, State.cacheTail, hasData,
              Bool.false_eq_true, if_false]
            exact .refreshedEmpty isAt fresh reads hasData
      · contradiction
  case h_4 out message isAt =>
      obtain ⟨flag, reads, rfl⟩ := Option.map_eq_some_iff.mp taken
      exact .popClosed isAt reads
  case h_5 popper index moved count husk isAt =>
      cases taken
      exact .moveOut isAt
  case h_6 popper index moved count slotValue outValue isAt =>
      split at taken
      · rename_i mayThrow
        cases taken
        exact .throwOut isAt mayThrow
      · contradiction
  case h_7 popper index moved isAt =>
      cases taken
      exact .publishHead isAt
  case h_8 message isAt =>
      obtain ⟨flag, reads, rfl⟩ := Option.map_eq_some_iff.mp taken
      exact .loadClosed isAt reads
  case h_9 result isAt =>
      cases taken
      exact .respond isAt
  case h_10 =>
      contradiction

/-- Every step of an observer is one of its transitions. -/
theorem ObserverStep.of_observerStep?
    {slots thread : Nat}
    {state next : State α}
    {action : Action α}
    (taken : observerStep? slots state thread action = some next) :
    ObserverStep slots state thread action next := by
  simp only [observerStep?] at taken
  split at taken
  case h_1 op isAt =>
      obtain ⟨pc, starts, rfl⟩ := Option.map_eq_some_iff.mp taken
      exact .invoke isAt starts
  case h_2 isAt =>
      cases taken
      exact .storeClosed isAt
  case h_3 message isAt =>
      obtain ⟨flag, reads, rfl⟩ := Option.map_eq_some_iff.mp taken
      exact .loadClosed isAt reads
  case h_4 message isAt =>
      obtain ⟨head, reads, rfl⟩ := Option.map_eq_some_iff.mp taken
      exact .sizeHead isAt reads
  case h_5 head message isAt =>
      obtain ⟨tail, reads, rfl⟩ := Option.map_eq_some_iff.mp taken
      exact .sizeTail isAt reads
  case h_6 result isAt =>
      cases taken
      exact .respond isAt
  case h_7 =>
      contradiction

/-- Every step of the machine is one of the listed transitions. -/
theorem Step.of_step?
    {slots : Nat}
    {state next : State α}
    {label : Label α}
    (taken : step? slots state label = some next) :
    Step slots state label.agent label.action next := by
  rcases label with ⟨agent, action⟩
  cases agent with
  | producer => exact .producer (ProducerStep.of_producerStep? taken)
  | consumer => exact .consumer (ConsumerStep.of_consumerStep? taken)
  | observer thread =>
      exact .observer (ObserverStep.of_observerStep? taken)

/-- Every transition of the producer is a step. -/
theorem ProducerStep.taken
    {slots : Nat}
    {state next : State α}
    {action : Action α}
    (step : ProducerStep slots state action next) :
    step? slots state ⟨.producer, action⟩ = some next := by
  cases step with
  | invoke isAt starts => simp [step?, producerStep?, isAt, starts]
  | refused isAt reads | admitted isAt reads =>
      simp [step?, producerStep?, isAt, reads]
  | room isAt hasRoom =>
      simp [step?, producerStep?, isAt, State.tryMoveIn, hasRoom]
  | noRoom isAt isFull =>
      simp [step?, producerStep?, isAt, State.tryMoveIn, isFull]
  | refreshedRoom isAt fresh reads hasRoom =>
      simp [step?, producerStep?, isAt, fresh, reads, State.tryMoveIn,
        hasRoom]
  | refreshedFull isAt fresh reads isFull =>
      simp [step?, producerStep?, isAt, fresh, reads, State.tryMoveIn,
        isFull]
  | moveIn isAt takes => simp [step?, producerStep?, isAt, takes]
  | throwIn isAt mayThrow => simp [step?, producerStep?, isAt, mayThrow]
  | publishTail isAt | respond isAt => simp [step?, producerStep?, isAt]

/-- Every transition of the consumer is a step. -/
theorem ConsumerStep.taken
    {slots : Nat}
    {state next : State α}
    {action : Action α}
    (step : ConsumerStep slots state action next) :
    step? slots state ⟨.consumer, action⟩ = some next := by
  cases step with
  | invoke isAt starts => simp [step?, consumerStep?, isAt, starts]
  | data isAt hasData =>
      simp [step?, consumerStep?, isAt, State.tryMoveOut, hasData]
  | noData isAt isEmpty =>
      simp [step?, consumerStep?, isAt, State.tryMoveOut, isEmpty]
  | refreshedData isAt fresh reads hasData =>
      simp [step?, consumerStep?, isAt, fresh, reads, State.tryMoveOut,
        hasData]
  | refreshedEmpty isAt fresh reads isEmpty =>
      simp [step?, consumerStep?, isAt, fresh, reads, State.tryMoveOut,
        isEmpty]
  | popClosed isAt reads | loadClosed isAt reads =>
      simp [step?, consumerStep?, isAt, reads]
  | moveOut isAt => simp [step?, consumerStep?, isAt]
  | throwOut isAt mayThrow => simp [step?, consumerStep?, isAt, mayThrow]
  | publishHead isAt | respond isAt => simp [step?, consumerStep?, isAt]

end ConcurrentQueue.Spsc
