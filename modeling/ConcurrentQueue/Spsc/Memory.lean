import ConcurrentQueue.Library.Awareness
import ConcurrentQueue.Spsc.Indices

namespace ConcurrentQueue.Spsc

/-!
# The memory orders of `SpscQueue`

Which atomic object each step accesses and in which order, and which plain
memory it touches.  Each side loads its own index relaxed and the other side's
index with acquire, and stores its own with release; `closed_` is stored with
release and loaded with acquire everywhere but in the pushes.
-/

variable {α : Type}

/-- The atomic objects of the queue. -/
inductive Location where
  | head
  | tail
  | closed
  deriving Repr, DecidableEq

/-- The plain memory of the queue. -/
inductive Cell where
  | slot (index : Nat)
  | headCache
  | tailCache
  deriving Repr, DecidableEq

/-- The memory accesses of one step of the producer. -/
def producerEffects
    (state : State α)
    (action : Action α) :
    List (Effect Location Cell) :=
  match state.producer, action with
  | .idle, .invoke _ =>
      [.begins state.log.nextCall]
  | .checkClosed _, .load message =>
      [.load .relaxed .closed message]
  | .checkRoom _, .check =>
      [.load .relaxed .tail state.tail.newest, .access .headCache]
  | .refreshHead _, .load message =>
      [.load .acquire .head message, .access .headCache]
  | .moveIn _ index _ _, .move _ =>
      [.access (.slot index)]
  | .moveIn _ index _ _, .throw _ _ =>
      [.access (.slot index)]
  | .publishTail _ _ _, .store =>
      [.store .release .tail (state.tail.newest + 1)]
  | .returning _, .respond =>
      [.ends (state.callOf .producer)]
  | _, _ =>
      []

/-- The memory accesses of one step of the consumer. -/
def consumerEffects
    (state : State α)
    (action : Action α) :
    List (Effect Location Cell) :=
  match state.consumer, action with
  | .idle, .invoke _ =>
      [.begins state.log.nextCall]
  | .checkData _, .check =>
      [.load .relaxed .head state.head.newest, .access .tailCache]
  | .refreshTail _, .load message =>
      [.load .acquire .tail message, .access .tailCache]
  | .popClosed _, .load message =>
      [.load .acquire .closed message]
  | .moveOut _ index _ _, .move _ =>
      [.access (.slot index)]
  | .moveOut _ index _ _, .throw _ _ =>
      [.access (.slot index)]
  | .publishHead _ _ _, .store =>
      [.store .release .head (state.head.newest + 1)]
  | .loadClosed, .load message =>
      [.load .acquire .closed message]
  | .returning _, .respond =>
      [.ends (state.callOf .consumer)]
  | _, _ =>
      []

/-- The memory accesses of one step of an observer. -/
def observerEffects
    (state : State α)
    (thread : Nat)
    (action : Action α) :
    List (Effect Location Cell) :=
  match state.observers thread, action with
  | .idle, .invoke _ =>
      [.begins state.log.nextCall]
  | .storeClosed, .store =>
      [.store .release .closed (state.closed.newest + 1)]
  | .loadClosed, .load message =>
      [.load .acquire .closed message]
  | .sizeHead, .load message =>
      [.load .relaxed .head message]
  | .sizeTail _, .load message =>
      [.load .relaxed .tail message]
  | .returning _, .respond =>
      [.ends (state.callOf (.observer thread))]
  | _, _ =>
      []

/-- The memory accesses of one step. -/
def effects
    (state : State α)
    (label : Label α) :
    List (Effect Location Cell) :=
  match label.agent with
  | .producer => producerEffects state label.action
  | .consumer => consumerEffects state label.action
  | .observer thread => observerEffects state thread label.action

/-- The memory accesses of the queue. -/
def accesses : Accesses (State α) (Label α) Agent Location Cell where
  thread label := label.agent
  effects := effects

/-- The call that stored one message of an atomic object. -/
def authorAt? (state : State α) : Location → Nat → Option Nat
  | .head, message => (state.head.author? message).map Publication.call
  | .tail, message => (state.tail.author? message).map Publication.call
  | .closed, message => state.closed.author? message

/-- Where the queue keeps its calls and the authors of its messages. -/
def recording :
    Recording (State α) (Label α) Agent Location (Op α) (Handover α)
      (Result α) where
  log := State.log
  author? := authorAt?
  op? label :=
    match label.action with
    | .invoke op => some op
    | _ => none

/-- The state of the queue with the memory behind it. -/
abbrev OrderedState (α : Type) :=
  Ordered (State α) Agent Location Cell

/-- The memory behind the queue. -/
abbrev QueueMemory :=
  Memory Agent Location Cell

section Records

variable {slots : Nat} {state next : State α} {action : Action α}

/-- The identity of a call in progress. -/
theorem State.callOf_eq
    {agent : Agent}
    {opened : OpenCall (Op α) (Handover α)}
    (isCurrent : state.log.current agent = some opened) :
    state.callOf agent = opened.call := by
  simp [State.callOf, isCurrent]

/-- What a step of the producer records. -/
theorem ProducerStep.records
    (tracked : Tracked state)
    (step : ProducerStep slots state action next) :
    Records accesses recording state ⟨.producer, action⟩ next := by
  have agrees := tracked.producer
  cases step with
  | invoke isAt starts =>
      rename_i op pc
      rw [isAt] at agrees
      have isEffect :
          effects state ⟨.producer, .invoke op⟩ =
            [.begins state.log.nextCall] := by
        simp [effects, producerEffects, isAt]
      exact .invokes rfl agrees rfl isEffect rfl
  | respond isAt =>
      rw [isAt] at agrees
      obtain ⟨call, op, marks, isCurrent, _⟩ := agrees
      have isEffect : effects state ⟨.producer, .respond⟩ = [.ends call] := by
        simp [effects, producerEffects, isAt, State.callOf_eq isCurrent]
      exact .responds isCurrent rfl isEffect rfl
  | publishTail isAt =>
      rw [isAt] at agrees
      obtain ⟨call, op, isCurrent, _⟩ := agrees
      have isEffect :
          effects state ⟨.producer, .store⟩ =
            [.store .release .tail (state.tail.newest + 1)] := by
        simp [effects, producerEffects, isAt]
      refine .stores isCurrent (Or.inr ⟨_, rfl⟩) isEffect ?_ ?_ ?_
      · simp [recording, authorAt?, Atomic.author?_newest_succ]
      · simp [recording, authorAt?, Atomic.author?_store,
          State.callOf_eq isCurrent]
      · intro other later different
        cases other with
        | tail =>
            have isOld : later ≠ state.tail.newest + 1 :=
              fun isNew => different ⟨rfl, isNew⟩
            simp [recording, authorAt?, Atomic.author?_store, isOld]
        | head | closed =>
            rfl
  | refused isAt | admitted isAt | room isAt | noRoom isAt
  | refreshedRoom isAt | refreshedFull isAt | moveIn isAt | throwIn isAt =>
      rw [isAt] at agrees
      obtain ⟨call, op, isCurrent, _⟩ := agrees
      refine .works isCurrent (Or.inl rfl) ?_ rfl
      simp [accesses, effects, producerEffects, isAt, Effect.isInner]

/-- What a step of the consumer records. -/
theorem ConsumerStep.records
    (tracked : Tracked state)
    (step : ConsumerStep slots state action next) :
    Records accesses recording state ⟨.consumer, action⟩ next := by
  have agrees := tracked.consumer
  cases step with
  | invoke isAt starts =>
      rename_i op pc
      rw [isAt] at agrees
      have isEffect :
          effects state ⟨.consumer, .invoke op⟩ =
            [.begins state.log.nextCall] := by
        simp [effects, consumerEffects, isAt]
      exact .invokes rfl agrees rfl isEffect rfl
  | respond isAt =>
      rw [isAt] at agrees
      obtain ⟨call, op, marks, isCurrent, _⟩ := agrees
      have isEffect : effects state ⟨.consumer, .respond⟩ = [.ends call] := by
        simp [effects, consumerEffects, isAt, State.callOf_eq isCurrent]
      exact .responds isCurrent rfl isEffect rfl
  | publishHead isAt =>
      rw [isAt] at agrees
      obtain ⟨call, op, isCurrent, _⟩ := agrees
      have isEffect :
          effects state ⟨.consumer, .store⟩ =
            [.store .release .head (state.head.newest + 1)] := by
        simp [effects, consumerEffects, isAt]
      refine .stores isCurrent (Or.inr ⟨_, rfl⟩) isEffect ?_ ?_ ?_
      · simp [recording, authorAt?, Atomic.author?_newest_succ]
      · simp [recording, authorAt?, Atomic.author?_store,
          State.callOf_eq isCurrent]
      · intro other later different
        cases other with
        | head =>
            have isOld : later ≠ state.head.newest + 1 :=
              fun isNew => different ⟨rfl, isNew⟩
            simp [recording, authorAt?, Atomic.author?_store, isOld]
        | tail | closed =>
            rfl
  | throwOut isAt =>
      rw [isAt] at agrees
      obtain ⟨call, op, isCurrent, _⟩ := agrees
      refine .works isCurrent (Or.inr ⟨_, rfl⟩) ?_ rfl
      simp [accesses, effects, consumerEffects, isAt, Effect.isInner]
  | popClosed isAt | loadClosed isAt =>
      rw [isAt] at agrees
      obtain ⟨call, isCurrent⟩ := agrees
      refine .works isCurrent (Or.inl rfl) ?_ rfl
      simp [accesses, effects, consumerEffects, isAt, Effect.isInner]
  | data isAt | noData isAt | refreshedData isAt | refreshedEmpty isAt
  | moveOut isAt =>
      rw [isAt] at agrees
      obtain ⟨call, op, isCurrent, _⟩ := agrees
      refine .works isCurrent (Or.inl rfl) ?_ rfl
      simp [accesses, effects, consumerEffects, isAt, Effect.isInner]

/-- What a step of an observer records. -/
theorem ObserverStep.records
    {thread : Nat}
    (tracked : Tracked state)
    (step : ObserverStep slots state thread action next) :
    Records accesses recording state ⟨.observer thread, action⟩ next := by
  have agrees := tracked.observers thread
  cases step with
  | invoke isAt starts =>
      rename_i op pc
      rw [isAt] at agrees
      have isEffect :
          effects state ⟨.observer thread, .invoke op⟩ =
            [.begins state.log.nextCall] := by
        simp [effects, observerEffects, isAt]
      exact .invokes rfl agrees rfl isEffect rfl
  | respond isAt =>
      rw [isAt] at agrees
      obtain ⟨call, op, marks, isCurrent, _⟩ := agrees
      have isEffect :
          effects state ⟨.observer thread, .respond⟩ = [.ends call] := by
        simp [effects, observerEffects, isAt, State.callOf_eq isCurrent]
      exact .responds isCurrent rfl isEffect rfl
  | storeClosed isAt =>
      rw [isAt] at agrees
      obtain ⟨call, isCurrent⟩ := agrees
      have isEffect :
          effects state ⟨.observer thread, .store⟩ =
            [.store .release .closed (state.closed.newest + 1)] := by
        simp [effects, observerEffects, isAt]
      refine .stores isCurrent (Or.inl rfl) isEffect ?_ ?_ ?_
      · simp [recording, authorAt?, Atomic.author?_newest_succ]
      · simp [recording, authorAt?, Atomic.author?_store,
          State.callOf_eq isCurrent]
      · intro other later different
        cases other with
        | closed =>
            have isOld : later ≠ state.closed.newest + 1 :=
              fun isNew => different ⟨rfl, isNew⟩
            simp [recording, authorAt?, Atomic.author?_store, isOld]
        | head | tail =>
            rfl
  | loadClosed isAt | sizeHead isAt | sizeTail isAt =>
      rw [isAt] at agrees
      obtain ⟨call, isCurrent⟩ := agrees
      refine .works isCurrent (Or.inl rfl) ?_ rfl
      simp [accesses, effects, observerEffects, isAt, Effect.isInner]

/-- What a step records of the call it belongs to. -/
theorem Step.records
    {agent : Agent}
    (tracked : Tracked state)
    (step : Step slots state agent action next) :
    Records accesses recording state ⟨agent, action⟩ next := by
  cases step with
  | producer own => exact own.records tracked
  | consumer own => exact own.records tracked
  | observer own => exact own.records tracked

end Records

/-- All objects are only stored with release. -/
theorem release_of_store
    {state : State α}
    {label : Label α}
    {order : MemoryOrder}
    {location : Location}
    {message : Nat}
    (stored : .store order location message ∈ effects state label) :
    order = .release := by
  rcases label with ⟨agent, action⟩
  cases agent with
  | producer =>
      simp only [effects, producerEffects] at stored
      split at stored <;> simp_all
  | consumer =>
      simp only [effects, consumerEffects] at stored
      split at stored <;> simp_all
  | observer thread =>
      simp only [effects, observerEffects] at stored
      split at stored <;> simp_all

end ConcurrentQueue.Spsc
