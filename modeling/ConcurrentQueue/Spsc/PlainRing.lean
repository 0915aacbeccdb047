import ConcurrentQueue.Library.Simulation
import ConcurrentQueue.Spsc.CachedChecks

namespace ConcurrentQueue.Spsc

/-!
# The same ring without caches

In the plain ring every check loads the index of the other side and compares
it with the own index, in one step.  It never touches the two cached copies.
Every sequentially consistent run of single-element operations on the cached
ring is seen as a run of the plain ring with the same history.
-/

variable {α : Type}

namespace Plain

/-- One atomic step of the producer, who loads `head_` at every check. -/
def producerStep?
    (slots : Nat)
    (state : State α)
    (action : Action α) :
    Option (State α) :=
  match state.producer, action with
  | .checkRoom pusher, .load message =>
      (state.head.read? message).map fun index =>
        state.atProducer
          (if pusher.hasRoom slots index state.tail.latest then
            .moveIn pusher state.tail.latest []
              (pusher.count slots index state.tail.latest)
          else
            pusher.afterFull)
  | .checkRoom _, _ => none
  | .refreshHead _, _ => none
  | _, action => Spsc.producerStep? slots state action

/-- One atomic step of the consumer, who loads `tail_` at every check. -/
def consumerStep?
    (slots : Nat)
    (state : State α)
    (action : Action α) :
    Option (State α) :=
  match state.consumer, action with
  | .checkData popper, .load message =>
      (state.tail.read? message).map fun index =>
        state.atConsumer
          (if popper.hasData slots index state.head.latest then
            .moveOut popper state.head.latest []
              (popper.count slots index state.head.latest)
          else
            popper.afterEmpty)
  | .checkData _, _ => none
  | .refreshTail _, _ => none
  | _, action => Spsc.consumerStep? slots state action

/-- One atomic step of one agent. -/
def step?
    (slots : Nat)
    (state : State α)
    (label : Label α) :
    Option (State α) :=
  match label.agent with
  | .producer => producerStep? slots state label.action
  | .consumer => consumerStep? slots state label.action
  | .observer thread => observerStep? slots state thread label.action

/-- Every load reads the newest message, those of the checks included. -/
def sequential : StepGuard (State α) (Label α) :=
  fun state label =>
    (∀ pusher message,
        state.producer = .checkRoom pusher →
        label = ⟨.producer, .load message⟩ →
        message = state.head.newest) ∧
      (∀ popper message,
        state.consumer = .checkData popper →
        label = ⟨.consumer, .load message⟩ →
        message = state.tail.newest) ∧
      Spsc.sequential state label

end Plain

/-- A refreshing check is a check that is still to be made. -/
def ProducerPc.uncached : ProducerPc α → ProducerPc α
  | .refreshHead pusher => .checkRoom pusher
  | pc => pc

/-- A refreshing check is a check that is still to be made. -/
def ConsumerPc.uncached : ConsumerPc α → ConsumerPc α
  | .refreshTail popper => .checkData popper
  | pc => pc

/-- The state without what concerns the caches. -/
def State.uncached (state : State α) : State α :=
  { state with
    headCache := 0
    headSeen := 0
    tailCache := 0
    tailSeen := 0
    producer := state.producer.uncached
    consumer := state.consumer.uncached }

/-- A push of one element. -/
def Pusher.single : Pusher α → Bool
  | .tryPushN _ => false
  | _ => true

/-- A pop of one element. -/
def Popper.single : Popper α → Bool
  | .tryPopN _ => false
  | _ => true

/-- The producer is not about to check for a bulk push. -/
def ProducerPc.single : ProducerPc α → Bool
  | .checkClosed pusher | .checkRoom pusher | .refreshHead pusher =>
      pusher.single
  | _ => true

/-- The consumer is not about to check for a bulk pop. -/
def ConsumerPc.single : ConsumerPc α → Bool
  | .checkData popper | .refreshTail popper => popper.single
  | _ => true

/-- A step that invokes a bulk operation. -/
def Action.invokesBulk : Action α → Bool
  | .invoke (.tryPushN _) | .invoke (.tryPopN _) => true
  | _ => false

/-- Sequentially consistent steps that invoke no bulk operation. -/
def sequentialSingle : StepGuard (State α) (Label α) :=
  fun state label =>
    sequential state label ∧ label.action.invokesBulk = false

instance :
    ∀ (state : State α) (label : Label α),
      Decidable (sequentialSingle state label) :=
  fun _ _ => instDecidableAnd

/-- Neither side is inside a bulk operation. -/
structure Single (state : State α) : Prop where
  producer : state.producer.single = true
  consumer : state.consumer.single = true

namespace Single

variable {slots : Nat} {state after : State α} {action : Action α}

/-- The producer enters no bulk push unless it is invoked. -/
theorem producer_step
    (single : Single state)
    (noBulk : action.invokesBulk = false)
    (step : ProducerStep slots state action after) :
    Single after := by
  have before := single.producer
  refine ⟨?_, step.consumer_eq ▸ single.consumer⟩
  cases step with
  | @invoke op pc isAt starts =>
      cases op <;> simp [ProducerPc.start?] at starts <;>
        first
          | (subst starts; rfl)
          | cases noBulk
  | admitted isAt | noRoom isAt =>
      rw [isAt] at before
      exact before
  | @refreshedFull pusher =>
      cases pusher <;> rfl
  | moveIn =>
      simp only [State.atProducer, ProducerPc.afterMove]
      split <;> rfl
  | _ =>
      rfl

/-- The consumer enters no bulk pop unless it is invoked. -/
theorem consumer_step
    (single : Single state)
    (noBulk : action.invokesBulk = false)
    (step : ConsumerStep slots state action after) :
    Single after := by
  have before := single.consumer
  refine ⟨step.producer_eq ▸ single.producer, ?_⟩
  cases step with
  | @invoke op pc isAt starts =>
      cases op <;> simp [ConsumerPc.start?] at starts <;>
        first
          | (subst starts; rfl)
          | cases noBulk
  | noData isAt =>
      rw [isAt] at before
      exact before
  | @refreshedEmpty popper =>
      rcases popper with ⟨_, _ | _⟩ | _ | _ <;> rfl
  | moveOut =>
      simp only [State.atConsumer, ConsumerPc.afterMove]
      split <;> rfl
  | _ =>
      rfl

/-- No bulk operation is in progress unless one is invoked. -/
theorem of_run
    [Inhabited α]
    {labels : List (Label α)}
    (run : Run (step? slots) sequentialSingle initial labels state) :
    Single state := by
  have base : Single (initial : State α) := ⟨rfl, rfl⟩
  refine run.invariant base ?_
  intro state next label single admitted taken
  rcases label with ⟨agent, action⟩
  cases Step.of_step? taken with
  | producer own => exact single.producer_step admitted.2 own
  | consumer own => exact single.consumer_step admitted.2 own
  | observer own =>
      exact ⟨own.producer_eq ▸ single.producer,
        own.consumer_eq ▸ single.consumer⟩

end Single

section Simulation

variable {slots : Nat} {state after : State α} {action : Action α}

/-- A single push moves one element, whatever index it is checked against. -/
theorem Pusher.count_single
    {pusher : Pusher α}
    (single : pusher.single = true)
    (first second tail : Nat) :
    pusher.count slots first tail = pusher.count slots second tail := by
  cases pusher with
  | push | tryPush => rfl
  | tryPushN => cases single

/-- A single pop moves one element, whatever index it is checked against. -/
theorem Popper.count_single
    {popper : Popper α}
    (single : popper.single = true)
    (first second head : Nat) :
    popper.count slots first head = popper.count slots second head := by
  cases popper with
  | pop | tryPop => rfl
  | tryPopN => cases single

/-- A call never starts with a refreshing check. -/
theorem ProducerPc.uncached_start?
    {op : Op α}
    {pc : ProducerPc α}
    (starts : ProducerPc.start? op = some pc) :
    pc.uncached = pc := by
  cases op <;> simp [ProducerPc.start?] at starts <;> subst starts <;>
    first
      | rfl
      | (split <;> rfl)

theorem ConsumerPc.uncached_start?
    {op : Op α}
    {pc : ConsumerPc α}
    (starts : ConsumerPc.start? op = some pc) :
    pc.uncached = pc := by
  cases op <;> simp [ConsumerPc.start?] at starts <;> subst starts <;>
    first
      | rfl
      | (split <;> rfl)

@[simp] theorem ProducerPc.uncached_afterMove
    (pusher : Pusher α)
    (index : Nat)
    (moved : List α)
    (count : Nat) :
    (ProducerPc.afterMove slots pusher index moved count).uncached =
      .afterMove slots pusher index moved count := by
  unfold ProducerPc.afterMove
  split <;> rfl

@[simp] theorem ConsumerPc.uncached_afterMove
    (popper : Popper α)
    (index : Nat)
    (moved : List α)
    (count : Nat) :
    (ConsumerPc.afterMove slots popper index moved count).uncached =
      .afterMove slots popper index moved count := by
  unfold ConsumerPc.afterMove
  split <;> rfl

@[simp] theorem Pusher.uncached_afterFull (pusher : Pusher α) :
    pusher.afterFull.uncached = pusher.afterFull := by
  cases pusher <;> rfl

@[simp] theorem Popper.uncached_afterEmpty (popper : Popper α) :
    popper.afterEmpty.uncached = popper.afterEmpty := by
  rcases popper with ⟨_, _ | _⟩ | _ | _ <;> rfl

/-- A check of the plain ring that finds room. -/
theorem Plain.moveIn
    {pusher : Pusher α}
    (isAt : state.producer.uncached = .checkRoom pusher)
    (hasRoom :
      pusher.hasRoom slots state.head.latest state.tail.latest = true) :
    Plain.sequential state.uncached
        ⟨.producer, .load state.head.newest⟩ ∧
      Plain.step? slots state.uncached
          ⟨.producer, .load state.head.newest⟩ =
        some (state.uncached.atProducer
          (.moveIn pusher state.tail.latest []
            (pusher.count slots state.head.latest state.tail.latest))) := by
  constructor
  · simp [Plain.sequential, Spsc.sequential, producerCurrent,
      State.uncached, isAt]
  · simp [Plain.step?, Plain.producerStep?, State.uncached, isAt,
      Atomic.read?_newest, hasRoom]

/-- A check of the plain ring that finds it full. -/
theorem Plain.full
    {pusher : Pusher α}
    (isAt : state.producer.uncached = .checkRoom pusher)
    (isFull :
      pusher.hasRoom slots state.head.latest state.tail.latest = false) :
    Plain.sequential state.uncached
        ⟨.producer, .load state.head.newest⟩ ∧
      Plain.step? slots state.uncached
          ⟨.producer, .load state.head.newest⟩ =
        some (state.uncached.atProducer pusher.afterFull) := by
  constructor
  · simp [Plain.sequential, Spsc.sequential, producerCurrent,
      State.uncached, isAt]
  · simp [Plain.step?, Plain.producerStep?, State.uncached, isAt,
      Atomic.read?_newest, isFull]

/-- A check of the plain ring that finds data. -/
theorem Plain.moveOut
    {popper : Popper α}
    (isAt : state.consumer.uncached = .checkData popper)
    (hasData :
      popper.hasData slots state.tail.latest state.head.latest = true) :
    Plain.sequential state.uncached
        ⟨.consumer, .load state.tail.newest⟩ ∧
      Plain.step? slots state.uncached
          ⟨.consumer, .load state.tail.newest⟩ =
        some (state.uncached.atConsumer
          (.moveOut popper state.head.latest []
            (popper.count slots state.tail.latest state.head.latest))) := by
  constructor
  · simp [Plain.sequential, Spsc.sequential, consumerCurrent,
      State.uncached, isAt]
  · simp [Plain.step?, Plain.consumerStep?, State.uncached, isAt,
      Atomic.read?_newest, hasData]

/-- A check of the plain ring that finds it empty. -/
theorem Plain.empty
    {popper : Popper α}
    (isAt : state.consumer.uncached = .checkData popper)
    (isEmpty :
      popper.hasData slots state.tail.latest state.head.latest = false) :
    Plain.sequential state.uncached
        ⟨.consumer, .load state.tail.newest⟩ ∧
      Plain.step? slots state.uncached
          ⟨.consumer, .load state.tail.newest⟩ =
        some (state.uncached.atConsumer popper.afterEmpty) := by
  constructor
  · simp [Plain.sequential, Spsc.sequential, consumerCurrent,
      State.uncached, isAt]
  · simp [Plain.step?, Plain.consumerStep?, State.uncached, isAt,
      Atomic.read?_newest, isEmpty]

/-- Away from the checks the producer of the plain ring moves alike. -/
theorem Plain.producer_alike
    (noCheck : ∀ pusher, state.producer ≠ .checkRoom pusher)
    (noRefresh : ∀ pusher, state.producer ≠ .refreshHead pusher)
    (admitted : Spsc.sequential state ⟨.producer, action⟩)
    (step : ProducerStep slots state action after) :
    Plain.sequential state.uncached ⟨.producer, action⟩ ∧
      Plain.step? slots state.uncached ⟨.producer, action⟩ =
        some after.uncached := by
  have same : state.producer.uncached = state.producer := by
    cases isAt : state.producer <;>
      first | rfl | exact absurd isAt (noRefresh _)
  constructor
  · refine ⟨?_, ?_, ?_⟩
    · intro pusher message isAt
      exact absurd (same.symm.trans isAt) (noCheck pusher)
    · intro popper message _ isLabel
      cases isLabel
    · simp only [Spsc.sequential, producerCurrent, State.uncached, same]
      exact admitted
  · cases step with
    | invoke isAt starts =>
        rw [isAt] at same
        simp [Plain.step?, Plain.producerStep?, Spsc.producerStep?,
          State.uncached, isAt, same, starts,
          ProducerPc.uncached_start? starts]
    | refused isAt reads | admitted isAt reads =>
        simp [Plain.step?, Plain.producerStep?, Spsc.producerStep?,
          State.uncached, isAt, reads, ProducerPc.uncached]
    | room isAt | noRoom isAt =>
        exact absurd isAt (noCheck _)
    | refreshedRoom isAt | refreshedFull isAt =>
        exact absurd isAt (noRefresh _)
    | moveIn isAt taken =>
        rw [isAt] at same
        simp [Plain.step?, Plain.producerStep?, Spsc.producerStep?,
          State.uncached, isAt, same, taken]
    | throwIn isAt mayThrow =>
        simp [Plain.step?, Plain.producerStep?, Spsc.producerStep?,
          State.uncached, isAt, mayThrow, ProducerPc.uncached]
    | publishTail isAt =>
        simp [Plain.step?, Plain.producerStep?, Spsc.producerStep?,
          State.uncached, State.callOf, isAt, ProducerPc.uncached]
    | respond isAt =>
        simp [Plain.step?, Plain.producerStep?, Spsc.producerStep?,
          State.uncached, isAt, ProducerPc.uncached]

/-- Away from the checks the consumer of the plain ring moves alike. -/
theorem Plain.consumer_alike
    (noCheck : ∀ popper, state.consumer ≠ .checkData popper)
    (noRefresh : ∀ popper, state.consumer ≠ .refreshTail popper)
    (admitted : Spsc.sequential state ⟨.consumer, action⟩)
    (step : ConsumerStep slots state action after) :
    Plain.sequential state.uncached ⟨.consumer, action⟩ ∧
      Plain.step? slots state.uncached ⟨.consumer, action⟩ =
        some after.uncached := by
  have same : state.consumer.uncached = state.consumer := by
    cases isAt : state.consumer <;>
      first
        | rfl
        | exact absurd isAt (noRefresh _)
  constructor
  · refine ⟨?_, ?_, ?_⟩
    · intro pusher message _ isLabel
      cases isLabel
    · intro popper message isAt
      exact absurd (same.symm.trans isAt) (noCheck popper)
    · simp only [Spsc.sequential, consumerCurrent, State.uncached, same]
      exact admitted
  · cases step with
    | invoke isAt starts =>
        rw [isAt] at same
        simp [Plain.step?, Plain.consumerStep?, Spsc.consumerStep?,
          State.uncached, isAt, same, starts,
          ConsumerPc.uncached_start? starts]
    | data isAt | noData isAt =>
        exact absurd isAt (noCheck _)
    | refreshedData isAt | refreshedEmpty isAt =>
        exact absurd isAt (noRefresh _)
    | popClosed isAt reads | loadClosed isAt reads =>
        simp [Plain.step?, Plain.consumerStep?, Spsc.consumerStep?,
          State.uncached, isAt, reads, ConsumerPc.uncached]
    | moveOut isAt =>
        rw [isAt] at same
        simp [Plain.step?, Plain.consumerStep?, Spsc.consumerStep?,
          State.uncached, isAt, same]
    | throwOut isAt mayThrow =>
        simp [Plain.step?, Plain.consumerStep?, Spsc.consumerStep?,
          State.uncached, isAt, mayThrow, ConsumerPc.uncached]
    | publishHead isAt =>
        simp [Plain.step?, Plain.consumerStep?, Spsc.consumerStep?,
          State.uncached, State.callOf, isAt, ConsumerPc.uncached]
    | respond isAt =>
        simp [Plain.step?, Plain.consumerStep?, Spsc.consumerStep?,
          State.uncached, isAt, ConsumerPc.uncached]

/-- Observers do not look at the caches. -/
theorem Plain.observer_alike
    {thread : Nat}
    (admitted : Spsc.sequential state ⟨.observer thread, action⟩)
    (step : ObserverStep slots state thread action after) :
    Plain.sequential state.uncached ⟨.observer thread, action⟩ ∧
      Plain.step? slots state.uncached ⟨.observer thread, action⟩ =
        some after.uncached := by
  constructor
  · refine ⟨?_, ?_, admitted⟩
    · intro pusher message _ isLabel
      cases isLabel
    · intro popper message _ isLabel
      cases isLabel
  · cases step with
    | invoke isAt starts =>
        simp [Plain.step?, observerStep?, State.uncached, isAt, starts]
    | loadClosed isAt reads | sizeHead isAt reads | sizeTail isAt reads =>
        simp [Plain.step?, observerStep?, State.uncached, isAt, reads]
    | storeClosed isAt =>
        simp [Plain.step?, observerStep?, State.uncached, State.callOf,
          isAt]
    | respond isAt =>
        simp [Plain.step?, observerStep?, State.uncached, isAt]

/-- Every step of the producer is one of the plain ring or unseen there. -/
theorem producer_simulated
    (indices : Indices slots state)
    (single : Single state)
    (wide : 1 < slots)
    (small : slots ≤ SizeT.halfRange)
    (admitted : sequential state ⟨.producer, action⟩)
    (step : ProducerStep slots state action after) :
    after.uncached = state.uncached ∨
      ∃ label,
        Plain.sequential state.uncached label ∧
          Plain.step? slots state.uncached label = some after.uncached := by
  have isSingle := single.producer
  by_cases checks : ∃ pusher, state.producer.uncached = .checkRoom pusher
  · obtain ⟨pusher, isCheck⟩ := checks
    cases step with
    | @room pusher isAt hasRoom =>
        rw [isAt] at isSingle
        have real := indices.room_of_cached wide small hasRoom
        rw [← indices.hasRoom_latest_iff wide small pusher] at real
        have moves := Plain.moveIn (by rw [isAt]; rfl) real
        rw [Pusher.count_single isSingle _ state.headCache] at moves
        exact Or.inr ⟨_, moves⟩
    | noRoom isAt =>
        left
        simp [State.uncached, isAt, ProducerPc.uncached]
    | refreshedRoom isAt fresh reads hasRoom =>
        simp only [sequential, producerCurrent, isAt] at admitted
        rw [admitted, Atomic.read?_newest] at reads
        cases reads
        exact Or.inr ⟨_, Plain.moveIn (by rw [isAt]; rfl) hasRoom⟩
    | refreshedFull isAt fresh reads isFull =>
        simp only [sequential, producerCurrent, isAt] at admitted
        rw [admitted, Atomic.read?_newest] at reads
        cases reads
        have refuses := Plain.full (by rw [isAt]; rfl) isFull
        refine Or.inr ⟨_, refuses.1, ?_⟩
        rw [refuses.2]
        simp [State.uncached]
    | invoke isAt | refused isAt | admitted isAt | moveIn isAt
    | throwIn isAt | publishTail isAt | respond isAt =>
        rw [isAt] at isCheck
        cases isCheck
  · refine Or.inr ⟨_, Plain.producer_alike ?_ ?_ admitted step⟩ <;>
      · intro pusher isAt
        exact checks ⟨pusher, by rw [isAt]; rfl⟩

/-- Every step of the consumer is one of the plain ring or unseen there. -/
theorem consumer_simulated
    (indices : Indices slots state)
    (single : Single state)
    (wide : 1 < slots)
    (small : slots ≤ SizeT.halfRange)
    (admitted : sequential state ⟨.consumer, action⟩)
    (step : ConsumerStep slots state action after) :
    after.uncached = state.uncached ∨
      ∃ label,
        Plain.sequential state.uncached label ∧
          Plain.step? slots state.uncached label = some after.uncached := by
  have isSingle := single.consumer
  by_cases checks : ∃ popper, state.consumer.uncached = .checkData popper
  · obtain ⟨popper, isCheck⟩ := checks
    cases step with
    | @data popper isAt hasData =>
        rw [isAt] at isSingle
        have real := indices.data_of_cached wide small hasData
        rw [← indices.hasData_latest_iff wide small popper] at real
        have moves := Plain.moveOut (by rw [isAt]; rfl) real
        rw [Popper.count_single isSingle _ state.tailCache] at moves
        exact Or.inr ⟨_, moves⟩
    | noData isAt =>
        left
        simp [State.uncached, isAt, ConsumerPc.uncached]
    | refreshedData isAt fresh reads hasData =>
        simp only [sequential, consumerCurrent, isAt] at admitted
        rw [admitted, Atomic.read?_newest] at reads
        cases reads
        exact Or.inr ⟨_, Plain.moveOut (by rw [isAt]; rfl) hasData⟩
    | refreshedEmpty isAt fresh reads isEmpty =>
        simp only [sequential, consumerCurrent, isAt] at admitted
        rw [admitted, Atomic.read?_newest] at reads
        cases reads
        have refuses := Plain.empty (by rw [isAt]; rfl) isEmpty
        refine Or.inr ⟨_, refuses.1, ?_⟩
        rw [refuses.2]
        simp [State.uncached]
    | invoke isAt | popClosed isAt | moveOut isAt | throwOut isAt
    | publishHead isAt | loadClosed isAt | respond isAt =>
        rw [isAt] at isCheck
        cases isCheck
  · refine Or.inr ⟨_, Plain.consumer_alike ?_ ?_ admitted step⟩ <;>
      · intro popper isAt
        exact checks ⟨popper, by rw [isAt]; rfl⟩

/-- The plain ring simulates the cached one on single-element operations. -/
theorem plain_simulates
    (wide : 1 < slots)
    (small : slots ≤ SizeT.halfRange) :
    Simulates (step? slots) sequentialSingle
      (fun state : State α => Indices slots state ∧ Single state)
      State.uncached (Plain.step? slots) Plain.sequential := by
  intro state next label known admitted taken
  rcases label with ⟨agent, action⟩
  cases Step.of_step? taken with
  | producer own =>
      exact producer_simulated known.1 known.2 wide small admitted.1 own
  | consumer own =>
      exact consumer_simulated known.1 known.2 wide small admitted.1 own
  | observer own =>
      exact Or.inr ⟨_, Plain.observer_alike admitted.1 own⟩

end Simulation

/-- The plain ring neither reads nor writes the caches. -/
theorem Plain.step?_caches
    (slots : Nat)
    (state : State α)
    (label : Label α)
    (headCache headSeen tailCache tailSeen : Nat) :
    Plain.step? slots
        { state with
          headCache := headCache
          headSeen := headSeen
          tailCache := tailCache
          tailSeen := tailSeen }
        label =
      (Plain.step? slots state label).map fun next =>
        { next with
          headCache := headCache
          headSeen := headSeen
          tailCache := tailCache
          tailSeen := tailSeen } := by
  rcases label with ⟨agent, action⟩
  cases agent with
  | producer =>
      cases isAt : state.producer <;> cases action <;>
        simp [Plain.step?, Plain.producerStep?, Spsc.producerStep?,
          State.callOf, isAt, Function.comp_def]
  | consumer =>
      cases isAt : state.consumer <;> cases action <;>
        simp [Plain.step?, Plain.consumerStep?, Spsc.consumerStep?,
          State.callOf, isAt, Function.comp_def]
  | observer thread =>
      cases isAt : state.observers thread <;> cases action <;>
        simp [Plain.step?, observerStep?, State.callOf, isAt,
          Function.comp_def]

/--
Every check agrees with the current indices, every run of single-element
operations is matched by a run of the ring without caches that makes the same
calls with the same results, and a bulk operation returns zero exactly when it
is refused and otherwise a count that the ring really had to offer.
-/
theorem cached_ring_agrees
    [Inhabited α]
    {elementSize capacity slots : Nat}
    (built : ringSlots elementSize capacity = .ok slots) :
    (∀ {labels : List (Label α)} {state : State α},
        Run (step? slots) sequential initial labels state →
          ChecksAgree slots state) ∧
      (∀ {labels : List (Label α)} {state : State α},
        Run (step? slots) sequentialSingle initial labels state →
          ∃ plainLabels plain,
            Run (Plain.step? slots) Plain.sequential initial plainLabels
                plain ∧
              plain.log = state.log ∧ plain.buffer = state.buffer ∧
              plain.head = state.head ∧ plain.tail = state.tail ∧
              plain.closed = state.closed) ∧
      (∀ {items earlier during invoked last count left},
        CallWindow slots sequential .producer (.tryPushN items) earlier
            during invoked (last : State α) →
          last.producer = .returning (.pushedN count left) →
            (count = 0 ↔ PushRefused slots items invoked during) ∧
              (count ≠ 0 →
                Happens (step? slots) sequential invoked during
                  (SetsOutToPush slots items.length count))) ∧
      (∀ {out earlier during invoked last count left},
        CallWindow slots sequential .consumer (.tryPopN out) earlier
            during invoked (last : State α) →
          last.consumer = .returning (.poppedN count left) →
            (count = 0 ↔ PopRefused slots out invoked during) ∧
              (count ≠ 0 →
                Happens (step? slots) sequential invoked during
                  (SetsOutToPop out.length count))) := by
  obtain ⟨_, wide, small⟩ := ringSlots_ok built
  refine ⟨?_, ?_, ?_, ?_⟩
  · intro labels state run
    exact (Indices.of_run wide small run).checksAgree wide small
  · intro labels state run
    obtain ⟨plainLabels, plainRun⟩ :=
      (plain_simulates wide small).run
        (fun run => ⟨Indices.of_run wide small run, Single.of_run run⟩) run
    exact ⟨plainLabels, state.uncached, plainRun, rfl, rfl, rfl, rfl, rfl⟩
  · intro items earlier during invoked last count left window returns
    exact push_count wide small window returns
  · intro out earlier during invoked last count left window returns
    exact pop_count wide small window returns

/-- Two pushes fill a ring of one element twice round a pop. -/
def refreshingSchedule : List (Label Nat) :=
  [⟨.producer, .invoke (.tryPush 5)⟩, ⟨.producer, .load 0⟩,
    ⟨.producer, .check⟩, ⟨.producer, .move 0⟩, ⟨.producer, .store⟩,
    ⟨.producer, .respond⟩, ⟨.consumer, .invoke (.tryPop 0)⟩,
    ⟨.consumer, .check⟩, ⟨.consumer, .load 1⟩, ⟨.consumer, .move 0⟩,
    ⟨.consumer, .store⟩, ⟨.producer, .invoke (.tryPush 6)⟩,
    ⟨.producer, .load 0⟩, ⟨.producer, .check⟩, ⟨.producer, .load 1⟩,
    ⟨.producer, .move 0⟩, ⟨.producer, .store⟩]

/-- A bulk push after its invocation, up to its return. -/
def bulkPushSchedule : List (Label Nat) :=
  [⟨.producer, .load 0⟩, ⟨.producer, .check⟩, ⟨.producer, .move 0⟩,
    ⟨.producer, .store⟩]

/-- A bulk pop after its invocation, up to its return. -/
def bulkPopSchedule : List (Label Nat) :=
  [⟨.consumer, .check⟩, ⟨.consumer, .load 0⟩]

theorem cached_ring_agrees_one :
    (∃ state plainLabels plain,
      replay? (step? 2) sequentialSingle initial refreshingSchedule =
          some state ∧
        ChecksAgree 2 state ∧
        Run (Plain.step? 2) Plain.sequential initial plainLabels plain ∧
        plain.log = state.log) ∧
      (∃ invoked last,
        CallWindow 2 sequential .producer (.tryPushN [5, 6]) []
            bulkPushSchedule invoked last ∧
          Happens (step? 2) sequential invoked bulkPushSchedule
            (SetsOutToPush 2 2 1)) ∧
      (∃ invoked last,
        CallWindow 2 sequential .consumer (.tryPopN [0]) []
            bulkPopSchedule invoked last ∧
          PopRefused 2 [0] invoked bulkPopSchedule) := by
  have built : ringSlots 8 1 = .ok 2 := by
    rfl
  refine ⟨?_, ?_, ?_⟩
  · have replayed :
        ∃ state,
          replay? (step? 2) sequentialSingle initial refreshingSchedule =
            some state :=
      ⟨_, rfl⟩
    obtain ⟨state, accepted⟩ := replayed
    have run := Run.of_replay? accepted
    obtain ⟨plainLabels, plain, plainRun, sameLog, _⟩ :=
      (cached_ring_agrees built).2.1 run
    exact ⟨state, plainLabels, plain, accepted,
      (cached_ring_agrees built).1 (run.mono fun _ _ => And.left),
      plainRun, sameLog⟩
  · have replayed :
        ∃ invoked last left,
          step? 2 (initial : State Nat)
                ⟨.producer, .invoke (.tryPushN [5, 6])⟩ = some invoked ∧
            replay? (step? 2) sequential invoked bulkPushSchedule =
              some last ∧
            last.producer = .returning (.pushedN 1 left) :=
      ⟨_, _, _, rfl, rfl, rfl⟩
    obtain ⟨invoked, last, left, opens, accepted, returns⟩ := replayed
    have window :
        CallWindow 2 sequential .producer (.tryPushN [5, 6]) []
          bulkPushSchedule invoked last :=
      { opens := ⟨_, .start, trivial, opens⟩
        runs := Run.of_replay? accepted
        unclosed := by decide }
    exact ⟨invoked, last, window,
      ((cached_ring_agrees built).2.2.1 window returns).2 (by decide)⟩
  · have replayed :
        ∃ invoked last left,
          step? 2 (initial : State Nat)
                ⟨.consumer, .invoke (.tryPopN [0])⟩ = some invoked ∧
            replay? (step? 2) sequential invoked bulkPopSchedule =
              some last ∧
            last.consumer = .returning (.poppedN 0 left) :=
      ⟨_, _, _, rfl, rfl, rfl⟩
    obtain ⟨invoked, last, left, opens, accepted, returns⟩ := replayed
    have window :
        CallWindow 2 sequential .consumer (.tryPopN [0]) []
          bulkPopSchedule invoked last :=
      { opens := ⟨_, .start, trivial, opens⟩
        runs := Run.of_replay? accepted
        unclosed := by decide }
    exact ⟨invoked, last, window,
      ((cached_ring_agrees built).2.2.2 window returns).1.mp rfl⟩

end ConcurrentQueue.Spsc
