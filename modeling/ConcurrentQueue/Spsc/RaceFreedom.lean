import ConcurrentQueue.Library.Lending
import ConcurrentQueue.Spsc.HandOff
import ConcurrentQueue.Spsc.Memory

namespace ConcurrentQueue.Spsc

/-!
# No slot is touched before the other side is done with it

The two sides lend each other the slots of the ring: what a side knows when it
stores its index is handed to the other side by the acquire load of that
index.  A side that goes by its cached copy of the other index relies on the
load that filled the cache, and works only on slots that the cached index
covers.
-/

variable {α : Type}

/-- The agent of a side. -/
def agentOf : Side → Agent
  | .producer => .producer
  | .consumer => .consumer

/-- The index that a side stores. -/
def locationOf : Side → Location
  | .producer => .tail
  | .consumer => .head

namespace State

/-- The index that a side stores. -/
def indexOf (state : State α) : Side → Atomic Publication Nat
  | .producer => state.tail
  | .consumer => state.head

/-- The message of the other index that a side has cached. -/
def seenOf (state : State α) : Side → Nat
  | .producer => state.headSeen
  | .consumer => state.tailSeen

/-- The slot that a side is about to touch. -/
def slotOf? (state : State α) : Side → Option Nat
  | .producer => state.producer.slot?
  | .consumer => state.consumer.slot?

end State

/-- The access of a slot with the given number. -/
def slotAccess (index number : Nat) : Occurrence Location Cell :=
  .access (.slot index) number

/-- What the two sides lend each other. -/
def lending (ordered : OrderedState α) :
    Lending (Occurrence Location Cell) where
  newest side := (ordered.state.indexOf side).newest
  total side message := totalAt (ordered.state.indexOf side) message
  seen := ordered.state.seenOf
  knows side := {known | known ∈ ordered.memory.knows (agentOf side)}
  carried side message :=
    {known | known ∈ ordered.memory.carried (locationOf side) message}
  accesses index := ordered.memory.accesses (.slot index)

/-- Who accesses which plain memory. -/
theorem access_cases
    {state : State α}
    {label : Label α}
    {cell : Cell}
    (isAccess : .access cell ∈ effects state label) :
    match cell with
    | .slot index =>
        ∃ side,
          label.agent = agentOf side ∧ state.slotOf? side = some index
    | .headCache => label.agent = .producer
    | .tailCache => label.agent = .consumer := by
  rcases label with ⟨agent, action⟩
  cases agent with
  | producer =>
      simp only [effects, producerEffects] at isAccess
      split at isAccess
      case h_5 isAt isAccess | h_6 isAt isAccess =>
          simp only [List.mem_singleton, Effect.access.injEq] at isAccess
          subst isAccess
          exact
            ⟨.producer, rfl, by simp [State.slotOf?, isAt, ProducerPc.slot?]⟩
      all_goals
        simp at isAccess
      all_goals
        subst isAccess
        rfl
  | consumer =>
      simp only [effects, consumerEffects] at isAccess
      split at isAccess
      case h_5 isAt isAccess | h_6 isAt isAccess =>
          simp only [List.mem_singleton, Effect.access.injEq] at isAccess
          subst isAccess
          exact
            ⟨.consumer, rfl, by simp [State.slotOf?, isAt, ConsumerPc.slot?]⟩
      all_goals
        simp at isAccess
      all_goals
        subst isAccess
        rfl
  | observer thread =>
      simp only [effects, observerEffects] at isAccess
      split at isAccess <;> simp at isAccess

/-- An index is only stored with its next message. -/
theorem newest_of_store
    {state : State α}
    {label : Label α}
    {order : MemoryOrder}
    {side : Side}
    {message : Nat}
    (stored :
      .store order (locationOf side) message ∈ effects state label) :
    message = (state.indexOf side).newest + 1 := by
  rcases label with ⟨agent, action⟩
  cases agent with
  | producer =>
      simp only [effects, producerEffects] at stored
      split at stored <;> cases side <;>
        simp_all [locationOf, State.indexOf]
  | consumer =>
      simp only [effects, consumerEffects] at stored
      split at stored <;> cases side <;>
        simp_all [locationOf, State.indexOf]
  | observer thread =>
      simp only [effects, observerEffects] at stored
      split at stored <;> cases side <;>
        simp_all [locationOf]

/-- A side about to touch a slot works within its limit. -/
theorem Indices.position
    {slots : Nat}
    {state : State α}
    (indices : Indices slots state)
    (tracked : Tracked state)
    {side : Side}
    {index : Nat}
    (isSlot : state.slotOf? side = some index) :
    ∃ position,
      index = position % slots ∧
        total (state.indexOf side) ≤ position ∧
        position <
          totalAt (state.indexOf side.other) (state.seenOf side) +
            side.span slots := by
  cases side with
  | producer =>
      obtain ⟨position, isIndex, notDone, within⟩ :=
        indices.producer_position tracked isSlot
      refine ⟨position, isIndex, notDone, Nat.lt_of_lt_of_le within ?_⟩
      exact Nat.add_le_add_left (Nat.sub_le slots 1) _
  | consumer =>
      exact indices.consumer_position tracked isSlot

/-- A store counts up to its own total. -/
theorem totalAt_store_newest
    (index : Atomic Publication Nat)
    (author : Publication)
    (value : Nat) :
    totalAt (index.store author value) (index.newest + 1) =
      author.total := by
  rw [totalAt_store, if_pos rfl]

section Steps

variable {slots : Nat} {state next : State α}
variable {agent : Agent} {action : Action α} {memory : QueueMemory}

/-- The totals behind the messages of an index stand. -/
theorem Step.totalAt_eq
    (step : Step slots state agent action next)
    {side : Side}
    {message : Nat}
    (old : message ≤ (state.indexOf side).newest) :
    totalAt (next.indexOf side) message =
      totalAt (state.indexOf side) message := by
  cases step with
  | producer own =>
      cases own with
      | publishTail isAt =>
          cases side with
          | producer => exact totalAt_store_of_le _ _ _ old
          | consumer => rfl
      | _ => cases side <;> rfl
  | consumer own =>
      cases own with
      | publishHead isAt =>
          cases side with
          | producer => rfl
          | consumer => exact totalAt_store_of_le _ _ _ old
      | _ => cases side <;> rfl
  | observer own =>
      cases own <;> cases side <;> rfl

/-- No step revises what an index says or carries. -/
theorem Step.extends
    (step : Step slots state agent action next) :
    Lending.Extends (lending ⟨state, memory⟩)
      (lending ⟨next, memory.after accesses state ⟨agent, action⟩⟩) where
  total := step.totalAt_eq
  carried := by
    intro side message old
    have same :
        (memory.after accesses state ⟨agent, action⟩).carried
            (locationOf side) message =
          memory.carried (locationOf side) message := by
      apply memory.carried_applyAll
      intro order stored
      have isNew := newest_of_store stored
      exact absurd old (by rw [isNew]; exact Nat.not_succ_le_self _)
    simp only [lending, same]
  knows := fun side _ isKnown => memory.knows_applyAll _ _ _ isKnown

/-- A step that stores, caches and touches nothing only learns. -/
theorem Step.learns
    (step : Step slots state agent action next)
    (sameIndices : next.indexOf = state.indexOf)
    (sameSeen : next.seenOf = state.seenOf)
    (untouched :
      ∀ index, .access (.slot index) ∉ effects state ⟨agent, action⟩) :
    Lending.Step slotAccess slots (lending ⟨state, memory⟩)
      (lending ⟨next, memory.after accesses state ⟨agent, action⟩⟩) := by
  apply Lending.Step.learn step.extends
  · simp only [lending, sameIndices]
  · exact sameSeen
  · funext index
    exact memory.accesses_applyAll _ (untouched index)

/-- Refreshing a cached index acquires its message. -/
theorem Step.acquires
    (step : Step slots state agent action next)
    (side : Side)
    {message : Nat}
    (own : agent = agentOf side)
    (sameIndices : next.indexOf = state.indexOf)
    (isSeen : next.seenOf = Function.update state.seenOf side message)
    (bound : message ≤ (state.indexOf side.other).newest)
    (loaded :
      .load .acquire (locationOf side.other) message ∈
        effects state ⟨agent, action⟩)
    (untouched :
      ∀ index, .access (.slot index) ∉ effects state ⟨agent, action⟩) :
    Lending.Step slotAccess slots (lending ⟨state, memory⟩)
      (lending ⟨next, memory.after accesses state ⟨agent, action⟩⟩) := by
  apply Lending.Step.acquire side message step.extends
  · simp only [lending, sameIndices]
  · exact isSeen
  · exact bound
  · subst own
    apply memory.carried_subset_acquired _ loaded
    intro order stored
    have isNew := newest_of_store stored
    omega
  · funext index
    exact memory.accesses_applyAll _ (untouched index)

/-- A move touches a slot within its side's limit. -/
theorem Step.touches
    (step : Step slots state agent action next)
    (tracked : Tracked state)
    (indices : Indices slots state)
    (side : Side)
    {index : Nat}
    (own : agent = agentOf side)
    (sameIndices : next.indexOf = state.indexOf)
    (sameSeen : next.seenOf = state.seenOf)
    (isSlot : state.slotOf? side = some index)
    (isEffect : effects state ⟨agent, action⟩ = [.access (.slot index)]) :
    Lending.Step slotAccess slots (lending ⟨state, memory⟩)
      (lending ⟨next, memory.after accesses state ⟨agent, action⟩⟩) := by
  subst own
  obtain ⟨position, rfl, notDone, within⟩ :=
    indices.position tracked isSlot
  apply Lending.Step.access side position step.extends
  · simp only [lending, sameIndices]
  · exact sameSeen
  · exact notDone
  · exact within
  · funext index
    simp only [lending, Memory.after, accesses, isEffect, Memory.applyAll,
      List.foldl_cons, List.foldl_nil, Memory.apply, Function.update_apply,
      Cell.slot.injEq]
  · simp [lending, Memory.after, accesses, isEffect, Memory.applyAll,
      Memory.apply, Memory.learn, slotAccess]

/-- Storing an index publishes what its side knows. -/
theorem Step.publishes
    (step : Step slots state agent action next)
    (side : Side)
    {moved : Nat}
    (own : agent = agentOf side)
    (isNewest :
      ∀ other,
        (next.indexOf other).newest =
          Function.update (fun side => (state.indexOf side).newest) side
            ((state.indexOf side).newest + 1) other)
    (sameSeen : next.seenOf = state.seenOf)
    (isTotal :
      totalAt (next.indexOf side) ((state.indexOf side).newest + 1) =
        total (state.indexOf side) + moved)
    (within :
      total (state.indexOf side) + moved ≤
        totalAt (state.indexOf side.other) (state.seenOf side) +
          side.reach slots)
    (isEffect :
      effects state ⟨agent, action⟩ =
        [.store .release (locationOf side)
          ((state.indexOf side).newest + 1)]) :
    Lending.Step slotAccess slots (lending ⟨state, memory⟩)
      (lending ⟨next, memory.after accesses state ⟨agent, action⟩⟩) := by
  subst own
  apply Lending.Step.publish side step.extends
  · funext other
    exact isNewest other
  · exact sameSeen
  · simp only [lending, isTotal]
    exact Nat.le_add_right _ _
  · simp only [lending, isTotal]
    exact within
  · funext index
    apply memory.accesses_applyAll
    simp [accesses, isEffect]
  · simp only [lending, Memory.after, accesses, isEffect]
    exact memory.subset_carried_release _ _ _
  · simp only [lending, Memory.after, accesses, isEffect]
    exact memory.carried_store_subset _ _ _ _

end Steps

section Lends

variable {slots : Nat} {state next : State α}
variable {action : Action α} {memory : QueueMemory}

/-- What a step of the producer does to the slots lent. -/
theorem ProducerStep.lends
    (tracked : Tracked state)
    (indices : Indices slots state)
    (own : ProducerStep slots state action next) :
    Lending.Step slotAccess slots (lending ⟨state, memory⟩)
      (lending ⟨next, memory.after accesses state ⟨.producer, action⟩⟩) := by
  have step : Step slots state .producer action next := .producer own
  cases own with
  | refreshedRoom isAt _ reads | refreshedFull isAt _ reads =>
      apply step.acquires .producer rfl
      · funext side
        cases side <;> rfl
      · funext side
        cases side <;> rfl
      · exact state.head.le_newest_of_read? reads
      · simp [effects, producerEffects, isAt, locationOf, Side.other]
      · simp [effects, producerEffects, isAt]
  | moveIn isAt | throwIn isAt =>
      apply step.touches tracked indices .producer rfl
      · funext side
        cases side <;> rfl
      · funext side
        cases side <;> rfl
      · exact congrArg ProducerPc.slot? isAt
      · simp [effects, producerEffects, isAt]
  | publishTail isAt =>
      have within := indices.producer
      rw [isAt] at within
      apply step.publishes .producer rfl
      · intro side
        cases side with
        | producer => simp [State.indexOf]
        | consumer => rfl
      · funext side
        cases side <;> rfl
      · exact totalAt_store_newest _ _ _
      · exact within.2
      · simp [effects, producerEffects, isAt, locationOf, State.indexOf]
  | invoke isAt | refused isAt | admitted isAt | room isAt | noRoom isAt
  | respond isAt =>
      apply step.learns
      · funext side
        cases side <;> rfl
      · funext side
        cases side <;> rfl
      · simp [effects, producerEffects, isAt]

/-- What a step of the consumer does to the slots lent. -/
theorem ConsumerStep.lends
    (tracked : Tracked state)
    (indices : Indices slots state)
    (own : ConsumerStep slots state action next) :
    Lending.Step slotAccess slots (lending ⟨state, memory⟩)
      (lending ⟨next, memory.after accesses state ⟨.consumer, action⟩⟩) := by
  have step : Step slots state .consumer action next := .consumer own
  cases own with
  | refreshedData isAt _ reads | refreshedEmpty isAt _ reads =>
      apply step.acquires .consumer rfl
      · funext side
        cases side <;> rfl
      · funext side
        cases side <;> rfl
      · exact state.tail.le_newest_of_read? reads
      · simp [effects, consumerEffects, isAt, locationOf, Side.other]
      · simp [effects, consumerEffects, isAt]
  | moveOut isAt | throwOut isAt =>
      apply step.touches tracked indices .consumer rfl
      · funext side
        cases side <;> rfl
      · funext side
        cases side <;> rfl
      · exact congrArg ConsumerPc.slot? isAt
      · simp [effects, consumerEffects, isAt]
  | publishHead isAt =>
      have within := indices.consumer
      rw [isAt] at within
      apply step.publishes .consumer rfl
      · intro side
        cases side with
        | producer => rfl
        | consumer => simp [State.indexOf]
      · funext side
        cases side <;> rfl
      · exact totalAt_store_newest _ _ _
      · exact within.2
      · simp [effects, consumerEffects, isAt, locationOf, State.indexOf]
  | invoke isAt | data isAt | noData isAt | popClosed isAt
  | loadClosed isAt | respond isAt =>
      apply step.learns
      · funext side
        cases side <;> rfl
      · funext side
        cases side <;> rfl
      · simp [effects, consumerEffects, isAt]

/-- What any step does to the slots lent. -/
theorem Step.lends
    {agent : Agent}
    (tracked : Tracked state)
    (indices : Indices slots state)
    (step : Step slots state agent action next) :
    Lending.Step slotAccess slots (lending ⟨state, memory⟩)
      (lending ⟨next, memory.after accesses state ⟨agent, action⟩⟩) := by
  have whole := step
  cases step with
  | producer own => exact own.lends tracked indices
  | consumer own => exact own.lends tracked indices
  | observer own =>
      apply whole.learns
      · cases own <;> rfl
      · cases own <;> rfl
      · intro index isAccess
        obtain ⟨side, isSide, _⟩ := access_cases isAccess
        cases side <;> cases isSide

end Lends

/-- What the memory behind the queue is like in every reachable state. -/
structure Guarded (slots : Nat) (ordered : OrderedState α) : Prop where
  licensed : Lending.Licensed slotAccess slots (lending ordered)
  headCache : ordered.memory.Settled .producer .headCache
  tailCache : ordered.memory.Settled .consumer .tailCache
  aware : Aware recording ordered
  released : ∀ location, Releases recording location ordered

namespace Guarded

variable {slots : Nat} {state next : State α} {memory : QueueMemory}

/-- The constructor synchronizes with nobody. -/
theorem initial [Inhabited α] :
    Guarded slots (⟨Spsc.initial, {}⟩ : OrderedState α) where
  licensed := by
    apply Lending.Licensed.initial
    · intro side
      cases side <;> rfl
    · intro side
      cases side <;> rfl
    · intro side
      cases side <;> rfl
    · intro side
      simp [lending]
    · intro slot
      rfl
  headCache := fun number bound => absurd bound (Nat.not_lt_zero number)
  tailCache := fun number bound => absurd bound (Nat.not_lt_zero number)
  aware := by
    apply Aware.initial rfl
    intro location message
    cases location <;> cases message <;> rfl
  released := by
    intro location message call authored
    cases location <;> cases message <;> cases authored

/-- Threads may learn more. -/
theorem learn
    (guarded : Guarded slots (⟨state, memory⟩ : OrderedState α))
    (agent : Agent)
    (more : List (Occurrence Location Cell)) :
    Guarded slots (⟨state, memory.learn agent more⟩ : OrderedState α) where
  licensed := by
    apply guarded.licensed.step
    refine Lending.Step.learn ?_ rfl rfl rfl
    constructor
    · intro side message _
      rfl
    · intro side message _
      rfl
    · intro side known isKnown
      exact memory.knows_learn agent more _ isKnown
  headCache := fun number bound =>
    memory.knows_learn agent more _ (guarded.headCache number bound)
  tailCache := fun number bound =>
    memory.knows_learn agent more _ (guarded.tailCache number bound)
  aware := guarded.aware.learn agent more
  released := guarded.released

/-- Every step keeps the memory in order. -/
theorem step
    {label : Label α}
    (tracked : Tracked state)
    (indices : Indices slots state)
    (guarded : Guarded slots (⟨state, memory⟩ : OrderedState α))
    (step : Step slots state label.agent label.action next) :
    Guarded slots
      (⟨next, memory.after accesses state label⟩ : OrderedState α) where
  licensed := guarded.licensed.step (step.lends tracked indices)
  headCache := guarded.headCache.applyAll _ fun isAccess =>
    access_cases isAccess
  tailCache := guarded.tailCache.applyAll _ fun isAccess =>
    access_cases isAccess
  aware := guarded.aware.step tracked.wellFormed (step.records tracked)
  released := fun location =>
    (guarded.released location).step guarded.aware (step.records tracked)
      fun _ _ stored => release_of_store stored

/-- The memory is in order in every reachable state. -/
theorem of_run
    [Inhabited α]
    (wide : 1 < slots)
    (small : slots ≤ SizeT.halfRange)
    {guard : StepGuard (OrderedState α) (Move (Label α) Agent)}
    {moves : List (Move (Label α) Agent)}
    {ordered : OrderedState α}
    (run :
      Run (orderedStep? (step? slots) accesses) guard ⟨Spsc.initial, {}⟩
        moves ordered) :
    Guarded slots ordered := by
  apply run.ordered_invariant
    (fun state => Tracked state ∧ Indices slots state)
  · intro moves ordered run
    exact ⟨Tracked.of_run run.unordered,
      Indices.of_run wide small run.unordered⟩
  · exact Guarded.initial
  · intro state next label memory before _ guarded _ taken
    exact guarded.step before.1 before.2 (Step.of_step? taken)
  · intro state memory agent more guarded _
    exact guarded.learn agent more

end Guarded

/-- The call stored the message that first counts the element at a position. -/
def Publishes
    (index : Atomic Publication Nat)
    (call position : Nat) : Prop :=
  ∃ message counted,
    index.author? (message + 1) = some ⟨call, counted⟩ ∧
      totalAt index message ≤ position ∧ position < counted

/-- The author of an index message is the call it was published with. -/
theorem authorAt?_locationOf
    {state : State α}
    {side : Side}
    {message call counted : Nat}
    (authored :
      (state.indexOf side).author? message = some ⟨call, counted⟩) :
    authorAt? state (locationOf side) message = some call := by
  cases side with
  | producer => exact congrArg (Option.map Publication.call) authored
  | consumer => exact congrArg (Option.map Publication.call) authored

/--
A call of one side that needs an element or a free slot returns knowing what
was known when the other side's call was made that published it.
-/
theorem Guarded.synchronized
    {slots : Nat}
    {ordered : OrderedState α}
    (guarded : Guarded slots ordered)
    (side : Side)
    {first second position : Nat}
    {owner : Agent}
    {result : Result α}
    (publishes :
      Publishes (ordered.state.indexOf side.other) first position)
    (needs :
      Publishes (ordered.state.indexOf side) second
        (position + side.reach slots))
    (returned : .respond owner second result ∈ ordered.state.log.history) :
    ordered.memory.begun first ⊆ ordered.memory.ended second := by
  obtain ⟨earlier, counted, author, starts, _⟩ := publishes
  obtain ⟨later, counted', author', _, ends⟩ := needs
  have bound := Atomic.le_newest_of_author? _ _ author
  have bound' := Atomic.le_newest_of_author? _ _ author'
  have counts :
      totalAt (ordered.state.indexOf side) (later + 1) = counted' := by
    simp [totalAt, author']
  have covers :
      totalAt (ordered.state.indexOf side.other) earlier +
          side.reach slots <
        totalAt (ordered.state.indexOf side) (later + 1) := by
    omega
  have handed := guarded.licensed.handed bound' bound covers
  have stored := authorAt?_locationOf author
  have stored' := authorAt?_locationOf author'
  intro occurrence isBegun
  apply (guarded.aware.storedEnded returned stored').2
  apply handed
  exact guarded.released _ _ _ stored isBegun

section Guarantees

variable [Inhabited α] {elementSize capacity slots : Nat}
variable {guard : StepGuard (OrderedState α) (Move (Label α) Agent)}
variable {moves : List (Move (Label α) Agent)} {ordered : OrderedState α}

/--
Calls on the same element synchronize: all that the producer knew when it made
the push is known when the pop of the element returns, and all that the
consumer knew when it made the pop is known when the push returns that is the
first to need the slot so freed.
-/
theorem ring_calls_synchronize
    (built : ringSlots elementSize capacity = .ok slots)
    (run :
      Run (orderedStep? (step? slots) accesses) guard ⟨initial, {}⟩ moves
        ordered)
    {push pop pushed popped : Nat}
    {owner : Agent}
    {result : Result α}
    (pushes : Publishes ordered.state.tail push pushed)
    (pops : Publishes ordered.state.head pop popped) :
    (pushed = popped →
        .respond owner pop result ∈ ordered.state.log.history →
        ordered.memory.begun push ⊆ ordered.memory.ended pop) ∧
      (pushed = popped + capacity →
        .respond owner push result ∈ ordered.state.log.history →
        ordered.memory.begun pop ⊆ ordered.memory.ended push) := by
  obtain ⟨rfl, wide, small⟩ := ringSlots_ok built
  have guarded := Guarded.of_run wide small run
  constructor
  · rintro rfl returned
    exact guarded.synchronized .consumer pushes pops returned
  · rintro rfl returned
    exact guarded.synchronized .producer pops pushes returned

end Guarantees

/--
The producer does something and fills a ring for one element, the consumer
frees the slot twice, and the producer is about to use the first slot again.
-/
def lendingMoves : List (Move (Label Nat) Agent) :=
  [.act .producer 9, .step ⟨.producer, .invoke (.tryPush 7)⟩,
    .step ⟨.producer, .load 0⟩, .step ⟨.producer, .check⟩,
    .step ⟨.producer, .move 0⟩, .step ⟨.producer, .store⟩,
    .step ⟨.producer, .respond⟩, .step ⟨.consumer, .invoke (.tryPop 0)⟩,
    .step ⟨.consumer, .check⟩, .step ⟨.consumer, .load 1⟩,
    .step ⟨.consumer, .move 0⟩, .step ⟨.consumer, .store⟩,
    .step ⟨.consumer, .respond⟩, .step ⟨.producer, .invoke (.tryPush 8)⟩,
    .step ⟨.producer, .load 0⟩, .step ⟨.producer, .check⟩,
    .step ⟨.producer, .load 1⟩, .step ⟨.producer, .move 0⟩,
    .step ⟨.producer, .store⟩, .step ⟨.producer, .respond⟩,
    .step ⟨.consumer, .invoke (.tryPop 0)⟩, .step ⟨.consumer, .check⟩,
    .step ⟨.consumer, .load 2⟩, .step ⟨.consumer, .move 0⟩,
    .step ⟨.consumer, .store⟩, .step ⟨.consumer, .respond⟩,
    .step ⟨.producer, .invoke (.tryPush 9)⟩, .step ⟨.producer, .load 0⟩,
    .step ⟨.producer, .check⟩, .step ⟨.producer, .load 2⟩]

theorem ring_calls_synchronize_refilled :
    ∃ ordered,
      replay? (orderedStep? (step? 2) accesses) unrestricted ⟨initial, {}⟩
          lendingMoves =
        some ordered ∧
        .action 9 ∈ ordered.memory.begun 0 ∧
        ordered.memory.begun 0 ⊆ ordered.memory.ended 1 ∧
        ordered.memory.begun 1 ⊆ ordered.memory.ended 2 := by
  have replayed :
      ∃ ordered,
        replay? (orderedStep? (step? 2) accesses) unrestricted
            ⟨initial, {}⟩ lendingMoves =
          some ordered ∧
          .action 9 ∈ ordered.memory.begun 0 ∧
          Publishes ordered.state.tail 0 0 ∧
          Publishes ordered.state.head 1 0 ∧
          Publishes ordered.state.tail 2 1 ∧
          .respond .consumer 1 (.popped true 7) ∈
            ordered.state.log.history ∧
          .respond .producer 2 (.pushed true) ∈ ordered.state.log.history :=
    ⟨_, rfl, by decide, ⟨0, 1, rfl, by decide, by decide⟩,
      ⟨0, 1, rfl, by decide, by decide⟩, ⟨1, 2, rfl, by decide, by decide⟩,
      by decide, by decide⟩
  obtain ⟨ordered, accepted, known, pushes, pops, pushes', returned,
    returned'⟩ := replayed
  have built : ringSlots 8 1 = .ok 2 := rfl
  have run := Run.of_replay? accepted
  exact ⟨ordered, accepted, known,
    (ring_calls_synchronize built run pushes pops).1 rfl returned,
    (ring_calls_synchronize built run pushes' pops).2 rfl returned'⟩

end ConcurrentQueue.Spsc
