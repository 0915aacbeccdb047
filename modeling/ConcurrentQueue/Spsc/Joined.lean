import ConcurrentQueue.Library.Joining
import ConcurrentQueue.Spsc.Drain
import ConcurrentQueue.Spsc.RaceFreedom

namespace ConcurrentQueue.Spsc

/-!
# Closing after joining the producer

`orderly` assumes what a consumer that has read `closed_` as `true` sees of
`tail_`, and that a push sees the flag of a `close()` that is over.  Here both
are derived from coherence, from the release store of `closed_` and from
clients that join each push before a `close()` and each `close()` before a
push.
-/

variable {α : Type}

/-- Loads are coherent, and pushes and closes join each other. -/
def joiningCoherently :
    StepGuard (OrderedState α) (Move (Label α) Agent) :=
  fun ordered move =>
    coherently accesses ordered move ∧
      joining accesses recording Op.isPush Op.isClose ordered move ∧
      joining accesses recording Op.isClose Op.isPush ordered move

instance :
    ∀ (ordered : OrderedState α) (move : Move (Label α) Agent),
      Decidable (joiningCoherently ordered move) :=
  fun _ _ => inferInstanceAs (Decidable (_ ∧ _ ∧ _))

/-- What the clients' joining makes known. -/
structure Joined (ordered : OrderedState α) : Prop where
  pushes : JoinedBefore recording Op.isPush Op.isClose ordered
  closes : JoinedBefore recording Op.isClose Op.isPush ordered
  /-- The consumer knows what was known at every `close()` it has read. -/
  closeRead :
    ∀ close ∈ ordered.state.closesRead,
      ordered.memory.begun close ⊆ ordered.memory.knows .consumer
  /-- Only pushes store `tail_`. -/
  published :
    ∀ {message publication},
      ordered.state.tail.author? message = some publication →
      ∃ owner op,
        .invoke owner publication.call op ∈ ordered.state.log.history ∧
          op.isPush = true

namespace Joined

variable {slots : Nat} {state next : State α} {memory : QueueMemory}
variable {agent : Agent} {action : Action α}

/-- Nothing was called or stored yet. -/
theorem initial [Inhabited α] :
    Joined (⟨Spsc.initial, {}⟩ : OrderedState α) where
  pushes := JoinedBefore.initial rfl
  closes := JoinedBefore.initial rfl
  closeRead := by
    intro close isRead
    cases isRead
  published := by
    intro message publication authored
    cases message <;> cases authored

/-- The agents may learn more. -/
theorem learn
    (joined : Joined (⟨state, memory⟩ : OrderedState α))
    (agent : Agent)
    (more : List (Occurrence Location Cell)) :
    Joined (⟨state, memory.learn agent more⟩ : OrderedState α) where
  pushes := ⟨joined.pushes.known⟩
  closes := ⟨joined.closes.known⟩
  closeRead := fun close isRead =>
    List.Subset.trans (joined.closeRead close isRead)
      (memory.knows_learn agent more .consumer)
  published := joined.published

/-- An acquire load of `closed_` hands over what was known at the `close()`. -/
theorem begun_of_closedLoad
    {message close : Nat}
    (guarded : Guarded slots (⟨state, memory⟩ : OrderedState α))
    (authored : state.closed.author? message = some close)
    (isEffect :
      effects state ⟨agent, action⟩ = [.load .acquire .closed message]) :
    memory.begun close ⊆
      (memory.after accesses state ⟨agent, action⟩).knows agent := by
  have acquired :
      memory.carried .closed message ⊆
        (memory.after accesses state ⟨agent, action⟩).knows agent := by
    apply memory.carried_subset_acquired
    · simp [accesses, isEffect]
    · simp [accesses, isEffect]
  exact List.Subset.trans
    (guarded.released .closed message close authored) acquired

/-- Reading `closed_` from a `close()` makes known what it knew. -/
theorem closeRead_step
    (tracked : Tracked state)
    (guarded : Guarded slots (⟨state, memory⟩ : OrderedState α))
    (draining : Draining state)
    (joined : Joined (⟨state, memory⟩ : OrderedState α))
    (step : Step slots state agent action next)
    (close : Nat)
    (isRead : close ∈ next.closesRead) :
    (memory.after accesses state ⟨agent, action⟩).begun close ⊆
      (memory.after accesses state ⟨agent, action⟩).knows .consumer := by
  have records := step.records tracked
  have kept :
      close ∈ state.closesRead →
        (memory.after accesses state ⟨agent, action⟩).begun close ⊆
          (memory.after accesses state ⟨agent, action⟩).knows
            .consumer := by
    intro old
    obtain ⟨closer, invoked⟩ := draining.seen old
    have fresh : close < state.log.nextCall :=
      tracked.wellFormed.fresh _ invoked
    rw [records.begun_eq fresh]
    exact List.Subset.trans (joined.closeRead close old)
      (memory.knows_applyAll _ _ .consumer)
  cases step with
  | producer own =>
      rw [own.closesRead_eq] at isRead
      exact kept isRead
  | observer own =>
      rw [own.closesRead_eq] at isRead
      exact kept isRead
  | consumer own =>
      cases own with
      | popClosed isAt | loadClosed isAt =>
          rcases List.mem_append.mp isRead with isNew | old
          · have authored := Option.mem_toList.mp isNew
            have isAuthor :
                recording.author? state .closed _ = some close := authored
            rw [records.begun_eq (guarded.aware.authors isAuthor)]
            apply begun_of_closedLoad guarded authored
            simp [effects, consumerEffects, isAt]
          · exact kept old
      | _ =>
          exact kept isRead

/-- Only pushes store `tail_`. -/
theorem published_step
    (tracked : Tracked state)
    (closing : Closing state)
    (joined : Joined (⟨state, memory⟩ : OrderedState α))
    (step : Step slots state agent action next)
    {message : Nat}
    {publication : Publication}
    (authored : next.tail.author? message = some publication) :
    ∃ owner op,
      .invoke owner publication.call op ∈ next.log.history ∧
        op.isPush = true := by
  have kept := (step.records tracked).history_subset
  have old :
      state.tail.author? message = some publication →
        ∃ owner op,
          .invoke owner publication.call op ∈ next.log.history ∧
            op.isPush = true := by
    intro authored
    obtain ⟨owner, op, invoked, isPush⟩ := joined.published authored
    exact ⟨owner, op, kept invoked, isPush⟩
  cases step with
  | producer own =>
      cases own with
      | publishTail isAt =>
          have agrees := tracked.producer
          rw [isAt] at agrees
          obtain ⟨call, op, isCurrent, _⟩ := agrees
          simp only [State.publishTail, State.atProducer,
            Atomic.author?_store] at authored
          split at authored
          · cases authored
            rw [State.callOf_eq isCurrent]
            exact ⟨.producer, op,
              kept (tracked.wellFormed.currentInvoked isCurrent),
              closing.pushing isCurrent⟩
          · exact old authored
      | _ =>
          exact old authored
  | consumer own =>
      cases own <;> exact old authored
  | observer own =>
      cases own <;> exact old authored

/-- Every step keeps what the clients' joining makes known. -/
theorem step
    {label : Label α}
    (tracked : Tracked state)
    (guarded : Guarded slots (⟨state, memory⟩ : OrderedState α))
    (closing : Closing state)
    (draining : Draining state)
    (joined : Joined (⟨state, memory⟩ : OrderedState α))
    (admitted :
      joiningCoherently (⟨state, memory⟩ : OrderedState α) (.step label))
    (step : Step slots state label.agent label.action next) :
    Joined (⟨next, memory.after accesses state label⟩ : OrderedState α) where
  pushes := joined.pushes.step tracked.wellFormed admitted.2.1
    (step.records tracked)
  closes := joined.closes.step tracked.wellFormed admitted.2.2
    (step.records tracked)
  closeRead := joined.closeRead_step tracked guarded draining step
  published := joined.published_step tracked closing step

/-- A push in progress knows of every message of `closed_`. -/
theorem seen_closed
    (tracked : Tracked state)
    (guarded : Guarded slots (⟨state, memory⟩ : OrderedState α))
    (closing : Closing state)
    (joined : Joined (⟨state, memory⟩ : OrderedState α))
    {opened : OpenCall (Op α) (Handover α)}
    (isCurrent : state.log.current .producer = some opened)
    {message close : Nat}
    (authored : state.closed.author? message = some close) :
    .seen .closed message ∈ memory.knows .producer := by
  obtain ⟨closer, invoked⟩ := closing.authored authored
  obtain ⟨⟨responder, result, returned⟩, known⟩ :=
    joined.closes.known_of_current joined.pushes guarded.aware
      tracked.wellFormed isCurrent (closing.pushing isCurrent) invoked rfl
      rfl
  have isAuthor : recording.author? state .closed message = some close :=
    authored
  exact known (guarded.aware.storedEnded returned isAuthor).1

/-- What the consumer has read `closed_` from knows of earlier pushes. -/
theorem seen_tail
    (tracked : Tracked state)
    (guarded : Guarded slots (⟨state, memory⟩ : OrderedState α))
    (draining : Draining state)
    (joined : Joined (⟨state, memory⟩ : OrderedState α))
    {close message : Nat}
    {publication : Publication}
    (isRead : close ∈ state.closesRead)
    (authored : state.tail.author? message = some publication)
    (precedes : state.log.Precedes publication.call close) :
    .seen .tail message ∈ memory.knows .consumer := by
  obtain ⟨closer, closes⟩ := draining.seen isRead
  obtain ⟨pusher, op, pushes, isPush⟩ := joined.published authored
  obtain ⟨⟨responder, result, returned⟩, known⟩ :=
    joined.pushes.known pushes closes isPush rfl
      (tracked.wellFormed.lt_of_precedes precedes)
  have isAuthor :
      recording.author? state .tail message = some publication.call :=
    congrArg (Option.map Publication.call) authored
  apply joined.closeRead close isRead
  exact known (guarded.aware.storedEnded returned isAuthor).1

/-- Coherent loads and joining clients make for an orderly step. -/
theorem orderly
    {label : Label α}
    (tracked : Tracked state)
    (guarded : Guarded slots (⟨state, memory⟩ : OrderedState α))
    (closing : Closing state)
    (draining : Draining state)
    (joined : Joined (⟨state, memory⟩ : OrderedState α))
    (admitted :
      joiningCoherently (⟨state, memory⟩ : OrderedState α) (.step label))
    (step : Step slots state label.agent label.action next) :
    Spsc.orderly state label := by
  rcases label with ⟨agent, action⟩
  obtain ⟨coherent, pushesFirst, closesFirst⟩ := admitted
  cases step with
  | producer own =>
      simp only [Spsc.orderly]
      cases own with
      | invoke isAt starts =>
          rename_i op pc
          simp only [producerOrderly, isAt]
          exact (closesFirst op rfl (ProducerPc.attempting_start? starts).2).1
      | refused isAt reads | admitted isAt reads =>
          rename_i pusher message
          simp only [producerOrderly, isAt]
          have isCoherent :
              memory.Coherent .producer (.load .relaxed .closed message) :=
            coherent _ (by simp [accesses, effects, producerEffects, isAt])
          have agrees := tracked.producer
          rw [isAt] at agrees
          obtain ⟨call, op, isCurrent, _⟩ := agrees
          apply Nat.le_antisymm (Atomic.le_newest_of_read? _ reads)
          cases shape : state.closed.newest with
          | zero =>
              exact Nat.zero_le _
          | succ earlier =>
              obtain ⟨close, authored⟩ :=
                state.closed.exists_author? (Nat.le_of_eq shape.symm)
              exact isCoherent.le
                (joined.seen_closed tracked guarded closing isCurrent
                  authored)
      | room isAt | noRoom isAt | refreshedRoom isAt | refreshedFull isAt
      | moveIn isAt | throwIn isAt | publishTail isAt | respond isAt =>
          simp [producerOrderly, isAt]
  | consumer own =>
      simp only [Spsc.orderly]
      cases own with
      | refreshedData isAt _ reads | refreshedEmpty isAt _ reads =>
          rename_i popper message index _ _
          simp only [consumerOrderly, isAt]
          have isCoherent :
              memory.Coherent .consumer (.load .acquire .tail message) :=
            coherent _ (by simp [accesses, effects, consumerEffects, isAt])
          intro close isRead later _ publication authored precedes
          exact isCoherent.le
            (joined.seen_tail tracked guarded draining isRead authored
              precedes)
      | invoke isAt | data isAt | noData isAt | popClosed isAt
      | moveOut isAt | throwOut isAt | publishHead isAt | loadClosed isAt
      | respond isAt =>
          simp [consumerOrderly, isAt]
  | observer own =>
      simp only [Spsc.orderly]
      cases own with
      | invoke isAt starts =>
          rename_i op pc
          cases op with
          | close => exact (pushesFirst .close rfl rfl).1
          | _ => trivial
      | _ =>
          trivial

/-- A run of coherent loads and joining clients is an orderly run. -/
theorem of_run
    [Inhabited α]
    (wide : 1 < slots)
    (small : slots ≤ SizeT.halfRange)
    {moves : List (Move (Label α) Agent)}
    {ordered : OrderedState α}
    (run :
      Run (orderedStep? (step? slots) accesses) joiningCoherently
        ⟨Spsc.initial, {}⟩ moves ordered) :
    Run (step? slots) Spsc.orderly Spsc.initial
        (moves.filterMap Move.label?) ordered.state ∧
      Joined ordered := by
  induction run with
  | start =>
      exact ⟨.start, Joined.initial⟩
  | snoc earlier admitted taken inductionHypothesis =>
      rename_i moves ordered next move
      obtain ⟨orderlyRun, joined⟩ := inductionHypothesis
      rw [List.filterMap_append]
      cases move with
      | step label =>
          obtain ⟨state, takes, rfl⟩ := Option.map_eq_some_iff.mp taken
          have step := Step.of_step? takes
          have tracked := Tracked.of_run orderlyRun
          have guarded := Guarded.of_run wide small earlier
          have closing := Closing.of_run orderlyRun
          have draining := Draining.of_run wide small orderlyRun
          constructor
          · exact orderlyRun.snoc
              (joined.orderly tracked guarded closing draining admitted step)
              takes
          · exact joined.step tracked guarded closing draining admitted step
      | act agent name | synchronize source target =>
          cases taken
          exact ⟨by simpa [List.filterMap, Move.label?] using orderlyRun,
            joined.learn _ _⟩

end Joined

/--
A queue closed by a thread that has joined the producer is drained when the
consumer is told so: coherence and the release of `closed_` make every run
orderly, and all that was pushed has been popped.
-/
theorem ring_joined_close_drains
    [Inhabited α]
    {elementSize capacity slots : Nat}
    (built : ringSlots elementSize capacity = .ok slots)
    {moves : List (Move (Label α) Agent)}
    {ordered : OrderedState α}
    (run :
      Run (orderedStep? (step? slots) accesses) joiningCoherently
        ⟨initial, {}⟩ moves ordered) :
    Run (step? slots) orderly initial (moves.filterMap Move.label?)
        ordered.state ∧
      (ConsumerEnded ordered.state.log →
        ordered.state.head.latest = ordered.state.tail.latest ∧
          ordered.state.popped.length = ordered.state.pushed.length) := by
  obtain ⟨_, wide, small⟩ := ringSlots_ok built
  obtain ⟨orderlyRun, _⟩ := Joined.of_run wide small run
  refine ⟨orderlyRun, ?_⟩
  intro ended
  have indices := Indices.of_run wide small orderlyRun
  have delivered := Delivered.of_run wide small orderlyRun
  have draining := Draining.of_run wide small orderlyRun
  have drained := (draining.drained_of_ended ended).2
  rw [indices.head.latest_eq, indices.tail.latest_eq,
    ← delivered.poppedCount, ← delivered.pushedCount]
  exact ⟨congrArg (· % slots) drained, drained⟩

/--
The producer pushes, an observer joins it and closes, and the consumer pops
until its load of `closed_` forbids it a stale `tail_`.
-/
def joinedMoves : List (Move (Label Nat) Agent) :=
  [.step ⟨.producer, .invoke (.push 7)⟩, .step ⟨.producer, .load 0⟩,
    .step ⟨.producer, .check⟩, .step ⟨.producer, .move 0⟩,
    .step ⟨.producer, .store⟩, .step ⟨.producer, .respond⟩,
    .synchronize .producer (.observer 0),
    .step ⟨.observer 0, .invoke .close⟩, .step ⟨.observer 0, .store⟩,
    .step ⟨.observer 0, .respond⟩, .step ⟨.consumer, .invoke (.pop 5)⟩,
    .step ⟨.consumer, .check⟩, .step ⟨.consumer, .load 0⟩,
    .step ⟨.consumer, .load 1⟩, .step ⟨.consumer, .check⟩,
    .step ⟨.consumer, .load 1⟩, .step ⟨.consumer, .move 0⟩,
    .step ⟨.consumer, .store⟩, .step ⟨.consumer, .respond⟩,
    .step ⟨.consumer, .invoke (.pop 5)⟩, .step ⟨.consumer, .check⟩,
    .step ⟨.consumer, .load 1⟩, .step ⟨.consumer, .load 1⟩,
    .step ⟨.consumer, .check⟩, .step ⟨.consumer, .load 1⟩,
    .step ⟨.consumer, .respond⟩]

theorem ring_joined_close_drains_one :
    ∃ ordered,
      replay? (orderedStep? (step? 2) accesses) joiningCoherently
          ⟨initial, {}⟩ joinedMoves =
        some ordered ∧
        ordered.state.popped = [7] ∧
        ConsumerEnded ordered.state.log ∧
        ordered.state.head.latest = ordered.state.tail.latest ∧
        ordered.state.popped.length = ordered.state.pushed.length := by
  have replayed :
      ∃ ordered,
        replay? (orderedStep? (step? 2) accesses) joiningCoherently
            ⟨initial, {}⟩ joinedMoves =
          some ordered ∧
          ordered.state.popped = [7] ∧
          ConsumerEnded ordered.state.log :=
    ⟨_, rfl, rfl, Or.inr ⟨3, 5, 5, by decide, by decide⟩⟩
  obtain ⟨ordered, accepted, pops, ended⟩ := replayed
  have built : ringSlots 8 1 = .ok 2 := rfl
  exact ⟨ordered, accepted, pops, ended,
    (ring_joined_close_drains built (Run.of_replay? accepted)).2 ended⟩

end ConcurrentQueue.Spsc
