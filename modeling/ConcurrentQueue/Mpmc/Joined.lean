import ConcurrentQueue.Library.Joining
import ConcurrentQueue.Mpmc.Drain
import ConcurrentQueue.Mpmc.RaceFreedom

namespace ConcurrentQueue.Mpmc

/-!
# Closing after joining the producers

`orderly` assumes what a thread that has read `closed_` as `true` sees of the
sequences.  Here that is derived.  Loads are coherent, `close()` is called by
a thread that has synchronized with every push, and a push that starts after a
`close()` is called by a thread that has synchronized with it.  The release
store of `closed_` then carries all sequence stores of those pushes to
whoever loads it.
-/

variable {α : Type}

/-- Loads are coherent, and pushes and closes join each other. -/
def joiningCoherently (arithmetic : Arithmetic) :
    StepGuard (OrderedState α) (Move (Label α) Nat) :=
  fun ordered move =>
    coherently (accesses arithmetic) ordered move ∧
      joining (accesses arithmetic) recording Op.isPush Op.isClose ordered
        move ∧
      joining (accesses arithmetic) recording Op.isClose Op.isPush ordered
        move

instance (arithmetic : Arithmetic) :
    ∀ (ordered : OrderedState α) (move : Move (Label α) Nat),
      Decidable (joiningCoherently arithmetic ordered move) :=
  fun _ _ => inferInstanceAs (Decidable (_ ∧ _ ∧ _))

/-- What the clients' joining makes known. -/
structure Joined (ordered : OrderedState α) : Prop where
  pushes : JoinedBefore recording Op.isPush Op.isClose ordered
  closes : JoinedBefore recording Op.isClose Op.isPush ordered
  /-- Messages of `closed_` carry what was known at the `close()`. -/
  released : Releases recording .closed ordered
  /-- Whoever has read `closed_` from a `close()` knows that much. -/
  closeRead :
    ∀ {thread close},
      close ∈ (ordered.state.threads thread).closesRead →
      ordered.memory.begun close ⊆ ordered.memory.knows thread

namespace Joined

variable {capacity : Nat} {state next : State α}
variable {memory : QueueMemory} {arithmetic : Arithmetic}
variable {thread : Nat} {action : Action α}

/-- Nothing was called or stored yet. -/
theorem initial [Inhabited α] (arithmetic : Arithmetic) :
    Joined (⟨Mpmc.initial arithmetic, {}⟩ : OrderedState α) where
  pushes := JoinedBefore.initial rfl
  closes := JoinedBefore.initial rfl
  released := by
    intro message call authored
    cases message <;> cases authored
  closeRead := by
    intro thread close isRead
    simp [Mpmc.initial] at isRead

/-- Threads may learn more. -/
theorem learn
    (joined : Joined (⟨state, memory⟩ : OrderedState α))
    (thread : Nat)
    (more : List (Occurrence Location Nat)) :
    Joined (⟨state, memory.learn thread more⟩ : OrderedState α) where
  pushes := ⟨joined.pushes.known⟩
  closes := ⟨joined.closes.known⟩
  released := joined.released
  closeRead := fun isRead =>
    List.Subset.trans (joined.closeRead isRead)
      (memory.knows_learn thread more _)

/-- A push in progress has joined every `close()` that stored its flag. -/
theorem known_of_push
    (tracked : Tracked capacity state)
    (aware : Aware recording (⟨state, memory⟩ : OrderedState α))
    (closing : Closing state)
    (joined : Joined (⟨state, memory⟩ : OrderedState α))
    {opened : OpenCall (Op α) Ticket}
    (isCurrent : state.log.current thread = some opened)
    (isPush : opened.op.isPush = true)
    {message close : Nat}
    (authored : state.closed.author? message = some close) :
    .seen .closed message ∈ memory.knows thread ∧
      memory.begun close ⊆ memory.knows thread := by
  obtain ⟨closer, invoked⟩ := closing.authored authored
  obtain ⟨⟨responder, result, returned⟩, known⟩ :=
    joined.closes.known_of_current joined.pushes aware tracked.wellFormed
      isCurrent isPush invoked rfl rfl
  have isAuthor : recording.author? state .closed message = some close :=
    authored
  constructor
  · exact known (aware.storedEnded returned isAuthor).1
  · exact List.Subset.trans (aware.begunEnded returned) known

/-- A load of `closed_` makes known what was known at the `close()`. -/
theorem begun_of_closedLoad
    (tracked : Tracked capacity state)
    (aware : Aware recording (⟨state, memory⟩ : OrderedState α))
    (closing : Closing state)
    (joined : Joined (⟨state, memory⟩ : OrderedState α))
    {message close : Nat}
    (isAt :
      (state.threads thread).pc = .loadClosed ∨
        ∃ caller, (state.threads thread).pc = .checkClosed caller)
    (authored : state.closed.author? message = some close) :
    memory.begun close ⊆
      (memory.after arithmetic state thread (.load message)).knows
        thread := by
  have carried := joined.released message close authored
  rcases isAt with isAt | ⟨caller, isAt⟩
  · exact List.Subset.trans carried
      (memory.subset_closedLoaded (Or.inl isAt))
  · cases isSide : caller.side with
    | consumer =>
        exact List.Subset.trans carried
          (memory.subset_closedLoaded (Or.inr ⟨caller, isAt, isSide⟩))
    | producer =>
        -- the load is relaxed, but the push has joined the close
        have agrees := tracked.agrees thread
        rw [isAt] at agrees
        obtain ⟨call, isCurrent⟩ := agrees
        have isPush : caller.op.isPush = true :=
          isPush_of_sideOf? (by simp [isSide])
        have known :=
          joined.known_of_push tracked aware closing isCurrent isPush
            authored
        exact List.Subset.trans known.2 (memory.knows_after thread)

/-- Whoever reads `closed_` from a `close()` comes to know as much. -/
theorem closeRead_step
    (tracked : Tracked capacity state)
    (aware : Aware recording (⟨state, memory⟩ : OrderedState α))
    (closing : Closing state)
    (draining : Draining state)
    (joined : Joined (⟨state, memory⟩ : OrderedState α))
    (step : Step arithmetic state thread action next)
    {other close : Nat}
    (isRead : close ∈ (next.threads other).closesRead) :
    (memory.after arithmetic state thread action).begun close ⊆
      (memory.after arithmetic state thread action).knows other := by
  have records := step.records tracked
  have kept :
      close ∈ (state.threads other).closesRead →
        (memory.after arithmetic state thread action).begun close ⊆
          (memory.after arithmetic state thread action).knows other := by
    intro old
    obtain ⟨closer, invoked⟩ := draining.seen old
    have fresh : close < state.log.nextCall :=
      tracked.wellFormed.fresh _ invoked
    rw [records.begun_eq fresh]
    exact List.Subset.trans (joined.closeRead old)
      (memory.knows_after other)
  cases step with
  | checkClosed isAt | loadClosed isAt =>
      simp only [State.closesRead_goto, State.closesRead_noteClose]
        at isRead
      split at isRead
      · rename_i same
        subst same
        rcases List.mem_append.mp isRead with isNew | old
        · have authored := Option.mem_toList.mp isNew
          have isAuthor :
              recording.author? state .closed _ = some close := authored
          rw [records.begun_eq (aware.authors isAuthor)]
          exact joined.begun_of_closedLoad tracked aware closing
            (by simp [isAt]) authored
        · exact kept old
      · exact kept isRead
  | _ =>
      exact kept (by simpa using isRead)

/-- Every step keeps what the clients' joining makes known. -/
theorem step
    {label : Label α}
    (tracked : Tracked capacity state)
    (aware : Aware recording (⟨state, memory⟩ : OrderedState α))
    (closing : Closing state)
    (draining : Draining state)
    (joined : Joined (⟨state, memory⟩ : OrderedState α))
    (admitted :
      joiningCoherently arithmetic (⟨state, memory⟩ : OrderedState α)
        (.step label))
    (step : Step arithmetic state label.thread label.action next) :
    Joined
      (⟨next, Memory.after memory (accesses arithmetic) state label⟩ :
        OrderedState α) where
  pushes := joined.pushes.step tracked.wellFormed admitted.2.1
    (step.records tracked)
  closes := joined.closes.step tracked.wellFormed admitted.2.2
    (step.records tracked)
  released := joined.released.step aware (step.records tracked)
    fun _ _ stored => release_of_storeClosed stored
  closeRead := joined.closeRead_step tracked aware closing draining step

/-- Coherent loads and joining clients make for an orderly step. -/
theorem orderly
    (tracked : Tracked capacity state)
    (aware : Aware recording (⟨state, memory⟩ : OrderedState α))
    (closing : Closing state)
    (draining : Draining state)
    (joined : Joined (⟨state, memory⟩ : OrderedState α))
    {label : Label α}
    (admitted :
      joiningCoherently arithmetic (⟨state, memory⟩ : OrderedState α)
        (.step label))
    (step : Step arithmetic state label.thread label.action next) :
    Mpmc.orderly arithmetic state label := by
  rcases label with ⟨thread, action⟩
  obtain ⟨coherent, pushesFirst, closesFirst⟩ := admitted
  cases step with
  | invoke isAt starts =>
      rename_i op pc
      simp only [Mpmc.orderly, isAt]
      exact ⟨fun isClose => (pushesFirst op rfl isClose).1,
        fun isPush => (closesFirst op rfl isPush).1⟩
  | checkClosed isAt reads =>
      rename_i caller message flag
      simp only [Mpmc.orderly, isAt]
      intro isProducer
      have isCoherent :
          memory.Coherent thread
            (.load caller.closedOrder .closed message) :=
        coherent _ (by simp [accesses, effects, isAt])
      have agrees := tracked.agrees thread
      rw [isAt] at agrees
      obtain ⟨call, isCurrent⟩ := agrees
      have isPush : caller.op.isPush = true :=
        isPush_of_sideOf? (by simp [isProducer])
      apply Nat.le_antisymm (Atomic.le_newest_of_read? _ reads)
      cases shape : state.closed.newest with
      | zero =>
          exact Nat.zero_le _
      | succ earlier =>
          obtain ⟨close, authored⟩ :=
            state.closed.exists_author? (Nat.le_of_eq shape.symm)
          exact isCoherent.le
            (joined.known_of_push tracked aware closing isCurrent isPush
              authored).1
  | loadSequence isAt reads =>
      rename_i caller ticket message sequence
      simp only [Mpmc.orderly, isAt]
      intro close isRead later bound
      split
      · trivial
      · rename_i push authored
        intro isPush precedes
        have isCoherent :
            memory.Coherent thread
              (.load .acquire
                (.sequence (arithmetic.slotIndex ticket)) message) :=
          coherent _ (by simp [accesses, effects, isAt])
        obtain ⟨closer, closes⟩ := draining.seen isRead
        obtain ⟨pusher, op, pushes, isPushOp⟩ :=
          CallLog.exists_invoke_of_isCallOf isPush
        obtain ⟨⟨owner, result, returned⟩, known⟩ :=
          joined.pushes.known pushes closes isPushOp rfl
            (tracked.wellFormed.lt_of_precedes precedes)
        have isAuthor :
            recording.author? state
                (.sequence (arithmetic.slotIndex ticket)) later =
              some push :=
          authored
        exact isCoherent.le
          (joined.closeRead isRead
            (known (aware.storedEnded returned isAuthor).1))
  | loadPos isAt | reloadPos isAt | claim isAt | lost isAt | moveValue isAt
  | storeSequence isAt | storeClosed isAt | loadClosed isAt | sizeTail isAt
  | sizeHead isAt | respond isAt =>
      simp [Mpmc.orderly, isAt]

/-- A run of coherent loads and joining clients is an orderly run. -/
theorem of_run
    [Inhabited α]
    (positive : 0 < capacity)
    {moves : List (Move (Label α) Nat)}
    {ordered : OrderedState α}
    (run :
      Run
        (orderedStep? (step? (Arithmetic.exact capacity))
          (accesses (Arithmetic.exact capacity)))
        (joiningCoherently (Arithmetic.exact capacity))
        ⟨Mpmc.initial (Arithmetic.exact capacity), {}⟩ moves ordered) :
    Run (step? (Arithmetic.exact capacity))
        (Mpmc.orderly (Arithmetic.exact capacity))
        (Mpmc.initial (Arithmetic.exact capacity))
        (moves.filterMap Move.label?) ordered.state ∧
      Joined ordered := by
  induction run with
  | start =>
      exact ⟨.start, Joined.initial _⟩
  | snoc earlier admitted taken inductionHypothesis =>
      rename_i moves ordered next move
      obtain ⟨orderlyRun, joined⟩ := inductionHypothesis
      rw [List.filterMap_append]
      cases move with
      | step label =>
          obtain ⟨state, takes, rfl⟩ := Option.map_eq_some_iff.mp taken
          have step := Step.of_step? takes
          have tracked := Tracked.of_run positive orderlyRun
          have closing := Closing.of_run positive orderlyRun
          have draining := Draining.of_run positive orderlyRun
          have aware := (Published.of_run positive earlier).aware
          constructor
          · exact orderlyRun.snoc
              (joined.orderly tracked aware closing draining admitted step)
              takes
          · exact joined.step tracked aware closing draining admitted step
      | act thread name | synchronize source target =>
          cases taken
          exact ⟨by simpa [List.filterMap, Move.label?] using orderlyRun,
            joined.learn _ _⟩

end Joined

/--
A queue closed by a thread that has joined all pushes is drained when a
consumer is told so: coherence and the release of `closed_` make every run
orderly, and nothing is left in the ring.
-/
theorem joined_close_drains
    [Inhabited α]
    {capacity : Nat}
    (positive : 0 < capacity)
    {moves : List (Move (Label α) Nat)}
    {ordered : OrderedState α}
    (run :
      Run
        (orderedStep? (step? (Arithmetic.exact capacity))
          (accesses (Arithmetic.exact capacity)))
        (joiningCoherently (Arithmetic.exact capacity))
        ⟨initial (Arithmetic.exact capacity), {}⟩ moves ordered) :
    Run (step? (Arithmetic.exact capacity))
        (orderly (Arithmetic.exact capacity))
        (initial (Arithmetic.exact capacity))
        (moves.filterMap Move.label?) ordered.state ∧
      ∀ thread,
        ConsumerEnded ordered.state.log thread →
        ordered.state.dequeuePos.latest =
          ordered.state.enqueuePos.latest := by
  obtain ⟨orderlyRun, _⟩ := Joined.of_run positive run
  refine ⟨orderlyRun, ?_⟩
  intro thread ended
  have inv := Inv.of_run positive orderlyRun
  have draining := Draining.of_run positive orderlyRun
  have tail : ordered.state.enqueuePos.latest = _ :=
    inv.latest_pos .producer
  have head : ordered.state.dequeuePos.latest = _ :=
    inv.latest_pos .consumer
  rw [tail, head]
  exact (draining.drained_of_ended ended).2

/--
Thread `0` pushes, thread `2` joins it and closes, and thread `1` pops with a
stale sequence until it has read `closed_`.
-/
def joinedMoves : List (Move (Label Nat) Nat) :=
  [.step ⟨0, .invoke (.push 7)⟩, .step ⟨0, .load 0⟩, .step ⟨0, .load 0⟩,
    .step ⟨0, .load 0⟩, .step ⟨0, .exchange none⟩, .step ⟨0, .move 0⟩,
    .step ⟨0, .store⟩, .step ⟨0, .respond⟩, .synchronize 0 2,
    .step ⟨2, .invoke .close⟩, .step ⟨2, .store⟩, .step ⟨2, .respond⟩,
    .step ⟨1, .invoke (.pop 5)⟩, .step ⟨1, .load 0⟩, .step ⟨1, .load 0⟩,
    .step ⟨1, .load 1⟩, .step ⟨1, .load 0⟩, .step ⟨1, .load 1⟩,
    .step ⟨1, .exchange none⟩, .step ⟨1, .move 0⟩, .step ⟨1, .store⟩,
    .step ⟨1, .respond⟩, .step ⟨1, .invoke (.pop 5)⟩, .step ⟨1, .load 1⟩,
    .step ⟨1, .load 2⟩, .step ⟨1, .load 1⟩, .step ⟨1, .load 1⟩,
    .step ⟨1, .load 2⟩, .step ⟨1, .respond⟩]

theorem joined_close_drains_one :
    ∃ ordered,
      replay?
          (orderedStep? (step? (Arithmetic.exact 1))
            (accesses (Arithmetic.exact 1)))
          (joiningCoherently (Arithmetic.exact 1))
          ⟨initial (Arithmetic.exact 1), {}⟩ joinedMoves =
        some ordered ∧
        ordered.state.log.Completed 2 (.pop 5) [⟨.consumer, 0⟩]
          (.popped true 7) ∧
        ConsumerEnded ordered.state.log 1 ∧
        ordered.state.dequeuePos.latest =
          ordered.state.enqueuePos.latest := by
  have replayed :
      ∃ ordered,
        replay?
            (orderedStep? (step? (Arithmetic.exact 1))
              (accesses (Arithmetic.exact 1)))
            (joiningCoherently (Arithmetic.exact 1))
            ⟨initial (Arithmetic.exact 1), {}⟩ joinedMoves =
          some ordered ∧
          ordered.state.log.Completed 2 (.pop 5) [⟨.consumer, 0⟩]
            (.popped true 7) ∧
          ConsumerEnded ordered.state.log 1 :=
    ⟨_, rfl, ⟨1, by decide, by decide, rfl⟩,
      Or.inr ⟨3, 5, 5, by decide, by decide⟩⟩
  obtain ⟨ordered, accepted, pops, ended⟩ := replayed
  exact ⟨ordered, accepted, pops, ended,
    (joined_close_drains Nat.one_pos (Run.of_replay? accepted)).2 1 ended⟩

end ConcurrentQueue.Mpmc
