import ConcurrentQueue.Mpmc.Closing

namespace ConcurrentQueue.Mpmc

/-!
# Draining on shutdown

A consumer that has read `closed_` as `true` sees the sequence store of every
accepted push.  A negative difference then means that the ticket it was
looking at was never drawn by a producer, so both counters agree, and they
agree ever after.
-/

open TicketRing

variable {α : Type}

/-- A `close()` was invoked and the counters agree. -/
def State.Drained (state : State α) : Prop :=
  state.CloseInvoked ∧
    (state.pos .consumer).newest = (state.pos .producer).newest

@[simp] theorem State.closesRead_noteClose
    (state : State α)
    (thread message other : Nat) :
    ((state.noteClose thread message).threads other).closesRead =
      if other = thread then
        (state.closed.author? message).toList ++
          (state.threads thread).closesRead
      else
        (state.threads other).closesRead := by
  unfold noteClose
  split <;> by_cases same : other = thread <;> simp_all

namespace Step

variable {arithmetic : Arithmetic} {state next : State α}
variable {thread : Nat} {action : Action α}

/-- What a thread has read of `closed_` grows by the messages it loads. -/
theorem closesRead
    (step : Step arithmetic state thread action next)
    (other : Nat) :
    ∃ message,
      (next.threads other).closesRead =
        (state.closed.author? message).toList ++
          (state.threads other).closesRead := by
  have unchanged : (state.closed.author? 0).toList = [] := by
    rfl
  cases step with
  | checkClosed | loadClosed =>
      rename_i message flag isAt reads
      by_cases same : other = thread
      · exact ⟨message, by simp [same]⟩
      · exact ⟨0, by simp [same, unchanged]⟩
  | _ =>
      exact ⟨0, by simp [unchanged]⟩

/-- What a thread has read of `closed_` is never forgotten. -/
theorem closesRead_ne_nil
    (step : Step arithmetic state thread action next)
    {other : Nat}
    (read : (state.threads other).closesRead ≠ []) :
    (next.threads other).closesRead ≠ [] := by
  obtain ⟨message, shape⟩ := step.closesRead other
  rw [shape]
  simp [read]

/-- Threads that do not move read nothing. -/
theorem closesRead_other
    (step : Step arithmetic state thread action next)
    {other : Nat}
    (different : other ≠ thread) :
    (next.threads other).closesRead = (state.threads other).closesRead := by
  cases step <;> simp [different]

/-- A load of `closed_` before another attempt is noted. -/
theorem noted_of_checkClosed
    {message : Nat}
    {caller : Caller α}
    (step : Step arithmetic state thread (.load message) next)
    (isAt : (state.threads thread).pc = .checkClosed caller) :
    (next.threads thread).closesRead =
      (state.closed.author? message).toList ++
        (state.threads thread).closesRead := by
  cases step <;> simp_all

/-- `closed()` answers with the flag it loaded, and the load is noted. -/
theorem noted_of_closed
    {flag : Bool}
    (step : Step arithmetic state thread action next)
    (isAt : (next.threads thread).pc = .returning (.closed flag)) :
    ∃ message,
      state.closed.read? message = some flag ∧
        (next.threads thread).closesRead =
          (state.closed.author? message).toList ++
            (state.threads thread).closesRead := by
  cases step with
  | loadClosed _ reads =>
      simp only [State.pc_goto, if_true, Pc.returning.injEq,
        Result.closed.injEq] at isAt
      subst isAt
      exact ⟨_, reads, by simp⟩
  | invoke isIdle starts =>
      simp only [State.pc_goto, if_true] at isAt
      subst isAt
      rename_i op
      cases op <;> simp [Pc.start?] at starts
  | checkClosed =>
      rename_i caller _ read _ _
      cases caller <;> cases read <;>
        simp [Caller.afterClosedLoad] at isAt
  | loadSequence =>
      rename_i caller _ _ _ _ _
      simp only [State.pc_goto, if_true, Pc.classify] at isAt
      split at isAt
      · cases isAt
      · split at isAt
        · rcases caller with _ | _ | ⟨_, _ | _⟩ | _ <;> cases isAt
        · cases isAt
  | storeSequence =>
      rename_i caller _ _
      cases caller <;> simp [Caller.afterSuccess] at isAt
  | _ =>
      simp at isAt

/-- A pop fails where its sequence load found a negative difference. -/
theorem failed
    {out : α}
    (step : Step arithmetic state thread action next)
    (isAt : (next.threads thread).pc = .returning (.popped false out)) :
    ∃ caller ticket message sequence,
      (state.threads thread).pc = .loadSequence caller ticket ∧
        action = .load message ∧
        (state.slots (arithmetic.slotIndex ticket)).sequence.read?
            message = some sequence ∧
        arithmetic.difference sequence
            (arithmetic.expected caller.side ticket) < 0 ∧
        (caller = .pop out true ∨ caller = .tryPop out) ∧
        (next.threads thread).closesRead =
          (state.threads thread).closesRead := by
  cases step with
  | loadSequence wasAt reads =>
      rename_i caller ticket message sequence
      simp only [State.pc_goto, if_true, Pc.classify] at isAt
      split at isAt
      · cases isAt
      · split at isAt
        · rename_i negative
          refine ⟨caller, ticket, message, sequence, wasAt, rfl, reads,
            negative, ?_, by simp⟩
          rcases caller with _ | _ | ⟨_, _ | _⟩ | _ <;>
            simp_all [Caller.afterFailure]
        · cases isAt
  | invoke isIdle starts =>
      simp only [State.pc_goto, if_true] at isAt
      subst isAt
      rename_i op
      cases op <;> simp [Pc.start?] at starts
  | checkClosed =>
      rename_i caller _ read _ _
      cases caller <;> cases read <;>
        simp [Caller.afterClosedLoad] at isAt
  | storeSequence =>
      rename_i caller _ _
      cases caller <;> simp [Caller.afterSuccess] at isAt
  | _ =>
      simp at isAt

end Step

section Drained

variable {capacity : Nat} {state next : State α}
variable {thread : Nat} {action : Action α}

/-- Once drained, the queue stays drained. -/
theorem State.Drained.step
    (drained : state.Drained)
    (closing : Closing state)
    (invNext : Inv capacity next)
    (step :
      Step (Arithmetic.exact capacity) state thread action next) :
    next.Drained := by
  obtain ⟨⟨closer, close, invoked⟩, equal⟩ := drained
  refine ⟨⟨closer, close, Tracked.history_subset step invoked⟩, ?_⟩
  have behind := invNext.balanced.consumerBehind
  cases step with
  | claim isAt current =>
      rename_i caller ticket
      have isConsumer : caller.side = .consumer :=
        closing.quiet ⟨closer, close, invoked⟩
          (by rw [isAt]; rfl)
      simp [isConsumer] at behind
      omega
  | _ =>
      simpa using equal

/--
A negative difference seen after `closed_` was read as `true` means that both
counters agree.
-/
theorem drained_of_negative
    (positive : 0 < capacity)
    (inv : Inv capacity state)
    (tracked : Tracked capacity state)
    (closing : Closing state)
    {caller : Caller α}
    {ticket message sequence closer close : Nat}
    (isAt : (state.threads thread).pc = .loadSequence caller ticket)
    (isConsumer : caller.side = .consumer)
    (reads :
      (state.slots (ticket % capacity)).sequence.read? message =
        some sequence)
    (negative :
      (Arithmetic.exact capacity).difference sequence
        ((Arithmetic.exact capacity).expected caller.side ticket) < 0)
    (sees : state.SeesClosed thread (ticket % capacity) message)
    (hasRead : close ∈ (state.threads thread).closesRead)
    (invoked : .invoke closer close .close ∈ state.log.history) :
    state.Drained := by
  have closeInvoked : state.CloseInvoked := ⟨closer, close, invoked⟩
  refine ⟨closeInvoked, Nat.le_antisymm inv.balanced.consumerBehind ?_⟩
  have isConsidering :
      (state.threads thread).pc.considering =
        some ⟨caller.side, ticket⟩ := by
    rw [isAt]
    rfl
  have notAhead := inv.considered isConsidering
  have inRange : ticket % capacity < capacity := Nat.mod_lt _ positive
  rw [inv.sequences inRange reads, difference_neg_iff positive,
    isConsumer] at negative
  simp only [isConsumer] at notAhead
  refine Nat.le_trans ?_ notAhead
  by_contra accepted
  have isDrawn :
      ticket < (state.pos .producer).newest := Nat.lt_of_not_le accepted
  have done : Done capacity state.ring ⟨.producer, ticket⟩ := by
    refine inv.balanced.done_of_not_held isDrawn ?_
    intro other isHeld
    cases shape : (state.threads other).pc <;>
      simp only [State.holder_ring, shape, Pc.holding, reduceCtorEq,
        Option.some.injEq, Ticket.mk.injEq] at isHeld
    case moveValue | storeSequence =>
      have isPopping :=
        closing.quiet closeInvoked (by rw [shape]; rfl)
      rw [isHeld.1] at isPopping
      cases isPopping
  obtain ⟨call, authored⟩ := Atomic.exists_author? _ done
  have marked :=
    (tracked.author_stage positive ⟨.producer, ticket⟩ authored call).mpr
      rfl
  obtain ⟨owner, op, before⟩ := tracked.wellFormed.markInvoked marked
  have isPush : state.log.isCallOf Op.isPush call = true :=
    CallLog.isCallOf_of_invoke before.first_mem
      (isPush_of_sideOf?
        (tracked.sideOf?_of_mark before.first_mem marked))
  have seen := sees close hasRead (stage capacity ⟨.consumer, ticket⟩)
    (Nat.lt_succ_of_le done)
  rw [stage_consumer] at seen negative
  simp only [slotOf] at authored
  rw [authored] at seen
  have contrary := seen isPush (closing.returned marked invoked)
  omega

end Drained

/-- What pops that failed after reading `closed_` say about the counters. -/
structure Draining (state : State α) : Prop where
  seen :
    ∀ {thread close},
      close ∈ (state.threads thread).closesRead →
      ∃ closer, .invoke closer close .close ∈ state.log.history
  closedSeen :
    ∀ {thread out},
      (state.threads thread).pc.attempting = some (.pop out true) →
      (state.threads thread).closesRead ≠ []
  sawClosed :
    ∀ {thread},
      (state.threads thread).pc = .returning (.closed true) →
      (state.threads thread).closesRead ≠ []
  toldClosed :
    ∀ {thread call},
      .respond thread call (.closed true) ∈ state.log.history →
      (state.threads thread).closesRead ≠ []
  popFailed :
    ∀ {thread out out' call tickets},
      (state.threads thread).pc = .returning (.popped false out) →
      state.log.current thread = some ⟨call, .pop out', tickets⟩ →
      (state.threads thread).closesRead ≠ []
  failed :
    ∀ {thread out},
      (state.threads thread).pc = .returning (.popped false out) →
      (state.threads thread).closesRead ≠ [] →
      state.Drained
  popReturned :
    ∀ {call out out' tickets},
      state.log.Completed call (.pop out') tickets (.popped false out) →
      state.Drained
  retryReturned :
    ∀ {thread told retry op out},
      Before (.respond thread told (.closed true))
        (.invoke thread retry op) state.log.history →
      .respond thread retry (.popped false out) ∈ state.log.history →
      state.Drained

namespace Draining

variable {capacity : Nat} {state : State α}

/-- Nothing has been popped or closed yet. -/
theorem initial
    [Inhabited α]
    (arithmetic : Arithmetic) :
    Draining (initial arithmetic : State α) where
  seen := by
    intro thread close member
    simp [Mpmc.initial] at member
  closedSeen := by
    intro thread out isAt
    simp [Mpmc.initial, Pc.attempting] at isAt
  sawClosed := by
    intro thread isAt
    simp [Mpmc.initial] at isAt
  toldClosed := by
    intro thread call returned
    simp [Mpmc.initial] at returned
  popFailed := by
    intro thread out out' call tickets isAt
    simp [Mpmc.initial] at isAt
  failed := by
    intro thread out isAt
    simp [Mpmc.initial] at isAt
  popReturned := by
    rintro call out out' tickets ⟨thread, invoked, _⟩
    simp [Mpmc.initial] at invoked
  retryReturned := by
    intro thread told retry op out before
    have member := before.first_mem
    simp [Mpmc.initial] at member

section Steps

variable {thread : Nat} {action : Action α} {next : State α}

/-- The author of a message that raised the flag is among those read. -/
theorem ne_nil_of_read
    (closing : Closing state)
    {message : Nat}
    {others : List Nat}
    (reads : state.closed.read? message = some true) :
    (state.closed.author? message).toList ++ others ≠ [] := by
  obtain ⟨close, authored⟩ := closing.exists_close reads
  simp [authored]

/-- What was read was stored by a `close()` call. -/
theorem seen_step
    (draining : Draining state)
    (closing : Closing state)
    {arithmetic : Arithmetic}
    (step : Step arithmetic state thread action next)
    {other close : Nat}
    (member : close ∈ (next.threads other).closesRead) :
    ∃ closer, .invoke closer close .close ∈ next.log.history := by
  have kept := Tracked.history_subset step
  obtain ⟨message, shape⟩ := step.closesRead other
  simp only [shape, List.mem_append, Option.mem_toList] at member
  rcases member with authored | old
  · obtain ⟨closer, invoked⟩ := closing.authored authored
    exact ⟨closer, kept invoked⟩
  · obtain ⟨closer, invoked⟩ := draining.seen old
    exact ⟨closer, kept invoked⟩

/-- The last attempt of `pop()` comes after a read of `closed_`. -/
theorem closedSeen_step
    (draining : Draining state)
    (closing : Closing state)
    {arithmetic : Arithmetic}
    (step : Step arithmetic state thread action next)
    {other : Nat}
    {out : α}
    (isAttempting :
      (next.threads other).pc.attempting = some (.pop out true)) :
    (next.threads other).closesRead ≠ [] := by
  by_cases same : other = thread
  · subst same
    rcases step.attempting isAttempting with
      ⟨before, wasAttempting, _, closedSeen⟩ | ⟨_, _, _, notSeen⟩
      | ⟨checking, message, flag, isAt, rfl, reads, _, flagged⟩
    · obtain ⟨out', rfl⟩ := closedSeen out rfl
      exact step.closesRead_ne_nil (draining.closedSeen wasAttempting)
    · exact (notSeen out rfl).elim
    · rw [step.noted_of_checkClosed isAt]
      rw [flagged out rfl] at reads
      exact ne_nil_of_read closing reads
  · rw [step.pc_other same] at isAttempting
    exact step.closesRead_ne_nil (draining.closedSeen isAttempting)

/-- A thread about to answer `closed()` with `true` has read the flag. -/
theorem sawClosed_step
    (draining : Draining state)
    (closing : Closing state)
    {arithmetic : Arithmetic}
    (step : Step arithmetic state thread action next)
    {other : Nat}
    (isAt : (next.threads other).pc = .returning (.closed true)) :
    (next.threads other).closesRead ≠ [] := by
  by_cases same : other = thread
  · subst same
    obtain ⟨message, reads, noted⟩ := step.noted_of_closed isAt
    rw [noted]
    exact ne_nil_of_read closing reads
  · rw [step.pc_other same] at isAt
    exact step.closesRead_ne_nil (draining.sawClosed isAt)

/-- `pop()` fails only after it has read `closed_` as `true`. -/
theorem popFailed_step
    (draining : Draining state)
    (tracked : Tracked capacity state)
    {arithmetic : Arithmetic}
    (step : Step arithmetic state thread action next)
    {other call : Nat}
    {out out' : α}
    {tickets : List Ticket}
    (isAt : (next.threads other).pc = .returning (.popped false out))
    (isCurrent :
      next.log.current other = some ⟨call, .pop out', tickets⟩) :
    (next.threads other).closesRead ≠ [] := by
  by_cases same : other = thread
  · subst same
    obtain ⟨caller, ticket, message, sequence, wasAt, rfl, _, _, caller?,
      sameReads⟩ := step.failed isAt
    have agrees := tracked.agrees other
    rw [wasAt] at agrees
    obtain ⟨call', isCurrent'⟩ := agrees
    rw [sameReads]
    rcases caller? with rfl | rfl
    · have wasAttempting :
          (state.threads other).pc.attempting = some (.pop out true) := by
        rw [wasAt]
        rfl
      exact draining.closedSeen wasAttempting
    · cases step with
      | loadSequence =>
          simp [isCurrent', Caller.op] at isCurrent
      | _ =>
          simp_all
  · rw [step.pc_other same] at isAt
    rw [Tracked.current_other step same] at isCurrent
    exact step.closesRead_ne_nil (draining.popFailed isAt isCurrent)

/-- A pop that failed after a read of `closed_` found the queue drained. -/
theorem failed_step
    (draining : Draining state)
    (positive : 0 < capacity)
    (inv : Inv capacity state)
    (invNext : Inv capacity next)
    (tracked : Tracked capacity state)
    (closing : Closing state)
    (admitted :
      orderly (Arithmetic.exact capacity) state ⟨thread, action⟩)
    (step :
      Step (Arithmetic.exact capacity) state thread action next)
    {other : Nat}
    {out : α}
    (isAt : (next.threads other).pc = .returning (.popped false out))
    (hasRead : (next.threads other).closesRead ≠ []) :
    next.Drained := by
  by_cases same : other = thread
  · subst same
    obtain ⟨caller, ticket, message, sequence, wasAt, rfl, reads, negative,
      caller?, sameReads⟩ := step.failed isAt
    rw [sameReads] at hasRead
    obtain ⟨close, member⟩ := List.exists_mem_of_ne_nil _ hasRead
    obtain ⟨closer, invoked⟩ := draining.seen member
    have isConsumer : caller.side = .consumer := by
      rcases caller? with rfl | rfl <;> rfl
    simp only [orderly, wasAt] at admitted
    have drained :=
      drained_of_negative positive inv tracked closing wasAt isConsumer
        reads negative admitted member invoked
    exact drained.step closing invNext step
  · rw [step.pc_other same] at isAt
    rw [step.closesRead_other same] at hasRead
    exact (draining.failed isAt hasRead).step closing invNext step

/-- A retry that failed after `closed()` answered `true` found nothing. -/
theorem retryReturned_step
    (draining : Draining state)
    (invNext : Inv capacity next)
    (tracked : Tracked capacity state)
    (closing : Closing state)
    (step :
      Step (Arithmetic.exact capacity) state thread action next)
    {other told retry : Nat}
    {op : Op α}
    {out : α}
    (before :
      Before (.respond other told (.closed true)) (.invoke other retry op)
        next.log.history)
    (returned :
      .respond other retry (.popped false out) ∈ next.log.history) :
    next.Drained := by
  rcases tracked.respond_mem_step step returned with
    oldReturn | ⟨rfl, isAt, _⟩
  · have oldBefore :
        Before (.respond other told (.closed true))
          (.invoke other retry op) state.log.history := by
      rcases tracked.history_step step with
        same | ⟨_, _, _, shape⟩ | ⟨_, _, _, _, _, _, shape⟩
        | ⟨_, _, _, _, shape⟩
      · rwa [same] at before
      · rw [shape, Before.concat_iff] at before
        rcases before with old | ⟨_, isNew⟩
        · exact old
        · simp only [Event.invoke.injEq] at isNew
          have fresh := tracked.wellFormed.fresh _ oldReturn
          simp only [Event.call, isNew.2.1] at fresh
          omega
      · simpa [shape, Before.concat_iff] using before
      · simpa [shape, Before.concat_iff] using before
    have drained := draining.retryReturned oldBefore oldReturn
    exact drained.step closing invNext step
  · cases step with
    | respond isReturning =>
        obtain ⟨opened, isCurrent⟩ :
            ∃ opened, state.log.current other = some opened := by
          have agrees := tracked.agrees other
          rw [isAt] at agrees
          obtain ⟨call, op', drawn, isCurrent, _⟩ := agrees
          exact ⟨_, isCurrent⟩
        simp only [State.log_goto, State.log_respond,
          CallLog.respond_of_current _ isCurrent, Before.concat_iff,
          reduceCtorEq, and_false, or_false] at before
        have drained :=
          draining.failed isAt (draining.toldClosed before.first_mem)
        exact drained.step closing invNext (.respond isReturning)
    | _ =>
        simp_all

/-- Every orderly step keeps what is known about failed pops. -/
theorem step
    (draining : Draining state)
    (positive : 0 < capacity)
    (inv : Inv capacity state)
    (invNext : Inv capacity next)
    (tracked : Tracked capacity state)
    (closing : Closing state)
    (admitted :
      orderly (Arithmetic.exact capacity) state ⟨thread, action⟩)
    (step :
      Step (Arithmetic.exact capacity) state thread action next) :
    Draining next where
  seen := draining.seen_step closing step
  closedSeen := draining.closedSeen_step closing step
  sawClosed := draining.sawClosed_step closing step
  toldClosed := by
    intro other call returned
    refine step.closesRead_ne_nil ?_
    rcases tracked.respond_mem_step step returned with old | ⟨rfl, isAt, _⟩
    · exact draining.toldClosed old
    · exact draining.sawClosed isAt
  popFailed := draining.popFailed_step tracked step
  failed :=
    draining.failed_step positive inv invNext tracked closing admitted step
  popReturned := by
    intro call out out' tickets completed
    rcases tracked.completed_step step completed with
      old | ⟨isAt, isCurrent⟩
    · exact (draining.popReturned old).step closing invNext step
    · have drained :=
        draining.failed isAt (draining.popFailed isAt isCurrent)
      exact drained.step closing invNext step
  retryReturned := draining.retryReturned_step invNext tracked closing step

end Steps

/-- What is known about failed pops holds in every orderly run. -/
theorem of_run
    [Inhabited α]
    (positive : 0 < capacity)
    {labels : List (Label α)}
    (run :
      Run (step? (Arithmetic.exact capacity))
        (orderly (Arithmetic.exact capacity))
        (Mpmc.initial (Arithmetic.exact capacity)) labels state) :
    Draining state :=
  run.invariant_of
    (fun earlier =>
      And.intro (Inv.of_run positive earlier)
        (And.intro (Tracked.of_run positive earlier)
          (Closing.of_run positive earlier)))
    (Draining.initial _)
    fun known knownNext draining admitted taken =>
      draining.step positive known.1 knownNext.1 known.2.1 known.2.2
        admitted (Step.of_step? taken)

end Draining

/--
The README loop of a thread has reached its `break`: a `try_pop` failed, then
`closed()` answered `true`, then a `try_pop` failed again.
-/
def LoopBroke
    (log : CallLog Nat (Op α) Ticket (Result α))
    (thread : Nat) : Prop :=
  ∃ first check retry out₁ out₂ out₃,
    .invoke thread first (.tryPop out₁) ∈ log.history ∧
      Before (.respond thread first (.popped false out₁))
        (.invoke thread check .closed) log.history ∧
      Before (.respond thread check (.closed true))
        (.invoke thread retry (.tryPop out₂)) log.history ∧
      .respond thread retry (.popped false out₃) ∈ log.history

/-- A consumer was told that the queue is closed and drained. -/
def ConsumerEnded
    (log : CallLog Nat (Op α) Ticket (Result α))
    (thread : Nat) : Prop :=
  LoopBroke log thread ∨
    ∃ call out out',
      .invoke thread call (.pop out) ∈ log.history ∧
        .respond thread call (.popped false out') ∈ log.history

/-- What an orderly shutdown guarantees. -/
structure ShutdownDrains (capacity : Nat) (state : State α) : Prop where
  /-- When a consumer is told so, the counters agree. -/
  drained :
    ∀ {thread},
      ConsumerEnded state.log thread →
      state.dequeuePos.latest = state.enqueuePos.latest
  /-- No push invoked after a `close()` has returned is accepted. -/
  refused :
    ∀ {closer close result pusher call op},
      .invoke closer close .close ∈ state.log.history →
      Before (.respond closer close result) (.invoke pusher call op)
        state.log.history →
      .respond pusher call (.pushed true) ∉ state.log.history
  /-- Every accepted value was handed to exactly one consumer call. -/
  handedOver :
    ∀ {thread},
      ConsumerEnded state.log thread →
      (∀ {other opened},
        state.log.current other = some opened →
          opened.op.isPop = false) →
      ∀ {call op tickets},
        state.log.Completed call op tickets (.pushed true) →
        ∃ ticket popCall popOp out,
          tickets = [⟨.producer, ticket⟩] ∧
            state.log.Completed popCall popOp [⟨.consumer, ticket⟩]
              (.popped true out) ∧
            op.argument? = some out ∧
            ∀ other,
              .mark other ⟨.consumer, ticket⟩ ∈ state.log.history ↔
                other = popCall
  /-- Every slot is free for its next ticket. -/
  slotsFree :
    ∀ {thread},
      ConsumerEnded state.log thread →
      (∀ {other opened},
        state.log.current other = some opened →
          opened.op.isPop = false) →
      ∀ ticket,
        state.enqueuePos.latest ≤ ticket →
        ticket < state.enqueuePos.latest + capacity →
        (state.slots (ticket % capacity)).sequence.latest = 2 * ticket

section Shutdown

variable {capacity : Nat} {state : State α}

/-- A consumer that was told so is right. -/
theorem Draining.drained_of_ended
    (draining : Draining state)
    {thread : Nat}
    (ended : ConsumerEnded state.log thread) :
    state.Drained := by
  rcases ended with
    ⟨_, _, _, _, _, _, _, _, told, returned⟩
    | ⟨call, out, out', invoked, returned⟩
  · exact draining.retryReturned told returned
  · exact draining.popReturned ⟨thread, invoked, returned, rfl⟩

/-- After a close was invoked only pops hold tickets. -/
theorem Closing.not_held
    (closing : Closing state)
    (tracked : Tracked capacity state)
    (closeInvoked : state.CloseInvoked)
    (noPop :
      ∀ {other opened},
        state.log.current other = some opened →
          opened.op.isPop = false)
    (thread : Nat)
    (ticket : Ticket) :
    (state.threads thread).pc.holding ≠ some ticket := by
  intro isHeld
  obtain ⟨caller, isAttempting⟩ :
      ∃ caller, (state.threads thread).pc.attempting = some caller := by
    cases shape : (state.threads thread).pc <;>
      simp_all [Pc.attempting]
  have isConsumer := closing.quiet closeInvoked isAttempting
  obtain ⟨opened, isCurrent, sameSide⟩ :=
    sideOf?_of_attempting (tracked.agrees thread) isAttempting
  rw [isConsumer] at sameSide
  have isPop := isPop_of_sideOf? sameSide
  rw [noPop isCurrent] at isPop
  cases isPop

/-- In a drained queue that nobody holds a ticket of, every slot is free. -/
theorem Inv.free_of_drained
    (positive : 0 < capacity)
    (inv : Inv capacity state)
    (drained :
      (state.pos .consumer).newest = (state.pos .producer).newest)
    (notHeld :
      ∀ thread ticket,
        (state.threads thread).pc.holding ≠ some ticket)
    {ticket : Nat}
    (undrawn : (state.pos .producer).newest ≤ ticket)
    (near : ticket < (state.pos .producer).newest + capacity) :
    (state.slots (ticket % capacity)).sequence.latest = 2 * ticket := by
  have notBeyond :
      state.ring.phase (slotOf capacity ⟨.producer, ticket⟩) ≤
        stage capacity ⟨.producer, ticket⟩ :=
    inv.balanced.phase_le_of_undrawn undrawn
  have reached :
      stage capacity ⟨.producer, ticket⟩ ≤
        state.ring.phase (slotOf capacity ⟨.producer, ticket⟩) := by
    rcases Nat.lt_or_ge ticket capacity with firstLap | later
    · rw [stage_first_lap firstLap]
      exact Nat.zero_le _
    · obtain ⟨previous, rfl⟩ := Nat.exists_eq_add_of_le' later
      rw [stage_add_slots positive,
        slotOf_add_slots previous .producer .consumer]
      refine inv.balanced.done_of_not_held ?_ ?_
      · simp only [State.taken_ring]
        omega
      · intro thread
        exact notHeld thread _
  have phase :
      (state.slots (ticket % capacity)).sequence.newest =
        stage capacity ⟨.producer, ticket⟩ :=
    Nat.le_antisymm notBeyond reached
  rw [inv.latest_sequence (Nat.mod_lt _ positive), phase]
  exact (expected_eq_sequenceAt .producer ticket).symm

end Shutdown

/--
`MpmcQueue` drains completely when `close()` is called after the last push has
returned, however stale the other loads are.
-/
theorem shutdown_drains
    [Inhabited α]
    {capacity : Nat}
    (positive : 0 < capacity)
    {labels : List (Label α)}
    {state : State α}
    (run :
      Run (step? (Arithmetic.exact capacity))
        (orderly (Arithmetic.exact capacity))
        (initial (Arithmetic.exact capacity)) labels state) :
    ShutdownDrains capacity state := by
  have inv := Inv.of_run positive run
  have tracked := Tracked.of_run positive run
  have account := Account.of_run positive run
  have closing := Closing.of_run positive run
  have draining := Draining.of_run positive run
  have tail : state.enqueuePos.latest = (state.pos .producer).newest :=
    inv.latest_pos .producer
  have head : state.dequeuePos.latest = (state.pos .consumer).newest :=
    inv.latest_pos .consumer
  exact {
    drained := by
      intro thread ended
      rw [tail, head]
      exact (draining.drained_of_ended ended).2
    refused := by
      intro closer close result pusher call op invoked before returned
      obtain ⟨op', tickets, completed⟩ :=
        tracked.wellFormed.completed_of_respond returned
      obtain ⟨_, ticket, rfl⟩ := tracked.answered completed
      have earlier :=
        closing.returned (Tracked.mark_of_completed completed) invoked
      have first := tracked.wellFormed.lt_of_precedes earlier
      have second :=
        tracked.wellFormed.lt_of_precedes
          (CallLog.precedes_of_before before)
      omega
    handedOver := by
      intro thread ended noPop call op tickets completed
      obtain ⟨_, ticket, rfl⟩ := tracked.answered completed
      obtain ⟨_, drained⟩ := draining.drained_of_ended ended
      have marked := Tracked.mark_of_completed completed
      have isDrawn := tracked.lt_newest_of_mark marked
      simp only [← drained] at isDrawn
      obtain ⟨popCall, popOp, result, popped, out, rfl⟩ :=
        tracked.completed_of_drawn ⟨.consumer, ticket⟩ (by
          intro other opened isCurrent sameSide
          have isPop := isPop_of_sideOf? sameSide
          rw [noPop isCurrent] at isPop
          cases isPop) isDrawn
      obtain ⟨ticket', sameTicket, pushed⟩ := account.delivered popped
      simp only [List.cons.injEq, Ticket.mk.injEq, true_and,
        and_true] at sameTicket
      subst sameTicket
      obtain ⟨pusher, call', op', invoked', marked', argument⟩ := pushed
      have same := tracked.drawer_unique marked marked'
      subst same
      refine ⟨ticket, popCall, popOp, out, rfl, popped, ?_, ?_⟩
      · obtain ⟨_, invoked, _⟩ := completed
        rw [(tracked.wellFormed.invokeUnique invoked invoked').2]
        exact argument
      · intro other
        have popMarked := Tracked.mark_of_completed popped
        constructor
        · intro otherMarked
          exact tracked.drawer_unique otherMarked popMarked
        · rintro rfl
          exact popMarked
    slotsFree := by
      intro thread ended noPop ticket undrawn near
      obtain ⟨closeInvoked, drained⟩ := draining.drained_of_ended ended
      rw [tail] at undrawn near
      exact inv.free_of_drained positive drained
        (closing.not_held tracked closeInvoked noPop) undrawn near }

/-- A push, then a close, then a consumer that drains the queue. -/
def shutdownSchedule : List (Label Nat) :=
  [⟨0, .invoke (.push 7)⟩, ⟨0, .load 0⟩, ⟨0, .load 0⟩, ⟨0, .load 0⟩,
    ⟨0, .exchange none⟩, ⟨0, .move 0⟩, ⟨0, .store⟩, ⟨0, .respond⟩,
    ⟨0, .invoke .close⟩, ⟨0, .store⟩, ⟨0, .respond⟩,
    ⟨0, .invoke (.push 8)⟩, ⟨0, .load 1⟩, ⟨0, .respond⟩,
    ⟨1, .invoke (.pop 5)⟩, ⟨1, .load 0⟩, ⟨1, .load 0⟩, ⟨1, .load 1⟩,
    ⟨1, .load 0⟩, ⟨1, .load 1⟩, ⟨1, .exchange none⟩, ⟨1, .move 0⟩,
    ⟨1, .store⟩, ⟨1, .respond⟩,
    ⟨1, .invoke (.pop 5)⟩, ⟨1, .load 1⟩, ⟨1, .load 1⟩, ⟨1, .load 1⟩,
    ⟨1, .load 1⟩, ⟨1, .load 1⟩, ⟨1, .respond⟩]

theorem shutdown_drains_one :
    ∃ state,
      replay? (step? (Arithmetic.exact 1)) (orderly (Arithmetic.exact 1))
          (initial (Arithmetic.exact 1)) shutdownSchedule = some state ∧
        .respond 1 4 (.popped false 5) ∈ state.log.history ∧
        ShutdownDrains 1 state := by
  have replayed :
      ∃ state,
        replay? (step? (Arithmetic.exact 1)) (orderly (Arithmetic.exact 1))
            (initial (Arithmetic.exact 1)) shutdownSchedule = some state ∧
          .respond 1 4 (.popped false 5) ∈ state.log.history :=
    ⟨_, rfl, by decide⟩
  obtain ⟨state, accepted, failed⟩ := replayed
  exact ⟨state, accepted, failed,
    shutdown_drains (by decide) (Run.of_replay? accepted)⟩

end ConcurrentQueue.Mpmc
