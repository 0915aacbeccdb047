import ConcurrentQueue.Spsc.Closing

namespace ConcurrentQueue.Spsc

/-!
# Draining on shutdown

A consumer that has read `closed_` as `true` sees the newest `tail_` when it
refreshes its cached copy.  An attempt that then finds nothing means that both
totals agree, and they agree ever after.
-/

variable {α : Type}

/-- A `close()` was invoked and the totals agree. -/
def State.Drained (state : State α) : Prop :=
  state.CloseInvoked ∧ state.poppedTotal = state.pushedTotal

/-- The call popped nothing although it was asked for something. -/
def isNegative : Result α → Bool
  | .popped false _ => true
  | .poppedN 0 (_ :: _) => true
  | _ => false

/-- The consumer's last attempt, made after it read `closed_` as `true`. -/
def ConsumerPc.closedSeen : ConsumerPc α → Bool
  | .checkData (.pop _ true) | .refreshTail (.pop _ true) => true
  | _ => false

section Steps

variable {slots : Nat} {state next : State α}
variable {agent : Agent} {action : Action α}

/-- Once drained, the queue stays drained. -/
theorem State.Drained.step
    (drained : state.Drained)
    (tracked : Tracked state)
    (closing : Closing state)
    (indicesNext : Indices slots next)
    (step : Step slots state agent action next) :
    next.Drained := by
  obtain ⟨⟨closer, close, invoked⟩, equal⟩ := drained
  have kept := tracked.history_sublist step
  refine ⟨⟨closer, close, kept.subset invoked⟩, ?_⟩
  have quiet := closing.quiet ⟨closer, close, invoked⟩
  have behind : next.poppedTotal ≤ next.pushedTotal :=
    Nat.le_trans indicesNext.headAt indicesNext.cachedPushed_le
  cases step with
  | producer own =>
      have sameTail : next.tail = state.tail := by
        cases own with
        | publishTail isAt =>
            rw [isAt] at quiet
            cases quiet
        | _ => rfl
      simpa only [State.poppedTotal, State.pushedTotal, own.head_eq,
        sameTail] using equal
  | observer own =>
      simpa only [State.poppedTotal, State.pushedTotal, own.head_eq,
        own.tail_eq] using equal
  | consumer own =>
      refine Nat.le_antisymm behind ?_
      have sameTail : next.pushedTotal = state.pushedTotal := by
        simp only [State.pushedTotal, own.tail_eq]
      rw [sameTail, ← equal]
      cases own with
      | publishHead isAt =>
          simp only [State.poppedTotal, State.atConsumer,
            State.publishHead, total_store]
          exact Nat.le_add_right _ _
      | _ => exact Nat.le_refl _

/--
An attempt that finds nothing after `closed_` was read as `true` means that
both totals agree.
-/
theorem drained_of_empty
    (wide : 1 < slots)
    (small : slots ≤ SizeT.halfRange)
    (indices : Indices slots state)
    (closing : Closing state)
    {popper : Popper α}
    {message index close : Nat}
    {closer : Agent}
    (fresh : state.tailSeen ≤ message)
    (reads : state.tail.read? message = some index)
    (isEmpty : popper.hasData slots index state.head.latest = false)
    (sees : state.SeesClosed message)
    (hasRead : close ∈ state.closesRead)
    (invoked : .invoke closer close .close ∈ state.log.history) :
    state.Drained := by
  have isNewest : message = state.tail.newest := by
    have bound := Atomic.le_newest_of_read? _ reads
    by_contra older
    obtain ⟨earlier, shape⟩ :=
      Nat.exists_eq_succ_of_ne_zero
        (show state.tail.newest ≠ 0 by omega)
    obtain ⟨publication, authored⟩ :=
      Atomic.exists_author? state.tail (Nat.le_of_eq shape.symm)
    have seen :=
      sees close hasRead (earlier + 1) (by omega) publication authored
        (closing.returned authored invoked)
    omega
  have refreshed := indices.cacheTail fresh reads
  have cached : totalAt state.tail message = state.pushedTotal := by
    rw [isNewest]
    rfl
  have ordered := refreshed.headAt
  have near := refreshed.cachedPushed_lt wide
  simp only [State.cachedPushed, State.cacheTail, State.poppedTotal]
    at ordered near
  refine ⟨⟨closer, close, invoked⟩, ?_⟩
  rw [indices.tail.reads reads, indices.head.latest_eq] at isEmpty
  have exhausted :
      ¬ total state.head < totalAt state.tail message := by
    rw [← popper.hasData_iff wide small ordered near, isEmpty]
    simp
  rw [← cached]
  exact Nat.le_antisymm ordered (Nat.le_of_not_lt exhausted)

/-- Only the moving agent answers a call. -/
theorem Tracked.respond_of_other
    (tracked : Tracked state)
    (step : Step slots state agent action next)
    {owner : Agent}
    (different : owner ≠ agent)
    {call : Nat}
    {result : Result α}
    (returned : .respond owner call result ∈ next.log.history) :
    .respond owner call result ∈ state.log.history := by
  rcases tracked.log_step step with
    same | ⟨op, _, _, shape⟩ | ⟨opened, made, isCurrent, shape⟩
    | ⟨decided, ⟨call', op, marks, isCurrent, _⟩, shape⟩
  · rwa [same] at returned
  · rw [shape] at returned
    simpa using returned
  · rw [shape, CallLog.mark_of_current _ isCurrent] at returned
    simpa using returned
  · rw [shape, CallLog.respond_of_current _ isCurrent] at returned
    simpa [different] using returned

/-- A call of the consumer is answered by the consumer only. -/
theorem Tracked.respond_consumer_step
    (tracked : Tracked state)
    (step : Step slots state agent action next)
    {call : Nat}
    {result : Result α}
    (returned : .respond .consumer call result ∈ next.log.history) :
    .respond .consumer call result ∈ state.log.history ∨
      state.consumer = .returning result ∧
        ∃ op marks, state.log.current .consumer = some ⟨call, op, marks⟩ := by
  cases step with
  | producer own =>
      exact Or.inl
        (tracked.respond_of_other (.producer own) (by simp) returned)
  | observer own =>
      exact Or.inl
        (tracked.respond_of_other (.observer own) (by simp) returned)
  | consumer own =>
      have agrees := tracked.consumer
      cases own with
      | invoke _ _ =>
          exact Or.inl (by simpa using returned)
      | throwOut isAt _ | publishHead isAt =>
          rw [isAt] at agrees
          obtain ⟨call', op, isCurrent, _⟩ := agrees
          simp [CallLog.mark_of_current _ isCurrent] at returned
          exact Or.inl returned
      | respond isAt =>
          rw [isAt] at agrees
          obtain ⟨call', op, marks, isCurrent, _⟩ := agrees
          simp only [State.atConsumer, State.respond,
            CallLog.respond_of_current _ isCurrent, List.mem_append,
            List.mem_singleton, Event.respond.injEq, true_and] at returned
          rcases returned with old | ⟨rfl, rfl⟩
          · exact Or.inl old
          · exact Or.inr ⟨isAt, op, marks, isCurrent⟩
      | _ => exact Or.inl returned

/-- A negative result is decided by a refresh that found nothing. -/
theorem Tracked.failing
    (tracked : Tracked state)
    (step : ConsumerStep slots state action next)
    {result : Result α}
    (isAt : next.consumer = .returning result)
    (negative : isNegative result = true) :
    ∃ popper message index,
      state.consumer = .refreshTail popper ∧
        action = .load message ∧
        state.tailSeen ≤ message ∧
        state.tail.read? message = some index ∧
        popper.hasData slots index state.head.latest = false ∧
        popper.afterEmpty = .returning result ∧
        next.closesRead = state.closesRead ∧
        next.log = state.log := by
  cases step with
  | refreshedEmpty wasAt fresh reads isEmpty =>
      exact ⟨_, _, _, wasAt, rfl, fresh, reads, isEmpty, isAt, rfl, rfl⟩
  | invoke wasAt starts =>
      simp only [State.atConsumer] at isAt
      subst isAt
      rename_i op
      cases op with
      | tryPopN out =>
          cases out with
          | nil =>
              cases starts
              cases negative
          | cons => cases starts
      | _ => cases starts
  | throwOut | loadClosed =>
      cases isAt
      cases negative
  | publishHead wasAt =>
      rename_i popper index moved
      have agrees := tracked.consumer
      rw [wasAt] at agrees
      obtain ⟨call, op, isCurrent, after, nonempty⟩ := agrees
      cases isAt
      cases popper with
      | pop | tryPop => cases negative
      | tryPopN out =>
          obtain ⟨more, shape⟩ :=
            Nat.exists_eq_succ_of_ne_zero (Nat.ne_of_gt nonempty)
          simp only [Popper.delivered, shape] at negative
          cases negative
  | moveOut wasAt =>
      simp only [State.atConsumer, ConsumerPc.afterMove] at isAt
      split at isAt <;> cases isAt
  | _ =>
      cases isAt

/-- What came before the invocation of an answered call is in the past. -/
theorem Tracked.before_step
    (tracked : Tracked state)
    (step : Step slots state agent action next)
    {first : Event Agent (Op α) (Handover α) (Result α)}
    {owner : Agent}
    {call : Nat}
    {op : Op α}
    {result : Result α}
    (before : Before first (.invoke owner call op) next.log.history)
    (returned : .respond owner call result ∈ next.log.history) :
    Before first (.invoke owner call op) state.log.history := by
  rcases tracked.log_step step with
    same | ⟨op', _, _, shape⟩ | ⟨opened, made, isCurrent, shape⟩
    | ⟨result', ⟨call', op', marks, isCurrent, _⟩, shape⟩
  · rwa [same] at before
  · rw [shape] at before returned
    simp only [CallLog.history_invoke, Before.concat_iff, List.mem_append,
      List.mem_singleton, Event.invoke.injEq, reduceCtorEq, or_false]
      at before returned
    rcases before with old | ⟨_, _, rfl, _⟩
    · exact old
    · exact (tracked.wellFormed.not_mem_of_nextCall_le (Nat.le_refl _)
        returned).elim
  · rw [shape, CallLog.mark_of_current _ isCurrent] at before
    simpa [Before.concat_iff] using before
  · rw [shape, CallLog.respond_of_current _ isCurrent] at before
    simpa [Before.concat_iff] using before

end Steps

/-- What attempts that failed after reading `closed_` say about the totals. -/
structure Draining (state : State α) : Prop where
  seen :
    ∀ {close},
      close ∈ state.closesRead →
      ∃ closer, .invoke closer close .close ∈ state.log.history
  closedSeen :
    state.consumer.closedSeen = true → state.closesRead ≠ []
  sawClosed :
    state.consumer = .returning (.closed true) → state.closesRead ≠ []
  toldClosed :
    ∀ {call},
      .respond .consumer call (.closed true) ∈ state.log.history →
      state.closesRead ≠ []
  popFailed :
    ∀ {call out before marks},
      state.consumer = .returning (.popped false out) →
      state.log.current .consumer = some ⟨call, .pop before, marks⟩ →
      state.closesRead ≠ []
  failed :
    ∀ {result},
      state.consumer = .returning result →
      isNegative result = true →
      state.closesRead ≠ [] →
      state.Drained
  popReturned :
    ∀ {call out before},
      .invoke .consumer call (.pop before) ∈ state.log.history →
      .respond .consumer call (.popped false out) ∈ state.log.history →
      state.Drained
  retryReturned :
    ∀ {told retry op result},
      Before (.respond .consumer told (.closed true))
        (.invoke .consumer retry op) state.log.history →
      .respond .consumer retry result ∈ state.log.history →
      isNegative result = true →
      state.Drained

namespace Draining

variable {slots : Nat} {state next : State α}
variable {agent : Agent} {action : Action α}

/-- Nothing has been popped or closed yet. -/
theorem initial [Inhabited α] : Draining (initial : State α) where
  seen := by
    intro close member
    simp [Spsc.initial] at member
  closedSeen := by
    intro isSeen
    simp [Spsc.initial, ConsumerPc.closedSeen] at isSeen
  sawClosed := by
    intro isAt
    simp [Spsc.initial] at isAt
  toldClosed := by
    intro call returned
    simp [Spsc.initial] at returned
  popFailed := by
    intro call out before marks isAt
    simp [Spsc.initial] at isAt
  failed := by
    intro result isAt
    simp [Spsc.initial] at isAt
  popReturned := by
    intro call out before invoked
    simp [Spsc.initial] at invoked
  retryReturned := by
    intro told retry op result before
    have member := before.first_mem
    simp [Spsc.initial] at member

/-- What a load of `closed_` adds to what the consumer has read. -/
theorem noted
    (draining : Draining state)
    (closing : Closing state)
    {message : Nat}
    {flag : Bool}
    (reads : state.closed.read? message = some flag) :
    (flag = true → (state.noteClose message).closesRead ≠ []) ∧
      ∀ {close},
        close ∈ (state.noteClose message).closesRead →
        ∃ closer, .invoke closer close .close ∈ state.log.history := by
  simp only [State.noteClose]
  constructor
  · intro isTrue
    subst isTrue
    obtain ⟨close, authored⟩ := closing.exists_close reads
    simp [authored]
  · intro close member
    rcases List.mem_append.mp member with isNew | old
    · exact closing.authored (Option.mem_toList.mp isNew)
    · exact draining.seen old

/-- A failed attempt after `closed_` was read as `true` drained the queue. -/
theorem drained_of_failing
    (draining : Draining state)
    (wide : 1 < slots)
    (small : slots ≤ SizeT.halfRange)
    (tracked : Tracked state)
    (indices : Indices slots state)
    (closing : Closing state)
    (admitted : consumerOrderly state action)
    (step : ConsumerStep slots state action next)
    {result : Result α}
    (isAt : next.consumer = .returning result)
    (negative : isNegative result = true)
    (hasRead : next.closesRead ≠ []) :
    state.Drained := by
  obtain ⟨popper, message, index, wasAt, rfl, fresh, reads, isEmpty, _,
    sameRead, _⟩ := tracked.failing step isAt negative
  rw [sameRead] at hasRead
  simp only [consumerOrderly, wasAt] at admitted
  obtain ⟨close, member⟩ := List.exists_mem_of_ne_nil _ hasRead
  obtain ⟨closer, invoked⟩ := draining.seen member
  exact drained_of_empty wide small indices closing fresh reads isEmpty
    admitted member invoked

/-- The last attempt of a `pop` is made after a load of `closed_`. -/
theorem closedSeen_step
    (draining : Draining state)
    (closing : Closing state)
    (step : ConsumerStep slots state action next)
    (isSeen : next.consumer.closedSeen = true) :
    next.closesRead ≠ [] := by
  cases step with
  | invoke isIdle starts =>
      rename_i op pc
      simp only [State.atConsumer] at isSeen
      cases op with
      | tryPopN out => cases out <;> cases starts <;> cases isSeen
      | _ => cases starts <;> cases isSeen
  | noData isAt isEmpty =>
      refine draining.closedSeen ?_
      rename_i popper
      rw [isAt]
      rcases popper with ⟨_, _ | _⟩ | _ | _ <;>
        simp_all [ConsumerPc.closedSeen]
  | refreshedEmpty isAt fresh reads isEmpty =>
      rename_i popper message index
      rcases popper with ⟨_, _ | _⟩ | _ | _ <;> cases isSeen
  | popClosed isAt reads =>
      rename_i out message flag
      cases flag with
      | true => exact (draining.noted closing reads).1 rfl
      | false => cases isSeen
  | moveOut =>
      simp only [State.atConsumer, ConsumerPc.afterMove] at isSeen
      split at isSeen <;> cases isSeen
  | _ =>
      cases isSeen

/-- `closed()` answers `true` where it read the store of a `close()`. -/
theorem sawClosed_step
    (draining : Draining state)
    (closing : Closing state)
    (step : ConsumerStep slots state action next)
    (isAt : next.consumer = .returning (.closed true)) :
    next.closesRead ≠ [] := by
  cases step with
  | invoke isIdle starts =>
      simp only [State.atConsumer] at isAt
      subst isAt
      rename_i op
      cases op with
      | tryPopN out => cases out <;> cases starts
      | _ => cases starts
  | refreshedEmpty =>
      rename_i popper _ _ _ _ _ _
      rcases popper with ⟨_, _ | _⟩ | _ | _ <;> cases isAt
  | moveOut =>
      simp only [State.atConsumer, ConsumerPc.afterMove] at isAt
      split at isAt <;> cases isAt
  | publishHead =>
      rename_i popper _ _ _
      cases popper <;> cases isAt
  | loadClosed _ reads =>
      cases isAt
      exact (draining.noted closing reads).1 rfl
  | _ =>
      cases isAt

/-- A `pop` fails only after it has read `closed_` as `true`. -/
theorem popFailed_step
    (draining : Draining state)
    (tracked : Tracked state)
    (step : ConsumerStep slots state action next)
    {call : Nat}
    {out before : α}
    {marks : List (Handover α)}
    (isAt : next.consumer = .returning (.popped false out))
    (isCurrent :
      next.log.current .consumer = some ⟨call, .pop before, marks⟩) :
    next.closesRead ≠ [] := by
  obtain ⟨popper, message, index, wasAt, _, _, _, _, fails, sameRead,
    sameLog⟩ := tracked.failing step isAt rfl
  rw [sameRead]
  refine draining.closedSeen ?_
  have agrees := tracked.consumer
  rw [wasAt, ← sameLog, isCurrent] at agrees
  obtain ⟨call', op, shape, after, _⟩ := agrees
  cases shape
  have runs := after.1
  rw [wasAt]
  rcases popper with ⟨_, _ | _⟩ | _ | _
  · cases fails
  · rfl
  · cases runs
  · cases runs

/-- Steps of the other agents leave what the consumer has read and does. -/
theorem step_other
    (draining : Draining state)
    (tracked : Tracked state)
    (closing : Closing state)
    (indicesNext : Indices slots next)
    (step : Step slots state agent action next)
    (different : agent ≠ .consumer)
    (sameConsumer : next.consumer = state.consumer)
    (sameRead : next.closesRead = state.closesRead) :
    Draining next := by
  have kept := tracked.history_sublist step
  have old :
      ∀ {call result},
        .respond .consumer call result ∈ next.log.history →
        .respond .consumer call result ∈ state.log.history :=
    tracked.respond_of_other step different.symm
  have stays :
      state.Drained → next.Drained := fun drained =>
    drained.step tracked closing indicesNext step
  exact {
    seen := by
      intro close member
      rw [sameRead] at member
      obtain ⟨closer, invoked⟩ := draining.seen member
      exact ⟨closer, kept.subset invoked⟩
    closedSeen := by
      rw [sameConsumer, sameRead]
      exact draining.closedSeen
    sawClosed := by
      rw [sameConsumer, sameRead]
      exact draining.sawClosed
    toldClosed := by
      intro call returned
      rw [sameRead]
      exact draining.toldClosed (old returned)
    popFailed := by
      rw [sameConsumer, sameRead,
        tracked.current_other step different.symm]
      exact draining.popFailed
    failed := by
      intro result isAt negative hasRead
      rw [sameConsumer] at isAt
      rw [sameRead] at hasRead
      exact stays (draining.failed isAt negative hasRead)
    popReturned := by
      intro call out before invoked returned
      obtain ⟨op, earlier⟩ :=
        tracked.wellFormed.respondInvoked (old returned)
      have unique :=
        (tracked.wellFormed_step step).invokeUnique invoked
          (kept.subset earlier.first_mem)
      rw [← unique.2] at earlier
      exact stays (draining.popReturned earlier.first_mem (old returned))
    retryReturned := by
      intro told retry op result before returned negative
      exact stays (draining.retryReturned
        (tracked.before_step step before returned) (old returned)
        negative) }

/-- Steps of the consumer keep what is known about failed attempts. -/
theorem step_consumer
    (draining : Draining state)
    (wide : 1 < slots)
    (small : slots ≤ SizeT.halfRange)
    (tracked : Tracked state)
    (indices : Indices slots state)
    (indicesNext : Indices slots next)
    (closing : Closing state)
    (admitted : consumerOrderly state action)
    (step : ConsumerStep slots state action next) :
    Draining next := by
  have kept := tracked.history_sublist (.consumer step)
  have stays :
      state.Drained → next.Drained := fun drained =>
    drained.step tracked closing indicesNext (.consumer step)
  have answered :
      ∀ {call result},
        .respond .consumer call result ∈ next.log.history →
        .respond .consumer call result ∈ state.log.history ∨
          state.consumer = .returning result ∧
            ∃ op marks,
              state.log.current .consumer = some ⟨call, op, marks⟩ :=
    tracked.respond_consumer_step (.consumer step)
  have grows :
      state.closesRead ≠ [] → next.closesRead ≠ [] := by
    intro hasRead
    cases step with
    | popClosed | loadClosed => simp [hasRead]
    | _ => exact hasRead
  exact {
    seen := by
      intro close member
      have known :
          ∃ closer, .invoke closer close .close ∈ state.log.history := by
        cases step with
        | popClosed _ reads | loadClosed _ reads =>
            exact (draining.noted closing reads).2 member
        | _ => exact draining.seen member
      obtain ⟨closer, invoked⟩ := known
      exact ⟨closer, kept.subset invoked⟩
    closedSeen := draining.closedSeen_step closing step
    sawClosed := draining.sawClosed_step closing step
    toldClosed := by
      intro call returned
      refine grows ?_
      rcases answered returned with old | ⟨isAt, _⟩
      · exact draining.toldClosed old
      · exact draining.sawClosed isAt
    popFailed := draining.popFailed_step tracked step
    failed := by
      intro result isAt negative hasRead
      exact stays (draining.drained_of_failing wide small tracked indices
        closing admitted step isAt negative hasRead)
    popReturned := by
      intro call out before invoked returned
      have unique :
          ∀ {op},
            .invoke .consumer call op ∈ state.log.history →
            op = .pop before := fun earlier =>
        ((tracked.wellFormed_step (.consumer step)).invokeUnique invoked
          (kept.subset earlier)).2.symm
      rcases answered returned with old | ⟨isAt, op, marks, isCurrent⟩
      · obtain ⟨op, earlier⟩ := tracked.wellFormed.respondInvoked old
        have same := unique earlier.first_mem
        subst same
        exact stays (draining.popReturned earlier.first_mem old)
      · have same := unique (tracked.wellFormed.currentInvoked isCurrent)
        subst same
        exact stays (draining.failed isAt rfl
          (draining.popFailed isAt isCurrent))
    retryReturned := by
      intro told retry op result before returned negative
      have earlier := tracked.before_step (.consumer step) before returned
      rcases answered returned with old | ⟨isAt, _⟩
      · exact stays (draining.retryReturned earlier old negative)
      · exact stays (draining.failed isAt negative
          (draining.toldClosed earlier.first_mem)) }

/-- Every orderly step keeps what is known about failed attempts. -/
theorem step
    (draining : Draining state)
    (wide : 1 < slots)
    (small : slots ≤ SizeT.halfRange)
    (tracked : Tracked state)
    (indices : Indices slots state)
    (indicesNext : Indices slots next)
    (closing : Closing state)
    (admitted : orderly state ⟨agent, action⟩)
    (step : Step slots state agent action next) :
    Draining next := by
  cases step with
  | producer own =>
      exact draining.step_other tracked closing indicesNext
        (.producer own) (by simp) own.consumer_eq own.closesRead_eq
  | consumer own =>
      exact draining.step_consumer wide small tracked indices indicesNext
        closing admitted own
  | observer own =>
      exact draining.step_other tracked closing indicesNext
        (.observer own) (by simp) own.consumer_eq own.closesRead_eq

/-- What is known about failed attempts holds in every orderly run. -/
theorem of_run
    [Inhabited α]
    (wide : 1 < slots)
    (small : slots ≤ SizeT.halfRange)
    {labels : List (Label α)}
    (run : Run (step? slots) orderly Spsc.initial labels state) :
    Draining state := by
  have known :
      ∀ {labels : List (Label α)} {state : State α},
        Run (step? slots) orderly Spsc.initial labels state →
        Tracked state ∧ Indices slots state ∧ Closing state :=
    fun earlier =>
      ⟨Tracked.of_run earlier, Indices.of_run wide small earlier,
        Closing.of_run earlier⟩
  exact run.invariant_of known Draining.initial
    fun before after draining admitted taken =>
      draining.step wide small before.1 before.2.1 after.2.1 before.2.2
        admitted (Step.of_step? taken)

end Draining

/--
The README loop has reached its `break`: an attempt failed, then `closed()`
answered `true`, then an attempt failed again.
-/
def LoopBroke
    (log : CallLog Agent (Op α) (Handover α) (Result α)) : Prop :=
  ∃ first check retry op₁ op₂ result₁ result₂,
    .invoke .consumer first op₁ ∈ log.history ∧
      isNegative result₁ = true ∧
      Before (.respond .consumer first result₁)
        (.invoke .consumer check .closed) log.history ∧
      Before (.respond .consumer check (.closed true))
        (.invoke .consumer retry op₂) log.history ∧
      .respond .consumer retry result₂ ∈ log.history ∧
      isNegative result₂ = true

/-- The consumer was told that the queue is closed and drained. -/
def ConsumerEnded
    (log : CallLog Agent (Op α) (Handover α) (Result α)) : Prop :=
  LoopBroke log ∨
    ∃ call before out,
      .invoke .consumer call (.pop before) ∈ log.history ∧
        .respond .consumer call (.popped false out) ∈ log.history

/-- What an orderly shutdown guarantees. -/
structure ShutdownDrains (state : State α) : Prop where
  /-- When the consumer is told so, the ring is empty. -/
  drained :
    ConsumerEnded state.log →
    state.head.latest = state.tail.latest ∧
      state.popped.length = state.pushed.length
  /-- What was delivered is what was accepted, in order. -/
  delivered :
    ConsumerEnded state.log →
    ∀ {position},
      position ∉ state.spoiled →
      state.popped[position]? = state.pushed[position]?
  /-- No push invoked after a `close()` has returned is accepted. -/
  refused :
    ∀ {closer close result call op},
      .invoke closer close .close ∈ state.log.history →
      Before (.respond closer close result) (.invoke .producer call op)
        state.log.history →
      .respond .producer call (.pushed true) ∉ state.log.history ∧
        ∀ {count items},
          .respond .producer call (.pushedN count items) ∈
            state.log.history →
          count = 0
  /-- Accepted and delivered values are those of the calls' results. -/
  answered :
    ∀ {call op marks result},
      state.log.Completed call op marks result →
      Answers op marks result

section Shutdown

variable {slots : Nat} {state : State α}

/-- A consumer that was told so is right. -/
theorem Draining.drained_of_ended
    (draining : Draining state)
    (ended : ConsumerEnded state.log) :
    state.Drained := by
  rcases ended with
    ⟨_, _, _, _, _, _, _, _, _, _, told, returned, negative⟩
    | ⟨call, before, out, invoked, returned⟩
  · exact draining.retryReturned told returned negative
  · exact draining.popReturned invoked returned

/-- A push that handed something over preceded every `close()`. -/
theorem Closing.not_handed_after_close
    (tracked : Tracked state)
    (closing : Closing state)
    {closer : Agent}
    {close call : Nat}
    {result closeResult : Result α}
    {op pushed : Op α}
    {marks : List (Handover α)}
    (invoked : .invoke closer close .close ∈ state.log.history)
    (after :
      Before (.respond closer close closeResult)
        (.invoke .producer call op) state.log.history)
    (completed : state.log.Completed call pushed marks result)
    (values : List α) :
    .pushed values ∉ marks := by
  intro member
  obtain ⟨_, _, _, rfl⟩ := completed
  obtain ⟨message, publication, authored, rfl⟩ :=
    closing.handed (CallLog.mem_marksOf.mp member)
  have first :=
    tracked.wellFormed.lt_of_precedes (closing.returned authored invoked)
  have second :=
    tracked.wellFormed.lt_of_precedes (CallLog.precedes_of_before after)
  omega

/-- In a drained ring what was popped is what was pushed. -/
theorem Delivered.all_delivered
    (delivered : Delivered slots state)
    (drained : state.poppedTotal = state.pushedTotal)
    {position : Nat}
    (intact : position ∉ state.spoiled) :
    state.popped[position]? = state.pushed[position]? := by
  have sameLength : state.popped.length = state.pushed.length := by
    rw [← delivered.poppedCount, ← delivered.pushedCount, drained]
  cases isPopped : state.popped[position]? with
  | none =>
      have beyond := List.getElem?_eq_none_iff.mp isPopped
      exact (List.getElem?_eq_none (by omega)).symm
  | some value =>
      have inBounds := (List.getElem?_eq_some_iff.mp isPopped).1
      have moved :
          (state.popped ++ state.consumer.moved)[position]? = some value := by
        rwa [List.getElem?_append_left inBounds]
      have isPushed := delivered.delivery.delivered moved intact
      rwa [List.getElem?_append_left (by omega), eq_comm] at isPushed

end Shutdown

/--
`SpscQueue` drains completely when `close()` is called between the producer's
calls, however stale the other loads of the indices are.
-/
theorem shutdown_drains_ring
    [Inhabited α]
    {elementSize capacity slots : Nat}
    (built : ringSlots elementSize capacity = .ok slots)
    {labels : List (Label α)}
    {state : State α}
    (run : Run (step? slots) orderly initial labels state) :
    ShutdownDrains state ∧
      ((∀ label ∈ labels, label.isThrow = false) →
        ConsumerEnded state.log → state.popped = state.pushed) := by
  obtain ⟨_, wide, small⟩ := ringSlots_ok built
  have tracked : Tracked state := Tracked.of_run run
  have indices : Indices slots state := Indices.of_run wide small run
  have delivered : Delivered slots state :=
    Delivered.of_run wide small run
  have closing : Closing state := Closing.of_run run
  have draining : Draining state := Draining.of_run wide small run
  have drained :
      ConsumerEnded state.log →
      state.poppedTotal = state.pushedTotal :=
    fun ended => (draining.drained_of_ended ended).2
  constructor
  · exact
      { drained := by
          intro ended
          rw [indices.head.latest_eq, indices.tail.latest_eq,
            ← delivered.poppedCount, ← delivered.pushedCount]
          exact ⟨congrArg (· % slots) (drained ended), drained ended⟩
        delivered := by
          intro ended position intact
          exact delivered.all_delivered (drained ended) intact
        refused := by
          intro closer close result call op invoked after
          constructor
          · intro returned
            obtain ⟨pushed, marks, completed⟩ :=
              tracked.wellFormed.completed_of_respond returned
            obtain ⟨value, _, shape⟩ := tracked.answered completed
            refine closing.not_handed_after_close tracked invoked after
              completed [value] ?_
            simp [shape]
          · intro count items returned
            obtain ⟨pushed, marks, completed⟩ :=
              tracked.wellFormed.completed_of_respond returned
            obtain ⟨originals, _, _, _, _, shape⟩ :=
              tracked.answered completed
            by_contra accepted
            refine closing.not_handed_after_close tracked invoked after
              completed (originals.take count) ?_
            simp [shape, marksOf, accepted]
        answered := tracked.answered }
  · intro quiet ended
    have nothing := spoiled_eq_nil run quiet
    refine List.ext_getElem? ?_
    intro position
    exact delivered.all_delivered (drained ended) (by simp [nothing])

/-- A bulk push, a close, a refused push and three pops. -/
def shutdownSchedule : List (Label Nat) :=
  [⟨.producer, .invoke (.tryPushN [7, 8])⟩, ⟨.producer, .load 0⟩,
    ⟨.producer, .check⟩, ⟨.producer, .move 0⟩, ⟨.producer, .move 0⟩,
    ⟨.producer, .store⟩, ⟨.producer, .respond⟩,
    ⟨.observer 0, .invoke .close⟩, ⟨.observer 0, .store⟩,
    ⟨.observer 0, .respond⟩,
    ⟨.producer, .invoke (.push 9)⟩, ⟨.producer, .load 1⟩,
    ⟨.producer, .respond⟩,
    ⟨.consumer, .invoke (.pop 5)⟩, ⟨.consumer, .check⟩,
    ⟨.consumer, .load 1⟩, ⟨.consumer, .move 0⟩, ⟨.consumer, .store⟩,
    ⟨.consumer, .respond⟩,
    ⟨.consumer, .invoke (.pop 5)⟩, ⟨.consumer, .check⟩,
    ⟨.consumer, .move 0⟩, ⟨.consumer, .store⟩, ⟨.consumer, .respond⟩,
    ⟨.consumer, .invoke (.pop 5)⟩, ⟨.consumer, .check⟩,
    ⟨.consumer, .load 1⟩, ⟨.consumer, .load 1⟩, ⟨.consumer, .check⟩,
    ⟨.consumer, .load 1⟩, ⟨.consumer, .respond⟩]

theorem shutdown_drains_ring_two :
    ∃ state,
      replay? (step? 3) orderly initial shutdownSchedule = some state ∧
        ConsumerEnded state.log ∧
        ShutdownDrains state ∧
        state.popped = [7, 8] ∧
        state.popped = state.pushed := by
  have replayed :
      ∃ state,
        replay? (step? 3) orderly initial shutdownSchedule = some state ∧
          ConsumerEnded state.log ∧
          state.popped = [7, 8] :=
    ⟨_, rfl, Or.inr ⟨5, 5, 5, by decide, by decide⟩, by decide⟩
  have built : ringSlots 8 2 = .ok 3 := by
    rfl
  obtain ⟨state, accepted, ended, popped⟩ := replayed
  obtain ⟨drains, inOrder⟩ :=
    shutdown_drains_ring built (Run.of_replay? accepted)
  exact ⟨state, accepted, ended, drains, popped,
    inOrder (by decide) ended⟩

end ConcurrentQueue.Spsc
