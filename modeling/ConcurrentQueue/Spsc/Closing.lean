import ConcurrentQueue.Spsc.HandOff

namespace ConcurrentQueue.Spsc

/-!
# Closing between the producer's calls

`close()` is meant to be called while no push is in progress, by whatever
thread.  `orderly` is that discipline, together with what the release store of
`closed_` and the acquire loads of it give a consumer that has read it as
`true`.  Under it the producer does not get past its closed check once a
`close()` has been invoked, so `tail_` stands still from then on.
-/

variable {α : Type}

/--
The message is not older than any store of `tail_` by a push that returned
before a `close()` whose store the consumer has read.
-/
def State.SeesClosed (state : State α) (message : Nat) : Prop :=
  ∀ close ∈ state.closesRead,
    ∀ later < state.tail.newest + 1,
      ∀ publication ∈ state.tail.author? later,
        state.log.Precedes publication.call close → later ≤ message

/-- A push starts while no `close()` is in progress and reads `closed_` anew. -/
def producerOrderly (state : State α) (action : Action α) : Prop :=
  match state.producer, action with
  | .idle, .invoke _ => state.log.noneInProgress Op.isClose = true
  | .checkClosed _, .load message => message = state.closed.newest
  | _, _ => True

/-- A load of `tail_` sees what the loads of `closed_` synchronized with. -/
def consumerOrderly (state : State α) (action : Action α) : Prop :=
  match state.consumer, action with
  | .refreshTail _, .load message => state.SeesClosed message
  | _, _ => True

/-- A `close()` starts while no push is in progress. -/
def observerOrderly (state : State α) (action : Action α) : Prop :=
  match action with
  | .invoke .close => state.log.noneInProgress Op.isPush = true
  | _ => True

/-- The discipline of all agents. -/
def orderly : StepGuard (State α) (Label α) :=
  fun state label =>
    match label.agent with
    | .producer => producerOrderly state label.action
    | .consumer => consumerOrderly state label.action
    | .observer _ => observerOrderly state label.action

instance [DecidableEq α] (state : State α) (message : Nat) :
    Decidable (state.SeesClosed message) :=
  inferInstanceAs (Decidable (∀ _ ∈ _, ∀ _ < _, ∀ _ ∈ _, _))

instance (state : State α) (action : Action α) :
    Decidable (producerOrderly state action) :=
  decidable_of_bool
    (match state.producer, action with
      | .idle, .invoke _ => state.log.noneInProgress Op.isClose
      | .checkClosed _, .load message => message == state.closed.newest
      | _, _ => true)
    (by unfold producerOrderly; split <;> simp)

instance [DecidableEq α] (state : State α) (action : Action α) :
    Decidable (consumerOrderly state action) :=
  decidable_of_bool
    (match state.consumer, action with
      | .refreshTail _, .load message => decide (state.SeesClosed message)
      | _, _ => true)
    (by unfold consumerOrderly; split <;> simp)

instance (state : State α) (action : Action α) :
    Decidable (observerOrderly state action) :=
  decidable_of_bool
    (match action with
      | .invoke .close => state.log.noneInProgress Op.isPush
      | _ => true)
    (by unfold observerOrderly; split <;> simp)

instance [DecidableEq α] :
    ∀ (state : State α) (label : Label α),
      Decidable (orderly state label)
  | state, ⟨.producer, action⟩ =>
      inferInstanceAs (Decidable (producerOrderly state action))
  | state, ⟨.consumer, action⟩ =>
      inferInstanceAs (Decidable (consumerOrderly state action))
  | state, ⟨.observer _, action⟩ =>
      inferInstanceAs (Decidable (observerOrderly state action))

namespace ProducerPc

/-- The producer has passed its closed check. -/
def attempting : ProducerPc α → Bool
  | .checkRoom _ | .refreshHead _ | .moveIn _ _ _ _
  | .publishTail _ _ _ => true
  | _ => false

/-- A push starts with its closed check. -/
theorem attempting_start?
    {op : Op α}
    {pc : ProducerPc α}
    (starts : start? op = some pc) :
    pc.attempting = false ∧ op.isPush = true := by
  cases op with
  | push | tryPush =>
      cases starts
      exact ⟨rfl, rfl⟩
  | tryPushN items =>
      cases starts
      refine ⟨?_, rfl⟩
      split <;> rfl
  | _ =>
      cases starts

end ProducerPc

/-- Neither side starts a `close()`; only an observer does. -/
theorem close_start?
    {slots : Nat}
    {pc : ObserverPc α}
    (starts : ObserverPc.start? slots .close = some pc) :
    pc = .storeClosed := by
  cases starts
  rfl

/-- Some `close()` has been invoked. -/
def State.CloseInvoked (state : State α) : Prop :=
  ∃ closer close, .invoke closer close .close ∈ state.log.history

/-- What holds of an orderly run before and after `close()`. -/
structure Closing (state : State α) : Prop where
  initiallyOpen : state.closed.initial = false
  stored :
    ∀ {message flag},
      state.closed.read? (message + 1) = some flag → flag = true
  authored :
    ∀ {message close},
      state.closed.author? message = some close →
      ∃ closer, .invoke closer close .close ∈ state.log.history
  published :
    ∀ {message publication},
      state.tail.author? message = some publication →
      ∃ op, .invoke .producer publication.call op ∈ state.log.history
  handed :
    ∀ {call values},
      .mark call (.pushed values) ∈ state.log.history →
      ∃ message publication,
        state.tail.author? message = some publication ∧
          publication.call = call
  pushing :
    ∀ {opened},
      state.log.current .producer = some opened →
      opened.op.isPush = true
  pending :
    state.CloseInvoked →
    state.closed.newest = 0 →
    ∃ thread, state.observers thread = .storeClosed
  apart :
    ∀ {thread},
      state.observers thread = .storeClosed → state.producer = .idle
  quiet :
    state.CloseInvoked → state.producer.attempting = false
  returned :
    ∀ {message publication closer close},
      state.tail.author? message = some publication →
      .invoke closer close .close ∈ state.log.history →
      state.log.Precedes publication.call close

namespace Closing

variable {slots : Nat} {state next : State α}
variable {agent : Agent} {action : Action α}

/-- The constructor leaves the queue open. -/
theorem initial [Inhabited α] : Closing (initial : State α) where
  initiallyOpen := by
    rfl
  stored := by
    intro message flag reads
    simp [Spsc.initial, Atomic.read?] at reads
  authored := by
    intro message close authored
    cases message <;> simp [Spsc.initial, Atomic.author?] at authored
  published := by
    intro message publication authored
    cases message <;> simp [Spsc.initial, Atomic.author?] at authored
  handed := by
    intro call values marked
    simp [Spsc.initial] at marked
  pushing := by
    intro opened isCurrent
    simp [Spsc.initial] at isCurrent
  pending := by
    rintro ⟨closer, close, invoked⟩
    simp [Spsc.initial] at invoked
  apart := by
    intro thread isAt
    rfl
  quiet := by
    rintro ⟨closer, close, invoked⟩
    simp [Spsc.initial] at invoked
  returned := by
    intro message publication closer close authored invoked
    simp [Spsc.initial] at invoked

/-- The closed flag is raised only by `close()` calls. -/
theorem exists_close
    (closing : Closing state)
    {message : Nat}
    (reads : state.closed.read? message = some true) :
    ∃ close, state.closed.author? message = some close := by
  apply state.closed.exists_author?_of_read? reads
  simp [closing.initiallyOpen]

/-- A producer with no push in progress is idle. -/
theorem idle_of_no_push
    (closing : Closing state)
    (tracked : Tracked state)
    (none : state.log.noneInProgress Op.isPush = true) :
    state.producer = .idle := by
  have agrees := tracked.producer
  cases isCurrent : state.log.current .producer with
  | none =>
      rw [isCurrent] at agrees
      cases isAt : state.producer <;> rw [isAt] at agrees <;>
        simp_all [ProducerPc.Agrees, Decided]
  | some opened =>
      have isPush := closing.pushing isCurrent
      rw [tracked.wellFormed.not_selected_of_noneInProgress none isCurrent]
        at isPush
      cases isPush

/-- A close that was not yet invoked is invoked by the step itself. -/
theorem closeInvoked_step
    (tracked : Tracked state)
    (step : Step slots state agent action next)
    {closer : Agent}
    {close : Nat}
    (invoked : .invoke closer close .close ∈ next.log.history) :
    .invoke closer close .close ∈ state.log.history ∨
      action = .invoke .close ∧ close = state.log.nextCall ∧
        (∃ thread, agent = .observer thread) ∧
        next.log = state.log.invoke agent .close ∧
        next.producer = state.producer ∧ next.tail = state.tail := by
  rcases tracked.log_step step with
    same | ⟨op, isInvoke, _, shape⟩ | ⟨opened, made, isCurrent, shape⟩
    | ⟨result, ⟨call, op, marks, isCurrent, _⟩, shape⟩
  · rw [same] at invoked
    exact Or.inl invoked
  · rw [shape] at invoked
    simp only [CallLog.history_invoke, List.mem_append, List.mem_singleton,
      Event.invoke.injEq] at invoked
    rcases invoked with old | ⟨_, rfl, rfl⟩
    · exact Or.inl old
    · subst isInvoke
      refine Or.inr ⟨rfl, rfl, ?_⟩
      cases step with
      | producer own =>
          cases own with
          | invoke _ starts => cases starts
      | consumer own =>
          cases own with
          | invoke _ starts => cases starts
      | observer own =>
          cases own with
          | invoke _ starts => exact ⟨⟨_, rfl⟩, rfl, rfl, rfl⟩
  · rw [shape, CallLog.mark_of_current _ isCurrent] at invoked
    exact Or.inl (by simpa using invoked)
  · rw [shape, CallLog.respond_of_current _ isCurrent] at invoked
    exact Or.inl (by simpa using invoked)

/-- A pending close has not stored its flag yet. -/
theorem pending_step
    (closing : Closing state)
    (tracked : Tracked state)
    (step : Step slots state agent action next)
    (invoked : next.CloseInvoked)
    (unset : next.closed.newest = 0) :
    ∃ thread, next.observers thread = .storeClosed := by
  obtain ⟨closer, close, member⟩ := invoked
  rcases closeInvoked_step tracked step member with
    old | ⟨rfl, _, ⟨thread, rfl⟩, _⟩
  · cases step with
    | producer own =>
        rw [own.closed_eq] at unset
        rw [own.observers_eq]
        exact closing.pending ⟨closer, close, old⟩ unset
    | consumer own =>
        rw [own.closed_eq] at unset
        rw [own.observers_eq]
        exact closing.pending ⟨closer, close, old⟩ unset
    | observer own =>
        rename_i moving
        have unset' : state.closed.newest = 0 := by
          cases own with
          | storeClosed => simp at unset
          | _ => exact unset
        obtain ⟨thread, isAt⟩ :=
          closing.pending ⟨closer, close, old⟩ unset'
        by_cases same : thread = moving
        · subst same
          cases own with
          | storeClosed => simp at unset
          | _ => simp_all
        · exact ⟨thread, by rw [own.observers_other same, isAt]⟩
  · cases step with
    | observer own =>
        cases own with
        | invoke isIdle starts =>
            refine ⟨thread, ?_⟩
            rw [close_start? starts]
            simp

/-- No push overlaps a `close()` that has yet to store its flag. -/
theorem apart_step
    (closing : Closing state)
    (tracked : Tracked state)
    (admitted : orderly state ⟨agent, action⟩)
    (step : Step slots state agent action next)
    {thread : Nat}
    (isAt : next.observers thread = .storeClosed) :
    next.producer = .idle := by
  cases step with
  | producer own =>
      rw [own.observers_eq] at isAt
      have isIdle := closing.apart isAt
      have agrees := tracked.observers thread
      rw [isAt] at agrees
      obtain ⟨call, isClosing⟩ := agrees
      cases own with
      | invoke _ starts =>
          simp only [orderly, producerOrderly, isIdle] at admitted
          have contrary :=
            tracked.wellFormed.not_selected_of_noneInProgress admitted
              isClosing
          cases contrary
      | _ => simp_all
  | consumer own =>
      rw [own.observers_eq] at isAt
      rw [own.producer_eq]
      exact closing.apart isAt
  | observer own =>
      rename_i moving
      rw [own.producer_eq]
      by_cases same : thread = moving
      · subst same
        cases own with
        | invoke isIdle starts =>
            simp only [State.atObserver, Function.update_self] at isAt
            subst isAt
            rename_i op
            cases op with
            | close => exact closing.idle_of_no_push tracked admitted
            | _ => cases starts
        | _ => simp at isAt
      · rw [own.observers_other same] at isAt
        exact closing.apart isAt

/-- Once a close is invoked, the producer stays before its closed check. -/
theorem quiet_step
    (closing : Closing state)
    (tracked : Tracked state)
    (admitted : orderly state ⟨agent, action⟩)
    (step : Step slots state agent action next)
    (invoked : next.CloseInvoked) :
    next.producer.attempting = false := by
  obtain ⟨closer, close, member⟩ := invoked
  rcases closeInvoked_step tracked step member with
    old | ⟨rfl, _, ⟨thread, rfl⟩, _, sameProducer, _⟩
  · have quiet := closing.quiet ⟨closer, close, old⟩
    cases step with
    | consumer own => rwa [own.producer_eq]
    | observer own => rwa [own.producer_eq]
    | producer own =>
        cases own with
        | invoke _ starts => exact (ProducerPc.attempting_start? starts).1
        | refused | respond => rfl
        | admitted isAt reads =>
            simp only [orderly, producerOrderly, isAt] at admitted
            subst admitted
            cases shape : state.closed.newest with
            | zero =>
                obtain ⟨thread, isClosing⟩ :=
                  closing.pending ⟨closer, close, old⟩ shape
                rw [closing.apart isClosing] at isAt
                cases isAt
            | succ earlier =>
                rw [shape] at reads
                cases closing.stored reads
        | room isAt _ | noRoom isAt _ | refreshedRoom isAt _ _ _
        | refreshedFull isAt _ _ _ | moveIn isAt _ | throwIn isAt _
        | publishTail isAt =>
            rw [isAt] at quiet
            cases quiet
  · rw [sameProducer,
      closing.idle_of_no_push tracked admitted]
    rfl

/-- Every store of `tail_` was made by a push. -/
theorem published_step
    (closing : Closing state)
    (tracked : Tracked state)
    (step : Step slots state agent action next)
    {message : Nat}
    {publication : Publication}
    (authored : next.tail.author? message = some publication) :
    ∃ op, .invoke .producer publication.call op ∈ next.log.history := by
  have kept := tracked.history_sublist step
  have old :
      next.tail = state.tail →
      ∃ op, .invoke .producer publication.call op ∈ next.log.history := by
    intro same
    rw [same] at authored
    obtain ⟨op, invoked⟩ := closing.published authored
    exact ⟨op, kept.subset invoked⟩
  cases step with
  | consumer own => exact old (own.tail_eq)
  | observer own => exact old (own.tail_eq)
  | producer own =>
      cases own with
      | publishTail isAt =>
          have agrees := tracked.producer
          rw [isAt] at agrees
          obtain ⟨call, op, isCurrent, _⟩ := agrees
          simp only [State.atProducer, State.publishTail,
            Atomic.author?_store] at authored
          split at authored
          · simp only [State.callOf, isCurrent, Option.some.injEq]
              at authored
            subst authored
            exact ⟨op, kept.subset
              (tracked.wellFormed.currentInvoked isCurrent)⟩
          · obtain ⟨op, invoked⟩ := closing.published authored
            exact ⟨op, kept.subset invoked⟩
      | _ => exact old rfl

/-- Elements are handed over by stores of `tail_`. -/
theorem handed_step
    (closing : Closing state)
    (tracked : Tracked state)
    (step : Step slots state agent action next)
    {call : Nat}
    {values : List α}
    (marked : .mark call (.pushed values) ∈ next.log.history) :
    ∃ message publication,
      next.tail.author? message = some publication ∧
        publication.call = call := by
  have old :
      .mark call (.pushed values) ∈ state.log.history →
      ∃ message publication,
        state.tail.author? message = some publication ∧
          publication.call = call :=
    closing.handed
  cases step with
  | producer own =>
      have agrees := tracked.producer
      cases own with
      | publishTail isAt =>
          rename_i pusher index moved
          rw [isAt] at agrees
          obtain ⟨owner, op, isCurrent, _⟩ := agrees
          simp only [State.atProducer, State.publishTail,
            CallLog.mark_of_current _ isCurrent, List.mem_append,
            List.mem_singleton, Event.mark.injEq] at marked
          rcases marked with isOld | ⟨rfl, _⟩
          · obtain ⟨message, publication, authored, same⟩ := old isOld
            have bound := Atomic.le_newest_of_author? _ _ authored
            refine ⟨message, publication, ?_, same⟩
            simp only [State.atProducer, State.publishTail,
              Atomic.author?_store]
            rw [if_neg (by omega)]
            exact authored
          · refine ⟨state.tail.newest + 1,
              ⟨state.callOf .producer, total state.tail + moved.length⟩,
              ?_, ?_⟩
            · simp only [State.atProducer, State.publishTail,
                Atomic.author?_store, if_true]
            · simp [State.callOf, isCurrent]
      | respond isAt =>
          rw [isAt] at agrees
          obtain ⟨owner, op, marks, isCurrent, _⟩ := agrees
          refine old ?_
          simpa [CallLog.respond_of_current _ isCurrent] using marked
      | invoke => exact old (by simpa using marked)
      | _ => exact old marked
  | consumer own =>
      rw [own.tail_eq]
      refine old ?_
      have agrees := tracked.consumer
      cases own with
      | throwOut isAt _ | publishHead isAt =>
          rw [isAt] at agrees
          obtain ⟨owner, op, isCurrent, _⟩ := agrees
          simpa [CallLog.mark_of_current _ isCurrent] using marked
      | respond isAt =>
          rw [isAt] at agrees
          obtain ⟨owner, op, marks, isCurrent, _⟩ := agrees
          simpa [CallLog.respond_of_current _ isCurrent] using marked
      | invoke => simpa using marked
      | _ => exact marked
  | observer own =>
      rename_i thread
      rw [own.tail_eq]
      refine old ?_
      have agrees := tracked.observers thread
      cases own with
      | respond isAt =>
          rw [isAt] at agrees
          obtain ⟨owner, op, marks, isCurrent, _⟩ := agrees
          simpa [CallLog.respond_of_current _ isCurrent] using marked
      | invoke => simpa using marked
      | _ => exact marked

/-- Every push that published returned before any close was invoked. -/
theorem returned_step
    (closing : Closing state)
    (tracked : Tracked state)
    (admitted : orderly state ⟨agent, action⟩)
    (step : Step slots state agent action next)
    {message : Nat}
    {publication : Publication}
    {closer : Agent}
    {close : Nat}
    (authored : next.tail.author? message = some publication)
    (invoked : .invoke closer close .close ∈ next.log.history) :
    next.log.Precedes publication.call close := by
  have kept := tracked.history_sublist step
  rcases closeInvoked_step tracked step invoked with
    oldInvoke | ⟨rfl, rfl, ⟨thread, rfl⟩, shape, _, sameTail⟩
  · have quiet := closing.quiet ⟨closer, close, oldInvoke⟩
    have old :
        next.tail = state.tail →
        next.log.Precedes publication.call close := by
      intro same
      rw [same] at authored
      exact (closing.returned authored oldInvoke).mono kept
    cases step with
    | consumer own => exact old (own.tail_eq)
    | observer own => exact old (own.tail_eq)
    | producer own =>
        cases own with
        | publishTail isAt =>
            rw [isAt] at quiet
            cases quiet
        | _ => exact old rfl
  · rw [sameTail] at authored
    obtain ⟨op, pushed⟩ := closing.published authored
    have isIdle := closing.idle_of_no_push tracked admitted
    rcases tracked.wellFormed.invokedIsOpenOrReturned pushed with
      ⟨opened, isCurrent, _⟩ | ⟨result, response⟩
    · have agrees := tracked.producer
      rw [isIdle] at agrees
      rw [agrees] at isCurrent
      cases isCurrent
    · rw [shape]
      exact CallLog.precedes_of_before (Before.concat_of_mem response)

/-- The producer only ever runs pushes. -/
theorem pushing_step
    (closing : Closing state)
    (tracked : Tracked state)
    (step : Step slots state agent action next)
    {opened : OpenCall (Op α) (Handover α)}
    (isCurrent : next.log.current .producer = some opened) :
    opened.op.isPush = true := by
  cases step with
  | consumer own =>
      rw [tracked.current_other (.consumer own) (by simp)] at isCurrent
      exact closing.pushing isCurrent
  | observer own =>
      rw [tracked.current_other (.observer own) (by simp)] at isCurrent
      exact closing.pushing isCurrent
  | producer own =>
      cases own with
      | invoke _ starts =>
          simp only [State.atProducer, State.invoke,
            CallLog.current_invoke, Function.update_self,
            Option.some.injEq] at isCurrent
          subst isCurrent
          exact (ProducerPc.attempting_start? starts).2
      | publishTail isAt =>
          have agrees := tracked.producer
          rw [isAt] at agrees
          obtain ⟨call, op, isCurrent', _⟩ := agrees
          simp only [State.atProducer, State.publishTail,
            CallLog.mark_of_current _ isCurrent', Function.update_self,
            Option.some.injEq] at isCurrent
          have isPush := closing.pushing isCurrent'
          rw [← isCurrent]
          exact isPush
      | respond isAt =>
          have agrees := tracked.producer
          rw [isAt] at agrees
          obtain ⟨call, op, marks, isCurrent', _⟩ := agrees
          simp [CallLog.respond_of_current _ isCurrent'] at isCurrent
      | _ => exact closing.pushing isCurrent

/-- Every orderly step keeps the discipline. -/
theorem step
    (closing : Closing state)
    (tracked : Tracked state)
    (admitted : orderly state ⟨agent, action⟩)
    (step : Step slots state agent action next) :
    Closing next where
  initiallyOpen := by
    have isOpen := closing.initiallyOpen
    cases step with
    | producer own => rwa [own.closed_eq]
    | consumer own => rwa [own.closed_eq]
    | observer own => cases own <;> simpa using isOpen
  stored := by
    intro message flag reads
    cases step with
    | producer own =>
        rw [own.closed_eq] at reads
        exact closing.stored reads
    | consumer own =>
        rw [own.closed_eq] at reads
        exact closing.stored reads
    | observer own =>
        cases own with
        | storeClosed =>
            simp only [State.atObserver, State.storeClosed,
              Atomic.read?_store] at reads
            split at reads
            · simpa using reads.symm
            · exact closing.stored reads
        | _ => exact closing.stored reads
  authored := by
    intro message close authored
    have kept := tracked.history_sublist step
    have old :
        state.closed.author? message = some close →
        ∃ closer, .invoke closer close .close ∈ next.log.history := by
      intro authored
      obtain ⟨closer, invoked⟩ := closing.authored authored
      exact ⟨closer, kept.subset invoked⟩
    cases step with
    | producer own => exact old (by rwa [own.closed_eq] at authored)
    | consumer own => exact old (by rwa [own.closed_eq] at authored)
    | observer own =>
        rename_i thread
        cases own with
        | storeClosed isAt =>
            have agrees := tracked.observers thread
            rw [isAt] at agrees
            obtain ⟨call, isCurrent⟩ := agrees
            simp only [State.atObserver, State.storeClosed,
              Atomic.author?_store] at authored
            split at authored
            · simp only [State.callOf, isCurrent, Option.some.injEq]
                at authored
              subst authored
              exact ⟨_, kept.subset
                (tracked.wellFormed.currentInvoked isCurrent)⟩
            · exact old authored
        | _ => exact old authored
  published := closing.published_step tracked step
  handed := closing.handed_step tracked step
  pushing := closing.pushing_step tracked step
  pending := closing.pending_step tracked step
  apart := closing.apart_step tracked admitted step
  quiet := closing.quiet_step tracked admitted step
  returned := closing.returned_step tracked admitted step

/-- The discipline holds in every state an orderly run reaches. -/
theorem of_run
    [Inhabited α]
    {labels : List (Label α)}
    (run : Run (step? slots) orderly Spsc.initial labels state) :
    Closing state :=
  run.invariant_of Tracked.of_run Closing.initial
    fun tracked _ closing admitted taken =>
      closing.step tracked admitted (Step.of_step? taken)

end Closing

end ConcurrentQueue.Spsc
