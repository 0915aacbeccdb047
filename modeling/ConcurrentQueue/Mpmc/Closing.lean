import ConcurrentQueue.Mpmc.Values

namespace ConcurrentQueue.Mpmc

/-!
# Closing after the producers

`close()` is meant to be called when every push has returned.  `orderly` is
that discipline, together with what the release store of `closed_` and the
acquire loads of it give a thread that has read it as `true`.  Under it no
producer gets past its closed check once a `close()` has been invoked, so the
producer counter stands still from then on.
-/

open TicketRing

variable {α : Type}

/--
The message is not older than any sequence store of a push that returned
before a `close()` whose store the thread has read.
-/
def State.SeesClosed
    (state : State α)
    (thread index message : Nat) : Prop :=
  ∀ close ∈ (state.threads thread).closesRead,
    ∀ later < (state.slots index).sequence.newest + 1,
      match (state.slots index).sequence.author? later with
      | none => True
      | some call =>
          state.log.isCallOf Op.isPush call = true →
            state.log.Precedes call close → later ≤ message

/--
No push is in progress or starts while a `close()` is in progress, a push
loads the current value of `closed_`, and a sequence load sees what the
thread's loads of `closed_` have synchronized with.
-/
def orderly (arithmetic : Arithmetic) : StepGuard (State α) (Label α) :=
  fun state label =>
    match (state.threads label.thread).pc, label.action with
    | .idle, .invoke op =>
        (op.isClose = true → state.log.noneInProgress Op.isPush = true) ∧
          (op.isPush = true → state.log.noneInProgress Op.isClose = true)
    | .checkClosed caller, .load message =>
        caller.side = .producer → message = state.closed.newest
    | .loadSequence _ ticket, .load message =>
        state.SeesClosed label.thread (arithmetic.slotIndex ticket) message
    | _, _ => True

instance [DecidableEq α] (state : State α) (thread index message : Nat) :
    Decidable (state.SeesClosed thread index message) :=
  have (author : Option Nat) (later : Nat) (close : Nat) :
      Decidable
        (match author with
        | none => True
        | some call =>
            state.log.isCallOf Op.isPush call = true →
              state.log.Precedes call close → later ≤ message) :=
    match author with
    | none => inferInstanceAs (Decidable True)
    | some _ => inferInstanceAs (Decidable (_ → _ → _))
  inferInstanceAs (Decidable (∀ _ ∈ _, ∀ _ < _, _))

instance [DecidableEq α] (arithmetic : Arithmetic) :
    ∀ (state : State α) (label : Label α),
      Decidable (orderly arithmetic state label) :=
  fun state label =>
    decidable_of_bool
      (match (state.threads label.thread).pc, label.action with
        | .idle, .invoke op =>
            (!op.isClose || state.log.noneInProgress Op.isPush) &&
              (!op.isPush || state.log.noneInProgress Op.isClose)
        | .checkClosed caller, .load message =>
            caller.side != .producer || message == state.closed.newest
        | .loadSequence _ ticket, .load message =>
            decide
              (state.SeesClosed label.thread (arithmetic.slotIndex ticket)
                message)
        | _, _ => true)
      (by unfold orderly; split <;> simp [← Bool.not_eq_true, imp_iff_not_or])

namespace Pc

/-- The caller of the claim loop that a thread is inside. -/
def attempting : Pc α → Option (Caller α)
  | .loadPos caller => some caller
  | .loadSequence caller _ => some caller
  | .exchange caller _ => some caller
  | .reloadPos caller _ => some caller
  | .moveValue caller _ => some caller
  | .storeSequence caller _ => some caller
  | _ => none

/-- A call starts inside a loop only on the consumer side. -/
theorem attempting_start?
    {slots : Nat}
    {op : Op α}
    {pc : Pc α}
    {caller : Caller α}
    (starts : start? slots op = some pc)
    (isAttempting : pc.attempting = some caller) :
    caller.side = .consumer ∧ ∀ out, caller ≠ .pop out true := by
  cases op <;>
    simp only [start?, Option.some.injEq, reduceCtorEq] at starts <;>
    subst starts <;>
    simp only [attempting, Option.some.injEq, reduceCtorEq]
      at isAttempting <;>
    subst isAttempting <;> simp [Caller.side]

/-- A producer goes on to its claim loop only where it read `false`. -/
theorem attempting_afterClosedLoad
    {caller entered : Caller α}
    {flag : Bool}
    (isAttempting :
      (caller.afterClosedLoad flag).attempting = some entered) :
    (entered.side = .producer → caller.side = .producer ∧ flag = false) ∧
      ∀ out, entered = .pop out true → flag = true := by
  cases caller <;> cases flag <;>
    simp only [Caller.afterClosedLoad, attempting, Option.some.injEq,
      reduceCtorEq, if_true, if_false, Bool.false_eq_true]
      at isAttempting <;>
    subst isAttempting <;> simp [Caller.side]

@[simp] theorem attempting_afterFailure (caller : Caller α) :
    caller.afterFailure.attempting = none := by
  rcases caller with _ | _ | ⟨_, _ | _⟩ | _ <;> rfl

@[simp] theorem attempting_afterSuccess (caller : Caller α) :
    caller.afterSuccess.attempting = none := by
  cases caller <;> rfl

/-- The sequence load does not change the caller. -/
theorem attempting_classify
    {caller entered : Caller α}
    {ticket : Nat}
    {dif : Int}
    (isAttempting :
      (classify caller ticket dif).attempting = some entered) :
    entered = caller := by
  unfold classify at isAttempting
  split at isAttempting
  · simpa [attempting] using isAttempting.symm
  · split at isAttempting
    · simp at isAttempting
    · simpa [attempting] using isAttempting.symm

end Pc

/-- A move does not change whether the caller has read `closed_`. -/
theorem Caller.transfer_eq_closedSeen
    {caller : Caller α}
    {slotValue husk out : α}
    (after : (caller.transfer slotValue husk).1 = .pop out true) :
    ∃ before, caller = .pop before true := by
  cases caller <;> simp_all [transfer]

/--
A step that leaves the moving thread inside a claim loop entered the loop or
found the thread inside it already.
-/
theorem Step.attempting
    {arithmetic : Arithmetic}
    {state next : State α}
    {thread : Nat}
    {action : Action α}
    (step : Step arithmetic state thread action next)
    {caller : Caller α}
    (isAttempting :
      (next.threads thread).pc.attempting = some caller) :
    (∃ before,
      (state.threads thread).pc.attempting = some before ∧
        before.side = caller.side ∧
        ∀ out, caller = .pop out true →
          ∃ out', before = .pop out' true) ∨
      (∃ op,
        action = .invoke op ∧ caller.side = .consumer ∧
          ∀ out, caller ≠ .pop out true) ∨
      ∃ checking message flag,
        (state.threads thread).pc = .checkClosed checking ∧
          action = .load message ∧
          state.closed.read? message = some flag ∧
          (caller.side = .producer →
            checking.side = .producer ∧ flag = false) ∧
          ∀ out, caller = .pop out true → flag = true := by
  cases step with
  | invoke isAt starts =>
      simp only [State.pc_goto, if_true] at isAttempting
      obtain ⟨isConsumer, notSeen⟩ :=
        Pc.attempting_start? starts isAttempting
      exact Or.inr (Or.inl ⟨_, rfl, isConsumer, notSeen⟩)
  | checkClosed isAt reads =>
      simp only [State.pc_goto, if_true] at isAttempting
      obtain ⟨producer, seen⟩ :=
        Pc.attempting_afterClosedLoad isAttempting
      exact Or.inr (Or.inr ⟨_, _, _, isAt, rfl, reads, producer, seen⟩)
  | loadSequence isAt reads =>
      simp only [State.pc_goto, if_true] at isAttempting
      have same := Pc.attempting_classify isAttempting
      subst same
      exact Or.inl ⟨_, by rw [isAt]; rfl, rfl, fun out shape => ⟨out, shape⟩⟩
  | moveValue isAt =>
      rename_i mover ticket husk
      simp only [State.pc_goto, if_true, Pc.attempting,
        Option.some.injEq] at isAttempting
      refine Or.inl ⟨mover, by rw [isAt]; rfl, ?_, ?_⟩
      · rw [← isAttempting, Caller.side_transfer]
      · intro out shape
        rw [← isAttempting] at shape
        exact Caller.transfer_eq_closedSeen shape
  | loadPos isAt | reloadPos isAt | lost isAt | claim isAt =>
      simp only [State.pc_goto, if_true, Pc.attempting,
        Option.some.injEq] at isAttempting
      subst isAttempting
      exact Or.inl ⟨_, by rw [isAt]; rfl, rfl, fun out shape => ⟨out, shape⟩⟩
  | storeSequence =>
      simp at isAttempting
  | storeClosed | loadClosed | sizeTail | sizeHead | respond =>
      simp [Pc.attempting] at isAttempting

/-- A thread inside a claim loop runs a call of that loop's side. -/
theorem sideOf?_of_attempting
    {opened : Option (OpenCall (Op α) Ticket)}
    {pc : Pc α}
    {caller : Caller α}
    (agrees : Agrees opened pc)
    (isAttempting : pc.attempting = some caller) :
    ∃ current,
      opened = some current ∧ sideOf? current.op = some caller.side := by
  cases pc with
  | loadPos | loadSequence | exchange | reloadPos | moveValue =>
      obtain ⟨call, rfl⟩ := agrees
      simp only [Pc.attempting, Option.some.injEq] at isAttempting
      subst isAttempting
      exact ⟨_, rfl, by simp⟩
  | storeSequence =>
      obtain ⟨call, op, rfl, sameSide⟩ := agrees
      simp only [Pc.attempting, Option.some.injEq] at isAttempting
      subst isAttempting
      exact ⟨_, rfl, sameSide⟩
  | idle | checkClosed | storeClosed | loadClosed | sizeTail | sizeHead
  | returning =>
      simp [Pc.attempting] at isAttempting

/-- Some `close()` has been invoked. -/
def State.CloseInvoked (state : State α) : Prop :=
  ∃ closer close, .invoke closer close .close ∈ state.log.history

/-- What holds of an orderly run before and after `close()`. -/
structure Closing (state : State α) : Prop where
  initiallyOpen : state.closed.initial = false
  stored :
    ∀ {message flag},
      state.closed.read? (message + 1) = some flag → flag = true
  authored :
    ∀ {message close},
      state.closed.author? message = some close →
      ∃ closer, .invoke closer close .close ∈ state.log.history
  pending :
    state.CloseInvoked →
    state.closed.newest = 0 →
    ∃ thread, (state.threads thread).pc = .storeClosed
  apart :
    ∀ {thread other opened},
      (state.threads thread).pc = .storeClosed →
      state.log.current other = some opened →
      opened.op.isPush = false
  quiet :
    state.CloseInvoked →
    ∀ {thread caller},
      (state.threads thread).pc.attempting = some caller →
      caller.side = .consumer
  returned :
    ∀ {call ticket closer close},
      .mark call ⟨.producer, ticket⟩ ∈ state.log.history →
      .invoke closer close .close ∈ state.log.history →
      state.log.Precedes call close

namespace Closing

variable {capacity : Nat} {state : State α}

/-- The constructor leaves the queue open. -/
theorem initial
    [Inhabited α]
    (arithmetic : Arithmetic) :
    Closing (initial arithmetic : State α) where
  initiallyOpen := by
    rfl
  stored := by
    intro message flag reads
    simp [Mpmc.initial, Atomic.read?] at reads
  authored := by
    intro message close authored
    cases message <;> simp [Mpmc.initial, Atomic.author?] at authored
  pending := by
    rintro ⟨closer, close, invoked⟩
    simp [Mpmc.initial] at invoked
  apart := by
    intro thread other opened isAt
    simp [Mpmc.initial] at isAt
  quiet := by
    rintro ⟨closer, close, invoked⟩
    simp [Mpmc.initial] at invoked
  returned := by
    intro call ticket closer close marked
    simp [Mpmc.initial] at marked

/-- The closed flag is raised only by `close()` calls. -/
theorem exists_close
    (closing : Closing state)
    {message : Nat}
    (reads : state.closed.read? message = some true) :
    ∃ close, state.closed.author? message = some close := by
  apply state.closed.exists_author?_of_read? reads
  simp [closing.initiallyOpen]

section Steps

variable {thread : Nat} {action : Action α} {next : State α}

/-- A close that was not yet invoked is invoked by the step itself. -/
theorem closeInvoked_step
    (tracked : Tracked capacity state)
    {arithmetic : Arithmetic}
    (step : Step arithmetic state thread action next)
    (invoked : next.CloseInvoked) :
    state.CloseInvoked ∨
      action = .invoke .close ∧ (state.threads thread).pc = .idle := by
  obtain ⟨closer, close, member⟩ := invoked
  rcases tracked.invoke_mem_step step member with
    old | ⟨_, _, isInvoke, isIdle⟩
  · exact Or.inl ⟨closer, close, old⟩
  · exact Or.inr ⟨isInvoke, isIdle⟩

/-- No producer is inside its claim loop while no push is in progress. -/
theorem consumer_of_no_push
    (tracked : Tracked capacity state)
    (noPush :
      ∀ {other opened},
        state.log.current other = some opened →
          opened.op.isPush = false)
    {other : Nat}
    {caller : Caller α}
    (isAttempting :
      (state.threads other).pc.attempting = some caller) :
    caller.side = .consumer := by
  obtain ⟨opened, isCurrent, sameSide⟩ :=
    sideOf?_of_attempting (tracked.agrees other) isAttempting
  cases isSide : caller.side with
  | consumer => rfl
  | producer =>
      rw [isSide] at sameSide
      have isPush := isPush_of_sideOf? sameSide
      rw [noPush isCurrent] at isPush
      cases isPush

/-- Invoking `close()` in an orderly run finds no push in progress. -/
theorem no_push_of_close
    (tracked : Tracked capacity state)
    {arithmetic : Arithmetic}
    (admitted : orderly arithmetic state ⟨thread, .invoke .close⟩)
    (isIdle : (state.threads thread).pc = .idle)
    {other : Nat}
    {opened : OpenCall (Op α) Ticket}
    (isCurrent : state.log.current other = some opened) :
    opened.op.isPush = false := by
  simp only [orderly, isIdle] at admitted
  exact tracked.wellFormed.not_selected_of_noneInProgress
    (admitted.1 rfl) isCurrent

/-- A pending close has not stored its flag yet. -/
theorem pending_step
    (closing : Closing state)
    (tracked : Tracked capacity state)
    {arithmetic : Arithmetic}
    (step : Step arithmetic state thread action next)
    (invoked : next.CloseInvoked)
    (unset : next.closed.newest = 0) :
    ∃ other, (next.threads other).pc = .storeClosed := by
  rcases closeInvoked_step tracked step invoked with old | ⟨rfl, isIdle⟩
  · have unset' : state.closed.newest = 0 := by
      cases step with
      | storeClosed => simp at unset
      | _ => simpa using unset
    obtain ⟨other, isAt⟩ := closing.pending old unset'
    by_cases same : other = thread
    · subst same
      cases step with
      | storeClosed => simp at unset
      | _ => simp_all
    · exact ⟨other, by rw [step.pc_other same, isAt]⟩
  · cases step with
    | invoke isAt starts =>
        cases starts
        exact ⟨thread, by simp⟩

/-- A thread comes to `closed_.store(true)` only by invoking `close()`. -/
theorem storeClosed_step
    {arithmetic : Arithmetic}
    (step : Step arithmetic state thread action next)
    (isAt : (next.threads thread).pc = .storeClosed) :
    action = .invoke .close ∧ (state.threads thread).pc = .idle := by
  cases step with
  | invoke isIdle starts =>
      simp only [State.pc_goto, if_true] at isAt
      subst isAt
      rename_i op
      cases op <;> simp [Pc.start?] at starts
      exact ⟨rfl, isIdle⟩
  | checkClosed =>
      rename_i caller _ flag _ _
      cases caller <;> cases flag <;>
        simp [Caller.afterClosedLoad] at isAt
  | loadSequence =>
      rename_i caller _ _ _ _ _
      simp only [State.pc_goto, if_true, Pc.classify] at isAt
      split at isAt
      · cases isAt
      · split at isAt
        · rcases caller with _ | _ | ⟨_, _ | _⟩ | _ <;> cases isAt
        · cases isAt
  | storeSequence =>
      rename_i caller _ _
      cases caller <;> simp [Caller.afterSuccess] at isAt
  | _ =>
      simp at isAt

/-- No push overlaps a `close()` that has yet to store its flag. -/
theorem apart_step
    (closing : Closing state)
    (tracked : Tracked capacity state)
    {arithmetic : Arithmetic}
    (admitted : orderly arithmetic state ⟨thread, action⟩)
    (step : Step arithmetic state thread action next)
    {closer other : Nat}
    {opened : OpenCall (Op α) Ticket}
    (isAt : (next.threads closer).pc = .storeClosed)
    (isCurrent : next.log.current other = some opened) :
    opened.op.isPush = false := by
  by_cases same : closer = thread
  · subst same
    obtain ⟨rfl, isIdle⟩ := storeClosed_step step isAt
    by_cases sameOther : other = closer
    · subst sameOther
      cases step with
      | invoke _ starts =>
          simp only [State.log_goto, State.log_invoke,
            CallLog.current_invoke, Function.update_self,
            Option.some.injEq] at isCurrent
          subst isCurrent
          rfl
    · rw [Tracked.current_other step sameOther] at isCurrent
      exact no_push_of_close tracked admitted isIdle isCurrent
  · rw [step.pc_other same] at isAt
    by_cases sameOther : other = thread
    · subst sameOther
      cases step with
      | invoke isIdle starts =>
          rename_i op pc
          simp only [State.log_goto, State.log_invoke,
            CallLog.current_invoke, Function.update_self,
            Option.some.injEq] at isCurrent
          subst isCurrent
          simp only [orderly, isIdle] at admitted
          by_contra isPush
          have noClose := admitted.2 (by simpa using isPush)
          have agrees := tracked.agrees closer
          rw [isAt] at agrees
          obtain ⟨call, isClosing⟩ := agrees
          have contrary :=
            tracked.wellFormed.not_selected_of_noneInProgress noClose
              isClosing
          simp [Op.isClose] at contrary
      | claim isExchange current =>
          obtain ⟨call, isCurrent'⟩ :=
            tracked.current_of_exchange isExchange
          simp only [State.log_goto, State.log_claim,
            CallLog.mark_of_current _ isCurrent', Function.update_self,
            Option.some.injEq] at isCurrent
          have notPush := closing.apart isAt isCurrent'
          rw [← isCurrent]
          exact notPush
      | respond isReturning =>
          have agrees := tracked.agrees other
          rw [isReturning] at agrees
          obtain ⟨call, op, drawn, isCurrent', _⟩ := agrees
          simp [CallLog.respond_of_current _ isCurrent'] at isCurrent
      | _ =>
          have isCurrent' : state.log.current other = some opened := by
            simpa using isCurrent
          exact closing.apart isAt isCurrent'
    · rw [Tracked.current_other step sameOther] at isCurrent
      exact closing.apart isAt isCurrent

/-- Once a close is invoked, no producer is past its closed check. -/
theorem quiet_step
    (closing : Closing state)
    (tracked : Tracked capacity state)
    {arithmetic : Arithmetic}
    (admitted : orderly arithmetic state ⟨thread, action⟩)
    (step : Step arithmetic state thread action next)
    (invoked : next.CloseInvoked)
    {other : Nat}
    {caller : Caller α}
    (isAttempting :
      (next.threads other).pc.attempting = some caller) :
    caller.side = .consumer := by
  rcases closeInvoked_step tracked step invoked with old | ⟨rfl, isIdle⟩
  · by_cases same : other = thread
    · subst same
      rcases step.attempting isAttempting with
        ⟨before, wasAttempting, sameSide, _⟩ | ⟨_, _, isConsumer, _⟩
        | ⟨checking, message, flag, isAt, rfl, reads, producer, _⟩
      · rw [← sameSide]
        exact closing.quiet old wasAttempting
      · exact isConsumer
      · by_contra notConsumer
        have isProducer : caller.side = .producer := by
          cases isSide : caller.side <;> simp_all
        obtain ⟨checkingSide, rfl⟩ := producer isProducer
        simp only [orderly, isAt] at admitted
        have current := admitted checkingSide
        cases shape : state.closed.newest with
        | zero =>
            obtain ⟨closer, isClosing⟩ := closing.pending old shape
            have agrees := tracked.agrees other
            rw [isAt] at agrees
            obtain ⟨call, isCurrent⟩ := agrees
            have notPush := closing.apart isClosing isCurrent
            have isPush : checking.op.isPush = true :=
              isPush_of_sideOf? (by simp [checkingSide])
            simp only at notPush
            rw [notPush] at isPush
            cases isPush
        | succ earlier =>
            rw [current, shape] at reads
            cases closing.stored reads
    · rw [step.pc_other same] at isAttempting
      exact closing.quiet old isAttempting
  · by_cases same : other = thread
    · subst same
      rcases step.attempting isAttempting with
        ⟨before, wasAttempting, _⟩ | ⟨_, _, isConsumer, _⟩
        | ⟨checking, message, flag, isAt, _⟩
      · simp [isIdle, Pc.attempting] at wasAttempting
      · exact isConsumer
      · rw [isIdle] at isAt
        cases isAt
    · rw [step.pc_other same] at isAttempting
      exact consumer_of_no_push tracked
        (no_push_of_close tracked admitted isIdle) isAttempting

/-- Every push that drew a ticket returned before any close was invoked. -/
theorem returned_step
    (closing : Closing state)
    (tracked : Tracked capacity state)
    {arithmetic : Arithmetic}
    (admitted : orderly arithmetic state ⟨thread, action⟩)
    (step : Step arithmetic state thread action next)
    {call ticket closer close : Nat}
    (marked :
      .mark call ⟨.producer, ticket⟩ ∈ next.log.history)
    (invoked : .invoke closer close .close ∈ next.log.history) :
    next.log.Precedes call close := by
  have kept := Tracked.history_sublist step
  rcases tracked.mark_mem_step step marked with
    oldMark | ⟨caller, isAt, isProducer⟩
  · rcases tracked.invoke_mem_step step invoked with
      oldInvoke | ⟨rfl, rfl, rfl, isIdle⟩
    · exact (closing.returned oldMark oldInvoke).mono kept
    · obtain ⟨owner, op, before⟩ := tracked.wellFormed.markInvoked oldMark
      rcases tracked.wellFormed.invokedIsOpenOrReturned before.first_mem
        with ⟨opened, isCurrent, rfl⟩ | ⟨result, response⟩
      · have member : ⟨.producer, ticket⟩ ∈ opened.marks := by
          rw [← tracked.wellFormed.currentMarks isCurrent]
          exact CallLog.mem_marksOf.mpr oldMark
        have agrees := tracked.agrees owner
        rw [isCurrent] at agrees
        have isPush := isPush_of_sideOf? (sideOf?_of_drawn agrees member)
        rw [no_push_of_close tracked admitted isIdle isCurrent] at isPush
        cases isPush
      · cases step with
        | invoke _ starts =>
            exact CallLog.precedes_of_before
              (Before.concat_of_mem response)
  · rcases tracked.invoke_mem_step step invoked with
      oldInvoke | ⟨_, _, _, isIdle⟩
    · have isAttempting :
          (state.threads thread).pc.attempting = some caller := by
        rw [isAt]
        rfl
      have isConsumer :=
        closing.quiet ⟨closer, close, oldInvoke⟩ isAttempting
      rw [isProducer] at isConsumer
      cases isConsumer
    · rw [isIdle] at isAt
      cases isAt

/-- Every orderly step keeps the discipline. -/
theorem step
    (closing : Closing state)
    (tracked : Tracked capacity state)
    {arithmetic : Arithmetic}
    (admitted : orderly arithmetic state ⟨thread, action⟩)
    (step : Step arithmetic state thread action next) :
    Closing next where
  initiallyOpen := by
    have isOpen := closing.initiallyOpen
    cases step <;> simpa using isOpen
  stored := by
    intro message flag reads
    cases step with
    | storeClosed =>
        simp only [State.closed_goto, State.closed_storeClosed,
          Atomic.read?_store] at reads
        split at reads
        · simpa using reads.symm
        · exact closing.stored reads
    | _ =>
        have old : state.closed.read? (message + 1) = some flag := by
          simpa using reads
        exact closing.stored old
  authored := by
    intro message close authored
    have kept := Tracked.history_subset step
    cases step with
    | storeClosed isAt =>
        have agrees := tracked.agrees thread
        rw [isAt] at agrees
        obtain ⟨call, isCurrent⟩ := agrees
        simp only [State.closed_goto, State.closed_storeClosed,
          Atomic.author?_store] at authored
        split at authored
        · simp only [State.callOf, isCurrent, Option.some.injEq]
            at authored
          subst authored
          exact ⟨thread, kept
            (tracked.wellFormed.currentInvoked isCurrent)⟩
        · obtain ⟨closer, invoked⟩ := closing.authored authored
          exact ⟨closer, kept invoked⟩
    | _ =>
        have old : state.closed.author? message = some close := by
          simpa using authored
        obtain ⟨closer, invoked⟩ := closing.authored old
        exact ⟨closer, kept invoked⟩
  pending := closing.pending_step tracked step
  apart := closing.apart_step tracked admitted step
  quiet := closing.quiet_step tracked admitted step
  returned := closing.returned_step tracked admitted step

end Steps

/-- The discipline holds in every state an orderly run reaches. -/
theorem of_run
    [Inhabited α]
    (positive : 0 < capacity)
    {labels : List (Label α)}
    (run :
      Run (step? (Arithmetic.exact capacity))
        (orderly (Arithmetic.exact capacity))
        (Mpmc.initial (Arithmetic.exact capacity)) labels state) :
    Closing state :=
  run.invariant_of (Tracked.of_run positive) (Closing.initial _)
    fun tracked _ closing admitted taken =>
      closing.step tracked admitted (Step.of_step? taken)

end Closing

end ConcurrentQueue.Mpmc
