import ConcurrentQueue.Mpmc.Ownership

namespace ConcurrentQueue.Mpmc

/-!
# Values follow their tickets

Every ticket of the producer side carries the argument of the call that drew
it: first in the slot, then in the local of the consumer call that drew the
same ticket, and finally in that call's result.  What a failed push was called
with never enters a slot, and the order of tickets is an order of real time.
-/

open TicketRing

variable {α : Type}

/-- The call that drew a producer ticket was called with this argument. -/
def Pushed
    (log : CallLog Nat (Op α) Ticket (Result α))
    (ticket : Nat)
    (value : α) : Prop :=
  ∃ thread call op,
    .invoke thread call op ∈ log.history ∧
      .mark call ⟨.producer, ticket⟩ ∈ log.history ∧
      op.argument? = some value

/-- What was pushed stays pushed. -/
theorem Pushed.mono
    {log later : CallLog Nat (Op α) Ticket (Result α)}
    {ticket : Nat}
    {value : α}
    (kept : log.history ⊆ later.history)
    (pushed : Pushed log ticket value) :
    Pushed later ticket value := by
  obtain ⟨thread, call, op, invoked, marked, argument⟩ := pushed
  exact ⟨thread, call, op, kept invoked, kept marked, argument⟩

namespace Caller

/-- Where the value of a ticket is once its holder has moved it. -/
def handed (slotValue : α) : Caller α → α
  | .push _ | .tryPush _ => slotValue
  | .pop out _ | .tryPop out => out

/-- A producer is called with the value it moves. -/
theorem argument_of_producer
    {caller : Caller α}
    (isProducer : caller.side = .producer)
    (slotValue husk : α) :
    caller.op.argument? =
      some ((caller.transfer slotValue husk).1.handed
        (caller.transfer slotValue husk).2) := by
  cases caller <;> simp_all [side, op, Op.argument?, transfer, handed]

/-- A consumer's local is handed the value that was in the slot. -/
theorem handed_of_consumer
    {caller : Caller α}
    (isConsumer : caller.side = .consumer)
    (slotValue husk other : α) :
    (caller.transfer slotValue husk).1.handed other = slotValue := by
  cases caller <;> simp_all [side, transfer, handed]

/-- The producer side hands its value over in the slot. -/
theorem handed_of_producer
    {caller : Caller α}
    (isProducer : caller.side = .producer)
    (slotValue : α) :
    caller.handed slotValue = slotValue := by
  cases caller <;> simp_all [side, handed]

/-- A successful consumer returns what it was handed. -/
theorem afterSuccess_eq_popped
    {caller : Caller α}
    {delivered : Bool}
    {out : α}
    (slotValue : α)
    (after : caller.afterSuccess = .returning (.popped delivered out)) :
    caller.side = .consumer ∧ caller.handed slotValue = out := by
  cases caller <;> simp_all [afterSuccess, side, handed]

end Caller

namespace Pc

/-- Program points at which a thread has a handed-over value. -/
def isLoaded : Pc α → Bool
  | .storeSequence _ _ => true
  | .returning (.popped true _) => true
  | _ => false

section ProgramPoints

variable (caller : Caller α)

@[simp] theorem isLoaded_afterClosedLoad (flag : Bool) :
    (caller.afterClosedLoad flag).isLoaded = false := by
  cases caller <;> cases flag <;> rfl

@[simp] theorem isLoaded_afterFailure :
    caller.afterFailure.isLoaded = false := by
  rcases caller with _ | _ | ⟨_, _ | _⟩ | _ <;> rfl

@[simp] theorem isLoaded_classify (ticket : Nat) (dif : Int) :
    (classify caller ticket dif).isLoaded = false := by
  unfold classify
  split
  · rfl
  · split
    · exact isLoaded_afterFailure caller
    · rfl

theorem isLoaded_start?
    {slots : Nat}
    {op : Op α}
    {pc : Pc α}
    (starts : start? slots op = some pc) :
    pc.isLoaded = false := by
  cases op <;>
    simp only [start?, Option.some.injEq, reduceCtorEq] at starts <;>
    subst starts <;> rfl

end ProgramPoints

end Pc

namespace State

/-- The value of the slot that a ticket belongs to. -/
def valueAt (capacity : Nat) (state : State α) (ticket : Nat) : α :=
  (state.slots (ticket % capacity)).value

/-- Some consumer has moved the value of a ticket out of its slot. -/
def MovedOut (state : State α) (ticket : Nat) : Prop :=
  ∃ thread caller,
    (state.threads thread).pc = .storeSequence caller ticket ∧
      caller.side = .consumer

/-- The value that a thread has in hand is the one its ticket stands for. -/
def Carries (capacity : Nat) (state : State α) (thread : Nat) : Prop :=
  (∀ {caller ticket},
    (state.threads thread).pc = .storeSequence caller ticket →
      Pushed state.log ticket
        (caller.handed (state.valueAt capacity ticket))) ∧
  ∀ {out},
    (state.threads thread).pc = .returning (.popped true out) →
      ∃ call op ticket,
        state.log.current thread = some ⟨call, op, [⟨.consumer, ticket⟩]⟩ ∧
          Pushed state.log ticket out

end State

/-- Slots, threads and results hold the values their tickets stand for. -/
structure Account (capacity : Nat) (state : State α) : Prop where
  stored :
    ∀ {ticket},
      (state.slots (ticket % capacity)).sequence.newest =
          stage capacity ⟨.consumer, ticket⟩ →
      ¬ state.MovedOut ticket →
      Pushed state.log ticket (state.valueAt capacity ticket)
  carried : ∀ thread, state.Carries capacity thread
  delivered :
    ∀ {call op tickets out},
      state.log.Completed call op tickets (.popped true out) →
      ∃ ticket,
        tickets = [⟨.consumer, ticket⟩] ∧ Pushed state.log ticket out

/-- Without a handed-over value there is nothing to carry. -/
theorem State.carries_of_not_loaded
    {capacity : Nat}
    {state : State α}
    {thread : Nat}
    (notLoaded : (state.threads thread).pc.isLoaded = false) :
    state.Carries capacity thread := by
  constructor <;>
    · intros
      simp_all [Pc.isLoaded]

/-- A moved-out value stays so until its consumer stores the sequence. -/
theorem Step.movedOut
    {arithmetic : Arithmetic}
    {state next : State α}
    {thread ticket : Nat}
    {action : Action α}
    (step : Step arithmetic state thread action next)
    (moved : state.MovedOut ticket) :
    next.MovedOut ticket ∨
      ∃ caller,
        (state.threads thread).pc = .storeSequence caller ticket ∧
          caller.side = .consumer := by
  obtain ⟨other, caller, isAt, isConsumer⟩ := moved
  by_cases same : other = thread
  · subst same
    exact Or.inr ⟨caller, isAt, isConsumer⟩
  · left
    refine ⟨other, caller, ?_, isConsumer⟩
    rw [step.pc_other same]
    exact isAt

namespace Account

variable {capacity : Nat} {state : State α}

/-- The constructor has nothing to account for. -/
theorem initial
    [Inhabited α]
    (arithmetic : Arithmetic) :
    Account capacity (initial arithmetic : State α) where
  stored := by
    intro ticket phase
    simp [Mpmc.initial, stage, turn] at phase
  carried := by
    intro thread
    simp [State.Carries, Mpmc.initial]
  delivered := by
    rintro call op tickets out ⟨thread, invoked, _⟩
    simp [Mpmc.initial] at invoked

/-- Only the holder of a slot changes its value. -/
theorem valueAt_of_other
    (inv : Inv capacity state)
    {thread other : Nat}
    {action : Action α}
    {next : State α}
    (step :
      Step (Arithmetic.exact capacity) state thread action next)
    (different : other ≠ thread)
    {ticket : Ticket}
    (isHeld : (state.threads other).pc.holding = some ticket) :
    next.valueAt capacity ticket.number =
      state.valueAt capacity ticket.number := by
  by_contra changed
  obtain ⟨caller, moved, isAt, sameSlot⟩ :=
    step.moveValue_of_value_ne changed
  have isHeld' :
      state.ring.holder thread = some ⟨caller.side, moved⟩ := by
    simp [isAt]
  exact different
    (inv.balanced.one_holder_per_slot isHeld isHeld' sameSlot.symm)

/-- A thread that a step does not move still carries its value. -/
theorem carries_other
    (account : Account capacity state)
    (inv : Inv capacity state)
    {thread other : Nat}
    {action : Action α}
    {next : State α}
    (step :
      Step (Arithmetic.exact capacity) state thread action next)
    (different : other ≠ thread) :
    next.Carries capacity other := by
  have kept := Tracked.history_subset step
  obtain ⟨handed, returned⟩ := account.carried other
  constructor
  · intro caller ticket isAt
    rw [step.pc_other different] at isAt
    have isHeld :
        (state.threads other).pc.holding = some ⟨caller.side, ticket⟩ := by
      simp [isAt]
    have sameValue := valueAt_of_other inv step different isHeld
    simp only at sameValue
    rw [sameValue]
    exact (handed isAt).mono kept
  · intro out isAt
    rw [step.pc_other different] at isAt
    obtain ⟨call, op, ticket, isCurrent, pushed⟩ := returned isAt
    rw [Tracked.current_other step different]
    exact ⟨call, op, ticket, isCurrent, pushed.mono kept⟩

/-- A move hands over the value that the ticket stands for. -/
theorem pushed_of_move
    (account : Account capacity state)
    (inv : Inv capacity state)
    (tracked : Tracked capacity state)
    {thread ticket : Nat}
    {caller : Caller α}
    (isAt : (state.threads thread).pc = .moveValue caller ticket)
    (husk : α) :
    Pushed state.log ticket
      ((caller.transfer (state.valueAt capacity ticket) husk).1.handed
        (caller.transfer (state.valueAt capacity ticket) husk).2) := by
  have agrees := tracked.agrees thread
  rw [isAt] at agrees
  obtain ⟨call, isCurrent⟩ := agrees
  have isHeld :
      state.ring.holder thread = some ⟨caller.side, ticket⟩ := by
    simp [isAt]
  cases isSide : caller.side with
  | producer =>
      have marks := tracked.wellFormed.currentMarks isCurrent
      refine ⟨thread, call, caller.op,
        tracked.wellFormed.currentInvoked isCurrent,
        CallLog.mem_marksOf.mp ?_,
        Caller.argument_of_producer isSide _ _⟩
      simp only at marks
      simp [marks, isSide]
  | consumer =>
      rw [Caller.handed_of_consumer isSide]
      have phase := (inv.balanced.held isHeld).2
      rw [isSide] at phase
      refine account.stored phase ?_
      rintro ⟨other, caller', isAt', isConsumer⟩
      have isHeld' :
          state.ring.holder other = some ⟨caller.side, ticket⟩ := by
        simp [isAt', isConsumer, isSide]
      have same := inv.balanced.unique isHeld isHeld'
      subst same
      rw [isAt] at isAt'
      cases isAt'

/-- The moving thread carries its value after the step. -/
theorem carries_self
    (account : Account capacity state)
    (inv : Inv capacity state)
    (tracked : Tracked capacity state)
    {thread : Nat}
    {action : Action α}
    {next : State α}
    (step :
      Step (Arithmetic.exact capacity) state thread action next) :
    next.Carries capacity thread := by
  cases step with
  | moveValue isAt =>
      rename_i caller ticket husk
      have pushed := account.pushed_of_move inv tracked isAt husk
      constructor
      · intro caller' ticket' isAt'
        simp only [State.pc_goto, if_true, Pc.storeSequence.injEq] at isAt'
        obtain ⟨rfl, rfl⟩ := isAt'
        simpa [State.valueAt, Arithmetic.exact] using pushed
      · intro out isAt'
        simp at isAt'
  | storeSequence isAt =>
      rename_i caller ticket
      have agrees := tracked.agrees thread
      rw [isAt] at agrees
      obtain ⟨call, op, isCurrent, _⟩ := agrees
      have pushed := (account.carried thread).1 isAt
      constructor
      · intro caller' ticket' isAt'
        cases caller <;> simp [Caller.afterSuccess] at isAt'
      · intro out isAt'
        simp only [State.pc_goto, if_true] at isAt'
        obtain ⟨isConsumer, handed⟩ :=
          Caller.afterSuccess_eq_popped (state.valueAt capacity ticket)
            isAt'
        rw [handed] at pushed
        rw [isConsumer] at isCurrent
        exact ⟨call, op, ticket, isCurrent, pushed⟩
  | invoke isAt starts =>
      refine State.carries_of_not_loaded ?_
      simpa using Pc.isLoaded_start? starts
  | checkClosed | loadSequence =>
      refine State.carries_of_not_loaded ?_
      simp
  | _ =>
      refine State.carries_of_not_loaded ?_
      simp [Pc.isLoaded]

/-- A published slot keeps the value of its ticket until it is moved out. -/
theorem stored_step
    (account : Account capacity state)
    (inv : Inv capacity state)
    {thread : Nat}
    {action : Action α}
    {next : State α}
    (step :
      Step (Arithmetic.exact capacity) state thread action next)
    {ticket : Nat}
    (phase :
      (next.slots (ticket % capacity)).sequence.newest =
        stage capacity ⟨.consumer, ticket⟩)
    (notMoved : ¬ next.MovedOut ticket) :
    Pushed next.log ticket (next.valueAt capacity ticket) := by
  have kept := Tracked.history_subset step
  have stillThere :
      (∀ caller,
        (state.threads thread).pc = .storeSequence caller ticket →
          caller.side = .producer) →
      ¬ state.MovedOut ticket := by
    intro notConsumer moved
    rcases step.movedOut moved with after | ⟨caller, isAt, isConsumer⟩
    · exact notMoved after
    · rw [notConsumer caller isAt] at isConsumer
      cases isConsumer
  cases step with
  | moveValue isAt =>
      rename_i caller moving husk
      have isHeld :
          state.ring.holder thread = some ⟨caller.side, moving⟩ := by
        simp [isAt]
      have heldPhase := (inv.balanced.held isHeld).2
      simp only [State.slots_goto, State.sequence_setValue] at phase
      have otherSlot : ticket % capacity ≠ moving % capacity := by
        intro sameSlot
        have same :
            Ticket.mk .consumer ticket = ⟨caller.side, moving⟩ := by
          refine eq_of_stage_eq sameSlot ?_
          rw [← phase, ← heldPhase, sameSlot]
          rfl
        simp only [Ticket.mk.injEq] at same
        obtain ⟨isConsumer, rfl⟩ := same
        refine notMoved ⟨thread, _, State.pc_goto .. |>.trans (if_pos rfl), ?_⟩
        simp [isConsumer]
      have pushed :=
        account.stored phase (stillThere (by simp [isAt]))
      refine Pushed.mono kept ?_
      simpa [State.valueAt, Arithmetic.exact, otherSlot] using pushed
  | storeSequence isAt =>
      rename_i caller storing
      have heldPhase := inv.phase_of_storeSequence isAt
      simp only [State.slots_goto, State.sequence_storeSequence] at phase
      split at phase
      · rename_i sameSlot
        rw [Atomic.newest_store, stage_consumer] at phase
        have sameStage :
            stage capacity ⟨caller.side, storing⟩ =
              stage capacity ⟨.producer, ticket⟩ := by
          rw [← heldPhase]
          exact Nat.succ_inj.mp phase
        have same : Ticket.mk caller.side storing = ⟨.producer, ticket⟩ :=
          eq_of_stage_eq sameSlot.symm sameStage
        simp only [Ticket.mk.injEq] at same
        obtain ⟨isProducer, rfl⟩ := same
        have pushed := (account.carried thread).1 isAt
        rw [Caller.handed_of_producer isProducer] at pushed
        refine Pushed.mono kept ?_
        simpa [State.valueAt] using pushed
      · rename_i otherSlot
        have pushed :=
          account.stored phase (stillThere (by
            intro caller' isAt'
            rw [isAt] at isAt'
            cases isAt'
            exact (otherSlot rfl).elim))
        refine Pushed.mono kept ?_
        simpa [State.valueAt] using pushed
  | _ =>
      refine Pushed.mono kept ?_
      have pushed :=
        account.stored (by simpa using phase) (stillThere (by simp_all))
      simpa [State.valueAt] using pushed

/-- Every step keeps the account. -/
theorem step
    (account : Account capacity state)
    (inv : Inv capacity state)
    (tracked : Tracked capacity state)
    {thread : Nat}
    {action : Action α}
    {next : State α}
    (step :
      Step (Arithmetic.exact capacity) state thread action next) :
    Account capacity next where
  stored := account.stored_step inv step
  carried := by
    intro other
    by_cases same : other = thread
    · subst same
      exact account.carries_self inv tracked step
    · exact account.carries_other inv step same
  delivered := by
    intro call op tickets out completed
    have kept := Tracked.history_subset step
    rcases tracked.completed_step step completed with
      old | ⟨isAt, isCurrent⟩
    · obtain ⟨ticket, shape, pushed⟩ := account.delivered old
      exact ⟨ticket, shape, pushed.mono kept⟩
    · obtain ⟨_, _, ticket, isCurrent', pushed⟩ :=
        (account.carried thread).2 isAt
      rw [isCurrent] at isCurrent'
      cases isCurrent'
      exact ⟨ticket, rfl, pushed.mono kept⟩

/-- The account is right in every reachable state. -/
theorem of_run
    [Inhabited α]
    (positive : 0 < capacity)
    {guard : StepGuard (State α) (Label α)}
    {labels : List (Label α)}
    (run :
      Run (step? (Arithmetic.exact capacity)) guard
        (Mpmc.initial (Arithmetic.exact capacity)) labels state) :
    Account capacity state :=
  run.invariant_of
    (fun earlier =>
      And.intro (Inv.of_run positive earlier)
        (Tracked.of_run positive earlier))
    (Account.initial _)
    fun known _ account _ taken =>
      account.step known.1 known.2 (Step.of_step? taken)

end Account

/-- What the queue promises of the values it hands over. -/
structure FifoDelivery (capacity : Nat) (state : State α) : Prop where
  drawnOnce :
    ∀ {call call' ticket},
      .mark call ticket ∈ state.log.history →
      .mark call' ticket ∈ state.log.history →
      call = call'
  accepted :
    ∀ {call op tickets},
      state.log.Completed call op tickets (.pushed true) →
      ∃ ticket, tickets = [⟨.producer, ticket⟩]
  /-- A push that returned `false` drew no ticket. -/
  refused :
    ∀ {call op tickets},
      state.log.Completed call op tickets (.pushed false) →
      tickets = []
  /-- A pop delivers the argument of the push that drew the same ticket. -/
  delivered :
    ∀ {call op tickets out},
      state.log.Completed call op tickets (.popped true out) →
      ∃ ticket,
        tickets = [⟨.consumer, ticket⟩] ∧ Pushed state.log ticket out
  /-- A pop that returned `false` drew no ticket and left `out` alone. -/
  missed :
    ∀ {call op tickets out},
      state.log.Completed call op tickets (.popped false out) →
      tickets = [] ∧ (op = .pop out ∨ op = .tryPop out)
  /-- At rest the tickets between the counters are the undelivered ones. -/
  queued :
    state.log.Quiescent →
    ∀ ticket,
      state.dequeuePos.latest ≤ ticket ∧
          ticket < state.enqueuePos.latest ↔
        (∃ call op,
          state.log.Completed call op [⟨.producer, ticket⟩]
            (.pushed true)) ∧
        ¬ ∃ call op out,
          state.log.Completed call op [⟨.consumer, ticket⟩]
            (.popped true out)
  /-- At rest the slot of a queued ticket holds what was pushed under it. -/
  held :
    state.log.Quiescent →
    ∀ {ticket},
      state.dequeuePos.latest ≤ ticket →
      ticket < state.enqueuePos.latest →
      ∃ call op,
        state.log.Completed call op [⟨.producer, ticket⟩]
            (.pushed true) ∧
          op.argument? = some (state.valueAt capacity ticket)
  /-- A value pushed after another was accepted is not delivered before it. -/
  realTime :
    ∀ {pusher pusher' first second op earlier later popLater},
      Before (.respond pusher first (.pushed true))
        (.invoke pusher' second op) state.log.history →
      .mark first ⟨.producer, earlier⟩ ∈ state.log.history →
      .mark second ⟨.producer, later⟩ ∈ state.log.history →
      .mark popLater ⟨.consumer, later⟩ ∈ state.log.history →
      (∃ popEarlier,
        .mark popEarlier ⟨.consumer, earlier⟩ ∈ state.log.history) ∧
      ∀ {popEarlier popper popper' result op'},
        .mark popEarlier ⟨.consumer, earlier⟩ ∈ state.log.history →
        ¬ Before (.respond popper popLater result)
          (.invoke popper' popEarlier op') state.log.history

namespace Tracked

variable {capacity : Nat} {state : State α}

/-- Calls that do not overlap draw their tickets in order. -/
theorem number_lt_of_before
    (tracked : Tracked capacity state)
    {thread thread' call call' number number' : Nat}
    {result : Result α}
    {op : Op α}
    {side : Side}
    (before :
      Before (.respond thread call result) (.invoke thread' call' op)
        state.log.history)
    (marked : .mark call ⟨side, number⟩ ∈ state.log.history)
    (marked' : .mark call' ⟨side, number'⟩ ∈ state.log.history) :
    number < number' := by
  have ordered := tracked.wellFormed.realTime before marked marked'
  have extracted :
      Before number number'
        (state.log.history.filterMap (drawnOn? side)) :=
    ordered.extract (by simp [drawnOn?]) (by simp [drawnOn?])
  rw [tracked.drawn] at extracted
  exact extracted.lt_of_range

/--
While no call of its side is in progress, every drawn ticket belongs to a call
that succeeded.
-/
theorem completed_of_drawn
    (tracked : Tracked capacity state)
    (ticket : Ticket)
    (noneOpen :
      ∀ {thread opened},
        state.log.current thread = some opened →
          sideOf? opened.op ≠ some ticket.side)
    (isDrawn : ticket.number < (state.pos ticket.side).newest) :
    ∃ call op result,
      state.log.Completed call op [ticket] result ∧
        match ticket.side with
        | .producer => result = .pushed true
        | .consumer => ∃ out, result = .popped true out := by
  obtain ⟨call, marked⟩ := tracked.exists_drawer isDrawn
  have notOpen :
      ∀ {thread opened},
        state.log.current thread = some opened → opened.call ≠ call := by
    rintro thread opened isCurrent rfl
    have member : ticket ∈ opened.marks := by
      rw [← tracked.wellFormed.currentMarks isCurrent]
      exact CallLog.mem_marksOf.mpr marked
    have agrees := tracked.agrees thread
    rw [isCurrent] at agrees
    exact noneOpen isCurrent (sideOf?_of_drawn agrees member)
  obtain ⟨op, tickets, result, completed, member⟩ :=
    tracked.wellFormed.completed_of_mark notOpen marked
  obtain ⟨_, rfl, success⟩ :=
    (tracked.answered completed).of_mem member
  exact ⟨call, op, result, completed, success⟩

/-- The ticket of a completed call is marked in the history. -/
theorem mark_of_completed
    {call : Nat}
    {op : Op α}
    {ticket : Ticket}
    {result : Result α}
    (completed : state.log.Completed call op [ticket] result) :
    .mark call ticket ∈ state.log.history := by
  obtain ⟨_, _, _, marks⟩ := completed
  refine CallLog.mem_marksOf.mp ?_
  simp [marks]

/-- At rest no thread holds a ticket. -/
theorem not_held_of_quiescent
    (tracked : Tracked capacity state)
    (quiescent : state.log.Quiescent)
    (thread : Nat) :
    (state.threads thread).pc = .idle := by
  have agrees := tracked.agrees thread
  rw [quiescent thread] at agrees
  exact eq_idle_of_agrees agrees

end Tracked

/-- At rest the slot of a queued ticket holds the value pushed under it. -/
theorem Account.pushed_of_queued
    {capacity : Nat}
    {state : State α}
    (account : Account capacity state)
    (inv : Inv capacity state)
    (tracked : Tracked capacity state)
    (quiescent : state.log.Quiescent)
    {ticket : Nat}
    (undelivered : state.dequeuePos.newest ≤ ticket)
    (isAccepted : ticket < state.enqueuePos.newest) :
    Pushed state.log ticket (state.valueAt capacity ticket) := by
  have isIdle := tracked.not_held_of_quiescent quiescent
  have done : Done capacity state.ring ⟨.producer, ticket⟩ := by
    refine inv.balanced.done_of_not_held isAccepted ?_
    intro thread
    simp [isIdle thread]
  have notBeyond :
      state.ring.phase (slotOf capacity ⟨.consumer, ticket⟩) ≤
        stage capacity ⟨.consumer, ticket⟩ :=
    inv.balanced.phase_le_of_undrawn undelivered
  refine account.stored (Nat.le_antisymm notBeyond ?_) ?_
  · rw [stage_consumer]
    exact done
  · rintro ⟨thread, caller, isAt, _⟩
    simp [isIdle thread] at isAt

/--
`MpmcQueue` loses, duplicates and reorders nothing, whatever the threads, the
interleaving and the staleness of their loads.
-/
theorem fifo_delivery
    [Inhabited α]
    {capacity : Nat}
    (positive : 0 < capacity)
    {labels : List (Label α)}
    {state : State α}
    (run :
      Run (step? (Arithmetic.exact capacity)) unrestricted
        (initial (Arithmetic.exact capacity)) labels state) :
    FifoDelivery capacity state := by
  have inv := Inv.of_run positive run
  have tracked := Tracked.of_run positive run
  have account := Account.of_run positive run
  have tail : state.enqueuePos.latest = state.enqueuePos.newest :=
    inv.latest_pos .producer
  have head : state.dequeuePos.latest = state.dequeuePos.newest :=
    inv.latest_pos .consumer
  have completedPush :
      state.log.Quiescent →
      ∀ {ticket},
        ticket < state.enqueuePos.newest →
        ∃ call op,
          state.log.Completed call op [⟨.producer, ticket⟩]
            (.pushed true) := by
    intro quiescent ticket isDrawn
    obtain ⟨call, op, result, completed, rfl⟩ :=
      tracked.completed_of_drawn ⟨.producer, ticket⟩
        (by simp [quiescent _]) isDrawn
    exact ⟨call, op, completed⟩
  exact {
    drawnOnce := tracked.drawer_unique
    accepted := fun completed => (tracked.answered completed).2
    refused := fun completed => (tracked.answered completed).2
    delivered := account.delivered
    missed := fun completed => (tracked.answered completed).symm
    queued := by
      intro quiescent ticket
      rw [tail, head]
      constructor
      · rintro ⟨undelivered, isDrawn⟩
        refine ⟨completedPush quiescent isDrawn, ?_⟩
        rintro ⟨call, op, out, completed⟩
        have drawn :=
          tracked.lt_newest_of_mark (Tracked.mark_of_completed completed)
        simp only [State.pos] at drawn
        omega
      · rintro ⟨⟨call, op, completed⟩, undelivered⟩
        have drawn :=
          tracked.lt_newest_of_mark (Tracked.mark_of_completed completed)
        refine ⟨?_, drawn⟩
        by_contra delivered
        obtain ⟨popCall, popOp, result, popped, out, rfl⟩ :=
          tracked.completed_of_drawn ⟨.consumer, ticket⟩
            (by simp [quiescent _]) (Nat.lt_of_not_le delivered)
        exact undelivered ⟨popCall, popOp, out, popped⟩
    held := by
      intro quiescent ticket undelivered isDrawn
      rw [head] at undelivered
      rw [tail] at isDrawn
      obtain ⟨call, op, completed⟩ := completedPush quiescent isDrawn
      obtain ⟨thread, call', op', invoked, marked, argument⟩ :=
        account.pushed_of_queued inv tracked quiescent undelivered isDrawn
      have same :=
        tracked.drawer_unique
          (Tracked.mark_of_completed completed) marked
      subst same
      refine ⟨call, op, completed, ?_⟩
      obtain ⟨_, invoked', _⟩ := completed
      rw [(tracked.wellFormed.invokeUnique invoked' invoked).2]
      exact argument
    realTime := by
      intro pusher pusher' first second op earlier later popLater before
        firstMarked secondMarked laterMarked
      have ordered :=
        tracked.number_lt_of_before before firstMarked secondMarked
      have laterDrawn := tracked.lt_newest_of_mark laterMarked
      constructor
      · exact tracked.exists_drawer (Nat.lt_trans ordered laterDrawn)
      · intro popEarlier popper popper' result op' earlierMarked reversed
        have contrary :=
          tracked.number_lt_of_before reversed laterMarked earlierMarked
        omega }

/--
Thread `0` pushes two elements, the second from a stale ticket, thread `1` pops
both, and thread `0` pushes a third, which stays in the ring.
-/
def inOrderSchedule : List (Label Nat) :=
  [⟨0, .invoke (.push 7)⟩, ⟨1, .invoke (.pop 5)⟩, ⟨0, .load 0⟩,
    ⟨0, .load 0⟩, ⟨0, .load 0⟩, ⟨0, .exchange none⟩, ⟨0, .move 0⟩,
    ⟨0, .store⟩, ⟨0, .respond⟩, ⟨0, .invoke (.push 8)⟩, ⟨0, .load 0⟩,
    ⟨0, .load 0⟩, ⟨0, .load 1⟩, ⟨0, .load 1⟩, ⟨0, .load 0⟩,
    ⟨0, .exchange none⟩, ⟨0, .move 0⟩, ⟨0, .store⟩, ⟨0, .respond⟩,
    ⟨1, .load 0⟩, ⟨1, .load 1⟩, ⟨1, .exchange none⟩, ⟨1, .move 0⟩,
    ⟨1, .store⟩, ⟨1, .respond⟩, ⟨1, .invoke (.pop 5)⟩, ⟨1, .load 1⟩,
    ⟨1, .load 1⟩, ⟨1, .exchange none⟩, ⟨1, .move 0⟩, ⟨1, .store⟩,
    ⟨1, .respond⟩, ⟨0, .invoke (.push 9)⟩, ⟨0, .load 0⟩, ⟨0, .load 2⟩,
    ⟨0, .load 2⟩, ⟨0, .exchange none⟩, ⟨0, .move 0⟩, ⟨0, .store⟩,
    ⟨0, .respond⟩]

theorem fifo_delivery_hand_off :
    ∃ state,
      replay? (step? (Arithmetic.exact 2)) unrestricted
          (initial (Arithmetic.exact 2)) inOrderSchedule = some state ∧
        FifoDelivery 2 state ∧
        Before (.respond 1 1 (.popped true 7)) (.respond 1 3 (.popped true 8))
          state.log.history ∧
        (∃ popEarlier,
          .mark popEarlier ⟨.consumer, 0⟩ ∈ state.log.history ∧
            ∀ {popper popper' result op},
              ¬ Before (.respond popper 3 result)
                (.invoke popper' popEarlier op) state.log.history) ∧
        (∃ call op,
          state.log.Completed call op [⟨.producer, 2⟩] (.pushed true) ∧
            op.argument? = some 9) ∧
        ¬ ∃ call op out,
          state.log.Completed call op [⟨.consumer, 2⟩]
            (.popped true out) := by
  have replayed :
      ∃ state,
        replay? (step? (Arithmetic.exact 2)) unrestricted
            (initial (Arithmetic.exact 2)) inOrderSchedule = some state ∧
          state.log.Quiescent ∧
          state.dequeuePos.latest = 2 ∧
          state.enqueuePos.latest = 3 ∧
          state.valueAt 2 2 = 9 ∧
          Before (.respond 1 1 (.popped true 7))
            (.respond 1 3 (.popped true 8)) state.log.history ∧
          Before (.respond 0 0 (.pushed true))
            (.invoke 0 2 (.push 8)) state.log.history ∧
          .mark 0 ⟨.producer, 0⟩ ∈ state.log.history ∧
          .mark 2 ⟨.producer, 1⟩ ∈ state.log.history ∧
          .mark 3 ⟨.consumer, 1⟩ ∈ state.log.history :=
    ⟨_, rfl,
      fun
      | 0 | 1 => rfl
      | _ + 2 => rfl,
      rfl, rfl, rfl, by decide, by decide, by decide, by decide,
      by decide⟩
  obtain ⟨state, accepted, quiescent, head, tail, value, popsInOrder,
    pushesInOrder, first, second, popped⟩ := replayed
  have delivers : FifoDelivery 2 state :=
    fifo_delivery (by decide) (Run.of_replay? accepted)
  obtain ⟨⟨popEarlier, delivered⟩, notOvertaken⟩ :=
    delivers.realTime pushesInOrder first second popped
  have undelivered : state.dequeuePos.latest ≤ 2 := by
    rw [head]
  have isAccepted : 2 < state.enqueuePos.latest := by
    rw [tail]
    decide
  obtain ⟨call, op, completed, argument⟩ :=
    delivers.held quiescent undelivered isAccepted
  rw [value] at argument
  exact ⟨state, accepted, delivers, popsInOrder,
    ⟨popEarlier, delivered, notOvertaken delivered⟩,
    ⟨call, op, completed, argument⟩,
    ((delivers.queued quiescent 2).mp ⟨undelivered, isAccepted⟩).2⟩

end ConcurrentQueue.Mpmc
