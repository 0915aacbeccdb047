import ConcurrentQueue.Library.FifoTransfers
import ConcurrentQueue.Mpmc.Values
import Mathlib.Data.List.Forall2

namespace ConcurrentQueue.Mpmc

/-!
# The winning exchanges linearize `MpmcQueue`

Whatever the loads return, the calls that succeed take effect in the order of
their winning exchanges: each is an append or a removal of one FIFO list that
never holds more than the capacity.  The list is ahead of the ring: it has the
value of a producer whose ticket is drawn and whose slot is not yet written.
-/

open TicketRing

variable {α : Type}

/-- The transfer made by drawing a ticket. -/
def StandsFor
    (log : CallLog Nat (Op α) Ticket (Result α))
    (ticket : Ticket) :
    Transfer α → Prop
  | .appended value =>
      ticket.side = .producer ∧ Pushed log ticket.number value
  | .removed value =>
      ticket.side = .consumer ∧ Pushed log ticket.number value

/-- What a ticket stands for does not change. -/
theorem StandsFor.mono
    {log later : CallLog Nat (Op α) Ticket (Result α)}
    {ticket : Ticket}
    {transfer : Transfer α}
    (kept : log.history ⊆ later.history)
    (stands : StandsFor log ticket transfer) :
    StandsFor later ticket transfer := by
  cases transfer with
  | appended | removed => exact ⟨stands.1, stands.2.mono kept⟩

/-- A call of the producer side has an argument. -/
theorem exists_argument
    {op : Op α}
    (isProducer : sideOf? op = some .producer) :
    ∃ value, op.argument? = some value := by
  cases op <;> simp_all [sideOf?, Op.argument?]

/-- One value is pushed under a ticket. -/
theorem Tracked.pushed_unique
    {capacity : Nat}
    {state : State α}
    (tracked : Tracked capacity state)
    {ticket : Nat}
    {value other : α}
    (pushed : Pushed state.log ticket value)
    (pushed' : Pushed state.log ticket other) :
    value = other := by
  obtain ⟨thread, call, op, invoked, marked, argument⟩ := pushed
  obtain ⟨thread', call', op', invoked', marked', argument'⟩ := pushed'
  have sameCall := tracked.drawer_unique marked marked'
  subst sameCall
  have sameOp := (tracked.wellFormed.invokeUnique invoked invoked').2
  rw [sameOp, argument'] at argument
  exact (Option.some.inj argument).symm

/-- The tickets drawn so far, read as transfers of a list of queued values. -/
structure Ledger
    (capacity : Nat)
    (state : State α)
    (transfers : List (Transfer α))
    (fifo : BoundedFifo capacity α) : Prop where
  admitted : Admitted transfers fifo
  explained :
    List.Forall₂ (StandsFor state.log) state.log.marks transfers
  queued :
    List.Forall₂ (Pushed state.log)
      (List.range' (state.pos .consumer).newest
        ((state.pos .producer).newest - (state.pos .consumer).newest))
      fifo.items

namespace Ledger

variable {capacity : Nat} {state : State α}
variable {transfers : List (Transfer α)} {fifo : BoundedFifo capacity α}

/-- As many values are queued as tickets lie between the counters. -/
theorem length_items (ledger : Ledger capacity state transfers fifo) :
    fifo.items.length =
      (state.pos .producer).newest - (state.pos .consumer).newest := by
  rw [← ledger.queued.length_eq, List.length_range']

/-- A step that draws no ticket leaves the list as it is. -/
theorem stutter
    (ledger : Ledger capacity state transfers fifo)
    {next : State α}
    (kept : state.log.history ⊆ next.log.history)
    (sameMarks : next.log.marks = state.log.marks)
    (samePos : ∀ side, next.pos side = state.pos side) :
    Ledger capacity next transfers fifo where
  admitted := ledger.admitted
  explained := by
    rw [sameMarks]
    exact ledger.explained.imp fun _ _ stands => stands.mono kept
  queued := by
    rw [samePos, samePos]
    exact ledger.queued.imp fun _ _ pushed => pushed.mono kept

/-- A producer's winning exchange appends its argument. -/
theorem draw_producer
    (ledger : Ledger capacity state transfers fifo)
    (before : Inv capacity state)
    {next : State α}
    (after : Inv capacity next)
    (kept : state.log.history ⊆ next.log.history)
    (marked :
      next.log.marks =
        state.log.marks ++ [⟨.producer, (state.pos .producer).newest⟩])
    (tail : (next.pos .producer).newest = (state.pos .producer).newest + 1)
    (sameHead : (next.pos .consumer).newest = (state.pos .consumer).newest)
    {value : α}
    (pushed : Pushed next.log (state.pos .producer).newest value) :
    ∃ appended : BoundedFifo capacity α,
      Ledger capacity next (transfers ++ [.appended value]) appended := by
  have behind : (state.pos .consumer).newest ≤ (state.pos .producer).newest :=
    before.balanced.consumerBehind
  have within :
      (next.pos .producer).newest ≤ (next.pos .consumer).newest + capacity :=
    after.balanced.withinRing
  have length := ledger.length_items
  obtain ⟨appended, admitted, grown⟩ :=
    ledger.admitted.append (by omega) value
  refine ⟨appended, admitted, ?_, ?_⟩
  · rw [marked]
    apply List.rel_append
    · exact ledger.explained.imp fun _ _ stands => stands.mono kept
    · exact .cons ⟨rfl, pushed⟩ .nil
  · have oneMore :
        (next.pos .producer).newest - (next.pos .consumer).newest =
          (state.pos .producer).newest - (state.pos .consumer).newest + 1 := by
      omega
    have last :
        (state.pos .consumer).newest +
            ((state.pos .producer).newest - (state.pos .consumer).newest) =
          (state.pos .producer).newest := by
      omega
    rw [grown, oneMore, sameHead, List.range'_1_concat, last]
    apply List.rel_append
    · exact ledger.queued.imp fun _ _ pushed => pushed.mono kept
    · exact .cons pushed .nil

/-- A consumer's winning exchange removes the oldest value. -/
theorem draw_consumer
    (ledger : Ledger capacity state transfers fifo)
    {next : State α}
    (after : Inv capacity next)
    (kept : state.log.history ⊆ next.log.history)
    (marked :
      next.log.marks =
        state.log.marks ++ [⟨.consumer, (state.pos .consumer).newest⟩])
    (sameTail : (next.pos .producer).newest = (state.pos .producer).newest)
    (head : (next.pos .consumer).newest = (state.pos .consumer).newest + 1) :
    ∃ value, ∃ removed : BoundedFifo capacity α,
      Ledger capacity next (transfers ++ [.removed value]) removed := by
  have behind : (next.pos .consumer).newest ≤ (next.pos .producer).newest :=
    after.balanced.consumerBehind
  have oneLess :
      (state.pos .producer).newest - (state.pos .consumer).newest =
        (next.pos .producer).newest - (next.pos .consumer).newest + 1 := by
    omega
  have queued := ledger.queued
  rw [oneLess, List.range'_succ] at queued
  obtain ⟨value, rest, pushed, others, shape⟩ :=
    List.forall₂_cons_left_iff.mp queued
  obtain ⟨removed, admitted, left⟩ := ledger.admitted.remove shape
  refine ⟨value, removed, admitted, ?_, ?_⟩
  · rw [marked]
    apply List.rel_append
    · exact ledger.explained.imp fun _ _ stands => stands.mono kept
    · exact .cons ⟨rfl, pushed.mono kept⟩ .nil
  · rw [left, head]
    rw [head] at others
    exact others.imp fun _ _ pushed => pushed.mono kept

/-- The value a producer claims a ticket for is its argument. -/
theorem pushed_of_claim
    (tracked : Tracked capacity state)
    {thread : Nat}
    {caller : Caller α}
    {ticket : Nat}
    (isAt : (state.threads thread).pc = .exchange caller ticket)
    (isProducer : caller.side = .producer) :
    ∃ value,
      Pushed (state.log.mark thread ⟨.producer, ticket⟩) ticket value := by
  obtain ⟨call, isCurrent⟩ := tracked.current_of_exchange isAt
  have invoked := tracked.wellFormed.currentInvoked isCurrent
  obtain ⟨value, isArgument⟩ :=
    exists_argument (by rw [sideOf?_op, isProducer])
  refine ⟨value, thread, call, caller.op, ?_, ?_, isArgument⟩
  · exact (state.log.history_sublist_mark thread _).subset invoked
  · simp [state.log.mark_of_current isCurrent]

/-- Every step keeps a ledger. -/
theorem step
    (ledger : Ledger capacity state transfers fifo)
    (before : Inv capacity state)
    (tracked : Tracked capacity state)
    {thread : Nat}
    {action : Action α}
    {next : State α}
    (after : Inv capacity next)
    (step :
      Step (Arithmetic.exact capacity) state thread action next) :
    ∃ later, ∃ left : BoundedFifo capacity α,
      Ledger capacity next later left := by
  have kept := Tracked.history_subset step
  cases step with
  | claim isAt current =>
      rename_i caller ticket
      have isNewest := current
      rw [before.latest_pos] at isNewest
      obtain ⟨call, isCurrent⟩ := tracked.current_of_exchange isAt
      have marked :=
        state.log.marks_mark isCurrent ⟨caller.side, ticket⟩
      cases isSide : caller.side with
      | producer =>
          rw [isSide] at isNewest marked kept after
          subst isNewest
          obtain ⟨value, pushed⟩ := pushed_of_claim tracked isAt isSide
          exact ⟨_, ledger.draw_producer before after kept
            (by simpa using marked) (by simp) (by simp)
            (by simpa using pushed)⟩
      | consumer =>
          rw [isSide] at isNewest marked kept after
          subst isNewest
          obtain ⟨value, removed, drawn⟩ :=
            ledger.draw_consumer after kept (by simpa using marked)
              (by simp) (by simp)
          exact ⟨_, removed, drawn⟩
  | _ =>
      exact ⟨transfers, fifo, ledger.stutter kept (by simp) (by simp)⟩

/-- The tickets of every run are the transfers of a bounded list. -/
theorem of_run
    [Inhabited α]
    (positive : 0 < capacity)
    {guard : StepGuard (State α) (Label α)}
    {labels : List (Label α)}
    (run :
      Run (step? (Arithmetic.exact capacity)) guard
        (Mpmc.initial (Arithmetic.exact capacity)) labels state) :
    ∃ transfers, ∃ fifo : BoundedFifo capacity α,
      Ledger capacity state transfers fifo := by
  induction run with
  | start =>
      exact ⟨[], BoundedFifo.empty, .start, .nil, .nil⟩
  | snoc earlier admitted taken inductionHypothesis =>
      obtain ⟨transfers, fifo, ledger⟩ := inductionHypothesis
      exact ledger.step (Inv.of_run positive earlier)
        (Tracked.of_run positive earlier)
        (Inv.of_run positive (earlier.snoc admitted taken))
        (Step.of_step? taken)

end Ledger

/-- What it means that the successful calls linearize. -/
structure SuccessesLinearize (capacity : Nat) (state : State α) : Prop where
  /-- The tickets, in the order drawn, are transfers of one bounded list. -/
  legal :
    ∃ transfers, ∃ fifo : BoundedFifo capacity α,
      Admitted transfers fifo ∧
        List.Forall₂ (StandsFor state.log) state.log.marks transfers ∧
        fifo.items.length + state.dequeuePos.latest =
          state.enqueuePos.latest
  /-- An accepted push appended its argument, and nothing else. -/
  accepted :
    ∀ {call op tickets},
      state.log.Completed call op tickets (.pushed true) →
      ∃ number value,
        tickets = [⟨.producer, number⟩] ∧ op.argument? = some value ∧
          ∀ transfer,
            StandsFor state.log ⟨.producer, number⟩ transfer ↔
              transfer = .appended value
  /-- A pop that delivered removed the value it returned. -/
  delivered :
    ∀ {call op tickets out},
      state.log.Completed call op tickets (.popped true out) →
      ∃ number,
        tickets = [⟨.consumer, number⟩] ∧
          ∀ transfer,
            StandsFor state.log ⟨.consumer, number⟩ transfer ↔
              transfer = .removed out
  /-- No other call has an effect. -/
  idle :
    ∀ {call op tickets result},
      state.log.Completed call op tickets result →
      result ≠ .pushed true →
      (∀ out, result ≠ .popped true out) →
      tickets = []
  /-- The effects of calls that do not overlap are in their order. -/
  realTime :
    ∀ {first second ticket ticket'},
      state.log.Precedes first second →
      .mark first ticket ∈ state.log.history →
      .mark second ticket' ∈ state.log.history →
      Before (.mark first ticket) (.mark second ticket') state.log.history

namespace Tracked

variable {capacity : Nat} {state : State α}

/-- A ticket whose value is known stands for one transfer. -/
theorem standsFor_iff
    (tracked : Tracked capacity state)
    (ticket : Ticket)
    {value : α}
    (pushed : Pushed state.log ticket.number value)
    (transfer : Transfer α) :
    StandsFor state.log ticket transfer ↔
      transfer =
        match ticket.side with
        | .producer => .appended value
        | .consumer => .removed value := by
  obtain ⟨side, number⟩ := ticket
  constructor
  · intro stands
    cases transfer with
    | appended other | removed other =>
        obtain ⟨isSide, pushed'⟩ := stands
        have same := tracked.pushed_unique pushed' pushed
        simp only at isSide
        subst isSide
        subst same
        rfl
  · rintro rfl
    cases side <;> exact ⟨rfl, pushed⟩

end Tracked

/--
The calls of `MpmcQueue` that succeed are linearizable as appends to and
removals from a FIFO list of its capacity, whatever the staleness of the loads
and wherever other threads are stalled.
-/
theorem successes_linearize
    [Inhabited α]
    {capacity : Nat}
    (positive : 0 < capacity)
    {labels : List (Label α)}
    {state : State α}
    (run :
      Run (step? (Arithmetic.exact capacity)) unrestricted
        (initial (Arithmetic.exact capacity)) labels state) :
    SuccessesLinearize capacity state := by
  have inv := Inv.of_run positive run
  have tracked := Tracked.of_run positive run
  have account := Account.of_run positive run
  have tail := inv.latest_pos .producer
  have head := inv.latest_pos .consumer
  have behind : state.dequeuePos.newest ≤ state.enqueuePos.newest :=
    inv.balanced.consumerBehind
  obtain ⟨transfers, fifo, ledger⟩ := Ledger.of_run positive run
  exact {
    legal := by
      refine ⟨transfers, fifo, ledger.admitted, ledger.explained, ?_⟩
      have length := ledger.length_items
      simp only [State.pos] at length tail head
      omega
    accepted := by
      intro call op tickets completed
      obtain ⟨isProducer, number, rfl⟩ := tracked.answered completed
      have marked := Tracked.mark_of_completed completed
      obtain ⟨thread, invoked, _⟩ := completed
      obtain ⟨value, isArgument⟩ := exists_argument isProducer
      have pushed : Pushed state.log number value :=
        ⟨thread, call, op, invoked, marked, isArgument⟩
      exact ⟨number, value, rfl, isArgument,
        tracked.standsFor_iff ⟨.producer, number⟩ pushed⟩
    delivered := by
      intro call op tickets out completed
      obtain ⟨number, rfl, pushed⟩ := account.delivered completed
      exact ⟨number, rfl,
        tracked.standsFor_iff ⟨.consumer, number⟩ pushed⟩
    idle := by
      intro call op tickets result completed notPushed notPopped
      have answers := tracked.answered completed
      cases result with
      | pushed accepted =>
          cases accepted with
          | true => exact (notPushed rfl).elim
          | false => exact answers.2
      | popped isDelivered out =>
          cases isDelivered with
          | true => exact (notPopped out rfl).elim
          | false => exact answers.2
      | done | closed | size | capacity => exact answers.2
      | pushedN | poppedN | pushThrew | popThrew => exact answers.elim
    realTime := tracked.wellFormed.before_of_precedes }

theorem successes_linearize_hand_off :
    ∃ state,
      replay? (step? (Arithmetic.exact 2)) unrestricted
          (initial (Arithmetic.exact 2)) inOrderSchedule = some state ∧
        SuccessesLinearize 2 state ∧
        (∀ transfer,
          StandsFor state.log ⟨.consumer, 1⟩ transfer ↔
            transfer = .removed 8) ∧
        ∃ transfers, ∃ fifo : BoundedFifo 2 Nat,
          Admitted transfers fifo ∧
            List.Forall₂ (StandsFor state.log) state.log.marks transfers ∧
            fifo.items.length = 1 := by
  have replayed :
      ∃ state,
        replay? (step? (Arithmetic.exact 2)) unrestricted
            (initial (Arithmetic.exact 2)) inOrderSchedule = some state ∧
          state.log.Completed 3 (.pop 5) [⟨.consumer, 1⟩]
            (.popped true 8) ∧
          state.dequeuePos.latest = 2 ∧
          state.enqueuePos.latest = 3 :=
    ⟨_, rfl, ⟨1, by decide, by decide, rfl⟩, rfl, rfl⟩
  obtain ⟨state, accepted, second, head, tail⟩ := replayed
  have linearizes : SuccessesLinearize 2 state :=
    successes_linearize (by decide) (Run.of_replay? accepted)
  obtain ⟨number, isTicket, stands⟩ := linearizes.delivered second
  obtain ⟨transfers, fifo, admitted, explained, length⟩ := linearizes.legal
  rw [head, tail] at length
  cases isTicket
  exact ⟨state, accepted, linearizes, stands, transfers, fifo, admitted,
    explained, by omega⟩

end ConcurrentQueue.Mpmc
