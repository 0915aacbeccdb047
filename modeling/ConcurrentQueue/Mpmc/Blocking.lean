import ConcurrentQueue.Mpmc.Fullness
import ConcurrentQueue.Mpmc.Refusals

namespace ConcurrentQueue.Mpmc

/-!
# When `push` and `pop` wait

Run alone among threads that hold no tickets, a blocking call returns after a
few steps unless the queue is open and full, or open and empty.  There it goes
round its loops for as long as nobody else moves.
-/

open TicketRing

variable {α : Type}

/-- No element is pushed and unclaimed. -/
def State.Empty (state : State α) : Prop :=
  (state.pos .producer).latest = (state.pos .consumer).latest

/-- There is nothing that a blocking call can do but wait for the others. -/
def State.Blocks (capacity : Nat) (state : State α) : Op α → Prop
  | .push _ => state.closed.latest = false ∧ state.Full capacity
  | .pop _ => state.closed.latest = false ∧ state.Empty
  | _ => False

/-- The caller that has not drawn a ticket yet. -/
def Pc.seeking : Pc α → Option (Caller α)
  | .checkClosed caller => some caller
  | .loadPos caller => some caller
  | .loadSequence caller _ => some caller
  | .exchange caller _ => some caller
  | .reloadPos caller _ => some caller
  | _ => none

section Waiting

variable {capacity thread : Nat} {action : Action α}
variable {state next : State α} {opened : OpenCall (Op α) Ticket}

/-- What blocks is seen in the counters and the flag only. -/
theorem State.Blocks.of_same
    {op : Op α}
    (blocks : state.Blocks capacity op)
    (samePos : ∀ side, next.pos side = state.pos side)
    (sameClosed : next.closed = state.closed) :
    next.Blocks capacity op := by
  cases op with
  | push | pop =>
      simpa only [Blocks, Full, Empty, samePos, sameClosed] using blocks
  | _ => exact blocks.elim

/-- A thread about to win a ticket has room for it. -/
theorem Inv.not_blocks_of_claim
    (positive : 0 < capacity)
    (inv : Inv capacity state)
    {caller : Caller α}
    {ticket : Nat}
    (isAt : (state.threads thread).pc = .exchange caller ticket)
    (current : (state.pos caller.side).latest = ticket) :
    ¬ state.Blocks capacity caller.op := by
  have inPhase := inv.phase_of_claim isAt current
  rw [inv.latest_pos] at current
  subst current
  cases caller with
  | push value =>
      rintro ⟨_, isFull⟩
      have room :=
        inv.balanced.producer_room positive (Nat.le_of_eq inPhase.symm)
      unfold State.Full at isFull
      rw [inv.latest_pos, inv.latest_pos] at isFull
      exact absurd isFull (Nat.ne_of_lt room)
  | pop out seen =>
      rintro ⟨_, isEmpty⟩
      have room := inv.balanced.consumer_room (Nat.le_of_eq inPhase.symm)
      unfold State.Empty at isEmpty
      rw [inv.latest_pos, inv.latest_pos] at isEmpty
      exact absurd isEmpty (Nat.ne_of_gt room)
  | tryPush | tryPop => exact id

/-- A failed attempt of a blocking call on an open queue is repeated. -/
theorem Refusals.seeking_afterFailure
    (refusals : Refusals state)
    {caller : Caller α}
    {ticket : Nat}
    (isAt : (state.threads thread).pc = .loadSequence caller ticket)
    (blocks : state.Blocks capacity caller.op) :
    ∃ caller', caller.afterFailure.seeking = some caller' := by
  rcases caller with value | value | ⟨out, _ | _⟩ | out
  case push | pop.false => exact ⟨_, rfl⟩
  case tryPush | tryPop => exact blocks.elim
  case pop.true =>
      have isClosed : state.closed.latest = true := by
        apply refusals.sawClosed
        rw [isAt]
        rfl
      cases isClosed.symm.trans blocks.1

/-- A call that blocks goes on looking for a ticket. -/
theorem Tracked.waits
    (tracked : Tracked capacity state)
    (positive : 0 < capacity)
    (inv : Inv capacity state)
    (refusals : Refusals state)
    (isCurrent : state.log.current thread = some opened)
    (blocks : state.Blocks capacity opened.op)
    {caller : Caller α}
    (seeks : (state.threads thread).pc.seeking = some caller)
    (step :
      Step (Arithmetic.exact capacity) state thread action next)
    (admitted :
      sequential (Arithmetic.exact capacity) state ⟨thread, action⟩) :
    (∃ caller', (next.threads thread).pc.seeking = some caller') ∧
      (∀ side, next.pos side = state.pos side) ∧
      next.closed = state.closed ∧ next.log = state.log := by
  have agrees := tracked.agrees thread
  rw [isCurrent] at agrees
  cases step with
  | @checkClosed caller message flag isAt reads =>
      rw [isAt] at agrees
      obtain ⟨call, shape⟩ := agrees
      cases shape
      simp only [sequential, isAt] at admitted
      rw [admitted, Atomic.read?_newest] at reads
      cases reads
      refine ⟨?_, by simp, by simp, by simp⟩
      rw [State.pc_goto, if_pos rfl]
      cases caller with
      | push | pop =>
          rw [blocks.1]
          exact ⟨_, rfl⟩
      | tryPush | tryPop => exact blocks.elim
  | loadPos | reloadPos | lost =>
      refine ⟨?_, by simp, by simp, by simp⟩
      rw [State.pc_goto, if_pos rfl]
      exact ⟨_, rfl⟩
  | @loadSequence caller ticket message sequence isAt reads =>
      have isLoad := isAt
      rw [isAt] at agrees
      obtain ⟨call, shape⟩ := agrees
      cases shape
      refine ⟨?_, by simp, by simp, by simp⟩
      rw [State.pc_goto, if_pos rfl]
      unfold Pc.classify
      split
      · exact ⟨_, rfl⟩
      · split
        · exact refusals.seeking_afterFailure isLoad blocks
        · exact ⟨_, rfl⟩
  | claim isAt current =>
      have isClaim := isAt
      rw [isAt] at agrees
      obtain ⟨call, shape⟩ := agrees
      cases shape
      exact absurd blocks (inv.not_blocks_of_claim positive isClaim current)
  | _ isAt =>
      rw [isAt] at seeks
      cases seeks

end Waiting

/-- The steps that a second attempt of a blocking call may add. -/
def Caller.secondAttempt : Caller α → Nat
  | .push _ | .pop _ false => 4
  | _ => 0

/-- The steps until a call returns if nothing blocks it, at most. -/
def Pc.untilReturn
    (closed : Bool)
    (newest : Side → Nat) : Pc α → Nat
  | .checkClosed _ => if closed then 7 else 11
  | .loadPos caller | .reloadPos caller _ => 6 + caller.secondAttempt
  | .loadSequence caller ticket =>
      (if newest caller.side = ticket then 5 else 7) + caller.secondAttempt
  | .exchange caller ticket =>
      if newest caller.side = ticket then 4 else 6 + caller.secondAttempt
  | .moveValue _ _ | .sizeTail => 3
  | .storeSequence _ _ | .storeClosed | .loadClosed | .sizeHead _ => 2
  | .returning _ => 1
  | .idle => 0

/-- The steps until the call of a thread returns if nothing blocks it. -/
def State.untilReturn (state : State α) (thread : Nat) : Nat :=
  (state.threads thread).pc.untilReturn state.closed.latest
    fun side => (state.pos side).newest

section Returning

variable {capacity thread : Nat} {action : Action α}
variable {state next : State α} {opened : OpenCall (Op α) Ticket}

/-- No other thread holds a ticket. -/
def State.OnlyHolder (state : State α) (thread : Nat) : Prop :=
  ∀ other,
    other ≠ thread → (state.threads other).pc.holding = none

/-- A thread that has no ticket stops only at a full or an empty queue. -/
theorem Inv.counters_of_phase_lt
    (positive : 0 < capacity)
    (inv : Inv capacity state)
    (onlyHolder : state.OnlyHolder thread)
    {caller : Caller α}
    {ticket : Nat}
    (isAt : (state.threads thread).pc = .loadSequence caller ticket)
    (before :
      (state.slots (ticket % capacity)).sequence.newest <
        stage capacity ⟨caller.side, ticket⟩) :
    match caller.side with
    | .producer => state.Full capacity
    | .consumer => state.Empty := by
  have current := inv.current_of_phase_lt isAt before
  have unheld :
      ∀ held : Ticket, ∀ other, state.ring.holder other ≠ some held := by
    intro held other isHeld
    rw [State.holder_ring] at isHeld
    by_cases own : other = thread
    · subst own
      rw [isAt] at isHeld
      cases isHeld
    · rw [onlyHolder other own] at isHeld
      cases isHeld
  cases isSide : caller.side with
  | producer =>
      rw [isSide] at before current
      have isSecondLap : capacity ≤ ticket := by
        by_contra firstLap
        rw [stage_first_lap (Nat.lt_of_not_le firstLap)] at before
        exact absurd before (Nat.not_lt_zero _)
      obtain ⟨previous, rfl⟩ := Nat.exists_eq_add_of_le' isSecondLap
      have unclaimed : (state.pos .consumer).newest ≤ previous := by
        by_contra claimed
        have done :=
          inv.balanced.done_of_not_held
            (show (Ticket.mk .consumer previous).number < _ from
              Nat.lt_of_not_le claimed)
            (unheld ⟨.consumer, previous⟩)
        rw [stage_add_slots positive, Nat.add_mod_right] at before
        exact absurd done (Nat.not_lt_of_le (Nat.le_of_lt_succ before))
      have within := inv.balanced.withinRing
      simp only [State.taken_ring] at within
      change state.Full capacity
      unfold State.Full
      rw [inv.latest_pos, inv.latest_pos]
      omega
  | consumer =>
      rw [isSide] at before current
      have unpushed : (state.pos .producer).newest ≤ ticket := by
        by_contra pushed
        have done :=
          inv.balanced.done_of_not_held
            (show (Ticket.mk .producer ticket).number < _ from
              Nat.lt_of_not_le pushed)
            (unheld ⟨.producer, ticket⟩)
        rw [stage_consumer] at before
        exact absurd done (Nat.not_lt_of_le (Nat.le_of_lt_succ before))
      have behind := inv.balanced.consumerBehind
      simp only [State.taken_ring] at behind
      change state.Empty
      unfold State.Empty
      rw [inv.latest_pos, inv.latest_pos]
      omega

/-- A failed attempt that nothing blocks is close to the end. -/
theorem Caller.untilReturn_afterFailure
    (caller : Caller α)
    (newest : Side → Nat)
    {closed : Bool}
    (isClosed : caller.op.isBlocking = true → closed = true) :
    caller.afterFailure.untilReturn closed newest <
      5 + caller.secondAttempt := by
  rcases caller with value | value | ⟨out, _ | _⟩ | out
  case push | pop.false =>
      rw [isClosed rfl]
      change 7 < 9
      decide
  case tryPush | tryPop | pop.true =>
      change 1 < 5
      decide

/-- Looking at the closed flag brings a call closer to its end. -/
theorem Caller.untilReturn_afterClosedLoad
    (caller : Caller α)
    (newest : Side → Nat)
    (flag : Bool) :
    (caller.afterClosedLoad flag).untilReturn flag newest <
      if flag then 7 else 11 := by
  cases caller <;> cases flag <;>
    simp [afterClosedLoad, Pc.untilReturn, secondAttempt]

@[simp] theorem Caller.untilReturn_afterSuccess
    (caller : Caller α)
    (closed : Bool)
    (newest : Side → Nat) :
    caller.afterSuccess.untilReturn closed newest = 1 := by
  cases caller <;> rfl

/-- While a call looks for a ticket it does not change what blocks it. -/
theorem Tracked.free_step
    (tracked : Tracked capacity state)
    (isCurrent : state.log.current thread = some opened)
    (free :
      ∀ {caller},
        (state.threads thread).pc.seeking = some caller →
        ¬ state.Blocks capacity opened.op)
    (step :
      Step (Arithmetic.exact capacity) state thread action next)
    {caller : Caller α}
    (seeks : (next.threads thread).pc.seeking = some caller) :
    ¬ next.Blocks capacity opened.op := by
  cases step with
  | invoke isAt => exact absurd isAt (tracked.pc_ne_idle isCurrent)
  | checkClosed isAt | loadPos isAt | reloadPos isAt | lost isAt
  | loadSequence isAt =>
      have wasFree := free (congrArg Pc.seeking isAt)
      exact fun blocks =>
        wasFree (blocks.of_same (fun side => by simp) (by simp))
  | @storeSequence caller =>
      rw [State.pc_goto, if_pos rfl] at seeks
      cases caller <;> cases seeks
  | _ =>
      rw [State.pc_goto, if_pos rfl] at seeks
      cases seeks

/-- The sequence load of a call that nothing blocks is a step ahead. -/
theorem Inv.untilReturn_classify_lt
    (positive : 0 < capacity)
    (inv : Inv capacity state)
    (onlyHolder : state.OnlyHolder thread)
    {caller : Caller α}
    {ticket message sequence : Nat}
    (isAt : (state.threads thread).pc = .loadSequence caller ticket)
    (free : ¬ state.Blocks capacity caller.op)
    (reads :
      (state.slots (ticket % capacity)).sequence.read? message =
        some sequence)
    (isNewest :
      message = (state.slots (ticket % capacity)).sequence.newest) :
    (Pc.classify caller ticket
        ((Arithmetic.exact capacity).difference sequence
          ((Arithmetic.exact capacity).expected caller.side
            ticket))).untilReturn state.closed.latest
        (fun side => (state.pos side).newest) <
      (Pc.loadSequence caller ticket).untilReturn state.closed.latest
        fun side => (state.pos side).newest := by
  unfold Pc.classify
  split
  · by_cases isCurrent : (state.pos caller.side).newest = ticket <;>
      simp only [Pc.untilReturn, isCurrent, if_true, if_false] <;> omega
  · rename_i nonzero
    split
    · rename_i negative
      rw [inv.sequences (Nat.mod_lt _ positive) reads] at negative
      have before := (difference_neg_iff positive _ _ _).mp negative
      rw [isNewest] at before
      have current := inv.current_of_phase_lt isAt before
      have counters :=
        inv.counters_of_phase_lt positive onlyHolder isAt before
      have isClosed :
          caller.op.isBlocking = true → state.closed.latest = true := by
        intro blocking
        cases isFlag : state.closed.latest with
        | true => rfl
        | false =>
            cases caller with
            | push | pop => exact absurd ⟨isFlag, counters⟩ free
            | tryPush | tryPop => cases blocking
      have bound :=
        caller.untilReturn_afterFailure
          (fun side => (state.pos side).newest) isClosed
      simpa [Pc.untilReturn, current] using bound
    · rename_i notNegative
      have ahead := lt_of_le_of_ne (not_lt.mp notNegative) (Ne.symm nonzero)
      have drawn := inv.drawn_of_positive positive reads ahead
      have isStale : (state.pos caller.side).newest ≠ ticket :=
        Nat.ne_of_gt drawn
      simp only [Pc.untilReturn, isStale, if_false]
      omega

/-- Each step of a call that nothing blocks brings it closer to its end. -/
theorem Tracked.untilReturn_lt
    (tracked : Tracked capacity state)
    (positive : 0 < capacity)
    (inv : Inv capacity state)
    (onlyHolder : state.OnlyHolder thread)
    (isCurrent : state.log.current thread = some opened)
    (free :
      ∀ {caller},
        (state.threads thread).pc.seeking = some caller →
        ¬ state.Blocks capacity opened.op)
    (step :
      Step (Arithmetic.exact capacity) state thread action next)
    (admitted :
      alone (Arithmetic.exact capacity) thread state ⟨thread, action⟩) :
    next.untilReturn thread < state.untilReturn thread := by
  obtain ⟨_, current, notSpurious⟩ := admitted
  have agrees := tracked.agrees thread
  rw [isCurrent] at agrees
  unfold State.untilReturn
  cases step with
  | invoke isAt => exact absurd isAt (tracked.pc_ne_idle isCurrent)
  | @checkClosed caller message flag isAt reads =>
      simp only [sequential, isAt] at current
      rw [current, Atomic.read?_newest] at reads
      cases reads
      have bound :=
        caller.untilReturn_afterClosedLoad
          (fun side => (state.pos side).newest) state.closed.latest
      simp only [State.pc_goto, if_true, isAt, State.pos_goto,
        State.pos_noteClose, State.closed_goto, State.closed_noteClose]
      exact bound
  | loadPos isAt reads | reloadPos isAt reads =>
      simp only [sequential, isAt] at current
      have fresh := inv.positions (current ▸ reads)
      simp only [State.pc_goto, if_true, isAt, State.pos_goto,
        Pc.untilReturn, fresh]
      omega
  | @loadSequence caller ticket message sequence isAt reads =>
      simp only [sequential, isAt] at current
      have isLoad := isAt
      rw [isAt] at agrees
      obtain ⟨call, shape⟩ := agrees
      cases shape
      have closer :=
        inv.untilReturn_classify_lt positive onlyHolder isLoad
          (free (congrArg Pc.seeking isLoad)) reads current
      simpa only [State.pc_goto, if_true, isAt, State.pos_goto,
        State.closed_goto] using closer
  | claim isAt latest =>
      rw [inv.latest_pos] at latest
      simp only [State.pc_goto, if_true, isAt, Pc.untilReturn, latest]
      decide
  | @lost caller stale message ticket isAt reads =>
      simp only [sequential, isAt] at current
      simp only [Spurious, isAt, inv.latest_pos] at notSpurious
      have fresh := inv.positions (current ▸ reads)
      simp only [State.pc_goto, if_true, isAt, State.pos_goto,
        Pc.untilReturn, fresh, notSpurious, if_false]
      omega
  | storeSequence isAt =>
      simp only [State.pc_goto, if_true, isAt,
        Caller.untilReturn_afterSuccess]
      change 1 < 2
      decide
  | moveValue isAt | storeClosed isAt | loadClosed isAt | sizeTail isAt
  | sizeHead isAt | respond isAt =>
      simp only [State.pc_goto, if_true, isAt, Pc.untilReturn]
      decide

/-- No call has more than eleven steps left. -/
theorem Pc.untilReturn_le
    (pc : Pc α)
    (closed : Bool)
    (newest : Side → Nat) :
    pc.untilReturn closed newest ≤ 11 := by
  have attempts (caller : Caller α) : caller.secondAttempt ≤ 4 := by
    rcases caller with _ | _ | ⟨_, _ | _⟩ | _ <;>
      simp [Caller.secondAttempt]
  cases pc with
  | checkClosed caller => cases closed <;> simp [untilReturn]
  | loadPos caller | reloadPos caller =>
      have bound := attempts caller
      simp only [untilReturn]
      omega
  | loadSequence caller ticket | exchange caller ticket =>
      have bound := attempts caller
      simp only [untilReturn]
      split <;> omega
  | _ => simp [untilReturn]

end Returning

/-- When a call that no other thread disturbs comes to an end. -/
structure BlocksExactly
    (capacity thread : Nat)
    (op : Op α)
    (state : State α) : Prop where
  returns :
    ∀ {more last},
      ¬ state.Blocks capacity op →
      state.OnlyHolder thread →
      Run (step? (Arithmetic.exact capacity))
        (alone (Arithmetic.exact capacity) thread) state more last →
      (∀ label ∈ more, label ≠ ⟨thread, .respond⟩) →
      more.length ≤ 10 ∧
        ∃ label next,
          alone (Arithmetic.exact capacity) thread last label ∧
            step? (Arithmetic.exact capacity) last label = some next
  waits :
    ∀ {more last call},
      state.Blocks capacity op →
      state.log.current thread = some ⟨call, op, []⟩ →
      Run (step? (Arithmetic.exact capacity))
        (alone (Arithmetic.exact capacity) thread) state more last →
      (∀ label ∈ more, label ≠ ⟨thread, .respond⟩) ∧
        last.Blocks capacity op
  oneSided :
    ∀ {op'},
      state.Blocks capacity op →
      state.Blocks capacity op' →
      sideOf? op' = sideOf? op

section Windows

variable {capacity thread : Nat} {op : Op α}
variable {earlier during more : List (Label α)}
variable {invoked state last : State α}

/-- What a thread does alone in a call prolongs the call's window. -/
theorem CallWindow.extend
    [Inhabited α]
    (window :
      CallWindow (Arithmetic.exact capacity)
        (sequential (Arithmetic.exact capacity)) thread op earlier during
        invoked state)
    (solo :
      Run (step? (Arithmetic.exact capacity))
        (alone (Arithmetic.exact capacity) thread) state more last)
    (unanswered : ∀ label ∈ more, label ≠ ⟨thread, .respond⟩) :
    CallWindow (Arithmetic.exact capacity)
      (sequential (Arithmetic.exact capacity)) thread op earlier
      (during ++ more) invoked last where
  opens := window.opens
  runs := window.runs.append (solo.mono fun _ _ admitted => admitted.2.1)
  unclosed := by
    intro label member
    rcases List.mem_append.mp member with old | new
    · exact window.unclosed label old
    · exact unanswered label new

/-- A call that nothing blocks gets closer to its end with every step. -/
theorem CallWindow.length_le
    [Inhabited α]
    (positive : 0 < capacity)
    (window :
      CallWindow (Arithmetic.exact capacity)
        (sequential (Arithmetic.exact capacity)) thread op earlier during
        invoked state)
    (free : ¬ state.Blocks capacity op)
    (onlyHolder : state.OnlyHolder thread)
    (solo :
      Run (step? (Arithmetic.exact capacity))
        (alone (Arithmetic.exact capacity) thread) state more last)
    (unanswered : ∀ label ∈ more, label ≠ ⟨thread, .respond⟩) :
    last.OnlyHolder thread ∧
      (∀ {caller},
        (last.threads thread).pc.seeking = some caller →
        ¬ last.Blocks capacity op) ∧
      more.length + last.untilReturn thread ≤
        state.untilReturn thread := by
  induction solo with
  | start => exact ⟨onlyHolder, fun _ => free, by simp⟩
  | @snoc more before after label shorter admitted taken
      inductionHypothesis =>
      have still : ∀ label ∈ more, label ≠ ⟨thread, .respond⟩ :=
        fun label member =>
          unanswered label (List.mem_append_left _ member)
      obtain ⟨only, wasFree, bound⟩ := inductionHypothesis still
      have longer := window.extend shorter still
      have tracked : Tracked capacity before :=
        Tracked.of_run positive longer.run
      obtain ⟨call, marks, isCurrent⟩ := longer.current positive
      rcases label with ⟨mover, action⟩
      obtain ⟨rfl, _⟩ := id admitted
      have step := Step.of_step? taken
      refine ⟨?_, ?_, ?_⟩
      · intro other different
        rw [step.pc_other different]
        exact only other different
      · intro caller seeks
        exact tracked.free_step isCurrent wasFree step seeks
      · have closer :=
          tracked.untilReturn_lt positive (Inv.of_run positive longer.run)
            only isCurrent wasFree step admitted
        rw [List.length_append, List.length_singleton]
        omega

/-- A call that blocks does not return while nobody else moves. -/
theorem CallWindow.waits
    [Inhabited α]
    (positive : 0 < capacity)
    (window :
      CallWindow (Arithmetic.exact capacity)
        (sequential (Arithmetic.exact capacity)) thread op earlier during
        invoked state)
    (blocks : state.Blocks capacity op)
    {caller : Caller α}
    (seeks : (state.threads thread).pc.seeking = some caller)
    (solo :
      Run (step? (Arithmetic.exact capacity))
        (alone (Arithmetic.exact capacity) thread) state more last) :
    (∀ label ∈ more, label ≠ ⟨thread, .respond⟩) ∧
      last.Blocks capacity op ∧
      ∃ caller', (last.threads thread).pc.seeking = some caller' := by
  induction solo with
  | start => exact ⟨nofun, blocks, caller, seeks⟩
  | @snoc more before after label shorter admitted taken
      inductionHypothesis =>
      obtain ⟨unanswered, stillBlocks, own, stillSeeks⟩ :=
        inductionHypothesis
      have longer := window.extend shorter unanswered
      have tracked : Tracked capacity before :=
        Tracked.of_run positive longer.run
      obtain ⟨call, marks, isCurrent⟩ := longer.current positive
      rcases label with ⟨mover, action⟩
      obtain ⟨rfl, current, _⟩ := id admitted
      have step := Step.of_step? taken
      obtain ⟨seeksOn, samePos, sameClosed, _⟩ :=
        tracked.waits positive (Inv.of_run positive longer.run)
          (Refusals.of_run positive longer.run) isCurrent stillBlocks
          stillSeeks step current
      refine ⟨?_, stillBlocks.of_same samePos sameClosed, seeksOn⟩
      intro label member
      rcases List.mem_append.mp member with old | new
      · exact unanswered label old
      · cases List.mem_singleton.mp new
        rintro same
        cases same
        cases step with
        | respond isAt =>
            rw [isAt] at stillSeeks
            cases stillSeeks

/-- A call that blocks is blocking, and the queue is open. -/
theorem State.Blocks.isBlocking
    (blocks : state.Blocks capacity op) :
    op.isBlocking = true ∧ state.closed.latest = false := by
  cases op with
  | push | pop => exact ⟨rfl, blocks.1⟩
  | _ => exact blocks.elim

end Windows

/-- A push has filled the queue, and another one has found it full. -/
def waitingSchedule : List (Label Nat) :=
  [⟨1, .load 0⟩, ⟨1, .load 1⟩, ⟨1, .load 1⟩]

end ConcurrentQueue.Mpmc
