import ConcurrentQueue.Library.Potential
import ConcurrentQueue.Mpmc.Failures
import ConcurrentQueue.Mpmc.Progress

namespace ConcurrentQueue.Mpmc

/-!
# What a claim loop pays for

A call that does not wait returns after a few of its own steps, and two more
for each setback: an exchange of its own that failed for no reason, or a
winning exchange of another thread on its side.  So a thread is held up only
where another one gets on.
-/

variable {α : Type}

/-- The steps of a call without setbacks, up to its response. -/
def callSteps : Op α → Nat
  | .tryPush _ => 6
  | .tryPop _ => 5
  | .close | .closed => 1
  | .size => 2
  | _ => 0

/-- A step that throws a call of this thread back in its claim loop. -/
def setback
    (thread : Nat)
    (op : Op α)
    (state : State α)
    (label : Label α) : Bool :=
  match (state.threads label.thread).pc, label.action with
  | .exchange caller ticket, .exchange (some _) =>
      label.thread == thread && (state.pos caller.side).latest == ticket
  | .exchange caller _, .exchange none =>
      label.thread != thread && sideOf? op == some caller.side
  | _, _ => false

/-- The steps that a call has left, two for each ticket it lags behind. -/
def Pc.toGo (newest : Side → Nat) : Pc α → Nat
  | .checkClosed _ => 6
  | .loadPos _ => 5
  | .loadSequence caller ticket => 4 + 2 * (newest caller.side - ticket)
  | .exchange caller ticket => 3 + 2 * (newest caller.side - ticket)
  | .reloadPos caller ticket => 3 + 2 * (newest caller.side - ticket)
  | .moveValue _ _ => 2
  | .storeSequence _ _ => 1
  | .sizeTail => 2
  | .storeClosed | .loadClosed | .sizeHead _ => 1
  | .idle | .returning _ => 0

/-- The steps that a thread has left in its call. -/
def State.toGo (state : State α) (thread : Nat) : Nat :=
  (state.threads thread).pc.toGo fun side => (state.pos side).newest

section Calls

variable {capacity thread : Nat} {action : Action α}
variable {state next : State α}

/-- A call is no longer idle. -/
theorem Tracked.pc_ne_idle
    (tracked : Tracked capacity state)
    {opened : OpenCall (Op α) Ticket}
    (isCurrent : state.log.current thread = some opened) :
    (state.threads thread).pc ≠ .idle := by
  intro isIdle
  have agrees := tracked.agrees thread
  rw [isIdle, isCurrent] at agrees
  cases agrees

/-- A claim loop that does not wait returns where it fails. -/
theorem Caller.toGo_afterFailure
    {caller : Caller α}
    (noWaiting : caller.op.isBlocking = false)
    (newest : Side → Nat) :
    caller.afterFailure.toGo newest = 0 := by
  cases caller with
  | push | pop => cases noWaiting
  | tryPush | tryPop => rfl

@[simp] theorem Caller.toGo_afterSuccess
    (caller : Caller α)
    (newest : Side → Nat) :
    caller.afterSuccess.toGo newest = 0 := by
  cases caller <;> rfl

/-- The closed check of a push leads to its claim loop or out of it. -/
theorem Caller.toGo_afterClosedLoad
    (caller : Caller α)
    (flag : Bool)
    (newest : Side → Nat) :
    (caller.afterClosedLoad flag).toGo newest ≤ 5 := by
  cases caller <;> cases flag <;> simp [afterClosedLoad, Pc.toGo]

/-- A sequence load is a step of the loop, whatever it has read. -/
theorem Pc.toGo_classify
    {caller : Caller α}
    (noWaiting : caller.op.isBlocking = false)
    (newest : Side → Nat)
    (ticket : Nat)
    (dif : Int) :
    (classify caller ticket dif).toGo newest ≤
      3 + 2 * (newest caller.side - ticket) := by
  unfold classify
  split
  · exact Nat.le_refl _
  · split
    · rw [Caller.toGo_afterFailure noWaiting]
      exact Nat.zero_le _
    · exact Nat.le_refl _

/-- A call starts with no more steps left than it may take. -/
theorem Pc.toGo_start?
    {slots : Nat}
    {op : Op α}
    {pc : Pc α}
    (noWaiting : op.isBlocking = false)
    (starts : start? slots op = some pc)
    (newest : Side → Nat) :
    pc.toGo newest ≤ callSteps op := by
  cases op <;>
    simp only [start?, Option.some.injEq, reduceCtorEq] at starts <;>
    subst starts
  case push | pop => cases noWaiting
  all_goals exact Nat.le_refl _

/-- Tickets drawn on the side of a loop put it back by two steps each. -/
theorem Pc.toGo_le
    {pc : Pc α}
    {newest later : Side → Nat}
    {drawn : Nat}
    (grows :
      ∀ {caller},
        pc.attempting = some caller →
        later caller.side ≤ newest caller.side + drawn) :
    pc.toGo later ≤ pc.toGo newest + 2 * drawn := by
  cases pc with
  | loadSequence caller ticket | exchange caller ticket
  | reloadPos caller ticket =>
      have bound := grows rfl
      simp only [toGo]
      omega
  | _ => exact Nat.le_add_right _ _

end Calls

section Steps

variable {capacity thread mover : Nat} {action : Action α}
variable {state next : State α} {opened : OpenCall (Op α) Ticket}

/-- Another thread puts a call back only by a winning exchange. -/
theorem Tracked.toGo_other
    (tracked : Tracked capacity state)
    (step :
      Step (Arithmetic.exact capacity) state mover action next)
    (isCurrent : state.log.current thread = some opened)
    (different : mover ≠ thread) :
    next.toGo thread ≤
      state.toGo thread +
        2 * (setback thread opened.op state ⟨mover, action⟩).toNat := by
  have agrees := tracked.agrees thread
  rw [isCurrent] at agrees
  unfold State.toGo
  rw [step.pc_other (Ne.symm different)]
  apply Pc.toGo_le
  intro caller isAttempting
  cases step with
  | @claim winner ticket isAt current =>
      simp only [State.pos_goto, State.pos_claim]
      by_cases sameSide : caller.side = winner.side
      · obtain ⟨_, isOpened, onSide⟩ :=
          sideOf?_of_attempting agrees isAttempting
        cases isOpened
        have isSetback :
            setback thread opened.op state ⟨mover, .exchange none⟩ =
              true := by
          simp [setback, isAt, different, onSide, sameSide]
        rw [isSetback, sameSide, Function.update_self,
          Atomic.newest_store]
        exact Nat.le_refl _
      · rw [Function.update_of_ne sameSide]
        exact Nat.le_add_right _ _
  | _ =>
      simp only [State.pos_goto, State.pos_noteClose, State.pos_invoke,
        State.pos_respond, State.pos_setValue, State.pos_storeSequence,
        State.pos_storeClosed]
      exact Nat.le_add_right _ _

/-- A call's own steps bring it closer, unless an exchange fails idly. -/
theorem Tracked.toGo_own
    (tracked : Tracked capacity state)
    (inv : Inv capacity state)
    (overtaken : Overtaken state)
    (step :
      Step (Arithmetic.exact capacity) state thread action next)
    (admitted :
      sequential (Arithmetic.exact capacity) state ⟨thread, action⟩)
    (isCurrent : state.log.current thread = some opened)
    (noWaiting : opened.op.isBlocking = false)
    (noResponse : action ≠ .respond) :
    1 + next.toGo thread ≤
      state.toGo thread +
        2 * (setback thread opened.op state ⟨thread, action⟩).toNat := by
  have agrees := tracked.agrees thread
  rw [isCurrent] at agrees
  unfold State.toGo
  cases step with
  | invoke isAt => exact absurd isAt (tracked.pc_ne_idle isCurrent)
  | @checkClosed caller message flag isAt reads =>
      have bound :=
        caller.toGo_afterClosedLoad flag
          fun side => (state.pos side).newest
      simp only [State.pc_goto, if_true, isAt, State.pos_goto,
        State.pos_noteClose]
      change 1 + _ ≤ 6 + _
      omega
  | @loadPos caller message ticket isAt reads =>
      simp only [sequential, isAt] at admitted
      have current := inv.positions (admitted ▸ reads)
      simp only [State.pc_goto, if_true, isAt, State.pos_goto, Pc.toGo]
      omega
  | @reloadPos caller stale message ticket isAt reads =>
      simp only [sequential, isAt] at admitted
      have current := inv.positions (admitted ▸ reads)
      have behind := overtaken thread caller stale isAt
      simp only [State.pc_goto, if_true, isAt, State.pos_goto, Pc.toGo]
      omega
  | @loadSequence caller ticket message sequence isAt reads =>
      rw [isAt] at agrees
      obtain ⟨call, shape⟩ := agrees
      cases shape
      have bound :=
        Pc.toGo_classify noWaiting
          (fun side => (state.pos side).newest) ticket
          ((Arithmetic.exact capacity).difference sequence
            ((Arithmetic.exact capacity).expected caller.side ticket))
      simp only [State.pc_goto, if_true, isAt, State.pos_goto]
      simp only [Pc.toGo] at bound ⊢
      omega
  | claim isAt current =>
      simp only [State.pc_goto, if_true, isAt, Pc.toGo]
      omega
  | @lost caller stale message ticket isAt reads =>
      simp only [sequential, isAt] at admitted
      have fresh := inv.positions (admitted ▸ reads)
      have notAhead : stale ≤ (state.pos caller.side).newest :=
        inv.localTicket_le (by rw [isAt]; rfl)
      simp only [State.pc_goto, if_true, isAt, State.pos_goto, Pc.toGo,
        setback, inv.latest_pos, beq_self_eq_true, Bool.true_and]
      by_cases isIdle : (state.pos caller.side).newest = stale
      · rw [isIdle, beq_self_eq_true, Bool.toNat_true]
        omega
      · omega
  | moveValue isAt =>
      simp only [State.pc_goto, if_true, isAt, Pc.toGo]
      omega
  | storeSequence isAt =>
      simp only [State.pc_goto, if_true, isAt, Caller.toGo_afterSuccess]
      exact Nat.le_add_right 1 _
  | storeClosed isAt | loadClosed isAt | sizeTail isAt | sizeHead isAt =>
      simp only [State.pc_goto, if_true, isAt, Pc.toGo]
      omega
  | respond => exact absurd rfl noResponse

end Steps

/-- What a call pays for its setbacks, and that it is never stuck. -/
structure PaysForSetbacks
    (capacity thread : Nat)
    (op : Op α)
    (opened last : State α)
    (during : List (Label α)) : Prop where
  bounded :
    during.countP (fun label => label.thread == thread) ≤
      callSteps op +
        2 * charges (step? (Arithmetic.exact capacity)) (setback thread op)
          opened during
  enabled :
    ∃ label next,
      alone (Arithmetic.exact capacity) thread last label ∧
        step? (Arithmetic.exact capacity) last label = some next

section Windows

variable {capacity thread : Nat} {op : Op α}
variable {earlier during : List (Label α)} {opened last : State α}

/-- A call that has just been invoked has all of its steps left. -/
theorem CallWindow.toGo_le
    [Inhabited α]
    (noWaiting : op.isBlocking = false)
    (window :
      CallWindow (Arithmetic.exact capacity)
        (sequential (Arithmetic.exact capacity)) thread op earlier during
        opened last) :
    opened.toGo thread ≤ callSteps op := by
  obtain ⟨before, run, admitted, taken⟩ := window.opens
  cases Step.of_step? taken with
  | invoke isAt starts =>
      unfold State.toGo
      rw [State.pc_goto, if_pos rfl]
      exact Pc.toGo_start? noWaiting starts _

/-- Every step of a call is paid for by its potential or by a setback. -/
theorem CallWindow.pays
    [Inhabited α]
    {next : State α}
    {label : Label α}
    (positive : 0 < capacity)
    (noWaiting : op.isBlocking = false)
    (window :
      CallWindow (Arithmetic.exact capacity)
        (sequential (Arithmetic.exact capacity)) thread op earlier during
        opened last)
    (admitted : sequential (Arithmetic.exact capacity) last label)
    (unanswered : label ≠ ⟨thread, .respond⟩)
    (taken : step? (Arithmetic.exact capacity) last label = some next) :
    (label.thread == thread).toNat + next.toGo thread ≤
      last.toGo thread + 2 * (setback thread op last label).toNat := by
  rcases label with ⟨mover, action⟩
  have step := Step.of_step? taken
  have tracked : Tracked capacity last :=
    Tracked.of_run positive window.run
  obtain ⟨call, marks, isCurrent⟩ := window.current positive
  by_cases own : mover = thread
  · subst own
    have noResponse : action ≠ .respond := by
      rintro rfl
      exact unanswered rfl
    rw [beq_self_eq_true, Bool.toNat_true]
    exact tracked.toGo_own (Inv.of_run positive window.run)
      (Overtaken.of_run positive window.run) step admitted isCurrent
      noWaiting noResponse
  · rw [beq_eq_false_iff_ne.mpr own, Bool.toNat_false, Nat.zero_add]
    exact tracked.toGo_other step isCurrent own

/-- A call in progress can always take a step of its own. -/
theorem Tracked.enabled_alone
    [Inhabited α]
    (tracked : Tracked capacity last)
    {current : OpenCall (Op α) Ticket}
    (isCurrent : last.log.current thread = some current) :
    ∃ label next,
      alone (Arithmetic.exact capacity) thread last label ∧
        step? (Arithmetic.exact capacity) last label = some next := by
  suffices enabled :
      ∃ action,
        alone (Arithmetic.exact capacity) thread last ⟨thread, action⟩ ∧
          (step? (Arithmetic.exact capacity) last
            ⟨thread, action⟩).isSome by
    obtain ⟨action, admitted, isSome⟩ := enabled
    obtain ⟨next, taken⟩ := Option.isSome_iff_exists.mp isSome
    exact ⟨⟨thread, action⟩, next, admitted, taken⟩
  cases isAt : (last.threads thread).pc with
  | idle => exact absurd isAt (tracked.pc_ne_idle isCurrent)
  | loadPos | loadSequence | exchange | reloadPos | moveValue
  | storeSequence =>
      obtain ⟨⟨_, action⟩, next, admitted, taken⟩ :=
        exists_alone (Arithmetic.exact capacity)
          (congrArg Pc.attempting isAt)
      obtain ⟨rfl, _⟩ := id admitted
      exact ⟨action, admitted, Option.isSome_iff_exists.mpr ⟨next, taken⟩⟩
  | checkClosed | loadClosed =>
      refine ⟨.load last.closed.newest, ⟨rfl, ?_, ?_⟩, ?_⟩
      · simp [sequential, isAt]
      · simp [Spurious, isAt]
      · simp [step?, isAt, Atomic.read?_newest]
  | sizeTail =>
      refine ⟨.load last.enqueuePos.newest, ⟨rfl, ?_, ?_⟩, ?_⟩
      · simp [sequential, isAt]
      · simp [Spurious, isAt]
      · simp [step?, isAt, Atomic.read?_newest]
  | sizeHead =>
      refine ⟨.load last.dequeuePos.newest, ⟨rfl, ?_, ?_⟩, ?_⟩
      · simp [sequential, isAt]
      · simp [Spurious, isAt]
      · simp [step?, isAt, Atomic.read?_newest]
  | storeClosed =>
      refine ⟨.store, ⟨rfl, ?_, ?_⟩, ?_⟩
      · simp [sequential, isAt]
      · simp [Spurious, isAt]
      · simp [step?, isAt]
  | returning =>
      refine ⟨.respond, ⟨rfl, ?_, ?_⟩, ?_⟩
      · simp [sequential, isAt]
      · simp [Spurious, isAt]
      · simp [step?, isAt]

end Windows

/--
A call that does not wait returns within a fixed number of its own steps and
two more for each setback: an idle failure of its own exchange, or a ticket
that another thread wins on its side.  It is never stuck.
-/
theorem setbacks_pay_for_retries
    [Inhabited α]
    {capacity thread : Nat}
    {op : Op α}
    {earlier during : List (Label α)}
    {opened last : State α}
    (positive : 0 < capacity)
    (noWaiting : op.isBlocking = false)
    (window :
      CallWindow (Arithmetic.exact capacity)
        (sequential (Arithmetic.exact capacity)) thread op earlier during
        opened last) :
    PaysForSetbacks capacity thread op opened last during := by
  constructor
  · have entry : opened.toGo thread ≤ callSteps op :=
      window.toGo_le noWaiting
    have paid :
        during.countP (fun label => label.thread == thread) +
            last.toGo thread ≤
          opened.toGo thread +
            2 * charges (step? (Arithmetic.exact capacity))
              (setback thread op) opened during :=
      Window.countP_le_charges _ (fun state => state.toGo thread) _ 2
        (fun shorter => CallWindow.pays positive noWaiting shorter) window
    omega
  · obtain ⟨call, marks, isCurrent⟩ := window.current positive
    exact (Tracked.of_run positive window.run).enabled_alone isCurrent

/-- A push loses its exchange to another one and goes round once more. -/
def goneRoundSchedule : List (Label Nat) :=
  [⟨0, .load 0⟩, ⟨0, .load 0⟩, ⟨0, .load 0⟩, ⟨1, .invoke (.tryPush 8)⟩,
    ⟨1, .load 0⟩, ⟨1, .load 0⟩, ⟨1, .load 0⟩, ⟨1, .exchange none⟩,
    ⟨0, .exchange (some 1)⟩, ⟨0, .load 0⟩, ⟨0, .exchange none⟩,
    ⟨0, .move 0⟩, ⟨0, .store⟩]

theorem setbacks_pay_for_retries_once :
    ∃ opened last,
      CallWindow (Arithmetic.exact 2) (sequential (Arithmetic.exact 2)) 0
          (.tryPush 7) [] goneRoundSchedule opened last ∧
        charges (step? (Arithmetic.exact 2)) (setback 0 (.tryPush 7))
            opened goneRoundSchedule = 1 ∧
        PaysForSetbacks 2 0 (.tryPush 7) opened last goneRoundSchedule := by
  have replayed :
      ∃ opened last,
        step? (Arithmetic.exact 2) (initial (Arithmetic.exact 2))
              ⟨0, .invoke (.tryPush 7)⟩ = some opened ∧
          replay? (step? (Arithmetic.exact 2))
              (sequential (Arithmetic.exact 2)) opened goneRoundSchedule =
            some last ∧
          charges (step? (Arithmetic.exact 2)) (setback 0 (.tryPush 7))
              opened goneRoundSchedule = 1 :=
    ⟨_, _, rfl, rfl, rfl⟩
  obtain ⟨opened, last, opens, follows, once⟩ := replayed
  have window :
      CallWindow (Arithmetic.exact 2) (sequential (Arithmetic.exact 2)) 0
        (.tryPush 7) [] goneRoundSchedule opened last :=
    .of_replay? rfl trivial opens follows (by decide)
  exact ⟨opened, last, window, once,
    setbacks_pay_for_retries (by decide) rfl window⟩

end ConcurrentQueue.Mpmc
