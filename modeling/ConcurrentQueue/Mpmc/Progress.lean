import ConcurrentQueue.Library.Instants
import ConcurrentQueue.Mpmc.Sequential

namespace ConcurrentQueue.Mpmc

/-!
# The claim loops make progress

A claim loop goes round again only where another thread has drawn the ticket
it was after, or where `compare_exchange_weak` failed for no reason.  Run
alone and without such failures, a thread is out of its loop after at most
six steps, wherever the other threads have stopped.
-/

open TicketRing

variable {α : Type}

/-- The local ticket of a thread inside a claim loop. -/
def Pc.localTicket : Pc α → Option Ticket
  | .loadSequence caller ticket => some ⟨caller.side, ticket⟩
  | .exchange caller ticket => some ⟨caller.side, ticket⟩
  | .reloadPos caller ticket => some ⟨caller.side, ticket⟩
  | .moveValue caller ticket => some ⟨caller.side, ticket⟩
  | .storeSequence caller ticket => some ⟨caller.side, ticket⟩
  | _ => none

/-- A failed exchange that found the value it expected. -/
def Spurious (state : State α) (label : Label α) : Prop :=
  match (state.threads label.thread).pc, label.action with
  | .exchange caller ticket, .exchange (some _) =>
      (state.pos caller.side).latest = ticket
  | _, _ => False

/-- Steps of one thread while all others have stopped. -/
def alone (arithmetic : Arithmetic) (thread : Nat) :
    StepGuard (State α) (Label α) :=
  fun state label =>
    label.thread = thread ∧ sequential arithmetic state label ∧
      ¬ Spurious state label

/-- The steps left in a claim loop when no other thread moves, at most. -/
def Pc.remaining (latest : Side → Nat) : Pc α → Nat
  | .loadPos _ => 5
  | .loadSequence caller ticket =>
      if latest caller.side = ticket then 4 else 6
  | .exchange caller ticket => if latest caller.side = ticket then 3 else 5
  | .reloadPos _ _ => 5
  | .moveValue _ _ => 2
  | .storeSequence _ _ => 1
  | _ => 0

/-- The steps that a thread alone has left in its loop, at most. -/
def State.remaining (state : State α) (thread : Nat) : Nat :=
  (state.threads thread).pc.remaining fun side => (state.pos side).latest

/-- A step of the thread inside a claim loop that makes the loop return. -/
def LoopReturns (thread : Nat) (state next : State α) : Prop :=
  ∃ caller,
    (state.threads thread).pc.attempting = some caller ∧
      ((next.threads thread).pc = caller.afterFailure ∨
        (next.threads thread).pc = caller.afterSuccess)

/--
One iteration of a claim loop that goes round again: from the load of one
local ticket to the load of the next one.
-/
structure Iteration
    [Inhabited α]
    (capacity thread : Nat)
    (caller : Caller α)
    (ticket ticket' : Nat)
    (during : List (Label α))
    (action : Action α)
    (entered reached : State α) : Prop where
  enters :
    ∃ earlier before entry,
      Run (step? (Arithmetic.exact capacity))
          (sequential (Arithmetic.exact capacity))
          (initial (Arithmetic.exact capacity)) earlier before ∧
        sequential (Arithmetic.exact capacity) before ⟨thread, entry⟩ ∧
        step? (Arithmetic.exact capacity) before ⟨thread, entry⟩ =
          some entered
  head : (entered.threads thread).pc = .loadSequence caller ticket
  runs :
    Run (step? (Arithmetic.exact capacity))
      (sequential (Arithmetic.exact capacity)) entered during reached
  inside :
    EachStep (step? (Arithmetic.exact capacity))
      (sequential (Arithmetic.exact capacity)) entered during
      fun _ label next =>
        label.thread = thread →
        (next.threads thread).pc = .exchange caller ticket ∨
          (next.threads thread).pc = .reloadPos caller ticket
  again :
    ∃ last caller',
      sequential (Arithmetic.exact capacity) reached ⟨thread, action⟩ ∧
        step? (Arithmetic.exact capacity) reached ⟨thread, action⟩ =
          some last ∧
        (last.threads thread).pc = .loadSequence caller' ticket'

/-- A thread takes a ticket by a winning exchange. -/
def TakesTicket
    (ticket : Ticket)
    (state : State α)
    (label : Label α)
    (next : State α) : Prop :=
  ∃ caller,
    caller.side = ticket.side ∧
      (state.threads label.thread).pc = .exchange caller ticket.number ∧
      (next.threads label.thread).pc = .moveValue caller ticket.number

/-- The progress of the claim loops. -/
structure LoopsProgress
    (α : Type)
    [Inhabited α]
    (capacity : Nat) : Prop where
  ticket_le :
    ∀ {labels thread ticket} {state : State α},
      Run (step? (Arithmetic.exact capacity))
        (sequential (Arithmetic.exact capacity))
        (initial (Arithmetic.exact capacity)) labels state →
      (state.threads thread).pc.localTicket = some ticket →
      ticket.number ≤ (state.pos ticket.side).latest
  advances :
    ∀ {thread caller ticket ticket' during action}
      {entered reached : State α},
      Iteration capacity thread caller ticket ticket' during action entered
        reached →
      ¬ Spurious reached ⟨thread, action⟩ →
      ticket < ticket' ∧
        Happens (step? (Arithmetic.exact capacity))
          (sequential (Arithmetic.exact capacity)) entered during
          fun state label next =>
            label.thread ≠ thread ∧
              TakesTicket ⟨caller.side, ticket⟩ state label next
  returns :
    ∀ {labels thread caller more} {state last : State α},
      Run (step? (Arithmetic.exact capacity))
        (sequential (Arithmetic.exact capacity))
        (initial (Arithmetic.exact capacity)) labels state →
      (state.threads thread).pc.attempting = some caller →
      Run (step? (Arithmetic.exact capacity))
        (alone (Arithmetic.exact capacity) thread) state more last →
      Happens (step? (Arithmetic.exact capacity))
          (alone (Arithmetic.exact capacity) thread) state more
          (fun before _ next => LoopReturns thread before next) ∨
        more.length < 6 ∧
          ∃ label next,
            alone (Arithmetic.exact capacity) thread last label ∧
              step? (Arithmetic.exact capacity) last label = some next

namespace Pc

/-- A claim loop reloads only where the difference is positive. -/
theorem pos_of_classify_eq_reloadPos
    {caller caller' : Caller α}
    {ticket ticket' : Nat}
    {dif : Int}
    (reloads : classify caller ticket dif = .reloadPos caller' ticket') :
    0 < dif ∧ caller = caller' ∧ ticket = ticket' := by
  unfold classify at reloads
  split at reloads
  · cases reloads
  · split at reloads
    · rcases caller with _ | _ | ⟨_, _ | _⟩ | _ <;> cases reloads
    · rename_i nonzero notNegative
      cases reloads
      exact ⟨lt_of_le_of_ne (not_lt.mp notNegative) (Ne.symm nonzero),
        rfl, rfl⟩

/-- The sequence load is not followed by another one. -/
theorem classify_ne_loadSequence
    (caller caller' : Caller α)
    (ticket ticket' : Nat)
    (dif : Int) :
    classify caller ticket dif ≠ .loadSequence caller' ticket' := by
  unfold classify
  split
  · simp
  · split
    · rcases caller with _ | _ | ⟨_, _ | _⟩ | _ <;>
        simp [Caller.afterFailure]
    · simp

end Pc

section Tickets

variable {capacity thread : Nat} {action : Action α}
variable {state next : State α}

/-- The local ticket was read from its counter or drawn from it. -/
theorem Inv.localTicket_le
    (inv : Inv capacity state)
    {ticket : Ticket}
    (isLocal : (state.threads thread).pc.localTicket = some ticket) :
    ticket.number ≤ (state.pos ticket.side).newest := by
  cases isAt : (state.threads thread).pc with
  | loadSequence | exchange | reloadPos =>
      rw [isAt] at isLocal
      have isConsidering :
          (state.threads thread).pc.considering = some ticket := by
        rw [isAt]
        exact isLocal
      exact inv.considered isConsidering
  | moveValue | storeSequence =>
      rw [isAt] at isLocal
      have isHeld : state.ring.holder thread = some ticket := by
        rw [State.holder_ring, isAt]
        exact isLocal
      exact Nat.le_of_lt (inv.balanced.held isHeld).1
  | _ =>
      rw [isAt] at isLocal
      cases isLocal

/-- A message beyond the stage of a ticket shows that it has been drawn. -/
theorem Inv.drawn_of_positive
    (positive : 0 < capacity)
    (inv : Inv capacity state)
    {side : Side}
    {ticket message sequence : Nat}
    (reads :
      (state.slots (ticket % capacity)).sequence.read? message =
        some sequence)
    (ahead :
      0 < (Arithmetic.exact capacity).difference sequence
        ((Arithmetic.exact capacity).expected side ticket)) :
    ticket < (state.pos side).newest := by
  rw [inv.sequences (Nat.mod_lt _ positive) reads] at ahead
  have notAt : message ≠ stage capacity ⟨side, ticket⟩ := by
    intro same
    have zero :=
      (difference_eq_zero_iff positive side ticket message).mpr same
    exact absurd zero (ne_of_gt ahead)
  have notBefore : ¬ message < stage capacity ⟨side, ticket⟩ := by
    intro before
    have negative :=
      (difference_neg_iff positive side ticket message).mpr before
    exact absurd negative (not_lt_of_gt ahead)
  have done : Done capacity state.ring ⟨side, ticket⟩ := by
    apply Nat.lt_of_lt_of_le _ (Atomic.le_newest_of_read? _ reads)
    exact lt_of_le_of_ne (Nat.le_of_not_lt notBefore) (Ne.symm notAt)
  exact inv.balanced.taken_of_done ⟨side, ticket⟩ done

/-- A thread that is to reload its counter has been overtaken. -/
def Overtaken (state : State α) : Prop :=
  ∀ thread caller ticket,
    (state.threads thread).pc = .reloadPos caller ticket →
    ticket < (state.pos caller.side).newest

theorem Overtaken.step
    (overtaken : Overtaken state)
    (positive : 0 < capacity)
    (inv : Inv capacity state)
    (step :
      Step (Arithmetic.exact capacity) state thread action next) :
    Overtaken next := by
  intro other caller ticket reloads
  by_cases same : other = thread
  · subst same
    cases step with
    | loadSequence isAt reads =>
        simp only [State.pc_goto, if_true] at reloads
        obtain ⟨ahead, rfl, rfl⟩ := Pc.pos_of_classify_eq_reloadPos reloads
        exact inv.drawn_of_positive positive reads ahead
    | invoke isAt starts =>
        simp only [State.pc_goto, if_true] at reloads
        subst reloads
        have isConsidering := Pc.considering_start? starts
        cases isConsidering
    | checkClosed isAt reads =>
        simp only [State.pc_goto, if_true] at reloads
        have isConsidering := congrArg Pc.considering reloads
        simp at isConsidering
    | storeSequence isAt =>
        simp only [State.pc_goto, if_true] at reloads
        have isConsidering := congrArg Pc.considering reloads
        simp at isConsidering
    | _ =>
        simp at reloads
  · rw [step.pc_other same] at reloads
    exact Nat.lt_of_lt_of_le (overtaken other caller ticket reloads)
      (step.newest_pos_le caller.side)

/-- A step to the head of a loop has loaded the current ticket. -/
theorem Inv.current_of_head
    (inv : Inv capacity state)
    (admitted :
      sequential (Arithmetic.exact capacity) state ⟨thread, action⟩)
    (step :
      Step (Arithmetic.exact capacity) state thread action next)
    {caller : Caller α}
    {ticket : Nat}
    (isHead : (next.threads thread).pc = .loadSequence caller ticket) :
    (state.pos caller.side).newest = ticket ∧
      (next.pos caller.side).newest = ticket ∧
      ((state.threads thread).pc = .loadPos caller ∨
        (∃ stale, (state.threads thread).pc = .reloadPos caller stale) ∨
        ∃ stale message,
          (state.threads thread).pc = .exchange caller stale ∧
            action = .exchange (some message)) := by
  have current :
      ∀ {message},
        (state.pos caller.side).read? message = some ticket →
        message = (state.pos caller.side).newest →
        (state.pos caller.side).newest = ticket := by
    rintro message reads rfl
    exact (inv.positions reads).symm
  cases step with
  | loadPos isAt reads =>
      simp only [State.pc_goto, if_true, Pc.loadSequence.injEq] at isHead
      obtain ⟨rfl, rfl⟩ := isHead
      simp only [sequential, isAt] at admitted
      exact ⟨current reads admitted, by simp [current reads admitted],
        Or.inl isAt⟩
  | reloadPos isAt reads =>
      simp only [State.pc_goto, if_true, Pc.loadSequence.injEq] at isHead
      obtain ⟨rfl, rfl⟩ := isHead
      simp only [sequential, isAt] at admitted
      exact ⟨current reads admitted, by simp [current reads admitted],
        Or.inr (Or.inl ⟨_, isAt⟩)⟩
  | lost isAt reads =>
      simp only [State.pc_goto, if_true, Pc.loadSequence.injEq] at isHead
      obtain ⟨rfl, rfl⟩ := isHead
      simp only [sequential, isAt] at admitted
      exact ⟨current reads admitted, by simp [current reads admitted],
        Or.inr (Or.inr ⟨_, _, isAt, rfl⟩)⟩
  | loadSequence isAt reads =>
      simp only [State.pc_goto, if_true] at isHead
      exact absurd isHead (Pc.classify_ne_loadSequence _ _ _ _ _)
  | invoke isAt starts =>
      simp only [State.pc_goto, if_true] at isHead
      subst isHead
      have isConsidering := Pc.considering_start? starts
      cases isConsidering
  | checkClosed isAt reads | storeSequence isAt =>
      simp only [State.pc_goto, if_true] at isHead
      have isConsidering := congrArg Pc.considering isHead
      simp at isConsidering
  | _ =>
      simp at isHead

/-- A counter moves where a thread takes the ticket it stood at. -/
theorem Inv.takesTicket_of_lt
    (inv : Inv capacity state)
    (step :
      Step (Arithmetic.exact capacity) state thread action next)
    {side : Side}
    {ticket : Nat}
    (notDrawn : (state.pos side).newest ≤ ticket)
    (drawn : ticket < (next.pos side).newest) :
    TakesTicket ⟨side, ticket⟩ state ⟨thread, action⟩ next := by
  cases step with
  | claim isAt current =>
      rename_i caller number
      rw [inv.latest_pos] at current
      by_cases same : side = caller.side
      · subst same
        simp only [State.pos_goto, State.pos_claim, Function.update_self,
          Atomic.newest_store, current] at drawn
        rw [current] at notDrawn
        have isTicket : number = ticket :=
          Nat.le_antisymm notDrawn (Nat.le_of_lt_succ drawn)
        subst isTicket
        exact ⟨caller, rfl, isAt, by simp⟩
      · simp only [State.pos_goto, State.pos_claim,
          Function.update_of_ne same] at drawn
        exact absurd drawn (Nat.not_lt_of_le notDrawn)
  | _ =>
      simp only [State.pos_goto, State.pos_noteClose, State.pos_invoke,
        State.pos_respond, State.pos_setValue, State.pos_storeSequence,
        State.pos_storeClosed] at drawn
      exact absurd drawn (Nat.not_lt_of_le notDrawn)

end Tickets

section Iterations

variable [Inhabited α] {capacity thread ticket ticket' : Nat}
variable {caller : Caller α} {during : List (Label α)} {action : Action α}
variable {entered reached state : State α}

/-- Threads to reload their counters have been overtaken in every run. -/
theorem Overtaken.of_run
    (positive : 0 < capacity)
    {guard : StepGuard (State α) (Label α)}
    {labels : List (Label α)}
    (run :
      Run (step? (Arithmetic.exact capacity)) guard
        (initial (Arithmetic.exact capacity)) labels state) :
    Overtaken state := by
  refine run.invariant_of (Inv.of_run positive) ?_
    fun inv _ overtaken _ taken =>
      overtaken.step positive inv (Step.of_step? taken)
  intro thread caller ticket isAt
  simp [initial] at isAt

namespace Iteration

/-- During an iteration the thread keeps its local ticket. -/
theorem inLoop
    (iteration :
      Iteration capacity thread caller ticket ticket' during action entered
        reached) :
    (reached.threads thread).pc = .loadSequence caller ticket ∨
      (reached.threads thread).pc = .exchange caller ticket ∨
      (reached.threads thread).pc = .reloadPos caller ticket := by
  obtain ⟨_, head, runs, inside, again⟩ := iteration
  clear again
  induction runs with
  | start =>
      exact Or.inl head
  | snoc shorter admitted taken inductionHypothesis =>
      rename_i labels before after label
      by_cases own : label.thread = thread
      · right
        exact inside.final shorter taken own
      · rw [(Step.of_step? taken).pc_other (Ne.symm own)]
        exact inductionHypothesis inside.front

/-- An iteration starts at a reachable state that stands at its ticket. -/
theorem reachable
    (positive : 0 < capacity)
    (iteration :
      Iteration capacity thread caller ticket ticket' during action entered
        reached) :
    (∃ labels,
      Run (step? (Arithmetic.exact capacity))
        (sequential (Arithmetic.exact capacity))
        (initial (Arithmetic.exact capacity)) labels entered) ∧
      (entered.pos caller.side).newest = ticket := by
  obtain ⟨earlier, before, entry, run, admitted, taken⟩ := iteration.enters
  have current :=
    (Inv.of_run positive run).current_of_head admitted
      (Step.of_step? taken) iteration.head
  exact ⟨⟨_, run.snoc admitted taken⟩, current.2.1⟩

/-- An iteration that goes round again has been overtaken. -/
theorem overtaken
    (positive : 0 < capacity)
    (iteration :
      Iteration capacity thread caller ticket ticket' during action entered
        reached)
    (notSpurious : ¬ Spurious reached ⟨thread, action⟩) :
    ticket < (reached.pos caller.side).newest ∧
      (reached.pos caller.side).newest = ticket' := by
  obtain ⟨⟨labels, enters⟩, atEntry⟩ := iteration.reachable positive
  have run := enters.append iteration.runs
  have inv : Inv capacity reached := Inv.of_run positive run
  have isOvertaken : Overtaken reached := Overtaken.of_run positive run
  obtain ⟨last, caller', admitted, taken, head⟩ := iteration.again
  obtain ⟨current, _, origin⟩ :=
    inv.current_of_head admitted (Step.of_step? taken) head
  have notBack : ticket ≤ (reached.pos caller.side).newest := by
    rw [← atEntry]
    exact iteration.runs.monotone
      (fun state => (state.pos caller.side).newest)
      fun takes => (Step.of_step? takes).newest_pos_le caller.side
  rcases iteration.inLoop with atHead | atExchange | atReload
  · rcases origin with isAt | ⟨_, isAt⟩ | ⟨_, _, isAt, _⟩ <;>
      · rw [atHead] at isAt
        cases isAt
  · rcases origin with isAt | ⟨_, isAt⟩ | ⟨_, message, isAt, isLost⟩
    · rw [atExchange] at isAt
      cases isAt
    · rw [atExchange] at isAt
      cases isAt
    · rw [atExchange] at isAt
      cases isAt
      subst isLost
      have different : (reached.pos caller.side).newest ≠ ticket := by
        intro same
        apply notSpurious
        simp only [Spurious, atExchange]
        rw [inv.latest_pos, same]
      exact ⟨lt_of_le_of_ne notBack (Ne.symm different), current⟩
  · rcases origin with isAt | ⟨_, isAt⟩ | ⟨_, _, isAt, _⟩
    · rw [atReload] at isAt
      cases isAt
    · rw [atReload] at isAt
      cases isAt
      exact ⟨isOvertaken thread caller ticket atReload, current⟩
    · rw [atReload] at isAt
      cases isAt

/-- What overtakes an iteration is another thread with the same ticket. -/
theorem taken
    (positive : 0 < capacity)
    (iteration :
      Iteration capacity thread caller ticket ticket' during action entered
        reached)
    (beyond : ticket < (reached.pos caller.side).newest) :
    Happens (step? (Arithmetic.exact capacity))
      (sequential (Arithmetic.exact capacity)) entered during
      fun state label next =>
        label.thread ≠ thread ∧
          TakesTicket ⟨caller.side, ticket⟩ state label next := by
  obtain ⟨⟨labels, enters⟩, atEntry⟩ := iteration.reachable positive
  obtain ⟨earlier, label, later, state, next, shape, reaches, admitted,
    takes, notDrawn, drawn⟩ :=
    Happens.of_crossing (fun state => (state.pos caller.side).newest)
      ticket iteration.runs (Nat.le_of_eq atEntry) beyond
  have inv : Inv capacity state :=
    Inv.of_run positive (enters.append reaches)
  have takesTicket :=
    inv.takesTicket_of_lt (Step.of_step? takes) notDrawn drawn
  refine ⟨earlier, label, later, state, next, shape, reaches, admitted,
    takes, ?_, takesTicket⟩
  intro own
  obtain ⟨_, _, _, moves⟩ := takesTicket
  rw [own] at moves
  rcases iteration.inside earlier label later state next shape reaches
    takes own with stays | stays <;>
    · rw [stays] at moves
      cases moves

end Iteration

end Iterations

section Alone

variable {capacity thread : Nat} {caller : Caller α} {label : Label α}
variable {state next : State α}

namespace Pc

/-- A thread in its loop has steps left, at most six. -/
theorem remaining_bounds
    {pc : Pc α}
    (isIn : pc.attempting = some caller)
    (latest : Side → Nat) :
    0 < pc.remaining latest ∧ pc.remaining latest ≤ 6 := by
  cases pc with
  | loadSequence own ticket | exchange own ticket =>
      by_cases isCurrent : latest own.side = ticket <;>
        simp [remaining, isCurrent]
  | loadPos | reloadPos | moveValue | storeSequence =>
      simp [remaining]
  | _ =>
      cases isIn

@[simp] theorem remaining_afterFailure
    (caller : Caller α)
    (latest : Side → Nat) :
    caller.afterFailure.remaining latest = 0 := by
  rcases caller with _ | _ | ⟨_, _ | _⟩ | _ <;> rfl

@[simp] theorem remaining_afterSuccess
    (caller : Caller α)
    (latest : Side → Nat) :
    caller.afterSuccess.remaining latest = 0 := by
  cases caller <;> rfl

end Pc

/-- The sequence load of a thread alone brings it closer to the end. -/
theorem Inv.remaining_classify_lt
    (positive : 0 < capacity)
    (inv : Inv capacity state)
    {ticket message sequence : Nat}
    (reads :
      (state.slots (ticket % capacity)).sequence.read? message =
        some sequence) :
    (Pc.classify caller ticket
        ((Arithmetic.exact capacity).difference sequence
          ((Arithmetic.exact capacity).expected caller.side
            ticket))).remaining (fun side => (state.pos side).latest) <
      (Pc.loadSequence caller ticket).remaining
        fun side => (state.pos side).latest := by
  unfold Pc.classify
  split
  · by_cases isCurrent : (state.pos caller.side).latest = ticket <;>
      simp [Pc.remaining, isCurrent]
  · rename_i nonzero
    split
    · rw [Pc.remaining_afterFailure]
      exact (Pc.remaining_bounds rfl _).1
    · rename_i notNegative
      have ahead := lt_of_le_of_ne (not_lt.mp notNegative) (Ne.symm nonzero)
      have drawn := inv.drawn_of_positive positive reads ahead
      have isStale : (state.pos caller.side).latest ≠ ticket := by
        rw [inv.latest_pos]
        exact Nat.ne_of_gt drawn
      simp [Pc.remaining, isStale]

/-- Each step of a thread alone in its loop brings it closer to the end. -/
theorem Inv.remaining_lt
    (positive : 0 < capacity)
    (inv : Inv capacity state)
    (isIn : (state.threads thread).pc.attempting = some caller)
    (admitted : alone (Arithmetic.exact capacity) thread state label)
    (taken : step? (Arithmetic.exact capacity) state label = some next) :
    next.remaining thread < state.remaining thread := by
  rcases label with ⟨mover, action⟩
  obtain ⟨own, current, notSpurious⟩ := admitted
  simp only at own
  subst own
  have isLatest :
      ∀ {side message ticket},
        (state.pos side).read? message = some ticket →
        message = (state.pos side).newest →
        (state.pos side).latest = ticket := by
    rintro side message ticket reads rfl
    rw [Atomic.read?_newest] at reads
    exact Option.some.inj reads
  cases Step.of_step? taken with
  | loadPos isAt reads | reloadPos isAt reads =>
      simp only [sequential, isAt] at current
      simp [State.remaining, Pc.remaining, isAt, isLatest reads current]
  | lost isAt reads =>
      simp only [sequential, isAt] at current
      simp only [Spurious, isAt] at notSpurious
      simp [State.remaining, Pc.remaining, isAt, isLatest reads current,
        isLatest reads current ▸ notSpurious]
  | loadSequence isAt reads =>
      rename_i caller ticket message sequence
      have closer :
          (Pc.classify caller ticket _).remaining _ < _ :=
        inv.remaining_classify_lt positive reads
      simpa [State.remaining, isAt] using closer
  | claim isAt =>
      simp only [State.remaining, State.pc_goto, if_true, isAt,
        Pc.remaining]
      split <;> decide
  | moveValue isAt =>
      simp [State.remaining, Pc.remaining, isAt]
  | storeSequence isAt =>
      have left := (Pc.remaining_bounds isIn fun side =>
        (state.pos side).latest).1
      simpa [State.remaining] using left
  | _ isAt =>
      simp only at isAt
      rw [isAt] at isIn
      cases isIn

/-- A step of a thread in its loop makes the loop return or stays in it. -/
theorem Step.loopReturns
    {arithmetic : Arithmetic}
    {action : Action α}
    (step : Step arithmetic state thread action next)
    (isIn : (state.threads thread).pc.attempting = some caller) :
    LoopReturns thread state next ∨
      ∃ caller', (next.threads thread).pc.attempting = some caller' := by
  cases step with
  | loadSequence isAt reads =>
      rename_i own ticket message sequence
      have isOwn : (state.threads thread).pc.attempting = some own := by
        rw [isAt]
        rfl
      simp only [State.pc_goto, if_true, LoopReturns]
      unfold Pc.classify
      split
      · exact Or.inr ⟨own, rfl⟩
      · split
        · exact Or.inl ⟨own, isOwn, Or.inl rfl⟩
        · exact Or.inr ⟨own, rfl⟩
  | storeSequence isAt =>
      rename_i own ticket
      left
      exact ⟨own, by rw [isAt]; rfl, Or.inr (by simp)⟩
  | loadPos | reloadPos | claim | lost | moveValue =>
      right
      simp [Pc.attempting]
  | _ isAt =>
      rw [isAt] at isIn
      cases isIn

/-- A thread in its loop can take a step on its own. -/
theorem exists_alone
    [Inhabited α]
    (arithmetic : Arithmetic)
    (isIn : (state.threads thread).pc.attempting = some caller) :
    ∃ label next,
      alone arithmetic thread state label ∧
        step? arithmetic state label = some next := by
  suffices enabled :
      ∃ action,
        alone arithmetic thread state ⟨thread, action⟩ ∧
          (step? arithmetic state ⟨thread, action⟩).isSome by
    obtain ⟨action, admitted, isSome⟩ := enabled
    obtain ⟨next, taken⟩ := Option.isSome_iff_exists.mp isSome
    exact ⟨⟨thread, action⟩, next, admitted, taken⟩
  cases isAt : (state.threads thread).pc with
  | loadPos own | reloadPos own =>
      refine ⟨.load (state.pos own.side).newest, ⟨rfl, ?_, ?_⟩, ?_⟩
      · simp [sequential, isAt]
      · simp [Spurious, isAt]
      · simp [step?, isAt, Atomic.read?_newest]
  | loadSequence own ticket =>
      refine ⟨.load
        (state.slots (arithmetic.slotIndex ticket)).sequence.newest,
        ⟨rfl, ?_, ?_⟩, ?_⟩
      · simp [sequential, isAt]
      · simp [Spurious, isAt]
      · simp [step?, isAt, Atomic.read?_newest]
  | exchange own ticket =>
      by_cases isCurrent : (state.pos own.side).latest = ticket
      · refine ⟨.exchange none, ⟨rfl, ?_, ?_⟩, ?_⟩
        · simp [sequential, isAt]
        · simp [Spurious, isAt]
        · simp [step?, isAt, isCurrent]
      · refine ⟨.exchange (some (state.pos own.side).newest),
          ⟨rfl, ?_, ?_⟩, ?_⟩
        · simp [sequential, isAt]
        · simp [Spurious, isAt, isCurrent]
        · simp [step?, isAt, Atomic.read?_newest]
  | moveValue own ticket =>
      refine ⟨.move default, ⟨rfl, ?_, ?_⟩, ?_⟩
      · simp [sequential, isAt]
      · simp [Spurious, isAt]
      · simp [step?, isAt]
  | storeSequence own ticket =>
      refine ⟨.store, ⟨rfl, ?_, ?_⟩, ?_⟩
      · simp [sequential, isAt]
      · simp [Spurious, isAt]
      · simp [step?, isAt]
  | _ =>
      rw [isAt] at isIn
      cases isIn

/-- A thread alone has left its loop or has come closer to its end. -/
theorem alone_remaining
    [Inhabited α]
    (positive : 0 < capacity)
    {labels more : List (Label α)}
    {last : State α}
    {guard : StepGuard (State α) (Label α)}
    (run :
      Run (step? (Arithmetic.exact capacity)) guard
        (initial (Arithmetic.exact capacity)) labels state)
    (isIn : (state.threads thread).pc.attempting = some caller)
    (solo :
      Run (step? (Arithmetic.exact capacity))
        (alone (Arithmetic.exact capacity) thread) state more last) :
    Happens (step? (Arithmetic.exact capacity))
        (alone (Arithmetic.exact capacity) thread) state more
        (fun before _ next => LoopReturns thread before next) ∨
      (∃ caller', (last.threads thread).pc.attempting = some caller') ∧
        more.length + last.remaining thread ≤ state.remaining thread := by
  induction solo with
  | start =>
      right
      exact ⟨⟨caller, isIn⟩, by simp⟩
  | snoc earlier admitted taken inductionHypothesis =>
      rename_i more before after label
      rw [Happens.snoc_iff earlier admitted taken]
      rcases inductionHypothesis with returned | ⟨⟨own, stillIn⟩, bound⟩
      · exact Or.inl (Or.inl returned)
      · have inv : Inv capacity before :=
          Inv.of_run positive (run.free.append earlier.free)
        have closer := inv.remaining_lt positive stillIn admitted taken
        have step := Step.of_step? taken
        rw [admitted.1] at step
        rcases step.loopReturns stillIn with returns | staysIn
        · exact Or.inl (Or.inr returns)
        · right
          refine ⟨staysIn, ?_⟩
          rw [List.length_append, List.length_singleton]
          omega

end Alone

/-- No claim loop of a queue spins on its own. -/
theorem claim_loops_progress
    [Inhabited α]
    {capacity : Nat}
    (positive : 0 < capacity) :
    LoopsProgress α capacity where
  ticket_le := by
    intro labels thread ticket state run isLocal
    have inv : Inv capacity state := Inv.of_run positive run
    rw [inv.latest_pos]
    exact inv.localTicket_le isLocal
  advances := by
    intro thread caller ticket ticket' during action entered reached
      iteration notSpurious
    obtain ⟨beyond, isNext⟩ := iteration.overtaken positive notSpurious
    constructor
    · rw [← isNext]
      exact beyond
    · exact iteration.taken positive beyond
  returns := by
    intro labels thread caller more state last run isIn solo
    rcases alone_remaining positive run isIn solo with
      returned | ⟨⟨own, stillIn⟩, bound⟩
    · exact Or.inl returned
    · right
      refine ⟨?_, exists_alone _ stillIn⟩
      have before :
          0 < last.remaining thread :=
        (Pc.remaining_bounds stillIn _).1
      have atFirst :
          state.remaining thread ≤ 6 :=
        (Pc.remaining_bounds isIn _).2
      omega

/-- A push loads its ticket, and another one takes that ticket first. -/
def overtakenPush : List (Label Nat) :=
  [⟨1, .invoke (.tryPush 8)⟩, ⟨1, .load 0⟩, ⟨1, .load 0⟩, ⟨1, .load 0⟩,
    ⟨0, .load 0⟩, ⟨1, .exchange none⟩]

theorem claim_loops_progress_one :
    ∃ entered reached,
      Iteration 1 0 (.tryPush 7) 0 1 overtakenPush (.exchange (some 1))
          entered reached ∧
        Happens (step? (Arithmetic.exact 1))
          (sequential (Arithmetic.exact 1)) entered overtakenPush
          (fun state label next =>
            label.thread ≠ 0 ∧
              TakesTicket ⟨.producer, 0⟩ state label next) ∧
        ∃ label next,
          alone (Arithmetic.exact 1) 0 reached label ∧
            step? (Arithmetic.exact 1) reached label = some next := by
  have replayed :
      ∃ before entered reached last,
        replay? (step? (Arithmetic.exact 1))
              (sequential (Arithmetic.exact 1))
              (initial (Arithmetic.exact 1))
              [⟨0, .invoke (.tryPush 7)⟩, ⟨0, .load 0⟩] = some before ∧
          sequential (Arithmetic.exact 1) before ⟨0, .load 0⟩ ∧
          step? (Arithmetic.exact 1) before ⟨0, .load 0⟩ = some entered ∧
          (entered.threads 0).pc = .loadSequence (.tryPush 7) 0 ∧
          replay? (step? (Arithmetic.exact 1))
              (sequential (Arithmetic.exact 1)) entered overtakenPush =
            some reached ∧
          (∀ state ∈ trace (step? (Arithmetic.exact 1)) entered
              overtakenPush,
            ((step? (Arithmetic.exact 1) state ⟨0, .load 0⟩).all fun next =>
              (next.threads 0).pc = .exchange (.tryPush 7) 0) = true) ∧
          sequential (Arithmetic.exact 1) reached
            ⟨0, .exchange (some 1)⟩ ∧
          step? (Arithmetic.exact 1) reached ⟨0, .exchange (some 1)⟩ =
            some last ∧
          (last.threads 0).pc = .loadSequence (.tryPush 7) 1 ∧
          (reached.threads 0).pc = .exchange (.tryPush 7) 0 ∧
          (reached.pos .producer).latest = 1 :=
    ⟨_, _, _, _, rfl, rfl, rfl, rfl, rfl, by decide, rfl, rfl, rfl, rfl,
      rfl⟩
  obtain ⟨before, entered, reached, last, reaches, admitted, enters, head,
    follows, stays, admitted', again, isNext, atExchange, isTaken⟩ :=
    replayed
  have own :
      ∀ label ∈ overtakenPush,
        label.thread = 0 → label = ⟨0, .load 0⟩ := by
    decide
  have iteration :
      Iteration 1 0 (.tryPush 7) 0 1 overtakenPush (.exchange (some 1))
        entered reached :=
    { enters :=
        ⟨_, before, _, Run.of_replay? reaches, admitted, enters⟩
      head := head
      runs := Run.of_replay? follows
      inside := by
        intro earlier label later state next shape during taken isOwn
        have isLoad := own label (by simp [shape]) isOwn
        subst isLoad
        have passes :
            Passes (step? (Arithmetic.exact 1))
              (sequential (Arithmetic.exact 1)) entered overtakenPush
              state :=
          ⟨earlier, _, shape, during⟩
        have exchanges := stays state passes.mem_trace
        rw [taken] at exchanges
        exact Or.inl (of_decide_eq_true exchanges)
      again := ⟨last, _, admitted', again, isNext⟩ }
  have progress : LoopsProgress Nat 1 := claim_loops_progress (by decide)
  have notSpurious : ¬ Spurious reached ⟨0, .exchange (some 1)⟩ := by
    simp [Spurious, atExchange, Caller.side, isTaken]
  have isIn :
      (reached.threads 0).pc.attempting = some (.tryPush 7) := by
    rw [atExchange]
    rfl
  refine ⟨entered, reached, iteration,
    (progress.advances iteration notSpurious).2, ?_⟩
  have run :=
    ((Run.of_replay? reaches).snoc admitted enters).append iteration.runs
  rcases progress.returns run isIn .start with returned | ⟨_, canStep⟩
  · exact absurd returned Happens.not_nil
  · exact canStep

end ConcurrentQueue.Mpmc
