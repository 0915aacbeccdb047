import ConcurrentQueue.Mpmc.Tickets

namespace ConcurrentQueue.Mpmc

/-!
# Calls, their tickets and the stores they make

The history of a run and the program counters agree: a thread inside a claim
loop has drawn no ticket, a thread past a winning exchange has drawn exactly
the one it holds, and the result a call is about to return says whether it
drew one.  On each side the tickets appear in the history in increasing order,
and every change of a slot's sequence was made by the call that drew the
ticket.
-/

open TicketRing

variable {α : Type}

/-- The side whose claim loop a member function runs. -/
def sideOf? : Op α → Option Side
  | .push _ | .tryPush _ => some .producer
  | .pop _ | .tryPop _ => some .consumer
  | _ => none

/-- The call that a claim loop belongs to, while its local is untouched. -/
def Caller.op : Caller α → Op α
  | .push value => .push value
  | .tryPush value => .tryPush value
  | .pop out _ => .pop out
  | .tryPop out => .tryPop out

@[simp] theorem sideOf?_op (caller : Caller α) :
    sideOf? caller.op = some caller.side := by
  cases caller <;> rfl

/-- The calls of the producer side are pushes. -/
theorem isPush_of_sideOf?
    {op : Op α}
    (isProducer : sideOf? op = some .producer) :
    op.isPush = true := by
  cases op <;> simp_all [sideOf?, Op.isPush]

/-- The calls of the consumer side are pops. -/
theorem isPop_of_sideOf?
    {op : Op α}
    (isConsumer : sideOf? op = some .consumer) :
    op.isPop = true := by
  cases op <;> simp_all [sideOf?, Op.isPop]

/-- The results a call may return after drawing the given tickets. -/
def Answers (op : Op α) (drawn : List Ticket) : Result α → Prop
  | .pushed true =>
      sideOf? op = some .producer ∧ ∃ number, drawn = [⟨.producer, number⟩]
  | .pushed false =>
      sideOf? op = some .producer ∧ drawn = []
  | .popped true _ =>
      sideOf? op = some .consumer ∧ ∃ number, drawn = [⟨.consumer, number⟩]
  | .popped false out =>
      (op = .pop out ∨ op = .tryPop out) ∧ drawn = []
  | .done => op = .close ∧ drawn = []
  | .closed _ => op = .closed ∧ drawn = []
  | .size _ => op = .size ∧ drawn = []
  | .capacity _ => op = .capacity ∧ drawn = []
  | _ => False

/-- A call that drew a ticket returned the success of its side. -/
theorem Answers.of_mem
    {op : Op α}
    {drawn : List Ticket}
    {result : Result α}
    (answers : Answers op drawn result)
    {ticket : Ticket}
    (member : ticket ∈ drawn) :
    sideOf? op = some ticket.side ∧ drawn = [ticket] ∧
      match ticket.side with
      | .producer => result = .pushed true
      | .consumer => ∃ out, result = .popped true out := by
  cases result with
  | pushed accepted =>
      cases accepted with
      | true =>
          obtain ⟨sameSide, number, rfl⟩ := answers
          simp only [List.mem_singleton] at member
          subst member
          exact ⟨sameSide, rfl, rfl⟩
      | false =>
          simp [answers.2] at member
  | popped isDelivered out =>
      cases isDelivered with
      | true =>
          obtain ⟨sameSide, number, rfl⟩ := answers
          simp only [List.mem_singleton] at member
          subst member
          exact ⟨sameSide, rfl, out, rfl⟩
      | false =>
          simp [answers.2] at member
  | done | closed | size | capacity =>
      simp [answers.2] at member
  | pushedN | poppedN | pushThrew | popThrew =>
      exact answers.elim

/-- The call in progress that a program counter stands for. -/
def Agrees (opened : Option (OpenCall (Op α) Ticket)) : Pc α → Prop
  | .idle => opened = none
  | .checkClosed caller | .loadPos caller | .loadSequence caller _
  | .exchange caller _ | .reloadPos caller _ =>
      ∃ call, opened = some ⟨call, caller.op, []⟩
  | .moveValue caller ticket =>
      ∃ call, opened = some ⟨call, caller.op, [⟨caller.side, ticket⟩]⟩
  | .storeSequence caller ticket =>
      ∃ call op,
        opened = some ⟨call, op, [⟨caller.side, ticket⟩]⟩ ∧
          sideOf? op = some caller.side
  | .storeClosed => ∃ call, opened = some ⟨call, .close, []⟩
  | .loadClosed => ∃ call, opened = some ⟨call, .closed, []⟩
  | .sizeTail | .sizeHead _ => ∃ call, opened = some ⟨call, .size, []⟩
  | .returning result =>
      ∃ call op drawn,
        opened = some ⟨call, op, drawn⟩ ∧ Answers op drawn result

section Agreement

variable {call : Nat} {caller : Caller α}

/-- A call agrees with its first program point. -/
theorem agrees_start?
    {slots : Nat}
    {op : Op α}
    {pc : Pc α}
    (starts : Pc.start? slots op = some pc) :
    Agrees (some ⟨call, op, []⟩) pc := by
  cases op <;>
    simp only [Pc.start?, Option.some.injEq, reduceCtorEq] at starts <;>
    subst starts <;> simp [Agrees, Caller.op, Answers]

/-- Looking at the closed flag draws no ticket. -/
theorem agrees_afterClosedLoad (flag : Bool) :
    Agrees (some ⟨call, caller.op, []⟩) (caller.afterClosedLoad flag) := by
  cases caller <;> cases flag <;>
    simp [Caller.afterClosedLoad, Agrees, Caller.op, Answers, sideOf?]

/-- A claim loop that failed drew no ticket. -/
theorem agrees_afterFailure :
    Agrees (some ⟨call, caller.op, []⟩) caller.afterFailure := by
  rcases caller with _ | _ | ⟨_, _ | _⟩ | _ <;>
    simp [Caller.afterFailure, Agrees, Caller.op, Answers, sideOf?]

/-- Classifying a sequence draws no ticket. -/
theorem agrees_classify (ticket : Nat) (dif : Int) :
    Agrees (some ⟨call, caller.op, []⟩) (.classify caller ticket dif) := by
  unfold Pc.classify
  split
  · exact ⟨call, rfl⟩
  · split
    · exact agrees_afterFailure
    · exact ⟨call, rfl⟩

/-- A claim loop that succeeded drew the ticket it held. -/
theorem agrees_afterSuccess
    {op : Op α}
    {ticket : Nat}
    (sameSide : sideOf? op = some caller.side) :
    Agrees (some ⟨call, op, [⟨caller.side, ticket⟩]⟩)
      caller.afterSuccess := by
  cases caller <;>
    simpa [Caller.afterSuccess, Agrees, Answers, Caller.side] using sameSide

/-- A ticket is drawn on the side of the call's claim loop. -/
theorem sideOf?_of_drawn
    {opened : OpenCall (Op α) Ticket}
    {pc : Pc α}
    (agrees : Agrees (some opened) pc)
    {ticket : Ticket}
    (member : ticket ∈ opened.marks) :
    sideOf? opened.op = some ticket.side := by
  cases pc with
  | idle =>
      simp [Agrees] at agrees
  | moveValue caller number =>
      obtain ⟨call, shape⟩ := agrees
      cases shape
      simp only [List.mem_singleton] at member
      simp [member]
  | storeSequence caller number =>
      obtain ⟨call, op, shape, sameSide⟩ := agrees
      cases shape
      simp only [List.mem_singleton] at member
      simp [member, sameSide]
  | returning result =>
      obtain ⟨call, op, drawn, shape, answers⟩ := agrees
      cases shape
      exact (answers.of_mem member).1
  | checkClosed | loadPos | loadSequence | exchange | reloadPos
  | storeClosed | loadClosed | sizeTail | sizeHead =>
      obtain ⟨call, shape⟩ := agrees
      cases shape
      simp at member

/-- A thread that agrees with no call is idle. -/
theorem eq_idle_of_agrees
    {pc : Pc α}
    (agrees : Agrees none pc) :
    pc = .idle := by
  cases pc <;> simp_all [Agrees]

end Agreement

/-- The ticket under which a slot makes one particular change. -/
def ticketAt (capacity index message : Nat) : Ticket where
  side := if message % 2 = 0 then .producer else .consumer
  number := index + message / 2 * capacity

/-- The change made in the stage of a ticket is the change of that ticket. -/
theorem ticketAt_stage (capacity : Nat) (ticket : Ticket) :
    ticketAt capacity (slotOf capacity ticket) (stage capacity ticket) =
      ticket := by
  rcases ticket with ⟨side, number⟩
  have whole :
      number % capacity + number / capacity * capacity = number := by
    rw [Nat.mul_comm]
    exact Nat.mod_add_div number capacity
  cases side with
  | producer =>
      have half : 2 * (number / capacity) / 2 = number / capacity := by
        omega
      simp [ticketAt, slotOf, stage, turn, half, whole]
  | consumer =>
      have half : (2 * (number / capacity) + 1) / 2 = number / capacity := by
        omega
      have odd : (2 * (number / capacity) + 1) % 2 = 1 := by
        omega
      simp [ticketAt, slotOf, stage, turn, half, odd, whole]

/-- The number of the ticket that an event draws on one side. -/
def drawnOn?
    (side : Side) :
    Event Nat (Op α) Ticket (Result α) → Option Nat
  | .mark _ ticket => if ticket.side = side then some ticket.number else none
  | _ => none

/-- The history accounts for program counters, counters and sequences. -/
structure Tracked (capacity : Nat) (state : State α) : Prop where
  wellFormed : state.log.WellFormed
  agrees :
    ∀ thread,
      Agrees (state.log.current thread) (state.threads thread).pc
  authored :
    ∀ {index message call},
      index < capacity →
      (state.slots index).sequence.author? (message + 1) = some call →
      .mark call (ticketAt capacity index message) ∈ state.log.history
  drawn :
    ∀ side,
      state.log.history.filterMap (drawnOn? side) =
        List.range (state.pos side).newest
  answered :
    ∀ {call op tickets result},
      state.log.Completed call op tickets result →
      Answers op tickets result

namespace Tracked

variable {capacity : Nat} {state : State α}

/-- The constructor starts with an empty history. -/
theorem initial [Inhabited α] (arithmetic : Arithmetic) :
    Tracked capacity (initial arithmetic : State α) where
  wellFormed := CallLog.WellFormed.empty
  agrees := by
    intro thread
    rfl
  authored := by
    intro index message call _ authored
    simp [Mpmc.initial, Atomic.author?] at authored
  drawn := by
    intro side
    cases side <;> rfl
  answered := by
    rintro call op tickets result ⟨thread, invoked, _⟩
    simp [Mpmc.initial] at invoked

/-- A thread about to exchange has a call without tickets. -/
theorem current_of_exchange
    (tracked : Tracked capacity state)
    {thread : Nat}
    {caller : Caller α}
    {ticket : Nat}
    (isAt : (state.threads thread).pc = .exchange caller ticket) :
    ∃ call, state.log.current thread = some ⟨call, caller.op, []⟩ := by
  have agrees := tracked.agrees thread
  rw [isAt] at agrees
  exact agrees

/-- The log of a state reached by one step is well formed. -/
theorem wellFormed_step
    (tracked : Tracked capacity state)
    {arithmetic : Arithmetic}
    {thread : Nat}
    {action : Action α}
    {next : State α}
    (step : Step arithmetic state thread action next) :
    next.log.WellFormed := by
  have agrees := tracked.agrees thread
  cases step with
  | invoke isAt starts =>
      rw [isAt] at agrees
      exact tracked.wellFormed.invoke agrees _
  | claim isAt current =>
      obtain ⟨call, isCurrent⟩ := tracked.current_of_exchange isAt
      simp only [State.log_goto, State.log_claim]
      exact tracked.wellFormed.mark isCurrent _
  | respond isAt =>
      rw [isAt] at agrees
      obtain ⟨call, op, drawn, isCurrent, _⟩ := agrees
      exact tracked.wellFormed.respond isCurrent _
  | checkClosed | loadClosed =>
      simpa using tracked.wellFormed
  | loadPos | reloadPos | loadSequence | lost | moveValue | storeSequence
  | storeClosed | sizeTail | sizeHead =>
      exact tracked.wellFormed

/-- The moving thread agrees with its call after the step. -/
theorem agrees_self
    (tracked : Tracked capacity state)
    {arithmetic : Arithmetic}
    {thread : Nat}
    {action : Action α}
    {next : State α}
    (step : Step arithmetic state thread action next) :
    Agrees (next.log.current thread) (next.threads thread).pc := by
  have agrees := tracked.agrees thread
  cases step with
  | invoke isAt starts =>
      simpa using agrees_start? starts
  | checkClosed isAt reads =>
      rw [isAt] at agrees
      obtain ⟨call, isCurrent⟩ := agrees
      simpa [isCurrent] using agrees_afterClosedLoad _
  | loadSequence isAt reads =>
      rw [isAt] at agrees
      obtain ⟨call, isCurrent⟩ := agrees
      simpa [isCurrent] using agrees_classify _ _
  | claim isAt current =>
      obtain ⟨call, isCurrent⟩ := tracked.current_of_exchange isAt
      simp [CallLog.mark_of_current _ isCurrent, Agrees]
  | moveValue isAt =>
      rw [isAt] at agrees
      obtain ⟨call, isCurrent⟩ := agrees
      simp [isCurrent, Agrees]
  | storeSequence isAt =>
      rw [isAt] at agrees
      obtain ⟨call, op, isCurrent, sameSide⟩ := agrees
      simpa [isCurrent] using agrees_afterSuccess sameSide
  | respond isAt =>
      rw [isAt] at agrees
      obtain ⟨call, op, drawn, isCurrent, _⟩ := agrees
      simp [CallLog.respond_of_current _ isCurrent, Agrees]
  | storeClosed isAt | loadClosed isAt | sizeHead isAt =>
      rw [isAt] at agrees
      obtain ⟨call, isCurrent⟩ := agrees
      simp [isCurrent, Agrees, Answers]
  | loadPos isAt reads | reloadPos isAt reads | lost isAt reads
  | sizeTail isAt reads =>
      rw [isAt] at agrees
      obtain ⟨call, isCurrent⟩ := agrees
      simp [isCurrent, Agrees]

/-- A step touches no call but that of the moving thread. -/
theorem current_other
    {arithmetic : Arithmetic}
    {thread other : Nat}
    {action : Action α}
    {next : State α}
    (step : Step arithmetic state thread action next)
    (different : other ≠ thread) :
    next.log.current other = state.log.current other := by
  cases step with
  | invoke => simp [different]
  | claim => simp [CallLog.current_mark_of_ne _ different]
  | respond => simp [CallLog.current_respond_of_ne _ different]
  | _ => simp

/-- A step only extends the history. -/
theorem history_sublist
    {arithmetic : Arithmetic}
    {thread : Nat}
    {action : Action α}
    {next : State α}
    (step : Step arithmetic state thread action next) :
    state.log.history.Sublist next.log.history := by
  cases step with
  | invoke => simp
  | claim => simpa using state.log.history_sublist_mark thread _
  | respond => simpa using state.log.history_sublist_respond thread _
  | _ => simp

theorem history_subset
    {arithmetic : Arithmetic}
    {thread : Nat}
    {action : Action α}
    {next : State α}
    (step : Step arithmetic state thread action next) :
    state.log.history ⊆ next.log.history :=
  (history_sublist step).subset

/-- The events that a step may add to the history. -/
theorem history_step
    (tracked : Tracked capacity state)
    {arithmetic : Arithmetic}
    {thread : Nat}
    {action : Action α}
    {next : State α}
    (step : Step arithmetic state thread action next) :
    next.log.history = state.log.history ∨
      (∃ op,
        action = .invoke op ∧ (state.threads thread).pc = .idle ∧
          next.log.history = state.log.history ++
            [.invoke thread state.log.nextCall op]) ∨
      (∃ caller ticket opened,
        (state.threads thread).pc = .exchange caller ticket ∧
          (state.pos caller.side).latest = ticket ∧
          state.log.current thread = some opened ∧
          next.log.history = state.log.history ++
            [.mark opened.call ⟨caller.side, ticket⟩]) ∨
      ∃ result opened,
        (state.threads thread).pc = .returning result ∧
          state.log.current thread = some opened ∧
          next.log.history = state.log.history ++
            [.respond thread opened.call result] := by
  have agrees := tracked.agrees thread
  cases step with
  | invoke isAt starts =>
      exact Or.inr (Or.inl ⟨_, rfl, isAt, rfl⟩)
  | claim isAt current =>
      obtain ⟨call, isCurrent⟩ := tracked.current_of_exchange isAt
      refine Or.inr (Or.inr (Or.inl ⟨_, _, _, isAt, current, isCurrent, ?_⟩))
      simp [CallLog.mark_of_current _ isCurrent]
  | respond isAt =>
      rw [isAt] at agrees
      obtain ⟨call, op, drawn, isCurrent, _⟩ := agrees
      refine Or.inr (Or.inr (Or.inr ⟨_, _, isAt, isCurrent, ?_⟩))
      simp [CallLog.respond_of_current _ isCurrent]
  | _ =>
      left
      simp

/-- An invocation is added by an idle thread. -/
theorem invoke_mem_step
    (tracked : Tracked capacity state)
    {arithmetic : Arithmetic}
    {thread : Nat}
    {action : Action α}
    {next : State α}
    (step : Step arithmetic state thread action next)
    {owner call : Nat}
    {op : Op α}
    (invoked : .invoke owner call op ∈ next.log.history) :
    .invoke owner call op ∈ state.log.history ∨
      owner = thread ∧ call = state.log.nextCall ∧ action = .invoke op ∧
        (state.threads thread).pc = .idle := by
  rcases tracked.history_step step with
    same | ⟨_, isInvoke, isIdle, shape⟩ | ⟨_, _, _, _, _, _, shape⟩
    | ⟨_, _, _, _, shape⟩
  · rw [same] at invoked
    exact Or.inl invoked
  · simp only [shape, List.mem_append, List.mem_singleton,
      Event.invoke.injEq] at invoked
    rcases invoked with old | ⟨rfl, rfl, rfl⟩
    · exact Or.inl old
    · exact Or.inr ⟨rfl, rfl, isInvoke, isIdle⟩
  · left
    simpa [shape] using invoked
  · left
    simpa [shape] using invoked

/-- A ticket is added by a winning exchange. -/
theorem mark_mem_step
    (tracked : Tracked capacity state)
    {arithmetic : Arithmetic}
    {thread : Nat}
    {action : Action α}
    {next : State α}
    (step : Step arithmetic state thread action next)
    {call : Nat}
    {ticket : Ticket}
    (marked : .mark call ticket ∈ next.log.history) :
    .mark call ticket ∈ state.log.history ∨
      ∃ caller,
        (state.threads thread).pc = .exchange caller ticket.number ∧
          caller.side = ticket.side := by
  rcases tracked.history_step step with
    same | ⟨_, _, _, shape⟩ | ⟨caller, number, _, isAt, _, _, shape⟩
    | ⟨_, _, _, _, shape⟩
  · rw [same] at marked
    exact Or.inl marked
  · left
    simpa [shape] using marked
  · simp only [shape, List.mem_append, List.mem_singleton,
      Event.mark.injEq] at marked
    rcases marked with old | ⟨_, rfl⟩
    · exact Or.inl old
    · exact Or.inr ⟨caller, isAt, rfl⟩
  · left
    simpa [shape] using marked

/-- A response is added by a thread that returns. -/
theorem respond_mem_step
    (tracked : Tracked capacity state)
    {arithmetic : Arithmetic}
    {thread : Nat}
    {action : Action α}
    {next : State α}
    (step : Step arithmetic state thread action next)
    {owner call : Nat}
    {result : Result α}
    (returned : .respond owner call result ∈ next.log.history) :
    .respond owner call result ∈ state.log.history ∨
      owner = thread ∧ (state.threads thread).pc = .returning result ∧
        ∃ op tickets,
          state.log.current thread = some ⟨call, op, tickets⟩ := by
  rcases tracked.history_step step with
    same | ⟨_, _, _, shape⟩ | ⟨_, _, _, _, _, _, shape⟩
    | ⟨_, opened, isAt, isCurrent, shape⟩
  · rw [same] at returned
    exact Or.inl returned
  · left
    simpa [shape] using returned
  · left
    simpa [shape] using returned
  · simp only [shape, List.mem_append, List.mem_singleton,
      Event.respond.injEq] at returned
    rcases returned with old | ⟨rfl, rfl, rfl⟩
    · exact Or.inl old
    · exact Or.inr ⟨rfl, isAt, opened.op, opened.marks, isCurrent⟩

/-- A sequence is stored by the call that drew the ticket of the change. -/
theorem authored_step
    (tracked : Tracked capacity state)
    (inv : Inv capacity state)
    {thread : Nat}
    {action : Action α}
    {next : State α}
    (step :
      Step (Arithmetic.exact capacity) state thread action next)
    {index message call : Nat}
    (inRange : index < capacity)
    (authored :
      (next.slots index).sequence.author? (message + 1) = some call) :
    .mark call (ticketAt capacity index message) ∈ next.log.history := by
  have kept := history_subset step
  cases step with
  | storeSequence isAt =>
      rename_i caller ticket
      have held := inv.phase_of_storeSequence isAt
      have agrees := tracked.agrees thread
      rw [isAt] at agrees
      obtain ⟨opened, op, isCurrent, _⟩ := agrees
      simp only [State.slots_goto, State.sequence_storeSequence] at authored
      split at authored
      · rename_i same
        rw [Atomic.author?_store] at authored
        split at authored
        · rename_i isNew
          simp only [State.callOf, isCurrent, Option.some.injEq] at authored
          have stageShape :
              message = stage capacity ⟨caller.side, ticket⟩ := by
            rw [← held]
            exact Nat.succ_inj.mp isNew
          have ticketShape :
              ticketAt capacity index message =
                ⟨caller.side, ticket⟩ := by
            rw [same, stageShape]
            exact ticketAt_stage capacity ⟨caller.side, ticket⟩
          rw [ticketShape, ← authored]
          refine CallLog.mem_marksOf.mp ?_
          have marks := tracked.wellFormed.currentMarks isCurrent
          simp only at marks
          simp [marks]
        · refine tracked.authored inRange ?_
          rwa [same]
      · exact tracked.authored inRange authored
  | _ =>
      refine kept (tracked.authored inRange ?_)
      simpa using authored

/-- A winning exchange draws the next ticket; no other step draws one. -/
theorem drawn_step
    (tracked : Tracked capacity state)
    (inv : Inv capacity state)
    {thread : Nat}
    {action : Action α}
    {next : State α}
    (step :
      Step (Arithmetic.exact capacity) state thread action next)
    (side : Side) :
    next.log.history.filterMap (drawnOn? side) =
      List.range (next.pos side).newest := by
  have drawn := tracked.drawn side
  cases step with
  | claim isAt current =>
      rename_i caller ticket
      rw [inv.latest_pos] at current
      obtain ⟨call, isCurrent⟩ := tracked.current_of_exchange isAt
      simp only [State.log_goto, State.log_claim,
        CallLog.mark_of_current _ isCurrent, List.filterMap_append,
        drawn, State.pos_goto, State.pos_claim, Function.update_apply]
      by_cases same : side = caller.side
      · simp [drawnOn?, same, List.range_succ, current]
      · have otherSide : caller.side ≠ side := fun eq => same eq.symm
        simp [drawnOn?, same, otherSide]
  | invoke isAt starts =>
      simpa [List.filterMap_cons, drawnOn?] using drawn
  | respond isAt =>
      have agrees := tracked.agrees thread
      rw [isAt] at agrees
      obtain ⟨call, op, tickets, isCurrent, _⟩ := agrees
      simpa [CallLog.respond_of_current _ isCurrent, List.filterMap_cons,
        drawnOn?] using drawn
  | _ =>
      simpa using drawn

/-- A call is completed by the step that returns from it. -/
theorem completed_step
    (tracked : Tracked capacity state)
    {arithmetic : Arithmetic}
    {thread : Nat}
    {action : Action α}
    {next : State α}
    (step : Step arithmetic state thread action next)
    {call : Nat}
    {op : Op α}
    {tickets : List Ticket}
    {result : Result α}
    (completed : next.log.Completed call op tickets result) :
    state.log.Completed call op tickets result ∨
      (state.threads thread).pc = .returning result ∧
        state.log.current thread = some ⟨call, op, tickets⟩ := by
  cases step with
  | invoke isAt starts =>
      exact Or.inl (tracked.wellFormed.completed_invoke.mp completed)
  | claim isAt current =>
      obtain ⟨owner, isCurrent⟩ := tracked.current_of_exchange isAt
      simp only [State.log_goto, State.log_claim] at completed
      exact Or.inl
        ((tracked.wellFormed.completed_mark isCurrent).mp completed)
  | respond isAt =>
      have agrees := tracked.agrees thread
      rw [isAt] at agrees
      obtain ⟨owner, op', tickets', isCurrent, _⟩ := agrees
      simp only [State.log_goto, State.log_respond] at completed
      rcases (tracked.wellFormed.completed_respond isCurrent).mp completed
        with old | ⟨rfl, rfl, rfl, rfl⟩
      · exact Or.inl old
      · exact Or.inr ⟨isAt, isCurrent⟩
  | _ =>
      left
      simpa using completed

/-- Every step keeps the history in agreement with the machine. -/
theorem step
    (tracked : Tracked capacity state)
    (inv : Inv capacity state)
    {thread : Nat}
    {action : Action α}
    {next : State α}
    (step :
      Step (Arithmetic.exact capacity) state thread action next) :
    Tracked capacity next where
  wellFormed := tracked.wellFormed_step step
  agrees := by
    intro other
    by_cases same : other = thread
    · subst same
      exact tracked.agrees_self step
    · rw [current_other step same, step.pc_other same]
      exact tracked.agrees other
  authored := tracked.authored_step inv step
  drawn := tracked.drawn_step inv step
  answered := by
    intro call op tickets result completed
    rcases tracked.completed_step step completed with
      old | ⟨isAt, isCurrent⟩
    · exact tracked.answered old
    · have agrees := tracked.agrees thread
      rw [isAt] at agrees
      obtain ⟨_, _, _, isCurrent', answers⟩ := agrees
      rw [isCurrent] at isCurrent'
      cases isCurrent'
      exact answers

/-- The history agrees with the machine in every reachable state. -/
theorem of_run
    [Inhabited α]
    (positive : 0 < capacity)
    {guard : StepGuard (State α) (Label α)}
    {labels : List (Label α)}
    (run :
      Run (step? (Arithmetic.exact capacity)) guard
        (Mpmc.initial (Arithmetic.exact capacity)) labels state) :
    Tracked capacity state :=
  run.invariant_of (Inv.of_run positive) (Tracked.initial _)
    fun inv _ tracked _ taken =>
      tracked.step inv (Step.of_step? taken)

/-- A drawn ticket was drawn by some call. -/
theorem exists_drawer
    (tracked : Tracked capacity state)
    {ticket : Ticket}
    (isDrawn : ticket.number < (state.pos ticket.side).newest) :
    ∃ call, .mark call ticket ∈ state.log.history := by
  have member :
      ticket.number ∈
        state.log.history.filterMap (drawnOn? ticket.side) := by
    rw [tracked.drawn, List.mem_range]
    exact isDrawn
  obtain ⟨event, eventMember, extracts⟩ := List.mem_filterMap.mp member
  cases event with
  | invoke | respond =>
      simp [drawnOn?] at extracts
  | mark call recorded =>
      simp only [drawnOn?, Option.ite_none_right_eq_some,
        Option.some.injEq] at extracts
      have shape : recorded = ticket := by
        rcases recorded with ⟨_, _⟩
        rcases ticket with ⟨_, _⟩
        simp_all
      subst shape
      exact ⟨call, eventMember⟩

/-- Only drawn tickets are marked in the history. -/
theorem lt_newest_of_mark
    (tracked : Tracked capacity state)
    {call : Nat}
    {ticket : Ticket}
    (marked : .mark call ticket ∈ state.log.history) :
    ticket.number < (state.pos ticket.side).newest := by
  rw [← List.mem_range, ← tracked.drawn]
  exact List.mem_filterMap.mpr ⟨_, marked, by simp [drawnOn?]⟩

/-- No ticket is drawn by two calls. -/
theorem drawer_unique
    (tracked : Tracked capacity state)
    {call call' : Nat}
    {ticket : Ticket}
    (marked : .mark call ticket ∈ state.log.history)
    (marked' : .mark call' ticket ∈ state.log.history) :
    call = call' := by
  have distinct :
      (state.log.history.filterMap (drawnOn? ticket.side)).Nodup := by
    rw [tracked.drawn]
    exact List.nodup_range
  have extracts :
      ∀ owner : Nat,
        drawnOn? ticket.side
            (.mark owner ticket : Event Nat (Op α) Ticket (Result α)) =
          some ticket.number := by
    simp [drawnOn?]
  have same :=
    eq_of_nodup_extraction distinct marked marked'
      (extracts call) (extracts call')
  cases same
  rfl

/-- A ticket is drawn by a call of the ticket's side. -/
theorem sideOf?_of_mark
    (tracked : Tracked capacity state)
    {thread call : Nat}
    {op : Op α}
    {ticket : Ticket}
    (invoked : .invoke thread call op ∈ state.log.history)
    (marked : .mark call ticket ∈ state.log.history) :
    sideOf? op = some ticket.side := by
  have member := CallLog.mem_marksOf.mpr marked
  rcases tracked.wellFormed.invokedIsOpenOrReturned invoked with
    ⟨opened, isCurrent, rfl⟩ | ⟨result, returned⟩
  · have same :=
      tracked.wellFormed.invokeUnique invoked
        (tracked.wellFormed.currentInvoked isCurrent)
    rw [tracked.wellFormed.currentMarks isCurrent] at member
    have agrees := tracked.agrees thread
    rw [isCurrent] at agrees
    rw [same.2]
    exact sideOf?_of_drawn agrees member
  · have completed :
        state.log.Completed call op (state.log.marksOf call) result :=
      ⟨thread, invoked, returned, rfl⟩
    exact ((tracked.answered completed).of_mem member).1

end Tracked

end ConcurrentQueue.Mpmc
