import ConcurrentQueue.Library.Serial
import ConcurrentQueue.Mpmc.Alone
import ConcurrentQueue.Mpmc.Progress

namespace ConcurrentQueue.Mpmc

/-!
# `MpmcQueue` serves one thread as a bounded FIFO list does

The thread draws every ticket itself, so the ticket it loads is the one its
counter stands at, and an exchange fails only for no reason.  Below `2 ^ 63`
calls no ticket wraps, while the sequences may.
-/

open TicketRing

variable {α : Type} {capacity calls : Nat}

/-- Some ticket fits, and no more were drawn than calls were made. -/
def Holds
    (calls : Nat)
    (state : State α)
    (fifo : BoundedFifo capacity α) : Prop :=
  ∃ popped,
    Represents popped state fifo ∧ popped + fifo.items.length ≤ calls

section Holding

variable {state other : State α} {fifo : BoundedFifo capacity α}

/-- Program points and the history do not matter. -/
theorem Holds.of_same
    (holds : Holds calls state fifo)
    (sameSlots : other.slots = state.slots)
    (samePos : ∀ side, other.pos side = state.pos side)
    (sameClosed : other.closed = state.closed) :
    Holds calls other fifo := by
  obtain ⟨popped, represents, few⟩ := holds
  exact ⟨popped, represents.of_same sameSlots samePos sameClosed, few⟩

/-- The same queue one program point later. -/
theorem Holds.goto
    (holds : Holds calls state fifo)
    (thread : Nat)
    (pc : Pc α) :
    Holds calls (state.goto thread pc) fifo :=
  holds.of_same rfl (state.pos_goto thread pc) rfl

/-- The same queue after one more call. -/
theorem Holds.succ (holds : Holds calls state fifo) :
    Holds (calls + 1) state fifo := by
  obtain ⟨popped, represents, few⟩ := holds
  exact ⟨popped, represents, Nat.le_succ_of_le few⟩

end Holding

/-- The queue holds a list that answers the call as it is due. -/
def Awaits
    (calls : Nat)
    (state : State α)
    (op : Op α)
    (result : Result α)
    (after before : BoundedFifo capacity α) : Prop :=
  Holds calls state before ∧ before.answer? op = some (result, after)

namespace Caller

/-- The result of a claim loop that returned `true`. -/
def succeeded : Caller α → Result α
  | .push _ | .tryPush _ => .pushed true
  | .pop out _ | .tryPop out => .popped true out

/-- The list lets the claim loop succeed with this result. -/
def Succeeds
    (result : Result α)
    (before after : BoundedFifo capacity α) : Caller α → Prop
  | .push value | .tryPush value =>
      before.append? value = some after ∧ result = .pushed true
  | .pop _ _ | .tryPop _ =>
      ∃ front,
        before.removeFront? = some (front, after) ∧
          result = .popped true front

/-- A push that is answered either succeeds or is refused. -/
theorem succeeds_of_producer
    {caller : Caller α}
    {before after : BoundedFifo capacity α}
    {result : Result α}
    (isProducer : caller.side = .producer)
    (answers : before.answer? caller.op = some (result, after)) :
    caller.Succeeds result before after ∧ before.closed = false ∧
        before.items.length < capacity ∨
      (before.closed = true ∨ before.items.length = capacity) ∧
        after = before ∧ result = .pushed false ∧
        (before.closed = true ∨ caller.op.isBlocking = false) := by
  cases caller with
  | push value | tryPush value =>
      rcases BoundedFifo.answer?_push_cases rfl answers with
        ⟨appends, accepted⟩ | ⟨refuses, same, refused, ends⟩
      · obtain ⟨isOpen, room, _⟩ :=
          BoundedFifo.append?_eq_some_iff.mp appends
        exact Or.inl ⟨⟨appends, accepted⟩, isOpen, room⟩
      · exact Or.inr ⟨BoundedFifo.append?_eq_none_iff.mp refuses, same,
          refused, ends⟩
  | pop | tryPop => cases isProducer

/-- A pop that is answered either succeeds or fails on an empty list. -/
theorem succeeds_of_consumer
    {caller : Caller α}
    {before after : BoundedFifo capacity α}
    {result : Result α}
    (isConsumer : caller.side = .consumer)
    (answers : before.answer? caller.op = some (result, after)) :
    caller.Succeeds result before after ∧ before.items ≠ [] ∨
      before.items = [] ∧ after = before ∧
        (∃ out, caller.op.out? = some out ∧
          result = .popped false out) ∧
        (before.closed = true ∨ caller.op.isBlocking = false) := by
  cases caller with
  | pop out | tryPop out =>
      rcases BoundedFifo.answer?_pop_cases rfl answers with
        ⟨front, removes, delivered⟩ | ⟨isEmpty, same, failed, ends⟩
      · left
        refine ⟨⟨front, removes, delivered⟩, ?_⟩
        rw [(BoundedFifo.removeFront?_eq_some_iff.mp removes).1]
        exact List.cons_ne_nil _ _
      · exact Or.inr ⟨isEmpty, same, ⟨out, rfl, failed⟩, ends⟩
  | push | tryPush => cases isConsumer

end Caller

/-- What holds within a call that owes a result and leaves a list. -/
def Pc.Owes
    (calls : Nat)
    (state : State α)
    (op : Op α)
    (result : Result α)
    (after : BoundedFifo capacity α) : Pc α → Prop
  | .idle | .reloadPos _ _ => False
  | .checkClosed caller =>
      caller.op = op ∧
        ∃ before,
          Awaits calls state op result after before ∧
            (caller.side = .consumer → before.items = [])
  | .loadPos caller =>
      caller.op = op ∧
        ∃ before,
          Awaits calls state op result after before ∧
            (caller.side = .producer → before.closed = false)
  | .loadSequence caller ticket =>
      caller.op = op ∧ ticket = (state.pos caller.side).latest ∧
        ∃ before,
          Awaits calls state op result after before ∧
            (caller.side = .producer → before.closed = false)
  | .exchange caller ticket =>
      caller.op = op ∧ ticket = (state.pos caller.side).latest ∧
        ∃ before,
          Awaits calls state op result after before ∧
            (caller.side = .producer → before.closed = false) ∧
            caller.Succeeds result before after
  | .moveValue caller ticket =>
      ticket < SizeT.halfRange ∧
        ∀ husk,
          (caller.transfer (state.values (ticket % capacity))
              husk).1.succeeded = result ∧
            Holds (calls + 1)
              ((state.setValue (ticket % capacity)
                (caller.transfer (state.values (ticket % capacity))
                  husk).2).storeSequence 0 (ticket % capacity)
                ((Arithmetic.sizeT capacity).published caller.side ticket))
              after
  | .storeSequence caller ticket =>
      ticket < SizeT.halfRange ∧ caller.succeeded = result ∧
        Holds (calls + 1)
          (state.storeSequence 0 (ticket % capacity)
            ((Arithmetic.sizeT capacity).published caller.side ticket))
          after
  | .storeClosed =>
      result = .done ∧
        ∃ before, Holds calls state before ∧ after = before.close
  | .loadClosed => result = .closed after.closed ∧ Holds calls state after
  | .sizeTail =>
      result = .size after.items.length ∧ Holds calls state after
  | .sizeHead tail =>
      tail = (state.pos .producer).latest ∧
        result = .size after.items.length ∧ Holds calls state after
  | .returning due => due = result ∧ Holds (calls + 1) state after

/-- A pop that has not yet seen the queue closed may go round once more. -/
def Caller.detour : Caller α → Nat
  | .pop _ false => 4
  | _ => 0

/-- How many steps at most are left until the call responds. -/
def Pc.stepsLeft : Pc α → Nat
  | .checkClosed _ => 8
  | .loadPos caller => 7 + caller.detour
  | .loadSequence caller _ => 6 + caller.detour
  | .exchange caller _ => 5 + caller.detour
  | .moveValue _ _ => 3
  | .storeSequence _ _ => 2
  | .sizeTail => 3
  | .storeClosed | .loadClosed | .sizeHead _ => 2
  | _ => 1

section Claiming

variable {state : State α} {before after : BoundedFifo capacity α}
variable {op : Op α} {result : Result α} {caller : Caller α}
variable {ticket : Nat}

/-- The winning exchange leaves the move and the store to be made. -/
theorem owes_moveValue
    (few : calls < SizeT.halfRange)
    (holds : Holds calls state before)
    (isTicket : ticket = (state.pos caller.side).latest)
    (succeeds : caller.Succeeds result before after) :
    (Pc.moveValue caller ticket).Owes calls
      ((state.claim (Arithmetic.sizeT capacity) 0 caller.side ticket).goto 0
        (.moveValue caller ticket)) op result after := by
  obtain ⟨popped, represents, drawn⟩ := holds
  cases caller with
  | push value | tryPush value =>
      obtain ⟨appends, rfl⟩ := succeeds
      simp only [Caller.side] at isTicket
      rw [represents.tail] at isTicket
      subst isTicket
      refine ⟨by omega, fun husk => ⟨rfl, popped, ?_, ?_⟩⟩
      · apply represents.push appends
        · simp
        · simp
        · simp [Caller.side, next_of_lt
            (Nat.lt_of_le_of_lt drawn few)]
        · simp [Caller.side, represents.head]
      · obtain ⟨_, _, items, _⟩ :=
          BoundedFifo.append?_eq_some_iff.mp appends
        rw [items, List.length_append, List.length_singleton]
        omega
  | pop out closedSeen | tryPop out =>
      obtain ⟨front, removes, rfl⟩ := succeeds
      have isFront := represents.front_eq removes
      obtain ⟨shape, _⟩ := BoundedFifo.removeFront?_eq_some_iff.mp removes
      rw [shape, List.length_cons] at drawn
      simp only [Caller.side] at isTicket
      rw [represents.head] at isTicket
      subst isTicket
      refine ⟨by omega, fun husk => ⟨?_, ticket + 1, ?_, by omega⟩⟩
      · simp only [Caller.transfer, Caller.succeeded, State.values,
          State.slots_goto, State.slots_claim]
        rw [← isFront]
        rfl
      · apply represents.pop removes
        · simp
        · simp
        · simp [Caller.side, represents.tail]
        · simp [Caller.side, next_of_lt
            (show ticket < SizeT.halfRange by omega)]

/-- The sequence load decides the claim loop as the list would. -/
theorem owes_classify
    (positive : 0 < capacity)
    (small : capacity ≤ 2 ^ 60)
    (few : calls < SizeT.halfRange)
    (holds : Holds calls state before)
    (answers : before.answer? caller.op = some (result, after))
    (isOpen : caller.side = .producer → before.closed = false)
    (isTicket : ticket = (state.pos caller.side).latest)
    {pc : Pc α}
    (decides :
      pc =
        .classify caller ticket
          ((Arithmetic.sizeT capacity).difference
            (state.sequence ((Arithmetic.sizeT capacity).slotIndex ticket))
            ((Arithmetic.sizeT capacity).expected caller.side ticket))) :
    pc.Owes calls (state.goto 0 pc) caller.op result after ∧
      pc.stepsLeft < 6 + caller.detour := by
  obtain ⟨popped, represents, drawn⟩ := id holds
  have claims :
      pc = .exchange caller ticket →
      caller.Succeeds result before after →
      pc.Owes calls (state.goto 0 pc) caller.op result after ∧
        pc.stepsLeft < 6 + caller.detour := by
    rintro rfl succeeds
    refine ⟨⟨rfl, ?_, before, ⟨holds.goto 0 _, answers⟩, isOpen,
      succeeds⟩, ?_⟩
    · rw [State.pos_goto]
      exact isTicket
    · simp [Pc.stepsLeft]
  cases isSide : caller.side with
  | producer =>
      rw [isSide, represents.tail] at isTicket
      rw [isTicket, slotIndex_of_lt small
        (Nat.lt_of_le_of_lt drawn few), isSide,
        represents.difference_tail positive small] at decides
      rcases Caller.succeeds_of_producer isSide answers with
        ⟨succeeds, _, room⟩ | ⟨refuses, rfl, rfl, ends⟩
      · rw [if_pos room] at decides
        apply claims _ succeeds
        rw [decides, isTicket]
        rfl
      · have isFull := refuses.resolve_left (by simp [isOpen isSide])
        have tries := ends.resolve_left (by simp [isOpen isSide])
        have negative : 1 - 2 * (capacity : Int) < 0 := by
          omega
        rw [if_neg (by omega), Pc.classify, if_neg (by omega),
          if_pos negative] at decides
        cases caller with
        | push => cases tries
        | tryPush value =>
            subst decides
            exact ⟨⟨rfl, (holds.goto 0 _).succ⟩,
              by simp [Pc.stepsLeft, Caller.afterFailure, Caller.detour]⟩
        | pop | tryPop => cases isSide
  | consumer =>
      rw [isSide, represents.head] at isTicket
      rw [isTicket, slotIndex_of_lt small (by omega), isSide,
        represents.difference_head positive] at decides
      rcases Caller.succeeds_of_consumer isSide answers with
        ⟨succeeds, nonempty⟩ | ⟨isEmpty, rfl, ⟨out, pops, rfl⟩, ends⟩
      · rw [if_neg nonempty] at decides
        apply claims _ succeeds
        rw [decides, isTicket]
        rfl
      · rw [if_pos isEmpty, Pc.classify, if_neg (by decide),
          if_pos (by decide)] at decides
        rcases caller with _ | _ | ⟨out, _ | _⟩ | out
        · cases isSide
        · cases isSide
        · subst decides
          exact ⟨⟨rfl, _, ⟨holds.goto 0 _, answers⟩, fun _ => isEmpty⟩,
            by simp [Pc.stepsLeft, Caller.afterFailure, Caller.detour]⟩
        · subst decides
          cases pops
          exact ⟨⟨rfl, (holds.goto 0 _).succ⟩,
            by simp [Pc.stepsLeft, Caller.afterFailure, Caller.detour]⟩
        · subst decides
          cases pops
          exact ⟨⟨rfl, (holds.goto 0 _).succ⟩,
            by simp [Pc.stepsLeft, Caller.afterFailure, Caller.detour]⟩

/-- The load of `closed_` lets the call go on as the list would. -/
theorem owes_afterClosedLoad
    {message : Nat}
    (holds : Holds calls state before)
    (answers : before.answer? caller.op = some (result, after))
    (isEmpty : caller.side = .consumer → before.items = []) :
    (caller.afterClosedLoad before.closed).Owes calls
        ((state.noteClose 0 message).goto 0
          (caller.afterClosedLoad before.closed)) caller.op result after ∧
      (caller.afterClosedLoad before.closed).stepsLeft < 8 := by
  have same :
      ∀ pc, Holds calls ((state.noteClose 0 message).goto 0 pc) before :=
    fun pc => holds.of_same (by simp) (by simp) (by simp)
  cases caller with
  | push value | tryPush value =>
      cases isClosed : before.closed with
      | true =>
          rcases Caller.succeeds_of_producer rfl answers with
            ⟨_, isOpen, _⟩ | ⟨_, rfl, rfl, _⟩
          · rw [isClosed] at isOpen
            cases isOpen
          · exact ⟨⟨rfl, (same _).succ⟩,
              by simp [Caller.afterClosedLoad, Pc.stepsLeft]⟩
      | false =>
          exact ⟨⟨rfl, before, ⟨same _, answers⟩, fun _ => isClosed⟩,
            by simp [Caller.afterClosedLoad, Pc.stepsLeft, Caller.detour]⟩
  | pop out closedSeen =>
      rcases Caller.succeeds_of_consumer rfl answers with
        ⟨_, nonempty⟩ | ⟨_, _, _, ends⟩
      · exact absurd (isEmpty rfl) nonempty
      · have isClosed := ends.resolve_right (by simp [Caller.op,
          Op.isBlocking])
        rw [isClosed]
        refine ⟨⟨rfl, before, ⟨same _, answers⟩, ?_⟩, ?_⟩
        · rintro ⟨⟩
        · simp [Caller.afterClosedLoad, Pc.stepsLeft, Caller.detour]
  | tryPop out =>
      refine ⟨⟨rfl, before, ⟨same _, answers⟩, ?_⟩, ?_⟩
      · rintro ⟨⟩
      · simp [Caller.afterClosedLoad, Pc.stepsLeft, Caller.detour]

end Claiming

/-- The steps within a call. -/
def Action.isInner : Action α → Bool
  | .invoke _ | .respond => false
  | _ => true

/-- The steps of the only thread within a call; it reads its own stores. -/
def inCall (capacity : Nat) : StepGuard (State α) (Label α) :=
  fun state label =>
    label.thread = 0 ∧ label.action.isInner = true ∧
      sequential (Arithmetic.sizeT capacity) state label

/-- The result of a thread that is about to respond. -/
def Pc.result? : Pc α → Option (Result α)
  | .returning result => some result
  | _ => none

/-- The queue as it is called by one thread. -/
def serialObject (capacity : Nat) :
    SerialObject (State α) (Label α) (Op α) (Result α) where
  step? := step? (Arithmetic.sizeT capacity)
  inner _ := inCall capacity
  spurious := Spurious
  invoke op := ⟨0, .invoke op⟩
  respond _ := ⟨0, .respond⟩
  result? _ state := (state.threads 0).pc.result?

/-- The thread is in a call that owes a result and leaves a list. -/
structure Busy
    (calls : Nat)
    (op : Op α)
    (result : Result α)
    (after : BoundedFifo capacity α)
    (state : State α) : Prop where
  few : calls < SizeT.halfRange
  owes : (state.threads 0).pc.Owes calls state op result after

/-- The thread is between calls. -/
structure Idle
    (calls : Nat)
    (fifo : BoundedFifo capacity α)
    (state : State α) : Prop where
  isAt : (state.threads 0).pc = .idle
  holds : Holds calls state fifo

section Calling

variable {state next : State α} {after : BoundedFifo capacity α}
variable {op : Op α} {result : Result α}

/-- The constructor leaves the queue idle. -/
theorem idle_initial [Inhabited α] :
    Idle 0 (BoundedFifo.empty : BoundedFifo capacity α)
      (initial (Arithmetic.sizeT capacity) : State α) where
  isAt := rfl
  holds := ⟨0, Represents.initial, Nat.le_refl 0⟩

/-- Invoking an answered call makes the queue busy with it. -/
theorem Idle.invoke
    {fifo : BoundedFifo capacity α}
    (idle : Idle calls fifo state)
    (few : calls < SizeT.halfRange)
    (shared : op.isShared = true)
    (answers : fifo.answer? op = some (result, after)) :
    ∃ entered,
      step? (Arithmetic.sizeT capacity) state ⟨0, .invoke op⟩ =
          some entered ∧
        Busy calls op result after entered := by
  have enters :
      ∀ {pc : Pc α},
        Pc.start? capacity op = some pc →
        pc.Owes calls ((state.invoke 0 op).goto 0 pc) op result after →
        ∃ entered,
          step? (Arithmetic.sizeT capacity) state ⟨0, .invoke op⟩ =
              some entered ∧
            Busy calls op result after entered := by
    intro pc starts owes
    refine ⟨(state.invoke 0 op).goto 0 pc, ?_, few, ?_⟩
    · have starts' :
          Pc.start? (Arithmetic.sizeT capacity).slots op = some pc :=
        starts
      simp only [step?, idle.isAt, starts', Option.map_some]
    · rw [State.pc_goto, if_pos rfl]
      exact owes
  have holds :
      ∀ pc, Holds calls ((state.invoke 0 op).goto 0 pc) fifo :=
    fun pc => idle.holds.of_same (by simp) (by simp) (by simp)
  cases op with
  | push | tryPush =>
      refine enters rfl ⟨rfl, fifo, ⟨holds _, answers⟩, ?_⟩
      rintro ⟨⟩
  | pop | tryPop =>
      refine enters rfl ⟨rfl, fifo, ⟨holds _, answers⟩, ?_⟩
      rintro ⟨⟩
  | close =>
      cases answers
      exact enters rfl ⟨rfl, fifo, holds _, rfl⟩
  | closed | size =>
      cases answers
      exact enters rfl ⟨rfl, holds _⟩
  | capacity =>
      cases answers
      exact enters rfl ⟨rfl, (holds _).succ⟩
  | tryPushFor | tryPushN | tryPopFor | tryPopN => cases shared

/-- A step within the call keeps what it owes and brings it nearer. -/
theorem Step.owes
    (positive : 0 < capacity)
    (small : capacity ≤ 2 ^ 60)
    (few : calls < SizeT.halfRange)
    (owes : (state.threads 0).pc.Owes calls state op result after)
    {action : Action α}
    (step : Step (Arithmetic.sizeT capacity) state 0 action next)
    (current : sequential (Arithmetic.sizeT capacity) state ⟨0, action⟩)
    (isInner : action.isInner = true) :
    (next.threads 0).pc.Owes calls next op result after ∧
      (¬ Spurious state ⟨0, action⟩ →
        (next.threads 0).pc.stepsLeft <
          (state.threads 0).pc.stepsLeft) := by
  cases step with
  | invoke | respond => cases isInner
  | checkClosed isAt reads =>
      simp only [sequential, isAt] at current
      subst current
      rw [isAt] at owes ⊢
      obtain ⟨rfl, before, ⟨holds, answers⟩, isEmpty⟩ := owes
      obtain ⟨popped, represents, drawn⟩ := id holds
      rw [Atomic.read?_newest, represents.closed,
        Option.some.injEq] at reads
      subst reads
      rw [State.pc_goto, if_pos rfl]
      obtain ⟨owesNext, nearer⟩ :=
        owes_afterClosedLoad holds answers isEmpty
      exact ⟨owesNext, fun _ => nearer⟩
  | loadPos isAt reads =>
      simp only [sequential, isAt] at current
      subst current
      rw [isAt] at owes ⊢
      obtain ⟨rfl, before, ⟨holds, answers⟩, isOpen⟩ := owes
      rw [Atomic.read?_newest, Option.some.injEq] at reads
      subst reads
      rw [State.pc_goto, if_pos rfl]
      refine ⟨⟨rfl, ?_, before, ⟨holds.goto 0 _, answers⟩, isOpen⟩, ?_⟩
      · rw [State.pos_goto]
      · simp [Pc.stepsLeft]
  | reloadPos isAt =>
      rw [isAt] at owes
      exact owes.elim
  | loadSequence isAt reads =>
      simp only [sequential, isAt] at current
      subst current
      rw [isAt] at owes ⊢
      obtain ⟨rfl, isTicket, before, ⟨holds, answers⟩, isOpen⟩ := owes
      rw [Atomic.read?_newest, Option.some.injEq] at reads
      subst reads
      rw [State.pc_goto, if_pos rfl]
      obtain ⟨owesNext, nearer⟩ :=
        owes_classify positive small few holds answers isOpen isTicket rfl
      exact ⟨owesNext, fun _ => nearer⟩
  | claim isAt =>
      rw [isAt] at owes ⊢
      obtain ⟨rfl, isTicket, before, ⟨holds, _⟩, _, succeeds⟩ := owes
      rw [State.pc_goto, if_pos rfl]
      refine ⟨owes_moveValue few holds isTicket succeeds, fun _ => ?_⟩
      simp only [Pc.stepsLeft]
      omega
  | lost isAt reads =>
      simp only [sequential, isAt] at current
      subst current
      rw [isAt] at owes ⊢
      obtain ⟨rfl, isTicket, before, awaits, isOpen, _⟩ := owes
      rw [Atomic.read?_newest, Option.some.injEq] at reads
      subst reads
      rw [State.pc_goto, if_pos rfl]
      refine ⟨⟨rfl, ?_, before, ⟨awaits.1.goto 0 _, awaits.2⟩, isOpen⟩,
        fun noReason => ?_⟩
      · rw [State.pos_goto]
      · simp [Spurious, isAt, isTicket] at noReason
  | moveValue isAt =>
      rename_i caller ticket husk
      rw [isAt] at owes ⊢
      obtain ⟨bound, moves⟩ := owes
      obtain ⟨isResult, holds⟩ := moves husk
      rw [State.pc_goto, if_pos rfl, slotIndex_of_lt small bound]
      refine ⟨⟨bound, isResult, ?_⟩, fun _ => Nat.lt_succ_self 2⟩
      rw [Caller.side_transfer]
      exact holds.of_same rfl (by simp) rfl
  | storeSequence isAt =>
      rename_i caller ticket
      rw [isAt] at owes ⊢
      obtain ⟨bound, rfl, holds⟩ := owes
      have returns :
          caller.afterSuccess = .returning caller.succeeded := by
        cases caller <;> rfl
      rw [State.pc_goto, if_pos rfl, slotIndex_of_lt small bound, returns]
      exact ⟨⟨rfl, holds.goto 0 _⟩, fun _ => Nat.lt_succ_self 1⟩
  | storeClosed isAt =>
      rw [isAt] at owes ⊢
      obtain ⟨rfl, before, ⟨popped, represents, drawn⟩, rfl⟩ := owes
      rw [State.pc_goto, if_pos rfl]
      have holds : Holds calls (state.storeClosed 0) before.close :=
        ⟨popped, represents.storeClosed 0, drawn⟩
      exact ⟨⟨rfl, (holds.goto 0 _).succ⟩, fun _ => Nat.lt_succ_self 1⟩
  | loadClosed isAt reads =>
      simp only [sequential, isAt] at current
      subst current
      rw [isAt] at owes ⊢
      obtain ⟨rfl, holds⟩ := owes
      obtain ⟨popped, represents, drawn⟩ := id holds
      rw [Atomic.read?_newest, represents.closed,
        Option.some.injEq] at reads
      subst reads
      rw [State.pc_goto, if_pos rfl]
      refine ⟨⟨rfl, Holds.succ ?_⟩, fun _ => Nat.lt_succ_self 1⟩
      exact holds.of_same (by simp) (by simp) (by simp)
  | sizeTail isAt reads =>
      simp only [sequential, isAt] at current
      subst current
      rw [isAt] at owes ⊢
      obtain ⟨rfl, holds⟩ := owes
      rw [Atomic.read?_newest, Option.some.injEq] at reads
      subst reads
      rw [State.pc_goto, if_pos rfl]
      exact ⟨⟨rfl, rfl, holds.goto 0 _⟩, fun _ => Nat.lt_succ_self 2⟩
  | sizeHead isAt reads =>
      simp only [sequential, isAt] at current
      subst current
      rw [isAt] at owes ⊢
      obtain ⟨rfl, rfl, holds⟩ := owes
      obtain ⟨popped, represents, drawn⟩ := id holds
      have bounded := after.bounded
      have fewCalls : calls < 2 ^ 63 := few
      have head : state.dequeuePos.latest = popped := represents.head
      rw [Atomic.read?_newest, head, Option.some.injEq] at reads
      subst reads
      have counted :
          sizeOf (Arithmetic.sizeT capacity)
              (state.pos .producer).latest popped =
            after.items.length := by
        rw [represents.tail, sizeOf_sizeT small (by omega) (by omega)
          (by omega) (by omega)]
        omega
      rw [State.pc_goto, if_pos rfl, counted]
      exact ⟨⟨rfl, (holds.goto 0 _).succ⟩, fun _ => Nat.lt_succ_self 1⟩

/-- A call that has no result yet can go on. -/
theorem Busy.enabled
    (busy : Busy calls op result after state)
    (unanswered : (state.threads 0).pc.result? = none) :
    ∃ label next,
      (inCall capacity state label ∧ ¬ Spurious state label) ∧
        step? (Arithmetic.sizeT capacity) state label = some next := by
  obtain ⟨_, owes⟩ := busy
  have goesOn :
      ∀ action,
        action.isInner = true →
        sequential (Arithmetic.sizeT capacity) state ⟨0, action⟩ →
        ¬ Spurious state ⟨0, action⟩ →
        (step? (Arithmetic.sizeT capacity) state
          ⟨0, action⟩).isSome = true →
        ∃ label next,
          (inCall capacity state label ∧ ¬ Spurious state label) ∧
            step? (Arithmetic.sizeT capacity) state label =
              some next := by
    intro action isInner current reasonable isSome
    obtain ⟨next, taken⟩ := Option.isSome_iff_exists.mp isSome
    exact ⟨_, next, ⟨⟨rfl, isInner, current⟩, reasonable⟩, taken⟩
  cases isAt : (state.threads 0).pc with
  | idle | reloadPos =>
      rw [isAt] at owes
      exact owes.elim
  | checkClosed caller | loadClosed =>
      apply goesOn (.load state.closed.newest) rfl
      · simp [sequential, isAt]
      · simp [Spurious, isAt]
      · simp [step?, isAt, Atomic.read?_newest]
  | loadPos caller =>
      apply goesOn (.load (state.pos caller.side).newest) rfl
      · simp [sequential, isAt]
      · simp [Spurious, isAt]
      · simp [step?, isAt, Atomic.read?_newest]
  | loadSequence caller ticket =>
      apply goesOn (.load (state.slots
        ((Arithmetic.sizeT capacity).slotIndex ticket)).sequence.newest) rfl
      · simp [sequential, isAt]
      · simp [Spurious, isAt]
      · simp [step?, isAt, Atomic.read?_newest]
  | exchange caller ticket =>
      rw [isAt] at owes
      obtain ⟨_, isTicket, _⟩ := owes
      apply goesOn (.exchange none) rfl
      · simp [sequential, isAt]
      · simp [Spurious, isAt]
      · simp [step?, isAt, isTicket]
  | moveValue caller ticket =>
      apply goesOn (.move (state.values 0)) rfl
      · simp [sequential, isAt]
      · simp [Spurious, isAt]
      · simp [step?, isAt]
  | storeSequence caller ticket | storeClosed =>
      apply goesOn .store rfl
      · simp [sequential, isAt]
      · simp [Spurious, isAt]
      · simp [step?, isAt]
  | sizeTail =>
      apply goesOn (.load state.enqueuePos.newest) rfl
      · simp [sequential, isAt]
      · simp [Spurious, isAt]
      · simp [step?, isAt, Atomic.read?_newest]
  | sizeHead tail =>
      apply goesOn (.load state.dequeuePos.newest) rfl
      · simp [sequential, isAt]
      · simp [Spurious, isAt]
      · simp [step?, isAt, Atomic.read?_newest]
  | returning due =>
      rw [isAt] at unanswered
      cases unanswered

/-- The call hands back what it owes. -/
theorem Busy.respond
    (busy : Busy calls op result after state)
    {returned : Result α}
    (isResult : (state.threads 0).pc.result? = some returned) :
    returned = result ∧
      ∃ next,
        step? (Arithmetic.sizeT capacity) state ⟨0, .respond⟩ =
            some next ∧
          Idle (calls + 1) after next := by
  obtain ⟨_, owes⟩ := busy
  cases isAt : (state.threads 0).pc with
  | returning due =>
      rw [isAt] at owes isResult
      obtain ⟨isDue, holds⟩ := owes
      cases isResult
      refine ⟨isDue, (state.respond 0 returned).goto 0 .idle, ?_, ?_, ?_⟩
      · simp only [step?, isAt]
      · rw [State.pc_goto, if_pos rfl]
      · exact holds.of_same (by simp) (by simp) (by simp)
  | _ =>
      rw [isAt] at isResult
      cases isResult

end Calling

/-- One thread sees a bounded FIFO list, for up to `2 ^ 63` calls. -/
def serialSimulation
    (positive : 0 < capacity)
    (small : capacity ≤ 2 ^ 60) :
    SerialSimulation (serialObject capacity)
      (BoundedFifo.answer? : BoundedFifo capacity α → _)
      (fun op => op.isShared = true) SizeT.halfRange where
  Idle calls := Idle calls
  Busy calls := Busy calls
  rank _ state := (state.threads 0).pc.stepsLeft
  invoked few shared idle answers := idle.invoke few shared answers
  stepped := by
    rintro calls op result after state ⟨thread, action⟩ next busy
      ⟨rfl, isInner, current⟩ taken
    obtain ⟨owesNext, nearer⟩ :=
      (Step.of_step? taken).owes positive small busy.few busy.owes current
        isInner
    exact ⟨⟨busy.few, owesNext⟩, nearer⟩
  enabled busy unanswered := busy.enabled unanswered
  responded busy isResult := busy.respond isResult

end ConcurrentQueue.Mpmc
