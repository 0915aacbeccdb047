import ConcurrentQueue.Library.Awareness
import ConcurrentQueue.Mpmc.Calls

namespace ConcurrentQueue.Mpmc

/-!
# The memory orders of `MpmcQueue`

Which atomic object each step accesses and in which order, and which steps
touch a slot's value.  The position counters are relaxed throughout; the
sequences are stored with release and loaded with acquire; `closed_` is stored
with release and loaded with acquire everywhere but in the pushes.
-/

variable {α : Type}

/-- The atomic objects of the queue. -/
inductive Location where
  | position (side : Side)
  | sequence (index : Nat)
  | closed
  deriving Repr, DecidableEq

/-- The order in which `closed_` is loaded before an attempt. -/
def Caller.closedOrder : Caller α → MemoryOrder
  | .push _ | .tryPush _ => .relaxed
  | .pop _ _ | .tryPop _ => .acquire

/-- The memory accesses of one step. -/
def effects
    (arithmetic : Arithmetic)
    (state : State α)
    (label : Label α) :
    List (Effect Location Nat) :=
  let thread := label.thread
  match (state.threads thread).pc, label.action with
  | .idle, .invoke _ =>
      [.begins state.log.nextCall]
  | .checkClosed caller, .load message =>
      [.load caller.closedOrder .closed message]
  | .loadPos caller, .load message =>
      [.load .relaxed (.position caller.side) message]
  | .reloadPos caller _, .load message =>
      [.load .relaxed (.position caller.side) message]
  | .loadSequence _ ticket, .load message =>
      [.load .acquire (.sequence (arithmetic.slotIndex ticket)) message]
  | .exchange caller _, .exchange none =>
      [.store .relaxed (.position caller.side)
        ((state.pos caller.side).newest + 1)]
  | .exchange caller _, .exchange (some message) =>
      [.load .relaxed (.position caller.side) message]
  | .moveValue _ ticket, .move _ =>
      [.access (arithmetic.slotIndex ticket)]
  | .storeSequence _ ticket, .store =>
      let index := arithmetic.slotIndex ticket
      [.store .release (.sequence index)
        ((state.slots index).sequence.newest + 1)]
  | .storeClosed, .store =>
      [.store .release .closed (state.closed.newest + 1)]
  | .loadClosed, .load message =>
      [.load .acquire .closed message]
  | .sizeTail, .load message =>
      [.load .relaxed (.position .producer) message]
  | .sizeHead _, .load message =>
      [.load .relaxed (.position .consumer) message]
  | .returning _, .respond =>
      [.ends (state.callOf thread)]
  | _, _ =>
      []

/-- The memory accesses of the queue. -/
def accesses (arithmetic : Arithmetic) :
    Accesses (State α) (Label α) Nat Location Nat where
  thread label := label.thread
  effects := effects arithmetic

/-- The call that stored one message of an atomic object. -/
def authorAt? (state : State α) : Location → Nat → Option Nat
  | .position side, message => (state.pos side).author? message
  | .sequence index, message => (state.slots index).sequence.author? message
  | .closed, message => state.closed.author? message

/-- Where the queue keeps its calls and the authors of its messages. -/
def recording :
    Recording (State α) (Label α) Nat Location (Op α) Ticket
      (Result α) where
  log := State.log
  author? := authorAt?
  op? label :=
    match label.action with
    | .invoke op => some op
    | _ => none

/-- The state of the queue with the memory behind it. -/
abbrev OrderedState (α : Type) :=
  Ordered (State α) Nat Location Nat

/-- The memory behind a queue used by threads that are numbered. -/
abbrev QueueMemory :=
  Memory Nat Location Nat

/-- The memory after one step. -/
abbrev QueueMemory.after
    (arithmetic : Arithmetic)
    (memory : QueueMemory)
    (state : State α)
    (thread : Nat)
    (action : Action α) :
    QueueMemory :=
  Memory.after memory (accesses arithmetic) state ⟨thread, action⟩

section Steps

variable {arithmetic : Arithmetic} {capacity : Nat} {state next : State α}
variable {thread : Nat} {action : Action α}

/-- The identity of a call in progress. -/
theorem State.callOf_eq
    {opened : OpenCall (Op α) Ticket}
    (isCurrent : state.log.current thread = some opened) :
    state.callOf thread = opened.call := by
  simp [State.callOf, isCurrent]

/-- What a step records of the call it belongs to. -/
theorem Step.records
    (tracked : Tracked capacity state)
    (step : Step arithmetic state thread action next) :
    Records (accesses arithmetic) recording state ⟨thread, action⟩ next := by
  have agrees := tracked.agrees thread
  cases step with
  | invoke isAt starts =>
      rename_i op pc
      rw [isAt] at agrees
      have isEffect :
          effects arithmetic state ⟨thread, .invoke op⟩ =
            [.begins state.log.nextCall] := by
        simp [effects, isAt]
      refine .invokes rfl agrees (by simp [recording, accesses]) isEffect ?_
      funext location message
      cases location <;> simp [recording, authorAt?]
  | respond isAt =>
      rw [isAt] at agrees
      obtain ⟨call, op, drawn, isCurrent, _⟩ := agrees
      have isEffect :
          effects arithmetic state ⟨thread, .respond⟩ = [.ends call] := by
        simp [effects, isAt, State.callOf_eq isCurrent]
      refine .responds isCurrent (State.log_respond _ _ _) isEffect ?_
      funext location message
      cases location <;> simp [recording, authorAt?]
  | claim isAt current =>
      rename_i caller ticket
      rw [isAt] at agrees
      obtain ⟨call, isCurrent⟩ := agrees
      have isEffect :
          effects arithmetic state ⟨thread, .exchange none⟩ =
            [.store .relaxed (.position caller.side)
              ((state.pos caller.side).newest + 1)] := by
        simp [effects, isAt]
      refine .stores isCurrent (Or.inr ⟨⟨caller.side, ticket⟩, ?_⟩)
        isEffect ?_ ?_ ?_
      · simp [recording, accesses]
      · simp [recording, authorAt?, Atomic.author?_newest_succ]
      · simp [recording, authorAt?, Atomic.author?_store,
          State.callOf_eq isCurrent]
      · intro other later different
        cases other with
        | position side =>
            by_cases same : side = caller.side
            · subst same
              have isOld : later ≠ (state.pos caller.side).newest + 1 :=
                fun isNew => different ⟨rfl, isNew⟩
              simp [recording, authorAt?, Atomic.author?_store, isOld]
            · simp [recording, authorAt?, same]
        | sequence | closed =>
            simp [recording, authorAt?]
  | storeSequence isAt =>
      rename_i caller ticket
      rw [isAt] at agrees
      obtain ⟨call, op, isCurrent, _⟩ := agrees
      have isEffect :
          effects arithmetic state ⟨thread, .store⟩ =
            [.store .release (.sequence (arithmetic.slotIndex ticket))
              ((state.slots
                (arithmetic.slotIndex ticket)).sequence.newest + 1)] := by
        simp [effects, isAt]
      refine .stores isCurrent (Or.inl ?_) isEffect ?_ ?_ ?_
      · simp [recording]
      · simp [recording, authorAt?, Atomic.author?_newest_succ]
      · simp [recording, authorAt?, Atomic.author?_store,
          State.callOf_eq isCurrent]
      · intro other later different
        cases other with
        | sequence index =>
            by_cases same : index = arithmetic.slotIndex ticket
            · subst same
              have isOld :
                  later ≠
                    (state.slots
                      (arithmetic.slotIndex ticket)).sequence.newest + 1 :=
                fun isNew => different ⟨rfl, isNew⟩
              simp [recording, authorAt?, Atomic.author?_store, isOld]
            · simp [recording, authorAt?, same]
        | position | closed =>
            simp [recording, authorAt?]
  | storeClosed isAt =>
      rw [isAt] at agrees
      obtain ⟨call, isCurrent⟩ := agrees
      have isEffect :
          effects arithmetic state ⟨thread, .store⟩ =
            [.store .release .closed (state.closed.newest + 1)] := by
        simp [effects, isAt]
      refine .stores isCurrent (Or.inl ?_) isEffect ?_ ?_ ?_
      · simp [recording]
      · simp [recording, authorAt?, Atomic.author?_newest_succ]
      · simp [recording, authorAt?, Atomic.author?_store,
          State.callOf_eq isCurrent]
      · intro other later different
        cases other with
        | closed =>
            have isOld : later ≠ state.closed.newest + 1 :=
              fun isNew => different ⟨rfl, isNew⟩
            simp [recording, authorAt?, Atomic.author?_store, isOld]
        | position | sequence =>
            simp [recording, authorAt?]
  | checkClosed isAt | loadPos isAt | reloadPos isAt | loadSequence isAt
  | lost isAt | moveValue isAt | loadClosed isAt | sizeTail isAt
  | sizeHead isAt =>
      rw [isAt] at agrees
      obtain ⟨call, isCurrent⟩ := agrees
      refine .works isCurrent (Or.inl ?_) ?_ ?_
      · simp [recording]
      · simp [accesses, effects, isAt, Effect.isInner]
      · funext location message
        cases location <;> simp [recording, authorAt?]

/-- A step that responds ends its call with what the thread knows. -/
theorem Step.ended_of_returning
    {result : Result α}
    {opened : OpenCall (Op α) Ticket}
    (step : Step arithmetic state thread action next)
    (isAt : (state.threads thread).pc = .returning result)
    (isCurrent : state.log.current thread = some opened)
    (memory : QueueMemory) :
    (memory.after arithmetic state thread action).ended opened.call =
      memory.knows thread := by
  cases step with
  | respond =>
      simp [Memory.after, Memory.applyAll, accesses, effects, isAt,
        Memory.apply, State.callOf_eq isCurrent]
  | invoke isAt' | checkClosed isAt' | loadPos isAt' | reloadPos isAt'
  | loadSequence isAt' | claim isAt' | lost isAt' | moveValue isAt'
  | storeSequence isAt' | storeClosed isAt' | loadClosed isAt'
  | sizeTail isAt' | sizeHead isAt' =>
      rw [isAt] at isAt'
      cases isAt'

/-- A sequence is only stored with its next message, and with release. -/
theorem newest_of_store
    {label : Label α}
    {order : MemoryOrder}
    {index message : Nat}
    (stored :
      .store order (.sequence index) message ∈
        effects arithmetic state label) :
    order = .release ∧
      message = (state.slots index).sequence.newest + 1 := by
  simp only [effects] at stored
  split at stored <;> simp_all

/-- `closed_` is only stored with release. -/
theorem release_of_storeClosed
    {label : Label α}
    {order : MemoryOrder}
    {message : Nat}
    (stored :
      .store order .closed message ∈ effects arithmetic state label) :
    order = .release := by
  simp only [effects] at stored
  split at stored <;> simp_all

variable (memory : QueueMemory)

/-- No step makes a thread forget. -/
theorem QueueMemory.knows_after (other : Nat) :
    memory.knows other ⊆
      (memory.after arithmetic state thread action).knows other :=
  memory.knows_applyAll thread _ other

/-- What the messages of a sequence carry does not change. -/
theorem QueueMemory.carried_after
    {index message : Nat}
    (old : message ≤ (state.slots index).sequence.newest) :
    (memory.after arithmetic state thread action).carried
        (.sequence index) message =
      memory.carried (.sequence index) message := by
  apply memory.carried_applyAll
  intro order stored
  have isNew := (newest_of_store stored).2
  omega

/-- The message a thread stores carries all that it knows. -/
theorem QueueMemory.subset_stored
    {caller : Caller α}
    {ticket : Nat}
    (isAt : (state.threads thread).pc = .storeSequence caller ticket) :
    memory.knows thread ⊆
      (memory.after arithmetic state thread .store).carried
        (.sequence (arithmetic.slotIndex ticket))
        ((state.slots (arithmetic.slotIndex ticket)).sequence.newest
          + 1) := by
  simp only [Memory.after, accesses, effects, isAt]
  exact memory.subset_carried_release thread _ _

/-- A sequence load hands over what its message carries. -/
theorem QueueMemory.subset_loaded
    {caller : Caller α}
    {ticket message : Nat}
    (isAt : (state.threads thread).pc = .loadSequence caller ticket) :
    memory.carried (.sequence (arithmetic.slotIndex ticket)) message ⊆
      (memory.after arithmetic state thread (.load message)).knows
        thread := by
  apply memory.carried_subset_acquired thread
  · simp [accesses, effects, isAt]
  · simp [accesses, effects, isAt]

/-- An acquire load of `closed_` hands over what its message carries. -/
theorem QueueMemory.subset_closedLoaded
    {message : Nat}
    (isAt :
      (state.threads thread).pc = .loadClosed ∨
        ∃ caller,
          (state.threads thread).pc = .checkClosed caller ∧
            caller.side = .consumer) :
    memory.carried .closed message ⊆
      (memory.after arithmetic state thread (.load message)).knows
        thread := by
  rcases isAt with isAt | ⟨caller, isAt, isConsumer⟩
  · apply memory.carried_subset_acquired thread
    · simp [accesses, effects, isAt]
    · simp [accesses, effects, isAt]
  · have isAcquire : caller.closedOrder = .acquire := by
      cases caller <;> simp_all [Caller.side, Caller.closedOrder]
    apply memory.carried_subset_acquired thread
    · simp [accesses, effects, isAt, isAcquire]
    · simp [accesses, effects, isAt]

/-- A step that accesses a slot is the move of its holder. -/
theorem moveValue_of_access
    {label : Label α}
    {index : Nat}
    (isAccess : .access index ∈ effects arithmetic state label) :
    ∃ caller ticket,
      (state.threads label.thread).pc = .moveValue caller ticket ∧
        arithmetic.slotIndex ticket = index := by
  simp only [effects] at isAccess
  split at isAccess
  case h_8 caller ticket husk isAt _ =>
      simp only [List.mem_singleton, Effect.access.injEq] at isAccess
      exact ⟨caller, ticket, isAt, isAccess.symm⟩
  all_goals
    simp at isAccess

/-- Only the move of a slot's holder accesses its value. -/
theorem QueueMemory.accesses_after
    {index : Nat}
    (untouched :
      ∀ caller ticket,
        (state.threads thread).pc = .moveValue caller ticket →
        arithmetic.slotIndex ticket ≠ index) :
    (memory.after arithmetic state thread action).accesses index =
      memory.accesses index := by
  apply memory.accesses_applyAll
  intro isAccess
  obtain ⟨caller, ticket, isAt, isSlot⟩ := moveValue_of_access isAccess
  exact untouched caller ticket isAt isSlot

end Steps

end ConcurrentQueue.Mpmc
