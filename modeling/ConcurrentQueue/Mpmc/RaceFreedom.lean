import ConcurrentQueue.Mpmc.Ownership
import ConcurrentQueue.Mpmc.Memory

namespace ConcurrentQueue.Mpmc

/-!
# Every slot access happens after all earlier ones

A sequence message carries every access made of its slot before it was stored,
and what its author knew when it made the call.  Whoever finds the expected
sequence has loaded exactly the message stored by the thread that worked on
the slot before it, so it knows all of this before it touches the slot.  The
position counters, loaded and exchanged relaxed, play no part.
-/

open TicketRing

variable {α : Type}

/-- What the memory behind the queue is like in every reachable state. -/
structure Published (capacity : Nat) (ordered : OrderedState α) : Prop where
  /-- Unless a thread is about to release the slot, accesses are stages. -/
  counted :
    ∀ {index},
      (∀ thread caller ticket,
        (ordered.state.threads thread).pc = .storeSequence caller ticket →
        ticket % capacity ≠ index) →
      ordered.memory.accesses index =
        (ordered.state.slots index).sequence.newest
  /-- A thread about to release a slot made its last access. -/
  moved :
    ∀ {thread caller ticket},
      (ordered.state.threads thread).pc = .storeSequence caller ticket →
      ordered.memory.accesses (ticket % capacity) =
          stage capacity ⟨caller.side, ticket⟩ + 1 ∧
        .access (ticket % capacity) (stage capacity ⟨caller.side, ticket⟩) ∈
          ordered.memory.knows thread
  /-- The message of a stage carries the accesses of all earlier stages. -/
  carries :
    ∀ {index message number},
      message ≤ (ordered.state.slots index).sequence.newest →
      number < message →
      .access index number ∈
        ordered.memory.carried (.sequence index) message
  /-- Whoever found the expected sequence knows what its message carries. -/
  acquired :
    ∀ {thread ticket},
      (ordered.state.threads thread).pc.claiming = some ticket →
      ordered.memory.carried (.sequence (slotOf capacity ticket))
          (stage capacity ticket) ⊆
        ordered.memory.knows thread
  /-- So does the call that drew the ticket. -/
  drawn :
    ∀ {thread opened ticket},
      ordered.state.log.current thread = some opened →
      ticket ∈ opened.marks →
      ordered.memory.carried (.sequence (slotOf capacity ticket))
          (stage capacity ticket) ⊆
        ordered.memory.knows thread
  /-- A call that has returned knew what its ticket's message carries. -/
  ended :
    ∀ {call op tickets result ticket},
      ordered.state.log.Completed call op tickets result →
      ticket ∈ tickets →
      ordered.memory.carried (.sequence (slotOf capacity ticket))
          (stage capacity ticket) ⊆
        ordered.memory.ended call
  aware : Aware recording ordered
  /-- Sequence messages carry what was known at their authors' calls. -/
  released :
    ∀ index, Releases recording (.sequence index) ordered

/-- A sequence message that was not there is stored by a slot's holder. -/
theorem Step.stored
    {capacity thread index message : Nat}
    {state next : State α}
    {action : Action α}
    (step :
      Step (Arithmetic.exact capacity) state thread action next)
    (bound : message ≤ (next.slots index).sequence.newest)
    (isNew : ¬ message ≤ (state.slots index).sequence.newest) :
    ∃ caller ticket,
      (state.threads thread).pc = .storeSequence caller ticket ∧
        action = .store ∧ index = ticket % capacity ∧
        message = (state.slots (ticket % capacity)).sequence.newest + 1 ∧
        (next.slots index).sequence.author? message =
          some (state.callOf thread) := by
  cases step with
  | storeSequence isAt =>
      rename_i caller ticket
      simp only [State.slots_goto, State.sequence_storeSequence] at bound
      split at bound
      · rename_i isSlot
        rw [Atomic.newest_store] at bound
        rw [isSlot] at isNew
        have isNext := Nat.le_antisymm bound (Nat.lt_of_not_ge isNew)
        refine ⟨caller, ticket, isAt, rfl, isSlot, isNext, ?_⟩
        simp [isSlot, Atomic.author?_store, isNext]
      · exact absurd bound isNew
  | _ =>
      simp only [State.slots_goto, State.slots_noteClose, State.slots_invoke,
        State.slots_claim, State.slots_storeClosed, State.slots_respond,
        State.sequence_setValue] at bound
      exact absurd bound isNew

/--
A call in progress was in progress before the step or is the one it starts,
and a ticket it holds was its own before or is the one it had found free.
-/
theorem Tracked.current_step
    {capacity thread other : Nat}
    {state next : State α}
    {action : Action α}
    {arithmetic : Arithmetic}
    (tracked : Tracked capacity state)
    (step : Step arithmetic state thread action next)
    {opened : OpenCall (Op α) Ticket}
    (isCurrent : next.log.current other = some opened) :
    (∃ before,
      state.log.current other = some before ∧
        before.call = opened.call ∧ before.op = opened.op ∧
        ∀ ticket ∈ opened.marks,
          ticket ∈ before.marks ∨
            (state.threads other).pc.claiming = some ticket) ∨
      other = thread ∧ action = .invoke opened.op ∧
        (state.threads thread).pc = .idle ∧
        opened.call = state.log.nextCall ∧ opened.marks = [] := by
  by_cases same : other = thread
  · subst same
    cases step with
    | invoke isAt starts =>
        simp only [State.log_goto, State.log_invoke, CallLog.current_invoke,
          Function.update_self, Option.some.injEq] at isCurrent
        subst isCurrent
        exact Or.inr ⟨rfl, rfl, isAt, rfl, rfl⟩
    | claim isAt current =>
        obtain ⟨call, before⟩ := tracked.current_of_exchange isAt
        simp only [State.log_goto, State.log_claim,
          CallLog.mark_of_current _ before, Function.update_self,
          Option.some.injEq] at isCurrent
        subst isCurrent
        refine Or.inl ⟨_, before, rfl, rfl, ?_⟩
        intro ticket member
        simp only [List.nil_append, List.mem_singleton] at member
        subst member
        exact Or.inr (congrArg Pc.claiming isAt)
    | respond isAt =>
        have agrees := tracked.agrees other
        rw [isAt] at agrees
        obtain ⟨call, op, drawn, before, _⟩ := agrees
        simp [CallLog.respond_of_current _ before] at isCurrent
    | checkClosed | loadPos | reloadPos | loadSequence | lost | moveValue
    | storeSequence | storeClosed | loadClosed | sizeTail | sizeHead =>
        refine Or.inl
          ⟨opened, ?_, rfl, rfl, fun _ member => Or.inl member⟩
        simpa using isCurrent
  · rw [Tracked.current_other step same] at isCurrent
    exact Or.inl
      ⟨opened, isCurrent, rfl, rfl, fun _ member => Or.inl member⟩

namespace Published

variable {capacity : Nat} {state next : State α}
variable {memory : QueueMemory}

/-- The constructor synchronizes with nobody. -/
theorem initial [Inhabited α] (arithmetic : Arithmetic) :
    Published capacity
      (⟨Mpmc.initial arithmetic, {}⟩ : OrderedState α) where
  counted := by
    intro index _
    rfl
  moved := by
    intro thread caller ticket isAt
    simp [Mpmc.initial] at isAt
  carries := by
    intro index message number bound earlier
    simp only [Mpmc.initial, Atomic.newest_mk] at bound
    omega
  acquired := by
    intro thread ticket isClaiming
    simp [Mpmc.initial, Pc.claiming] at isClaiming
  drawn := by
    intro thread opened ticket isCurrent
    simp [Mpmc.initial] at isCurrent
  ended := by
    rintro call op tickets result ticket ⟨thread, invoked, _⟩
    simp [Mpmc.initial] at invoked
  aware := by
    apply Aware.initial rfl
    intro location message
    cases location with
    | position side => cases side <;> cases message <;> rfl
    | sequence | closed => cases message <;> rfl
  released := by
    intro index message call authored
    cases message <;> cases authored

/-- Threads may learn more. -/
theorem learn
    (published : Published capacity (⟨state, memory⟩ : OrderedState α))
    (thread : Nat)
    (more : List (Occurrence Location Nat)) :
    Published capacity
      (⟨state, memory.learn thread more⟩ : OrderedState α) := by
  have grows := memory.knows_learn thread more
  exact {
    counted := published.counted
    moved := fun isAt =>
      ⟨(published.moved isAt).1, grows _ (published.moved isAt).2⟩
    carries := published.carries
    acquired := fun isClaiming =>
      List.Subset.trans (published.acquired isClaiming) (grows _)
    drawn := fun isCurrent member =>
      List.Subset.trans (published.drawn isCurrent member) (grows _)
    ended := published.ended
    aware := published.aware.learn thread more
    released := published.released }

section Steps

variable {thread : Nat} {action : Action α}

/-- A step that neither moves nor releases keeps the count of accesses. -/
theorem counted_of_same
    {index : Nat}
    (published : Published capacity (⟨state, memory⟩ : OrderedState α))
    (step :
      Step (Arithmetic.exact capacity) state thread action next)
    (sameSequence :
      (next.slots index).sequence.newest =
        (state.slots index).sequence.newest)
    (elsewhere :
      ∀ caller ticket,
        (state.threads thread).pc = .moveValue caller ticket ∨
          (state.threads thread).pc = .storeSequence caller ticket →
        ticket % capacity ≠ index)
    (free :
      ∀ other caller ticket,
        (next.threads other).pc = .storeSequence caller ticket →
        ticket % capacity ≠ index) :
    (memory.after (Arithmetic.exact capacity) state thread
        action).accesses index =
      (next.slots index).sequence.newest := by
  rw [memory.accesses_after fun caller ticket isAt =>
    elsewhere caller ticket (Or.inl isAt), sameSequence]
  apply published.counted
  intro other caller ticket isAt
  by_cases same : other = thread
  · subst same
    exact elsewhere caller ticket (Or.inr isAt)
  · apply free other caller ticket
    rw [step.pc_other same]
    exact isAt

/-- Accesses are counted by the stages of the slot. -/
theorem counted_step
    (inv : Inv capacity state)
    (published : Published capacity (⟨state, memory⟩ : OrderedState α))
    (step :
      Step (Arithmetic.exact capacity) state thread action next)
    {index : Nat}
    (free :
      ∀ other caller ticket,
        (next.threads other).pc = .storeSequence caller ticket →
        ticket % capacity ≠ index) :
    (memory.after (Arithmetic.exact capacity) state thread
        action).accesses index =
      (next.slots index).sequence.newest := by
  have whole := step
  cases step with
  | moveValue isAt =>
      rename_i caller ticket husk
      have apart : ticket % capacity ≠ index := by
        apply free thread
        simp only [State.pc_goto, if_true]
        rfl
      apply published.counted_of_same whole (by simp) _ free
      rintro caller' ticket' (isAt' | isAt')
      · rw [isAt] at isAt'
        cases isAt'
        exact apart
      · rw [isAt] at isAt'
        cases isAt'
  | storeSequence isAt =>
      rename_i caller ticket
      by_cases same : ticket % capacity = index
      · subst same
        rw [memory.accesses_after fun caller' ticket' isAt' => by
          simp [isAt] at isAt', (published.moved isAt).1,
          ← inv.phase_of_storeSequence isAt]
        simp [Arithmetic.exact]
      · apply published.counted_of_same whole _ _ free
        · simp [Arithmetic.exact, Ne.symm same]
        · rintro caller' ticket' (isAt' | isAt')
          · rw [isAt] at isAt'
            cases isAt'
          · rw [isAt] at isAt'
            cases isAt'
            exact same
  | invoke isAt | checkClosed isAt | loadPos isAt | reloadPos isAt
  | loadSequence isAt | claim isAt | lost isAt | storeClosed isAt
  | loadClosed isAt | sizeTail isAt | sizeHead isAt | respond isAt =>
      apply published.counted_of_same whole (by simp) _ free
      intro caller' ticket'
      simp [isAt]

/-- While a thread is about to move, nobody else made the slot's access. -/
theorem accesses_of_moveValue
    (inv : Inv capacity state)
    (published : Published capacity (⟨state, memory⟩ : OrderedState α))
    {caller : Caller α}
    {ticket : Nat}
    (isAt : (state.threads thread).pc = .moveValue caller ticket) :
    memory.accesses (ticket % capacity) =
      stage capacity ⟨caller.side, ticket⟩ := by
  have isHeld : state.ring.holder thread = some ⟨caller.side, ticket⟩ := by
    simp [isAt]
  rw [← (inv.balanced.held isHeld).2]
  apply published.counted
  intro other caller' ticket' isAt' sameSlot
  have isHeld' :
      state.ring.holder other = some ⟨caller'.side, ticket'⟩ :=
    congrArg Pc.holding isAt'
  have same := inv.balanced.one_holder_per_slot isHeld' isHeld sameSlot
  subst same
  rw [isAt] at isAt'
  cases isAt'

/-- A thread about to release a slot made its last access. -/
theorem moved_step
    (inv : Inv capacity state)
    (published : Published capacity (⟨state, memory⟩ : OrderedState α))
    (step :
      Step (Arithmetic.exact capacity) state thread action next)
    {other ticket : Nat}
    {caller : Caller α}
    (isAt : (next.threads other).pc = .storeSequence caller ticket) :
    (memory.after (Arithmetic.exact capacity) state thread
          action).accesses (ticket % capacity) =
        stage capacity ⟨caller.side, ticket⟩ + 1 ∧
      .access (ticket % capacity) (stage capacity ⟨caller.side, ticket⟩) ∈
        (memory.after (Arithmetic.exact capacity) state thread
          action).knows other := by
  by_cases same : other = thread
  · subst same
    cases step with
    | moveValue isMoving =>
        rename_i caller' ticket' husk
        simp only [State.pc_goto, if_true, Pc.storeSequence.injEq] at isAt
        obtain ⟨isCaller, rfl⟩ := isAt
        have sameSide : caller.side = caller'.side := by
          rw [← isCaller, Caller.side_transfer]
        rw [sameSide, ← published.accesses_of_moveValue inv isMoving]
        simp [Memory.after, Memory.applyAll, accesses, effects, isMoving,
          Memory.apply, Memory.learn, Arithmetic.exact]
    | invoke isIdle starts =>
        have isHeld := congrArg Pc.holding isAt
        simp [Pc.holding_start? starts] at isHeld
    | checkClosed | loadSequence | storeSequence =>
        have isHeld := congrArg Pc.holding isAt
        simp at isHeld
    | loadPos | reloadPos | claim | lost | storeClosed | loadClosed
    | sizeTail | sizeHead | respond =>
        simp at isAt
  · rw [step.pc_other same] at isAt
    obtain ⟨counted, isKnown⟩ := published.moved isAt
    refine ⟨?_, memory.knows_after other isKnown⟩
    rw [memory.accesses_after, counted]
    intro caller' ticket' isMoving sameSlot
    have isHeld : state.ring.holder other = some ⟨caller.side, ticket⟩ := by
      simp [isAt]
    have isHeld' :
        state.ring.holder thread = some ⟨caller'.side, ticket'⟩ := by
      simp [isMoving]
    exact same
      (inv.balanced.one_holder_per_slot isHeld isHeld' sameSlot.symm)

/-- The thread about to release a slot knows all accesses of the slot. -/
theorem knows_accesses
    (tracked : Tracked capacity state)
    (inv : Inv capacity state)
    (published : Published capacity (⟨state, memory⟩ : OrderedState α))
    {ticket : Ticket}
    (isHeld : (state.threads thread).pc.holding = some ticket)
    {number : Nat}
    (earlier : number < stage capacity ticket) :
    .access (slotOf capacity ticket) number ∈ memory.knows thread := by
  have phase := (inv.balanced.held isHeld).2
  have agrees := tracked.agrees thread
  obtain ⟨opened, isCurrent, isMark⟩ :
      ∃ opened,
        state.log.current thread = some opened ∧ ticket ∈ opened.marks := by
    cases isAt : (state.threads thread).pc with
    | moveValue caller number =>
        rw [isAt] at agrees isHeld
        obtain ⟨call, isCurrent⟩ := agrees
        cases isHeld
        exact ⟨_, isCurrent, List.mem_singleton.mpr rfl⟩
    | storeSequence caller number =>
        rw [isAt] at agrees isHeld
        obtain ⟨call, op, isCurrent, _⟩ := agrees
        cases isHeld
        exact ⟨_, isCurrent, List.mem_singleton.mpr rfl⟩
    | _ =>
        simp [isAt] at isHeld
  apply published.drawn isCurrent isMark
  exact published.carries (Nat.le_of_eq phase.symm) earlier

/-- A new message carries all accesses of the slot made so far. -/
theorem carries_step
    (tracked : Tracked capacity state)
    (inv : Inv capacity state)
    (published : Published capacity (⟨state, memory⟩ : OrderedState α))
    (step :
      Step (Arithmetic.exact capacity) state thread action next)
    {index message number : Nat}
    (bound : message ≤ (next.slots index).sequence.newest)
    (earlier : number < message) :
    .access index number ∈
      (memory.after (Arithmetic.exact capacity) state thread
        action).carried (.sequence index) message := by
  by_cases old : message ≤ (state.slots index).sequence.newest
  · rw [memory.carried_after old]
    exact published.carries old earlier
  · obtain ⟨caller, ticket, isAt, rfl, rfl, rfl, _⟩ :=
      step.stored bound old
    have phase := inv.phase_of_storeSequence isAt
    have isHeld :
        (state.threads thread).pc.holding = some ⟨caller.side, ticket⟩ :=
      congrArg Pc.holding isAt
    apply memory.subset_stored isAt
    have known : number < stage capacity ⟨caller.side, ticket⟩ ∨
        number = stage capacity ⟨caller.side, ticket⟩ := by
      rw [← phase]
      exact Nat.lt_succ_iff_lt_or_eq.mp earlier
    rcases known with before | rfl
    · exact published.knows_accesses tracked inv isHeld before
    · exact (published.moved isAt).2

/-- A load of the expected sequence is an acquire of its message. -/
theorem acquired_step
    (positive : 0 < capacity)
    (inv : Inv capacity state)
    (published : Published capacity (⟨state, memory⟩ : OrderedState α))
    (step :
      Step (Arithmetic.exact capacity) state thread action next)
    {other : Nat}
    {ticket : Ticket}
    (isClaiming : (next.threads other).pc.claiming = some ticket) :
    (memory.after (Arithmetic.exact capacity) state thread
        action).carried (.sequence (slotOf capacity ticket))
        (stage capacity ticket) ⊆
      (memory.after (Arithmetic.exact capacity) state thread
        action).knows other := by
  by_cases same : other = thread
  · subst same
    cases step with
    | loadSequence isAt reads =>
        rename_i caller number message sequence
        simp only [State.pc_goto, if_true] at isClaiming
        obtain ⟨zero, rfl⟩ := Pc.claiming_classify _ _ isClaiming
        have inRange : number % capacity < capacity :=
          Nat.mod_lt _ positive
        rw [inv.sequences inRange reads] at zero
        have isStage := (difference_eq_zero_iff positive _ _ _).mp zero
        have old := Atomic.le_newest_of_read? _ reads
        rw [isStage] at old
        have isSlot :
            slotOf capacity ⟨caller.side, number⟩ =
              (Arithmetic.exact capacity).slotIndex number := by
          rfl
        rw [isSlot, memory.carried_after old, ← isStage]
        exact memory.subset_loaded isAt
    | invoke isAt starts =>
        have considering := Pc.considering_of_claiming isClaiming
        simp [Pc.considering_start? starts] at considering
    | checkClosed isAt reads | storeSequence isAt =>
        have considering := Pc.considering_of_claiming isClaiming
        simp at considering
    | loadPos | reloadPos | lost | claim | moveValue | storeClosed
    | loadClosed | sizeTail | sizeHead | respond =>
        simp [Pc.claiming] at isClaiming
  · rw [step.pc_other same] at isClaiming
    rw [memory.carried_after (inv.ready isClaiming)]
    exact List.Subset.trans (published.acquired isClaiming)
      (memory.knows_after other)

/-- A slot has reached the stage of every ticket drawn in it. -/
theorem reached_of_mark
    (tracked : Tracked capacity state)
    (inv : Inv capacity state)
    {call : Nat}
    {ticket : Ticket}
    (marked : .mark call ticket ∈ state.log.history) :
    stage capacity ticket ≤
      (state.slots (slotOf capacity ticket)).sequence.newest :=
  inv.balanced.reached ticket (tracked.lt_newest_of_mark marked)

/-- The call that draws a ticket knows what the ticket's message carries. -/
theorem drawn_step
    (tracked : Tracked capacity state)
    (inv : Inv capacity state)
    (published : Published capacity (⟨state, memory⟩ : OrderedState α))
    (step :
      Step (Arithmetic.exact capacity) state thread action next)
    {other : Nat}
    {opened : OpenCall (Op α) Ticket}
    {ticket : Ticket}
    (isCurrent : next.log.current other = some opened)
    (isMark : ticket ∈ opened.marks) :
    (memory.after (Arithmetic.exact capacity) state thread
        action).carried (.sequence (slotOf capacity ticket))
        (stage capacity ticket) ⊆
      (memory.after (Arithmetic.exact capacity) state thread
        action).knows other := by
  rcases tracked.current_step step isCurrent with
    ⟨before, wasCurrent, _, _, marks⟩ | ⟨_, _, _, _, noMarks⟩
  · rcases marks ticket isMark with old | isClaiming
    · have marked : .mark before.call ticket ∈ state.log.history := by
        rw [← CallLog.mem_marksOf, tracked.wellFormed.currentMarks wasCurrent]
        exact old
      rw [memory.carried_after (reached_of_mark tracked inv marked)]
      exact List.Subset.trans (published.drawn wasCurrent old)
        (memory.knows_after other)
    · rw [memory.carried_after (inv.ready isClaiming)]
      exact List.Subset.trans (published.acquired isClaiming)
        (memory.knows_after other)
  · simp [noMarks] at isMark

/-- A call that returns has known what its ticket's message carries. -/
theorem ended_step
    (tracked : Tracked capacity state)
    (inv : Inv capacity state)
    (published : Published capacity (⟨state, memory⟩ : OrderedState α))
    (step :
      Step (Arithmetic.exact capacity) state thread action next)
    {call : Nat}
    {op : Op α}
    {tickets : List Ticket}
    {result : Result α}
    {ticket : Ticket}
    (completed : next.log.Completed call op tickets result)
    (isMark : ticket ∈ tickets) :
    (memory.after (Arithmetic.exact capacity) state thread
        action).carried (.sequence (slotOf capacity ticket))
        (stage capacity ticket) ⊆
      (memory.after (Arithmetic.exact capacity) state thread
        action).ended call := by
  rcases tracked.completed_step step completed with
    old | ⟨isAt, isCurrent⟩
  · obtain ⟨owner, invoked, returned, marks⟩ := id old
    have marked : .mark call ticket ∈ state.log.history := by
      rw [← CallLog.mem_marksOf, marks]
      exact isMark
    rw [memory.carried_after (reached_of_mark tracked inv marked),
      (step.records tracked).ended_eq tracked.wellFormed returned]
    exact published.ended old isMark
  · have marked : .mark call ticket ∈ state.log.history := by
      have marks := tracked.wellFormed.currentMarks isCurrent
      rw [← CallLog.mem_marksOf, marks]
      exact isMark
    rw [memory.carried_after (reached_of_mark tracked inv marked)]
    rw [step.ended_of_returning isAt isCurrent]
    exact published.drawn isCurrent isMark

/-- Every step keeps the memory in order. -/
theorem step
    (positive : 0 < capacity)
    (tracked : Tracked capacity state)
    (inv : Inv capacity state)
    (published : Published capacity (⟨state, memory⟩ : OrderedState α))
    (step :
      Step (Arithmetic.exact capacity) state thread action next) :
    Published capacity
      (⟨next, memory.after (Arithmetic.exact capacity) state thread action⟩ :
        OrderedState α) where
  counted := published.counted_step inv step
  moved := published.moved_step inv step
  carries := published.carries_step tracked inv step
  acquired := published.acquired_step positive inv step
  drawn := published.drawn_step tracked inv step
  ended := published.ended_step tracked inv step
  aware := published.aware.step tracked.wellFormed (step.records tracked)
  released := fun index =>
    (published.released index).step published.aware (step.records tracked)
      fun _ _ stored => (newest_of_store stored).1

end Steps

/-- The memory is in order in every reachable state. -/
theorem of_run
    [Inhabited α]
    (positive : 0 < capacity)
    {guard : StepGuard (OrderedState α) (Move (Label α) Nat)}
    {moves : List (Move (Label α) Nat)}
    {ordered : OrderedState α}
    (run :
      Run
        (orderedStep? (step? (Arithmetic.exact capacity))
          (accesses (Arithmetic.exact capacity)))
        guard ⟨Mpmc.initial (Arithmetic.exact capacity), {}⟩ moves
        ordered) :
    Published capacity ordered := by
  apply run.ordered_invariant
    (fun state => Inv capacity state ∧ Tracked capacity state)
  · intro moves ordered run
    exact ⟨Inv.of_run positive run.unordered,
      Tracked.of_run positive run.unordered⟩
  · exact Published.initial _
  · intro state next label memory before _ published _ taken
    exact published.step positive before.2 before.1 (Step.of_step? taken)
  · intro state memory thread more published _
    exact published.learn thread more

/--
The call that draws a slot's next ticket returns knowing what was known at the
call that drew the ticket before.
-/
theorem synchronized
    (positive : 0 < capacity)
    (tracked : Tracked capacity state)
    (inv : Inv capacity state)
    (published : Published capacity (⟨state, memory⟩ : OrderedState α))
    {first second : Nat}
    {op op' : Op α}
    {ticket ticket' : Ticket}
    {result result' : Result α}
    (sameSlot : slotOf capacity ticket' = slotOf capacity ticket)
    (follows : stage capacity ticket' = stage capacity ticket + 1)
    (earlier : state.log.Completed first op [ticket] result)
    (later : state.log.Completed second op' [ticket'] result') :
    memory.begun first ⊆ memory.ended second := by
  have marked : .mark first ticket ∈ state.log.history := by
    obtain ⟨_, _, _, marks⟩ := earlier
    simp [← CallLog.mem_marksOf, marks]
  have marked' : .mark second ticket' ∈ state.log.history := by
    obtain ⟨_, _, _, marks⟩ := later
    simp [← CallLog.mem_marksOf, marks]
  have reached := reached_of_mark tracked inv marked'
  rw [sameSlot, follows] at reached
  obtain ⟨author, authored⟩ :=
    (state.slots (slotOf capacity ticket)).sequence.exists_author? reached
  have isFirst : first = author :=
    (tracked.author_stage positive ticket authored first).mp marked
  subst isFirst
  have isAuthor :
      recording.author? state (.sequence (slotOf capacity ticket))
          (stage capacity ticket + 1) =
        some first :=
    authored
  have carried := published.ended later (List.mem_singleton.mpr rfl)
  rw [sameSlot, follows] at carried
  exact List.Subset.trans (published.released _ _ _ isAuthor) carried

end Published

section Guarantees

variable [Inhabited α] {capacity : Nat}
variable {guard : StepGuard (OrderedState α) (Move (Label α) Nat)}
variable {moves : List (Move (Label α) Nat)} {ordered : OrderedState α}

/--
No two accesses to a slot race: however stale the loads are, whoever is about
to move a value into or out of a slot knows of every earlier access to it.
-/
theorem race_free
    (positive : 0 < capacity)
    (run :
      Run
        (orderedStep? (step? (Arithmetic.exact capacity))
          (accesses (Arithmetic.exact capacity)))
        guard ⟨initial (Arithmetic.exact capacity), {}⟩ moves ordered) :
    RaceFree (accesses (Arithmetic.exact capacity)) ordered := by
  have published := Published.of_run positive run
  have inv := Inv.of_run positive run.unordered
  have tracked := Tracked.of_run positive run.unordered
  intro label index isAccess number earlier
  obtain ⟨caller, ticket, isAt, isSlot⟩ := moveValue_of_access isAccess
  have isIndex : ticket % capacity = index := isSlot
  subst isIndex
  have isHeld :
      (ordered.state.threads label.thread).pc.holding =
        some ⟨caller.side, ticket⟩ :=
    congrArg Pc.holding isAt
  rw [published.accesses_of_moveValue inv isAt] at earlier
  exact published.knows_accesses tracked inv isHeld earlier

/--
Calls on the same slot synchronize: all that the caller of a push knew when it
called is known when the pop of that element returns, and all that the caller
of a pop knew is known when the push that reuses the slot returns.
-/
theorem calls_synchronize
    (positive : 0 < capacity)
    (run :
      Run
        (orderedStep? (step? (Arithmetic.exact capacity))
          (accesses (Arithmetic.exact capacity)))
        guard ⟨initial (Arithmetic.exact capacity), {}⟩ moves ordered)
    {push pop : Nat}
    {pushOp popOp : Op α}
    {pushResult popResult : Result α}
    {pushed popped : Nat}
    (pushes :
      ordered.state.log.Completed push pushOp [⟨.producer, pushed⟩]
        pushResult)
    (pops :
      ordered.state.log.Completed pop popOp [⟨.consumer, popped⟩]
        popResult) :
    (pushed = popped →
        ordered.memory.begun push ⊆ ordered.memory.ended pop) ∧
      (pushed = popped + capacity →
        ordered.memory.begun pop ⊆ ordered.memory.ended push) := by
  have published := Published.of_run positive run
  have inv := Inv.of_run positive run.unordered
  have tracked := Tracked.of_run positive run.unordered
  constructor
  · rintro rfl
    have sameSlot :
        slotOf capacity ⟨.consumer, pushed⟩ =
          slotOf capacity ⟨.producer, pushed⟩ := by
      rfl
    exact published.synchronized positive tracked inv sameSlot
      (stage_consumer pushed) pushes pops
  · rintro rfl
    exact published.synchronized positive tracked inv
      (slotOf_add_slots popped .producer .consumer)
      (stage_add_slots positive popped) pops pushes

end Guarantees

/--
Thread `0` does something and pushes; thread `1` does something and pops with
stale loads of the counters and of the sequence.
-/
def handOffMoves : List (Move (Label Nat) Nat) :=
  [.act 0 9, .act 1 4, .step ⟨0, .invoke (.tryPush 7)⟩, .step ⟨0, .load 0⟩,
    .step ⟨0, .load 0⟩, .step ⟨0, .load 0⟩, .step ⟨0, .exchange none⟩,
    .step ⟨0, .move 0⟩, .step ⟨0, .store⟩, .step ⟨0, .respond⟩,
    .step ⟨1, .invoke (.pop 5)⟩, .step ⟨1, .load 0⟩, .step ⟨1, .load 0⟩,
    .step ⟨1, .load 0⟩, .step ⟨1, .load 0⟩, .step ⟨1, .load 1⟩,
    .step ⟨1, .exchange none⟩]

theorem race_free_hand_off :
    ∃ ordered,
      replay?
          (orderedStep? (step? (Arithmetic.exact 1))
            (accesses (Arithmetic.exact 1)))
          unrestricted ⟨initial (Arithmetic.exact 1), {}⟩ handOffMoves =
        some ordered ∧
        (ordered.memory.accesses 0 = 1 ∧
          .access 0 ∈
            effects (Arithmetic.exact 1) ordered.state ⟨1, .move 0⟩) ∧
        RaceFree (accesses (Arithmetic.exact 1)) ordered := by
  have replayed :
      ∃ ordered,
        replay?
            (orderedStep? (step? (Arithmetic.exact 1))
              (accesses (Arithmetic.exact 1)))
            unrestricted ⟨initial (Arithmetic.exact 1), {}⟩ handOffMoves =
          some ordered ∧
          ordered.memory.accesses 0 = 1 ∧
          .access 0 ∈
            effects (Arithmetic.exact 1) ordered.state ⟨1, .move 0⟩ :=
    ⟨_, rfl, rfl, by decide⟩
  obtain ⟨ordered, accepted, isAbout⟩ := replayed
  exact ⟨ordered, accepted, isAbout,
    race_free Nat.one_pos (Run.of_replay? accepted)⟩

/-- The pop ends, and thread `0` pushes into the slot that it released. -/
def refillMoves : List (Move (Label Nat) Nat) :=
  [.step ⟨1, .move 0⟩, .step ⟨1, .store⟩, .step ⟨1, .respond⟩,
    .step ⟨0, .invoke (.push 8)⟩, .step ⟨0, .load 0⟩, .step ⟨0, .load 1⟩,
    .step ⟨0, .load 2⟩, .step ⟨0, .exchange none⟩, .step ⟨0, .move 0⟩,
    .step ⟨0, .store⟩, .step ⟨0, .respond⟩]

theorem calls_synchronize_hand_off :
    ∃ ordered,
      replay?
          (orderedStep? (step? (Arithmetic.exact 1))
            (accesses (Arithmetic.exact 1)))
          unrestricted ⟨initial (Arithmetic.exact 1), {}⟩
          (handOffMoves ++ refillMoves) =
        some ordered ∧
        .action 9 ∈ ordered.memory.begun 0 ∧
        ordered.memory.begun 0 ⊆ ordered.memory.ended 1 ∧
        .action 4 ∈ ordered.memory.begun 1 ∧
        ordered.memory.begun 1 ⊆ ordered.memory.ended 2 := by
  have replayed :
      ∃ ordered,
        replay?
            (orderedStep? (step? (Arithmetic.exact 1))
              (accesses (Arithmetic.exact 1)))
            unrestricted ⟨initial (Arithmetic.exact 1), {}⟩
            (handOffMoves ++ refillMoves) =
          some ordered ∧
          .action 9 ∈ ordered.memory.begun 0 ∧
          .action 4 ∈ ordered.memory.begun 1 ∧
          ordered.state.log.Completed 0 (.tryPush 7) [⟨.producer, 0⟩]
            (.pushed true) ∧
          ordered.state.log.Completed 1 (.pop 5) [⟨.consumer, 0⟩]
            (.popped true 7) ∧
          ordered.state.log.Completed 2 (.push 8) [⟨.producer, 1⟩]
            (.pushed true) :=
    ⟨_, rfl, by decide, by decide, ⟨0, by decide, by decide, rfl⟩,
      ⟨1, by decide, by decide, rfl⟩, ⟨0, by decide, by decide, rfl⟩⟩
  obtain ⟨ordered, accepted, known, known', pushes, pops, refills⟩ := replayed
  have run := Run.of_replay? accepted
  exact ⟨ordered, accepted, known,
    (calls_synchronize Nat.one_pos run pushes pops).1 rfl, known',
    (calls_synchronize Nat.one_pos run refills pops).2 rfl⟩

end ConcurrentQueue.Mpmc
