import ConcurrentQueue.Mpmc.Rounds

namespace ConcurrentQueue.Mpmc

/-!
# The 64-bit machine in lockstep with the ideal one

In a comparable run every choice that the source makes by comparing numbers is
the same on 64-bit words and on unbounded tickets.  The two machines therefore
take the same steps, one in the wrapped state of the other.
-/

variable {α : Type}

section Lockstep

variable {capacity : Nat} {state : State α}

/-- The slot index does not notice the wrap in a comparable step. -/
theorem slotIndex_wrap
    (small : capacity ≤ 2 ^ 60)
    {label : Label α}
    (loops : shortLoops capacity state label)
    {side : Side}
    {ticket : Nat}
    (notAhead : ticket ≤ (state.pos side).newest) :
    (Arithmetic.sizeT capacity).slotIndex (SizeT.wrap ticket) =
      (Arithmetic.exact capacity).slotIndex ticket := by
  apply slotIndex_wrap_of_small capacity small
  refine loops.2.2.imp_right fun ⟨producers, consumers⟩ => ?_
  unfold SizeT.modulus
  cases side <;> simp only [State.pos] at notAhead <;> omega

/-- The local ticket of a comparable step is close to its counter. -/
theorem near_of_shortLoops
    (windowed : Windowed state)
    {label : Label α}
    (loops : shortLoops capacity state label)
    {caller : Caller α}
    {ticket : Nat}
    (isAttempting :
      (state.threads label.thread).pc.attempting = some caller)
    (isConsidering :
      (state.threads label.thread).pc.considering =
        some ⟨caller.side, ticket⟩) :
    (state.pos caller.side).newest ≤ ticket + 2 ^ 61 := by
  have bound := loops.1
  rw [isAttempting] at bound
  have entered := windowed.considered isConsidering
  simp only at entered bound
  omega

/-- Unbounded tickets whose differences are read in another way. -/
def Arithmetic.reading
    (capacity : Nat)
    (difference : Nat → Nat → Int) :
    Arithmetic :=
  { Arithmetic.exact capacity with difference := difference }

/-- What a step chooses by its numbers does not depend on the wrap. -/
structure SameChoices
    (capacity : Nat)
    (difference : Nat → Nat → Int)
    (state : State α)
    (label : Label α) : Prop where
  slot :
    ∀ {ticket},
      (state.threads label.thread).pc.considering = some ticket ∨
        (state.threads label.thread).pc.holding = some ticket →
      (Arithmetic.sizeT capacity).slotIndex (SizeT.wrap ticket.number) =
        ticket.number % capacity
  branch :
    ∀ {caller ticket message sequence},
      (state.threads label.thread).pc = .loadSequence caller ticket →
      label.action = .load message →
      (state.slots (ticket % capacity)).sequence.read? message =
        some sequence →
      (Arithmetic.sizeT capacity).difference (SizeT.wrap sequence)
          ((Arithmetic.sizeT capacity).expected caller.side
            (SizeT.wrap ticket)) =
        difference sequence
          ((Arithmetic.exact capacity).expected caller.side ticket)
  exchange :
    ∀ {caller ticket},
      (state.threads label.thread).pc = .exchange caller ticket →
      (SizeT.wrap (state.pos caller.side).latest = SizeT.wrap ticket ↔
        (state.pos caller.side).latest = ticket)
  size :
    ∀ {tail message head},
      (state.threads label.thread).pc = .sizeHead tail →
      label.action = .load message →
      state.dequeuePos.read? message = some head →
      sizeOf (Arithmetic.sizeT capacity) (SizeT.wrap tail)
          (SizeT.wrap head) =
        sizeOf (Arithmetic.reading capacity difference) tail head

/--
Where the choices are the same, the 64-bit machine is enabled where the one on
unbounded tickets is, and reaches the wrapped state.
-/
theorem step?_wrapped_of
    {difference : Nat → Nat → Int}
    {label : Label α}
    (same : SameChoices capacity difference state label) :
    step? (Arithmetic.sizeT capacity) state.wrapped label =
      (step? (Arithmetic.reading capacity difference) state label).map
        State.wrapped := by
  rcases label with ⟨thread, action⟩
  cases isAt : (state.threads thread).pc with
  | idle =>
      cases action with
      | invoke op =>
          simp only [step?, State.pc_wrapped, isAt, Pc.wrapped_idle]
          have sameStart :
              Pc.start? (Arithmetic.sizeT capacity).slots op =
                Pc.start? (Arithmetic.reading capacity difference).slots
                  op := by
            rfl
          rw [sameStart]
          cases starts :
              Pc.start? (Arithmetic.reading capacity difference).slots
                op with
          | none => rfl
          | some pc =>
              simp [State.wrapped_goto, State.wrapped_invoke,
                Pc.wrapped_start? starts]
      | _ => simp [step?, isAt]
  | checkClosed caller =>
      cases action with
      | load message =>
          simp [step?, isAt, Function.comp_def,
            State.wrapped_goto, State.wrapped_noteClose]
      | _ => simp [step?, isAt]
  | loadPos caller =>
      cases action with
      | load message =>
          simp [step?, isAt, Function.comp_def,
            State.wrapped_goto]
      | _ => simp [step?, isAt]
  | reloadPos caller ticket =>
      cases action with
      | load message =>
          simp [step?, isAt, Function.comp_def,
            State.wrapped_goto]
      | _ => simp [step?, isAt]
  | loadSequence caller ticket =>
      cases action with
      | load message =>
          have sameSlot :=
            same.slot (Or.inl (by rw [isAt, Pc.considering_loadSequence]))
          simp only at sameSlot
          simp only [step?, State.pc_wrapped, isAt,
            Pc.wrapped_loadSequence, sameSlot, State.sequence_wrapped,
            Atomic.read?_map, Arithmetic.reading, Arithmetic.exact]
          cases reads :
              (state.slots (ticket % capacity)).sequence.read? message with
          | none => rfl
          | some sequence =>
              have sameSign := same.branch isAt rfl reads
              simp only [Option.map_some, State.wrapped_goto,
                Pc.wrapped_classify, sameSign]
              rfl
      | _ => simp [step?, isAt]
  | exchange caller ticket =>
      cases action with
      | exchange failure =>
          cases failure with
          | none =>
              simp only [step?, State.pc_wrapped, isAt,
                Pc.wrapped_exchange, State.pos_wrapped, Atomic.latest_map,
                same.exchange isAt]
              split
              · simp only [State.wrapped_goto, Pc.wrapped_moveValue,
                  Option.map_some]
                rw [← State.wrapped_claim]
                rfl
              · rfl
          | some message =>
              simp [step?, isAt, Function.comp_def,
                State.wrapped_goto]
      | _ => simp [step?, isAt]
  | moveValue caller ticket =>
      cases action with
      | move husk =>
          have sameSlot :=
            same.slot (Or.inr (by rw [isAt, Pc.holding_moveValue]))
          simp [step?, isAt, sameSlot, State.wrapped_goto,
            State.wrapped_setValue, Arithmetic.reading, Arithmetic.exact]
      | _ => simp [step?, isAt]
  | storeSequence caller ticket =>
      cases action with
      | store =>
          have sameSlot :=
            same.slot (Or.inr (by rw [isAt, Pc.holding_storeSequence]))
          have samePublished :=
            published_wrap capacity caller.side ticket
          simp only [Arithmetic.exact] at samePublished
          simp [step?, isAt, sameSlot, State.wrapped_goto,
            State.wrapped_storeSequence, samePublished, Arithmetic.reading,
            Arithmetic.exact]
      | _ => simp [step?, isAt]
  | storeClosed =>
      cases action with
      | store =>
          simp [step?, isAt, State.wrapped_goto,
            State.wrapped_storeClosed]
      | _ => simp [step?, isAt]
  | loadClosed =>
      cases action with
      | load message =>
          simp [step?, isAt, Function.comp_def,
            State.wrapped_goto, State.wrapped_noteClose]
      | _ => simp [step?, isAt]
  | sizeTail =>
      cases action with
      | load message =>
          simp only [step?, State.pc_wrapped, isAt, Pc.wrapped_sizeTail]
          have sameTail :
              state.wrapped.enqueuePos =
                state.enqueuePos.map SizeT.wrap := by
            rfl
          simp [sameTail, Function.comp_def, State.wrapped_goto]
      | _ => simp [step?, isAt]
  | sizeHead tail =>
      cases action with
      | load message =>
          have sameHead :
              state.wrapped.dequeuePos =
                state.dequeuePos.map SizeT.wrap := by
            rfl
          simp only [step?, State.pc_wrapped, isAt, Pc.wrapped_sizeHead,
            sameHead, Atomic.read?_map]
          cases reads : state.dequeuePos.read? message with
          | none => rfl
          | some head =>
              have sameSize := same.size isAt rfl reads
              simp [State.wrapped_goto, sameSize]
      | _ => simp [step?, isAt]
  | returning result =>
      cases action with
      | respond =>
          simp [step?, isAt, State.wrapped_goto,
            State.wrapped_respond]
      | _ => simp [step?, isAt]

/-- In a comparable step every choice is the same on both machines. -/
theorem sameChoices_of_comparable
    (positive : 0 < capacity)
    (small : capacity ≤ 2 ^ 60)
    (inv : Inv capacity state)
    (windowed : Windowed state)
    {label : Label α}
    (admitted : comparable capacity state label) :
    SameChoices capacity (Arithmetic.exact capacity).difference state
      label where
  slot := by
    intro ticket isLocal
    have notAhead : ticket.number ≤ (state.pos ticket.side).newest := by
      rcases isLocal with isConsidering | isHeld
      · exact inv.considered isConsidering
      · exact Nat.le_of_lt (inv.balanced.held isHeld).1
    exact slotIndex_wrap small admitted.2 notAhead
  branch := by
    intro caller ticket message sequence isAt isLoad reads
    have isConsidering := congrArg Pc.considering isAt
    rw [Pc.considering_loadSequence] at isConsidering
    have notAhead := inv.considered isConsidering
    have near :=
      near_of_shortLoops windowed admitted.2 (by rw [isAt]; rfl)
        isConsidering
    have isSequential := admitted.1
    simp only [sequential, isAt, isLoad] at isSequential
    subst isSequential
    simp only [Arithmetic.exact, Atomic.read?_newest,
      Option.some.injEq] at reads
    rw [← reads]
    exact difference_wrap positive small inv notAhead near
  exchange := by
    intro caller ticket isAt
    have isConsidering := congrArg Pc.considering isAt
    rw [Pc.considering_exchange] at isConsidering
    have notAhead := inv.considered isConsidering
    have near :=
      near_of_shortLoops windowed admitted.2 (by rw [isAt]; rfl)
        isConsidering
    exact latest_eq_wrap_iff inv notAhead near
  size := by
    intro tail message head isAt isLoad reads
    have near := admitted.2.2.1
    simp only [isAt] at near
    have isSequential := admitted.1
    simp only [sequential, isAt, isLoad] at isSequential
    subst isSequential
    rw [Atomic.read?_newest, Option.some.injEq] at reads
    rw [← reads]
    exact sizeOf_wrap small inv (windowed.tails isAt) near

/--
In a comparable step the two machines do the same: the 64-bit machine is
enabled where the ideal one is, and reaches the wrapped state.
-/
theorem step?_wrapped
    (positive : 0 < capacity)
    (small : capacity ≤ 2 ^ 60)
    (inv : Inv capacity state)
    (windowed : Windowed state)
    {label : Label α}
    (admitted : comparable capacity state label) :
    step? (Arithmetic.sizeT capacity) state.wrapped label =
      (step? (Arithmetic.exact capacity) state label).map
        State.wrapped :=
  step?_wrapped_of
    (sameChoices_of_comparable positive small inv windowed admitted)

/-- Branch, exchange, slot and effect of one step on both machines. -/
structure SameStep
    (capacity : Nat)
    (state : State α)
    (label : Label α) : Prop where
  effect :
    step? (Arithmetic.sizeT capacity) state.wrapped label =
      (step? (Arithmetic.exact capacity) state label).map State.wrapped
  branch :
    ∀ {caller ticket},
      (state.threads label.thread).pc = .loadSequence caller ticket →
      (Arithmetic.sizeT capacity).difference
          (state.wrapped.slots
            ((Arithmetic.sizeT capacity).slotIndex
              (SizeT.wrap ticket))).sequence.latest
          ((Arithmetic.sizeT capacity).expected caller.side
            (SizeT.wrap ticket)) =
        (Arithmetic.exact capacity).difference
          (state.slots (ticket % capacity)).sequence.latest
          ((Arithmetic.exact capacity).expected caller.side ticket)
  exchange :
    ∀ {caller ticket},
      (state.threads label.thread).pc = .exchange caller ticket →
      ((state.wrapped.pos caller.side).latest = SizeT.wrap ticket ↔
        (state.pos caller.side).latest = ticket)
  slot :
    ∀ {ticket},
      (state.threads label.thread).pc.considering = some ticket ∨
        (state.threads label.thread).pc.holding = some ticket →
      (Arithmetic.sizeT capacity).slotIndex (SizeT.wrap ticket.number) =
        ticket.number % capacity

/-- A comparable step is the same on both machines. -/
theorem same_step
    (positive : 0 < capacity)
    (small : capacity ≤ 2 ^ 60)
    (inv : Inv capacity state)
    (windowed : Windowed state)
    {label : Label α}
    (admitted : comparable capacity state label) :
    SameStep capacity state label where
  effect := step?_wrapped positive small inv windowed admitted
  branch := by
    intro caller ticket isAt
    have isConsidering := congrArg Pc.considering isAt
    rw [Pc.considering_loadSequence] at isConsidering
    have notAhead := inv.considered isConsidering
    have near :=
      near_of_shortLoops windowed admitted.2 (by rw [isAt]; rfl)
        isConsidering
    have sameSlot := slotIndex_wrap small admitted.2 notAhead
    rw [sameSlot, State.sequence_wrapped, Atomic.latest_map]
    exact difference_wrap positive small inv notAhead near
  exchange := by
    intro caller ticket isAt
    have same :=
      sameChoices_of_comparable positive small inv windowed admitted
    rw [State.pos_wrapped, Atomic.latest_map]
    exact same.exchange isAt
  slot := by
    intro ticket isLocal
    have same :=
      sameChoices_of_comparable positive small inv windowed admitted
    exact same.slot isLocal

end Lockstep

/--
`MpmcQueue` is correct under 64-bit wrap-around: the 64-bit machine runs in
lockstep with the machine on unbounded tickets, always in the wrapped state,
and answers every call with the same result.
-/
theorem wrap_around
    [Inhabited α]
    {capacity : Nat}
    (positive : 0 < capacity)
    (small : capacity ≤ 2 ^ 60)
    {labels : List (Label α)}
    {state : State α}
    (run :
      Run (step? (Arithmetic.exact capacity)) (comparable capacity)
        (initial (Arithmetic.exact capacity)) labels state) :
    Run (step? (Arithmetic.sizeT capacity)) unrestricted
        (initial (Arithmetic.sizeT capacity)) labels state.wrapped ∧
      (∀ label,
        comparable capacity state label →
        SameStep capacity state label) ∧
      ∀ thread call result,
        .respond thread call result ∈ state.wrapped.log.history ↔
          .respond thread call result ∈ state.log.history := by
  have known :
      ∀ {labels state},
        Run (step? (Arithmetic.exact capacity)) (comparable capacity)
            (initial (Arithmetic.exact capacity) : State α)
            labels state →
          Inv capacity state ∧ Windowed state :=
    fun run =>
      ⟨Inv.of_run positive run,
        Windowed.of_run positive (fun _ _ admitted => admitted.1) run⟩
  refine ⟨?_, ?_, ?_⟩
  · induction run with
    | start =>
        rw [initial_wrapped]
        exact .start
    | snoc earlier admitted taken inductionHypothesis =>
        obtain ⟨inv, windowed⟩ := known earlier
        refine .snoc inductionHypothesis trivial ?_
        rw [step?_wrapped positive small inv windowed admitted, taken]
        rfl
  · intro label admitted
    obtain ⟨inv, windowed⟩ := known run
    exact same_step positive small inv windowed admitted
  · intro thread call result
    simp only [State.wrapped, CallLog.mapMarks, List.mem_map]
    constructor
    · rintro ⟨event, member, shape⟩
      cases event with
      | invoke | mark =>
          simp [Event.mapMark] at shape
      | respond =>
          simp only [Event.mapMark, Event.respond.injEq] at shape
          obtain ⟨rfl, rfl, rfl⟩ := shape
          exact member
    · intro member
      exact ⟨_, member, rfl⟩

/--
A queue of capacity 2 whose tickets have wrapped hands over one more value, as
does one of capacity 3 whose doubled tickets have.
-/
theorem wrap_around_past_the_wrap :
    (∃ labels state call,
      Run (step? (Arithmetic.exact 2)) (comparable 2)
          (initial (Arithmetic.exact 2)) labels state ∧
        state.enqueuePos.latest = 2 ^ 64 + 1 ∧
        state.wrapped.enqueuePos.latest = 1 ∧
        Run (step? (Arithmetic.sizeT 2)) unrestricted
          (initial (Arithmetic.sizeT 2)) labels state.wrapped ∧
        .respond 0 call (.popped true 9) ∈ state.wrapped.log.history) ∧
      ∃ labels state call,
        Run (step? (Arithmetic.exact 3)) (comparable 3)
            (initial (Arithmetic.exact 3)) labels state ∧
          state.enqueuePos.latest = 2 ^ 63 + 1 ∧
          (Arithmetic.sizeT 3).expected .producer
            state.wrapped.enqueuePos.latest = 2 ∧
          Run (step? (Arithmetic.sizeT 3)) unrestricted
            (initial (Arithmetic.sizeT 3)) labels state.wrapped ∧
          .respond 0 call (.popped true 9) ∈
            state.wrapped.log.history := by
  constructor
  · obtain ⟨labels, state, call, run, tail, answered⟩ :=
      exists_round_after (by decide : 0 < 2) (2 ^ 64)
        (Or.inl ⟨1, rfl⟩) 9
    obtain ⟨lockstep, _, sameAnswers⟩ :=
      wrap_around (by decide) (by decide) run
    have wrapped : state.wrapped.enqueuePos.latest = 1 := by
      simp [State.wrapped, tail, SizeT.wrap, SizeT.modulus]
    exact ⟨labels, state, call, run, tail, wrapped, lockstep,
      (sameAnswers _ _ _).mpr answered⟩
  · obtain ⟨labels, state, call, run, tail, answered⟩ :=
      exists_round_after (by decide : 0 < 3) (2 ^ 63)
        (Or.inr (by decide)) 9
    obtain ⟨lockstep, _, sameAnswers⟩ :=
      wrap_around (by decide) (by decide) run
    have wrapped :
        (Arithmetic.sizeT 3).expected .producer
          state.wrapped.enqueuePos.latest = 2 := by
      simp [State.wrapped, tail, Arithmetic.sizeT, SizeT.mul, SizeT.wrap,
        SizeT.modulus]
    exact ⟨labels, state, call, run, tail, wrapped, lockstep,
      (sameAnswers _ _ _).mpr answered⟩

end ConcurrentQueue.Mpmc
