import ConcurrentQueue.Library.Instants
import ConcurrentQueue.Mpmc.Lockstep

namespace ConcurrentQueue.Mpmc

/-!
# What `size()` counts

Here the claim loops are not short.  As long as no counter has wrapped, the
64-bit machine moves in lockstep with unbounded tickets whose differences are
read as 64-bit signed words.  A thread with an old ticket may then misread a
sequence, but it cannot claim its ticket, so the ring stays balanced and both
counters keep their distance.
-/

open TicketRing

variable {α : Type}

/-- Unbounded tickets with the signed 64-bit reading of differences. -/
def Arithmetic.signed (capacity : Nat) : Arithmetic :=
  Arithmetic.reading capacity fun left right =>
    SizeT.signed (SizeT.sub (SizeT.wrap left) (SizeT.wrap right))

/-- A constructed queue has as many slots as it was asked for, and not many. -/
theorem makeSlots_ok
    {capacity slots : Nat}
    (built : makeSlots capacity = .ok slots) :
    slots = capacity ∧ 0 < capacity ∧ capacity ≤ 2 ^ 60 := by
  unfold makeSlots vectorMaxSize slotSize SizeT.halfRange at built
  split at built
  · cases built
  · split at built
    · cases built
    · cases built
      exact ⟨rfl, by omega, by omega⟩

section Balance

variable {capacity : Nat} {state : State α}

/-- Going to a program point whose ticket is in order keeps the invariant. -/
theorem Inv.goto
    (inv : Inv capacity state)
    {thread : Nat}
    {pc : Pc α}
    (before : (state.threads thread).pc.holding = none)
    (after : pc.holding = none)
    (considers :
      ∀ ticket,
        pc.considering = some ticket →
        ticket.number ≤ (state.pos ticket.side).newest)
    (claims :
      ∀ ticket,
        pc.claiming = some ticket →
        stage capacity ticket ≤
          (state.slots (slotOf capacity ticket)).sequence.newest) :
    Inv capacity (state.goto thread pc) where
  balanced := by
    rw [Inv.ring_goto before after]
    exact inv.balanced
  sequences := by
    intro index message sequence inRange reads
    rw [State.slots_goto] at reads
    exact inv.sequences inRange reads
  positions := by
    intro side message position reads
    rw [State.pos_goto] at reads
    exact inv.positions reads
  considered := by
    intro other ticket isConsidering
    rw [State.pc_goto] at isConsidering
    rw [State.pos_goto]
    split at isConsidering
    · exact considers ticket isConsidering
    · exact inv.considered isConsidering
  ready := by
    intro other ticket isClaiming
    rw [State.pc_goto] at isClaiming
    rw [State.slots_goto]
    split at isClaiming
    · exact claims ticket isClaiming
    · exact inv.ready isClaiming

/-- At the current ticket the signed reading is the true difference. -/
theorem Inv.difference_signed
    (positive : 0 < capacity)
    (small : capacity ≤ 2 ^ 60)
    (inv : Inv capacity state)
    (side : Side) :
    (Arithmetic.signed capacity).difference
        (state.slots
          ((state.pos side).newest % capacity)).sequence.latest
        ((Arithmetic.exact capacity).expected side
          (state.pos side).newest) =
      (Arithmetic.exact capacity).difference
        (state.slots
          ((state.pos side).newest % capacity)).sequence.latest
        ((Arithmetic.exact capacity).expected side
          (state.pos side).newest) := by
  rw [← difference_wrap positive small inv (Nat.le_refl _)
    (Nat.le_add_right _ _), expected_wrap]
  rfl

/-- A sequence load read with signs keeps the invariant. -/
theorem Inv.loadSequence_signed
    (positive : 0 < capacity)
    (small : capacity ≤ 2 ^ 60)
    (inv : Inv capacity state)
    {thread ticket : Nat}
    {caller : Caller α}
    (isAt : (state.threads thread).pc = .loadSequence caller ticket) :
    Inv capacity
      (state.goto thread
        (.classify caller ticket
          ((Arithmetic.signed capacity).difference
            (state.slots (ticket % capacity)).sequence.latest
            ((Arithmetic.exact capacity).expected caller.side
              ticket)))) := by
  have isConsidering :
      (state.threads thread).pc.considering =
        some ⟨caller.side, ticket⟩ := by
    rw [isAt, Pc.considering_loadSequence]
  have notAhead := inv.considered isConsidering
  rcases Nat.eq_or_lt_of_le notAhead with isCurrent | drawn
  · -- the current ticket is read as on unbounded tickets
    simp only at isCurrent
    rw [isCurrent, inv.difference_signed positive small caller.side,
      ← isCurrent]
    apply inv.step positive
    apply Step.loadSequence isAt
    exact Atomic.read?_newest _
  · apply inv.goto
    · rw [isAt, Pc.holding_loadSequence]
    · exact Pc.holding_classify _ _ _
    · intro considered stillConsiders
      rw [Pc.considering_classify _ _ stillConsiders]
      exact notAhead
    · intro claimed isClaiming
      rw [(Pc.claiming_classify _ _ isClaiming).2]
      exact inv.balanced.reached ⟨caller.side, ticket⟩ drawn

/-- With signed differences every sequentially consistent step keeps `Inv`. -/
theorem Inv.step_signed
    (positive : 0 < capacity)
    (small : capacity ≤ 2 ^ 60)
    (inv : Inv capacity state)
    {label : Label α}
    {next : State α}
    (admitted : sequential (Arithmetic.signed capacity) state label)
    (taken : step? (Arithmetic.signed capacity) state label = some next) :
    Inv capacity next := by
  rcases label with ⟨thread, action⟩
  cases Step.of_step? taken with
  | loadSequence isAt reads =>
      simp only [sequential, isAt] at admitted
      subst admitted
      rw [Atomic.read?_newest, Option.some.injEq] at reads
      rw [← reads]
      exact inv.loadSequence_signed positive small isAt
  | sizeHead isAt reads =>
      apply inv.goto
      · rw [isAt, Pc.holding_sizeHead]
      · exact Pc.holding_returning _
      · intro ticket isConsidering
        cases isConsidering
      · intro ticket isClaiming
        cases isClaiming
  | invoke isAt starts => exact inv.step positive (.invoke isAt starts)
  | checkClosed isAt reads =>
      exact inv.step positive (.checkClosed isAt reads)
  | loadPos isAt reads => exact inv.step positive (.loadPos isAt reads)
  | reloadPos isAt reads => exact inv.step positive (.reloadPos isAt reads)
  | claim isAt current => exact inv.step positive (.claim isAt current)
  | lost isAt reads => exact inv.step positive (.lost isAt reads)
  | moveValue isAt => exact inv.step positive (.moveValue isAt)
  | storeSequence isAt => exact inv.step positive (.storeSequence isAt)
  | storeClosed isAt => exact inv.step positive (.storeClosed isAt)
  | loadClosed isAt reads =>
      exact inv.step positive (.loadClosed isAt reads)
  | sizeTail isAt reads => exact inv.step positive (.sizeTail isAt reads)
  | respond isAt => exact inv.step positive (.respond isAt)

end Balance

/-- Fewer than `2 ^ 64` tickets have been taken on each side. -/
def State.FewTickets (state : State α) : Prop :=
  ∀ side, (state.pos side).newest < 2 ^ 64

section Lockstep

variable {capacity : Nat} {state : State α} {label : Label α}

/-- A wrapped state has taken the same tickets. -/
@[simp] theorem State.fewTickets_wrapped :
    state.wrapped.FewTickets ↔ state.FewTickets := by
  simp [FewTickets]

/-- While no counter has wrapped, only differences are read otherwise. -/
theorem sameChoices_of_fewTickets
    (small : capacity ≤ 2 ^ 60)
    (inv : Inv capacity state)
    (few : state.FewTickets)
    (label : Label α) :
    SameChoices capacity (Arithmetic.signed capacity).difference state
      label where
  slot := by
    intro ticket isLocal
    have notAhead : ticket.number ≤ (state.pos ticket.side).newest := by
      rcases isLocal with isConsidering | isHeld
      · exact inv.considered isConsidering
      · exact Nat.le_of_lt (inv.balanced.held isHeld).1
    apply slotIndex_wrap_of_small capacity small
    exact Or.inr (Nat.lt_of_le_of_lt notAhead (few ticket.side))
  branch := by
    intro caller ticket message sequence _ _ _
    rw [expected_wrap]
    rfl
  exchange := by
    intro caller ticket isAt
    have isConsidering := congrArg Pc.considering isAt
    rw [Pc.considering_exchange] at isConsidering
    have notAhead := inv.considered isConsidering
    have bound := few caller.side
    rw [inv.latest_pos, SizeT.wrap_of_lt bound,
      SizeT.wrap_of_lt (Nat.lt_of_le_of_lt notAhead bound)]
  size := by
    intro tail message head _ _ _
    rfl

/-- The newest messages have the same numbers on both machines. -/
theorem sequential_wrapped
    {difference : Nat → Nat → Int}
    (same : SameChoices capacity difference state label) :
    sequential (Arithmetic.sizeT capacity) state.wrapped label ↔
      sequential (Arithmetic.reading capacity difference) state label := by
  rcases label with ⟨thread, action⟩
  have sameTail :
      state.wrapped.enqueuePos = state.enqueuePos.map SizeT.wrap := by
    rfl
  have sameHead :
      state.wrapped.dequeuePos = state.dequeuePos.map SizeT.wrap := by
    rfl
  cases isAt : (state.threads thread).pc with
  | loadSequence caller ticket =>
      have sameSlot :=
        same.slot (Or.inl (by rw [isAt, Pc.considering_loadSequence]))
      simp only at sameSlot
      cases action <;>
        simp [sequential, isAt, sameSlot, Arithmetic.reading,
          Arithmetic.exact]
  | exchange caller ticket =>
      cases action with
      | exchange failure =>
          cases failure <;> simp [sequential, isAt]
      | _ => simp [sequential, isAt]
  | _ =>
      cases action <;> simp [sequential, isAt, sameTail, sameHead]

end Lockstep

section Runs

variable [Inhabited α] {capacity : Nat} {labels : List (Label α)}
variable {state : State α}

/-- The ring stays balanced when differences are read with signs. -/
theorem Inv.of_signed_run
    (positive : 0 < capacity)
    (small : capacity ≤ 2 ^ 60)
    (run :
      Run (step? (Arithmetic.signed capacity))
        (sequential (Arithmetic.signed capacity))
        (Mpmc.initial (Arithmetic.signed capacity)) labels state) :
    Inv capacity state :=
  run.invariant (Inv.initial capacity) fun inv admitted taken =>
    inv.step_signed positive small admitted taken

/-- Until a counter wraps, the 64-bit machine is in a wrapped state. -/
theorem exists_signed_run
    (positive : 0 < capacity)
    (small : capacity ≤ 2 ^ 60)
    (run :
      Run (step? (Arithmetic.sizeT capacity))
        (sequential (Arithmetic.sizeT capacity))
        (initial (Arithmetic.sizeT capacity)) labels state)
    (few : state.FewTickets) :
    ∃ ideal,
      Run (step? (Arithmetic.signed capacity))
          (sequential (Arithmetic.signed capacity))
          (initial (Arithmetic.signed capacity)) labels ideal ∧
        state = ideal.wrapped := by
  induction run with
  | start =>
      exact ⟨_, .start, (initial_wrapped capacity).symm⟩
  | snoc earlier admitted taken inductionHypothesis =>
      rename_i labels before next label
      have fewBefore : before.FewTickets := fun side =>
        Nat.lt_of_le_of_lt ((Step.of_step? taken).newest_pos_le side)
          (few side)
      obtain ⟨ideal, idealRun, rfl⟩ := inductionHypothesis fewBefore
      have inv := Inv.of_signed_run positive small idealRun
      have same :=
        sameChoices_of_fewTickets small inv
          (State.fewTickets_wrapped.mp fewBefore) label
      have isSame := step?_wrapped_of same
      rw [taken] at isSame
      obtain ⟨next, takes, isNext⟩ :=
        Option.map_eq_some_iff.mp isSame.symm
      exact ⟨next,
        idealRun.snoc ((sequential_wrapped same).mp admitted) takes,
        isNext.symm⟩

/-- Until a counter wraps, the counters keep their distance. -/
theorem counters_of_run
    (positive : 0 < capacity)
    (small : capacity ≤ 2 ^ 60)
    (run :
      Run (step? (Arithmetic.sizeT capacity))
        (sequential (Arithmetic.sizeT capacity))
        (initial (Arithmetic.sizeT capacity)) labels state)
    (few : state.FewTickets) :
    (∀ side, (state.pos side).latest = (state.pos side).newest) ∧
      (state.pos .consumer).newest ≤ (state.pos .producer).newest ∧
      (state.pos .producer).newest ≤
        (state.pos .consumer).newest + capacity := by
  obtain ⟨ideal, idealRun, rfl⟩ := exists_signed_run positive small run few
  have inv := Inv.of_signed_run positive small idealRun
  have behind := inv.balanced.consumerBehind
  have within := inv.balanced.withinRing
  refine ⟨?_, ?_, ?_⟩
  · intro side
    rw [State.pos_wrapped, Atomic.latest_map, Atomic.newest_map,
      inv.latest_pos]
    apply SizeT.wrap_of_lt
    exact State.fewTickets_wrapped.mp few side
  · simpa using behind
  · simpa using within

end Runs

/--
A `size()` of a thread: its load of `enqueue_pos_`, the steps of the others up
to its load of `dequeue_pos_`, and the value it is about to return.
-/
structure Sizing
    [Inhabited α]
    (capacity thread : Nat)
    (earlier during : List (Label α))
    (loaded last : State α)
    (value : Nat) : Prop where
  tailLoaded :
    ∃ before message,
      Run (step? (Arithmetic.sizeT capacity))
          (sequential (Arithmetic.sizeT capacity))
          (initial (Arithmetic.sizeT capacity)) earlier before ∧
        (before.threads thread).pc = .sizeTail ∧
        sequential (Arithmetic.sizeT capacity) before
          ⟨thread, .load message⟩ ∧
        step? (Arithmetic.sizeT capacity) before ⟨thread, .load message⟩ =
          some loaded
  between :
    Run (step? (Arithmetic.sizeT capacity))
      (sequential (Arithmetic.sizeT capacity)) loaded during last
  waits : ∀ label ∈ during, label.thread ≠ thread
  headLoaded :
    ∃ message after,
      sequential (Arithmetic.sizeT capacity) last
          ⟨thread, .load message⟩ ∧
        step? (Arithmetic.sizeT capacity) last ⟨thread, .load message⟩ =
          some after ∧
        (after.threads thread).pc = .returning (.size value)

/-- The value is the clamped signed difference of the loaded words. -/
theorem sizeOf_sizeT
    {capacity tail head : Nat}
    (small : capacity ≤ 2 ^ 60)
    (tailBound : tail < 2 ^ 64)
    (headBound : head < 2 ^ 64)
    (within : tail ≤ head + capacity)
    (near : head < tail + 2 ^ 62) :
    sizeOf (Arithmetic.sizeT capacity) tail head = tail - head := by
  have isDifference :
      (Arithmetic.sizeT capacity).difference tail head =
        (tail : Int) - head := by
    have signed :
        SizeT.signed (SizeT.sub (SizeT.wrap tail) (SizeT.wrap head)) =
          (tail : Int) - head := by
      apply SizeT.signed_sub <;> unfold SizeT.halfRange <;> omega
    rw [SizeT.wrap_of_lt tailBound, SizeT.wrap_of_lt headBound] at signed
    exact signed
  have isCount : ((tail : Int) - head).toNat = tail - head := by
    omega
  unfold sizeOf
  rw [isDifference]
  by_cases negative : (tail : Int) - head < 0
  · rw [if_pos negative]
    omega
  · rw [if_neg negative]
    by_cases below : tail - head < capacity
    · simp only [isCount, Arithmetic.sizeT, if_pos below]
    · simp only [isCount, Arithmetic.sizeT, if_neg below]
      omega

namespace Sizing

variable [Inhabited α] {capacity thread value : Nat}
variable {earlier during : List (Label α)} {loaded last : State α}

/-- The states between the two loads are reachable. -/
theorem reached
    (sizing : Sizing capacity thread earlier during loaded last value)
    {labels : List (Label α)}
    {state : State α}
    (run :
      Run (step? (Arithmetic.sizeT capacity))
        (sequential (Arithmetic.sizeT capacity)) loaded labels state) :
    ∃ all,
      Run (step? (Arithmetic.sizeT capacity))
        (sequential (Arithmetic.sizeT capacity))
        (initial (Arithmetic.sizeT capacity)) all state := by
  obtain ⟨before, message, reaches, _, admitted, taken⟩ :=
    sizing.tailLoaded
  exact ⟨_, (reaches.snoc admitted taken).append run⟩

/-- The thread waits with the tail it has loaded. -/
theorem pc_last
    (sizing : Sizing capacity thread earlier during loaded last value) :
    (last.threads thread).pc = .sizeHead (loaded.pos .producer).latest := by
  obtain ⟨before, message, _, isAt, admitted, taken⟩ := sizing.tailLoaded
  have kept :
      (last.threads thread).pc = (loaded.threads thread).pc := by
    refine sizing.between.keeps
      (fun state => (state.threads thread).pc) ?_
    intro state next label member takes
    exact (Step.of_step? takes).pc_other
      (Ne.symm (sizing.waits label member))
  rw [kept]
  simp only [sequential, isAt] at admitted
  subst admitted
  cases Step.of_step? taken with
  | sizeTail isAt' reads =>
      rw [Atomic.read?_newest, Option.some.injEq] at reads
      simp [State.pos, ← reads]
      rfl
  | _ isAt' =>
      simp only at isAt'
      rw [isAt] at isAt'
      cases isAt'

/-- The value comes from the newest values at the two loads. -/
theorem value_eq
    (sizing : Sizing capacity thread earlier during loaded last value) :
    value =
      sizeOf (Arithmetic.sizeT capacity) (loaded.pos .producer).latest
        (last.pos .consumer).latest := by
  have isAt := sizing.pc_last
  obtain ⟨message, after, admitted, taken, returns⟩ := sizing.headLoaded
  simp only [sequential, isAt] at admitted
  subst admitted
  cases Step.of_step? taken with
  | sizeHead isAt' reads =>
      simp only at isAt'
      rw [isAt] at isAt'
      cases isAt'
      rw [Atomic.read?_newest, Option.some.injEq] at reads
      simp only [State.pc_goto, if_true, Pc.returning.injEq,
        Result.size.injEq] at returns
      rw [← returns, ← reads]
      rfl
  | _ isAt' =>
      simp only at isAt'
      rw [isAt] at isAt'
      cases isAt'

/-- Between the two loads no counter moves back. -/
theorem newest_le
    (sizing : Sizing capacity thread earlier during loaded last value)
    {state : State α}
    (passes :
      Passes (step? (Arithmetic.sizeT capacity))
        (sequential (Arithmetic.sizeT capacity)) loaded during state)
    (side : Side) :
    (loaded.pos side).newest ≤ (state.pos side).newest ∧
      (state.pos side).newest ≤ (last.pos side).newest := by
  have grows :
      ∀ {state next : State α} {label},
        step? (Arithmetic.sizeT capacity) state label = some next →
        (state.pos side).newest ≤ (next.pos side).newest :=
    fun taken => (Step.of_step? taken).newest_pos_le side
  have after := passes.rest sizing.between
  obtain ⟨labels, later, shape, before⟩ := passes
  obtain ⟨rest, _, after⟩ := after
  exact ⟨before.monotone (fun state => (state.pos side).newest) grows,
    after.monotone (fun state => (state.pos side).newest) grows⟩

end Sizing

/--
`size()` never counts more than is queued at any instant between its two
loads, and counts exactly that if no ticket is taken in between.
-/
theorem size_never_overcounts
    [Inhabited α]
    {capacity slots thread value : Nat}
    {earlier during : List (Label α)}
    {loaded last : State α}
    (built : makeSlots capacity = .ok slots)
    (sizing : Sizing slots thread earlier during loaded last value)
    (few : last.FewTickets)
    (fewBetween :
      ∀ side,
        (last.pos side).newest < (loaded.pos side).newest + 2 ^ 62) :
    (∀ state,
      Passes (step? (Arithmetic.sizeT slots))
          (sequential (Arithmetic.sizeT slots)) loaded during state →
        value + (state.pos .consumer).latest ≤
          (state.pos .producer).latest) ∧
      value ≤ slots ∧
      value =
        (loaded.pos .producer).latest - (last.pos .consumer).latest ∧
      ((∀ side, (last.pos side).latest = (loaded.pos side).latest) →
        value + (last.pos .consumer).latest =
          (last.pos .producer).latest) := by
  obtain ⟨rfl, positive, small⟩ := makeSlots_ok built
  have atEnd := sizing.newest_le sizing.between.passes_last
  have counters :
      ∀ {state},
        Passes (step? (Arithmetic.sizeT slots))
            (sequential (Arithmetic.sizeT slots)) loaded during state →
        (∀ side, (state.pos side).latest = (state.pos side).newest) ∧
          (state.pos .consumer).newest ≤ (state.pos .producer).newest ∧
          (state.pos .producer).newest ≤
            (state.pos .consumer).newest + slots := by
    rintro state ⟨labels, later, shape, run⟩
    obtain ⟨all, reaches⟩ := sizing.reached run
    apply counters_of_run positive small reaches
    intro side
    have moved := sizing.newest_le ⟨labels, later, shape, run⟩ side
    exact Nat.lt_of_le_of_lt moved.2 (few side)
  obtain ⟨latestLoaded, behindLoaded, withinLoaded⟩ :=
    counters sizing.between.passes_first
  obtain ⟨latestLast, behindLast, withinLast⟩ :=
    counters sizing.between.passes_last
  have tails := atEnd .producer
  have heads := atEnd .consumer
  have near := fewBetween .consumer
  have isValue :
      value =
        (loaded.pos .producer).latest - (last.pos .consumer).latest := by
    rw [sizing.value_eq, latestLoaded, latestLast]
    apply sizeOf_sizeT small
    · exact Nat.lt_of_le_of_lt tails.1 (few .producer)
    · exact few .consumer
    · omega
    · omega
  rw [latestLoaded, latestLast] at isValue
  refine ⟨?_, ?_, ?_, ?_⟩
  · intro state passes
    obtain ⟨latest, behind, within⟩ := counters passes
    have tailMoved := (sizing.newest_le passes .producer).1
    have headMoved := (sizing.newest_le passes .consumer).2
    rw [latest, latest]
    omega
  · omega
  · rw [latestLoaded, latestLast]
    exact isValue
  · intro still
    have stillTail := still .producer
    rw [latestLast, latestLoaded] at stillTail
    rw [latestLast, latestLast]
    omega

/-- A push, the claim of a second one, and the first half of a `size()`. -/
def countedSchedule : List (Label Nat) :=
  [⟨0, .invoke (.tryPush 7)⟩, ⟨0, .load 0⟩, ⟨0, .load 0⟩, ⟨0, .load 0⟩,
    ⟨0, .exchange none⟩, ⟨0, .move 0⟩, ⟨0, .store⟩, ⟨0, .respond⟩,
    ⟨0, .invoke (.tryPush 8)⟩, ⟨0, .load 0⟩, ⟨0, .load 1⟩, ⟨0, .load 0⟩,
    ⟨0, .exchange none⟩, ⟨1, .invoke .size⟩]

/-- The second element is published and the first is popped. -/
def poppedSchedule : List (Label Nat) :=
  [⟨0, .move 0⟩, ⟨0, .store⟩, ⟨2, .invoke (.tryPop 0)⟩, ⟨2, .load 0⟩,
    ⟨2, .load 1⟩, ⟨2, .exchange none⟩]

theorem size_never_overcounts_one :
    ∃ loaded last,
      Sizing 2 1 countedSchedule poppedSchedule loaded last 1 ∧
        (loaded.pos .producer).latest = 2 ∧
        (loaded.pos .consumer).latest = 0 ∧
        (last.pos .consumer).latest = 1 ∧
        ∀ state,
          Passes (step? (Arithmetic.sizeT 2))
              (sequential (Arithmetic.sizeT 2)) loaded poppedSchedule
              state →
            1 + (state.pos .consumer).latest ≤
              (state.pos .producer).latest := by
  have replayed :
      ∃ before loaded last after,
        replay? (step? (Arithmetic.sizeT 2))
              (sequential (Arithmetic.sizeT 2))
              (initial (Arithmetic.sizeT 2)) countedSchedule =
            some before ∧
          (before.threads 1).pc = .sizeTail ∧
          sequential (Arithmetic.sizeT 2) before ⟨1, .load 2⟩ ∧
          step? (Arithmetic.sizeT 2) before ⟨1, .load 2⟩ = some loaded ∧
          replay? (step? (Arithmetic.sizeT 2))
              (sequential (Arithmetic.sizeT 2)) loaded poppedSchedule =
            some last ∧
          sequential (Arithmetic.sizeT 2) last ⟨1, .load 1⟩ ∧
          step? (Arithmetic.sizeT 2) last ⟨1, .load 1⟩ = some after ∧
          (after.threads 1).pc = .returning (.size 1) ∧
          (loaded.pos .producer).latest = 2 ∧
          (loaded.pos .consumer).latest = 0 ∧
          (last.pos .consumer).latest = 1 ∧
          (last.pos .producer).newest = 2 ∧
          (last.pos .consumer).newest = 1 :=
    ⟨_, _, _, _, rfl, rfl, rfl, rfl, rfl, rfl, rfl, rfl, rfl, rfl, rfl,
      rfl, rfl⟩
  obtain ⟨before, loaded, last, after, counted, isAt, tailCurrent,
    takesTail, popped, headCurrent, takesHead, returns, tail, head,
    headAfter, pushes, pops⟩ := replayed
  have sizing :
      Sizing 2 1 countedSchedule poppedSchedule loaded last 1 :=
    { tailLoaded :=
        ⟨before, 2, Run.of_replay? counted, isAt, tailCurrent, takesTail⟩
      between := Run.of_replay? popped
      waits := by decide
      headLoaded := ⟨1, after, headCurrent, takesHead, returns⟩ }
  have built : makeSlots 2 = .ok 2 := by
    rfl
  have few : last.FewTickets := by
    rintro (_ | _)
    · rw [pushes]
      decide
    · rw [pops]
      decide
  have fewBetween :
      ∀ side,
        (last.pos side).newest < (loaded.pos side).newest + 2 ^ 62 := by
    rintro (_ | _)
    · rw [pushes]
      omega
    · rw [pops]
      omega
  exact ⟨loaded, last, sizing, tail, head, headAfter,
    (size_never_overcounts built sizing few fewBetween).1⟩

end ConcurrentQueue.Mpmc
