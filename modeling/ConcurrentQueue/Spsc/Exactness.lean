import ConcurrentQueue.Spsc.HandOff

namespace ConcurrentQueue.Spsc

/-!
# Exact index arithmetic

The index expressions of the ring add the number of slots before they
subtract and reduce.  In every reachable state their operands are slots of the
ring, so no intermediate value leaves the range of `std::size_t`, and the
remainders are the true counts behind the wrapped indices.
-/

variable {α : Type}

/-- The sum in `next(index)` does not wrap. -/
def NextFits (index : Nat) : Prop :=
  index + 1 < SizeT.modulus

/-- Nothing in `head_cache_ + buffer_.size() - 1 - tail` wraps. -/
structure FreeSlotsFits (slots headCache tail : Nat) : Prop where
  sum : headCache + slots < SizeT.modulus
  one : 1 ≤ headCache + slots
  difference : tail ≤ headCache + slots - 1

/-- Nothing in `cached + buffer_.size() - index` wraps. -/
structure DistanceFits (slots cached index : Nat) : Prop where
  sum : cached + slots < SizeT.modulus
  difference : index ≤ cached + slots

section Bounds

variable {slots cached index : Nat}

/-- The index after a slot of the ring can be computed. -/
theorem nextFits_of_lt
    (small : slots ≤ SizeT.halfRange)
    (inRing : index < slots) :
    NextFits index := by
  unfold NextFits
  rw [SizeT.modulus_eq]
  omega

/-- The free slots between two slots of the ring can be computed. -/
theorem freeSlotsFits_of_lt
    (small : slots ≤ SizeT.halfRange)
    (cachedInRing : cached < slots)
    (inRing : index < slots) :
    FreeSlotsFits slots cached index where
  sum := by
    rw [SizeT.modulus_eq]
    omega
  one := by omega
  difference := by omega

/-- The distance between two slots of the ring can be computed. -/
theorem distanceFits_of_lt
    (small : slots ≤ SizeT.halfRange)
    (cachedInRing : cached < slots)
    (inRing : index < slots) :
    DistanceFits slots cached index where
  sum := by
    rw [SizeT.modulus_eq]
    omega
  difference := by omega

end Bounds

/-- The index arithmetic of a queue of `capacity` in one of its states. -/
structure IndexArithmetic (capacity : Nat) (state : State α) : Prop where
  headInRing : state.head.latest < capacity + 1
  tailInRing : state.tail.latest < capacity + 1
  headCacheInRing : state.headCache < capacity + 1
  tailCacheInRing : state.tailCache < capacity + 1
  /-- `next(tail_)`, and `next` of every index that a side walks through. -/
  nextTail : NextFits state.tail.latest
  nextWritten :
    ∀ {index}, state.producer.slot? = some index → NextFits index
  nextMoved :
    ∀ {index}, state.consumer.slot? = some index → NextFits index
  /-- `free_slots()` with the cached and with any refreshed head. -/
  freeSlotsFits :
    FreeSlotsFits (capacity + 1) state.headCache state.tail.latest
  refreshedFreeSlotsFits :
    ∀ {message index},
      state.head.read? message = some index →
      FreeSlotsFits (capacity + 1) index state.tail.latest
  /-- `available()` with the cached and with any refreshed tail. -/
  availableFits :
    DistanceFits (capacity + 1) state.tailCache state.head.latest
  refreshedAvailableFits :
    ∀ {message index},
      state.tail.read? message = some index →
      DistanceFits (capacity + 1) index state.head.latest
  /-- `size()` with whatever head and tail an observer has loaded. -/
  sizeFits :
    ∀ {thread head message tail},
      state.observers thread = .sizeTail head →
      state.tail.read? message = some tail →
      DistanceFits (capacity + 1) tail head
  /-- The totals behind the four indices. -/
  head : state.head.latest = state.poppedTotal % (capacity + 1)
  tail : state.tail.latest = state.pushedTotal % (capacity + 1)
  headCache : state.headCache = state.cachedPopped % (capacity + 1)
  tailCache : state.tailCache = state.cachedPushed % (capacity + 1)
  poppedCount : state.poppedTotal = state.popped.length
  pushedCount : state.pushedTotal = state.pushed.length
  cachedPopped : state.cachedPopped ≤ state.poppedTotal
  cachedPushed : state.cachedPushed ≤ state.pushedTotal
  /-- The counts computed from them; none of the differences is truncated. -/
  freeSlots :
    state.cachedPopped ≤ state.pushedTotal ∧
      state.pushedTotal - state.cachedPopped ≤ capacity ∧
      Spsc.freeSlots (capacity + 1) state.headCache state.tail.latest =
        capacity - (state.pushedTotal - state.cachedPopped)
  available :
    state.poppedTotal ≤ state.cachedPushed ∧
      Spsc.available (capacity + 1) state.tailCache state.head.latest =
        state.cachedPushed - state.poppedTotal
  size :
    state.poppedTotal ≤ state.pushedTotal ∧
      sizeOf (capacity + 1) state.head.latest state.tail.latest =
        state.pushedTotal - state.poppedTotal

namespace Indices

variable {slots : Nat} {state : State α}

/-- `H ≤ T` -/
theorem poppedTotal_le (indices : Indices slots state) :
    state.poppedTotal ≤ state.pushedTotal :=
  Nat.le_trans indices.headAt indices.cachedPushed_le

/-- `T < H + slots` -/
theorem pushedTotal_lt
    (indices : Indices slots state)
    (wide : 1 < slots) :
    state.pushedTotal < state.poppedTotal + slots := by
  have window := indices.tailAt
  have lag := indices.cachedPopped_le
  omega

/-- Every value that a published index ever had is a slot of the ring. -/
theorem head_lt
    (indices : Indices slots state)
    (wide : 1 < slots)
    {message value : Nat}
    (reads : state.head.read? message = some value) :
    value < slots := by
  rw [indices.head.reads reads]
  exact Nat.mod_lt _ (Nat.zero_lt_of_lt wide)

theorem tail_lt
    (indices : Indices slots state)
    (wide : 1 < slots)
    {message value : Nat}
    (reads : state.tail.read? message = some value) :
    value < slots := by
  rw [indices.tail.reads reads]
  exact Nat.mod_lt _ (Nat.zero_lt_of_lt wide)

/-- `size()` of the two current indices is the number of queued elements. -/
theorem sizeOf_latest
    (indices : Indices slots state)
    (wide : 1 < slots)
    (small : slots ≤ SizeT.halfRange) :
    sizeOf slots state.head.latest state.tail.latest =
      state.pushedTotal - state.poppedTotal := by
  rw [indices.head.latest_eq, indices.tail.latest_eq]
  exact available_mod wide small indices.poppedTotal_le
    (indices.pushedTotal_lt wide)

end Indices

/-- The head that an observer of `size()` holds is a slot of the ring. -/
def HeldHeads (slots : Nat) (state : State α) : Prop :=
  ∀ thread head, state.observers thread = .sizeTail head → head < slots

/-- Only the load of `head_` gives an observer a head to hold. -/
theorem HeldHeads.step
    {slots : Nat}
    {state next : State α}
    {agent : Agent}
    {action : Action α}
    (held : HeldHeads slots state)
    (indices : Indices slots state)
    (wide : 1 < slots)
    (step : Step slots state agent action next) :
    HeldHeads slots next := by
  intro thread head isAt
  cases step with
  | producer own =>
      rw [own.observers_eq] at isAt
      exact held _ _ isAt
  | consumer own =>
      rw [own.observers_eq] at isAt
      exact held _ _ isAt
  | @observer mover _ _ own =>
      by_cases same : thread = mover
      · subst same
        cases own with
        | sizeHead _ reads =>
            simp only [State.atObserver, Function.update_self,
              ObserverPc.sizeTail.injEq] at isAt
            subst isAt
            exact indices.head_lt wide reads
        | @invoke op _ _ starts =>
            simp only [State.atObserver, Function.update_self] at isAt
            subst isAt
            cases op <;> simp [ObserverPc.start?] at starts
        | _ =>
            simp at isAt
      · rw [own.observers_other same] at isAt
        exact held _ _ isAt

/-- Observers hold slots of the ring in every reachable state. -/
theorem HeldHeads.of_run
    [Inhabited α]
    {slots : Nat}
    (wide : 1 < slots)
    (small : slots ≤ SizeT.halfRange)
    {guard : StepGuard (State α) (Label α)}
    {labels : List (Label α)}
    {state : State α}
    (run : Run (step? slots) guard Spsc.initial labels state) :
    HeldHeads slots state := by
  have base : HeldHeads slots (Spsc.initial : State α) := by
    intro thread head isAt
    simp [Spsc.initial] at isAt
  exact run.invariant_of (Indices.of_run wide small) base
    fun indices _ held _ taken =>
      held.step indices wide (Step.of_step? taken)

/--
In every reachable state of a queue that could be constructed all indices are
slots of the ring, no index expression wraps, and the free slots, the
available elements and the size are those counted by the unbounded totals.
-/
theorem index_arithmetic
    [Inhabited α]
    {elementSize capacity slots : Nat}
    (built : ringSlots elementSize capacity = .ok slots)
    {labels : List (Label α)}
    {state : State α}
    (run : Run (step? slots) unrestricted initial labels state) :
    IndexArithmetic capacity state := by
  obtain ⟨rfl, wide, small⟩ := ringSlots_ok built
  have tracked : Tracked state := Tracked.of_run run
  have indices : Indices (capacity + 1) state :=
    Indices.of_run wide small run
  have delivered : Delivered (capacity + 1) state :=
    Delivered.of_run wide small run
  have held : HeldHeads (capacity + 1) state :=
    HeldHeads.of_run wide small run
  have positive : 0 < capacity + 1 := Nat.succ_pos capacity
  have headInRing : state.head.latest < capacity + 1 :=
    indices.head_lt wide state.head.read?_newest
  have tailInRing : state.tail.latest < capacity + 1 :=
    indices.tail_lt wide state.tail.read?_newest
  have headCacheInRing : state.headCache < capacity + 1 := by
    rw [indices.head.cached]
    exact Nat.mod_lt _ positive
  have tailCacheInRing : state.tailCache < capacity + 1 := by
    rw [indices.tail.cached]
    exact Nat.mod_lt _ positive
  have window := indices.tailAt
  have freeCount :
      freeSlots (capacity + 1) state.headCache state.tail.latest =
        state.cachedPopped + (capacity + 1 - 1) - state.pushedTotal := by
    rw [indices.head.cached, indices.tail.latest_eq]
    exact freeSlots_mod wide small indices.cachedPopped_le_pushed
      indices.tailAt
  have availableCount :
      available (capacity + 1) state.tailCache state.head.latest =
        state.cachedPushed - state.poppedTotal := by
    rw [indices.tail.cached, indices.head.latest_eq]
    exact available_mod wide small indices.headAt
      (indices.cachedPushed_lt wide)
  exact
    { headInRing := headInRing
      tailInRing := tailInRing
      headCacheInRing := headCacheInRing
      tailCacheInRing := tailCacheInRing
      nextTail := nextFits_of_lt small tailInRing
      nextWritten := by
        intro index writes
        obtain ⟨position, isIndex, _⟩ :=
          indices.producer_position tracked writes
        rw [isIndex]
        exact nextFits_of_lt small (Nat.mod_lt _ positive)
      nextMoved := by
        intro index moves
        obtain ⟨position, isIndex, _⟩ :=
          indices.consumer_position tracked moves
        rw [isIndex]
        exact nextFits_of_lt small (Nat.mod_lt _ positive)
      freeSlotsFits :=
        freeSlotsFits_of_lt small headCacheInRing tailInRing
      refreshedFreeSlotsFits := fun reads =>
        freeSlotsFits_of_lt small (indices.head_lt wide reads) tailInRing
      availableFits :=
        distanceFits_of_lt small tailCacheInRing headInRing
      refreshedAvailableFits := fun reads =>
        distanceFits_of_lt small (indices.tail_lt wide reads) headInRing
      sizeFits := fun holds reads =>
        distanceFits_of_lt small (indices.tail_lt wide reads)
          (held _ _ holds)
      head := indices.head.latest_eq
      tail := indices.tail.latest_eq
      headCache := indices.head.cached
      tailCache := indices.tail.cached
      poppedCount := delivered.poppedCount
      pushedCount := delivered.pushedCount
      cachedPopped := indices.cachedPopped_le
      cachedPushed := indices.cachedPushed_le
      freeSlots := by
        have order := indices.cachedPopped_le_pushed
        refine ⟨order, by omega, ?_⟩
        rw [freeCount]
        omega
      available := ⟨indices.headAt, availableCount⟩
      size :=
        ⟨indices.poppedTotal_le, indices.sizeOf_latest wide small⟩ }

/-- Three pushes and a pop carry both indices round a ring of two elements. -/
def wrappingSchedule : List (Label Nat) :=
  [⟨.producer, .invoke (.tryPushN [5, 6])⟩, ⟨.producer, .load 0⟩,
    ⟨.producer, .check⟩, ⟨.producer, .move 0⟩, ⟨.producer, .move 0⟩,
    ⟨.producer, .store⟩, ⟨.producer, .respond⟩,
    ⟨.consumer, .invoke (.tryPop 0)⟩, ⟨.consumer, .check⟩,
    ⟨.consumer, .load 1⟩, ⟨.consumer, .move 0⟩, ⟨.consumer, .store⟩,
    ⟨.producer, .invoke (.tryPush 7)⟩, ⟨.producer, .load 0⟩,
    ⟨.producer, .check⟩, ⟨.producer, .load 1⟩, ⟨.producer, .move 0⟩,
    ⟨.producer, .store⟩]

theorem index_arithmetic_wrapped :
    ∃ state,
      replay? (step? 3) unrestricted initial wrappingSchedule = some state ∧
        (state.tail.latest = 0 ∧ state.pushedTotal = 3) ∧
        IndexArithmetic 2 state := by
  have replayed :
      ∃ state,
        replay? (step? 3) unrestricted initial wrappingSchedule =
            some state ∧
          state.tail.latest = 0 ∧ state.pushedTotal = 3 :=
    ⟨_, rfl, by decide⟩
  have built : ringSlots 8 2 = .ok 3 := by
    rfl
  obtain ⟨state, accepted, wrapped⟩ := replayed
  exact ⟨state, accepted, wrapped,
    index_arithmetic built (Run.of_replay? accepted)⟩

end ConcurrentQueue.Spsc
