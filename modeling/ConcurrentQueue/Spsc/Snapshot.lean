import ConcurrentQueue.Spsc.Exactness
import ConcurrentQueue.Spsc.Sequential

namespace ConcurrentQueue.Spsc

/-!
# What `size()` returns

`size()` loads `head_` and then `tail_`.  Its result is the number of queued
elements at an instant between the two loads if no element is published after
another was released in between.  Otherwise it counts released elements as
queued, and once more than a whole ring was published since the load of
`head_` the remainder drops full laps.
-/

variable {α : Type}

/-- The two loads of a `size()` call that returns `count`. -/
structure Sizing
    [Inhabited α]
    (slots thread : Nat)
    (earlier during : List (Label α))
    (loaded last : State α)
    (count : Nat) : Prop where
  headLoaded :
    ∃ before message,
      Run (step? slots) sequential initial earlier before ∧
        before.observers thread = .sizeHead ∧
        sequential before ⟨.observer thread, .load message⟩ ∧
        step? slots before ⟨.observer thread, .load message⟩ = some loaded
  between : Run (step? slots) sequential loaded during last
  waits : ∀ label ∈ during, label.agent ≠ .observer thread
  tailLoaded :
    ∃ message after,
      sequential last ⟨.observer thread, .load message⟩ ∧
        step? slots last ⟨.observer thread, .load message⟩ = some after ∧
        after.observers thread = .returning (.size count)

/-- `count` lies between two numbers of elements queued during a run. -/
def WithinQueued
    (slots : Nat)
    (first : State α)
    (labels : List (Label α))
    (count : Nat) : Prop :=
  ∃ low high,
    Passes (step? slots) sequential first labels low ∧
      Passes (step? slots) sequential first labels high ∧
      low.queued ≤ count ∧ count ≤ high.queued

/-- No store of `tail_` follows a store of `head_`. -/
def PublishesFirst (labels : List (Label α)) : Prop :=
  ∃ first second,
    labels = first ++ second ∧
      (∀ label ∈ first, label ≠ ⟨.consumer, .store⟩) ∧
      ∀ label ∈ second, label ≠ ⟨.producer, .store⟩

namespace Sizing

variable [Inhabited α] {slots thread count : Nat}
variable {earlier during : List (Label α)} {loaded last : State α}

/-- The state after the load of `head_` is reachable. -/
theorem reached
    (sizing : Sizing slots thread earlier during loaded last count) :
    ∃ labels, Run (step? slots) sequential initial labels loaded := by
  obtain ⟨before, message, run, _, admitted, taken⟩ := sizing.headLoaded
  exact ⟨_, run.snoc admitted taken⟩

/-- The observer holds the head that was current when it was loaded. -/
theorem holds
    (sizing : Sizing slots thread earlier during loaded last count) :
    loaded.observers thread = .sizeTail loaded.head.latest := by
  obtain ⟨before, message, _, isAt, admitted, taken⟩ := sizing.headLoaded
  simp only [sequential, observerCurrent, isAt] at admitted
  cases Step.of_step? taken with
  | observer own =>
      cases own with
      | sizeHead _ reads =>
          rw [admitted, Atomic.read?_newest] at reads
          cases reads
          simp
      | loadClosed other | sizeTail other =>
          rw [isAt] at other
          cases other

/-- Nobody else moves the observer. -/
theorem stillHolds
    (sizing : Sizing slots thread earlier during loaded last count) :
    last.observers thread = .sizeTail loaded.head.latest := by
  rw [← sizing.holds]
  refine sizing.between.keeps (fun state => state.observers thread) ?_
  intro state next label member taken
  have notMine := sizing.waits label member
  rcases label with ⟨agent, action⟩
  cases Step.of_step? taken with
  | producer own => rw [own.observers_eq]
  | consumer own => rw [own.observers_eq]
  | observer own =>
      refine own.observers_other ?_
      rintro rfl
      exact notMine rfl

/-- The value returned is computed from the two indices as loaded. -/
theorem count_eq
    (sizing : Sizing slots thread earlier during loaded last count) :
    count = sizeOf slots loaded.head.latest last.tail.latest := by
  have isAt := sizing.stillHolds
  obtain ⟨message, after, admitted, taken, returns⟩ := sizing.tailLoaded
  simp only [sequential, observerCurrent, isAt] at admitted
  cases Step.of_step? taken with
  | observer own =>
      cases own with
      | sizeTail other reads =>
          rw [isAt] at other
          cases other
          rw [admitted, Atomic.read?_newest] at reads
          cases reads
          simpa using returns.symm
      | loadClosed other | sizeHead other =>
          rw [isAt] at other
          cases other

/--
If no publication follows a release, both indices were current at once and
the value returned is the number of elements queued at that instant.
-/
theorem exists_queued
    (sizing : Sizing slots thread earlier during loaded last count)
    (wide : 1 < slots)
    (small : slots ≤ SizeT.halfRange)
    (publishesFirst : PublishesFirst during) :
    ∃ instant,
      Passes (step? slots) sequential loaded during instant ∧
        count = instant.queued := by
  obtain ⟨first, second, shape, noRelease, noPublication⟩ := publishesFirst
  have between := sizing.between
  rw [shape] at between
  obtain ⟨instant, before, after⟩ := between.split
  obtain ⟨labels, reached⟩ := sizing.reached
  have indices : Indices slots instant :=
    Indices.of_run wide small (reached.append before)
  refine ⟨instant, ⟨first, second, shape, before⟩, ?_⟩
  rw [sizing.count_eq, ← head_kept before noRelease,
    tail_kept after noPublication]
  exact indices.sizeOf_latest wide small

/-- Without a full lap the value returned is the difference of the totals. -/
theorem count_eq_sub
    (sizing : Sizing slots thread earlier during loaded last count)
    (wide : 1 < slots)
    (small : slots ≤ SizeT.halfRange)
    (noLap : last.pushedTotal < loaded.poppedTotal + slots) :
    count = last.pushedTotal - loaded.poppedTotal := by
  obtain ⟨labels, reached⟩ := sizing.reached
  have before : Indices slots loaded := Indices.of_run wide small reached
  have after : Indices slots last :=
    Indices.of_run wide small (reached.append sizing.between)
  have grows := pushedTotal_mono sizing.between
  rw [sizing.count_eq, before.head.latest_eq, after.tail.latest_eq]
  exact available_mod wide small
    (Nat.le_trans before.poppedTotal_le grows) noLap

/--
Without a full lap the value returned is in range only if no publication
follows a release.
-/
theorem publishesFirst_of_within
    (sizing : Sizing slots thread earlier during loaded last count)
    (wide : 1 < slots)
    (small : slots ≤ SizeT.halfRange)
    (noLap : last.pushedTotal < loaded.poppedTotal + slots)
    (within : WithinQueued slots loaded during count) :
    PublishesFirst during := by
  obtain ⟨_, high, _, passes, _, bound⟩ := within
  obtain ⟨labels, reached⟩ := sizing.reached
  obtain ⟨first, second, rfl, before⟩ := passes
  obtain ⟨middle, again, after⟩ := sizing.between.split
  rw [← before.deterministic again] at after
  have ordered : loaded.poppedTotal ≤ loaded.pushedTotal :=
    (Indices.of_run wide small reached).poppedTotal_le
  rw [sizing.count_eq_sub wide small noLap] at bound
  unfold State.queued at bound
  have pushedBefore := pushedTotal_mono before
  have pushedAfter := pushedTotal_mono after
  have poppedBefore := poppedTotal_mono before
  have reachable := reached.append before
  have full : high.poppedTotal ≤ high.pushedTotal :=
    (Indices.of_run wide small reachable).poppedTotal_le
  by_cases empty : last.pushedTotal = loaded.poppedTotal
  · refine ⟨[], first ++ second, rfl, by simp, ?_⟩
    exact no_publication reached (before.append after) (by omega)
  · exact ⟨first, second, rfl,
      no_release reached before (by omega),
      no_publication reachable after (by omega)⟩

end Sizing

/--
The value that `size()` returns lies between the smallest and the largest
number of elements queued between its two loads if no publication of `tail_`
follows a release of `head_` there, and, unless more than a whole ring was
published since the load of `head_`, only then.
-/
theorem size_within_queued
    [Inhabited α]
    {elementSize capacity slots : Nat}
    (built : ringSlots elementSize capacity = .ok slots)
    {thread count : Nat}
    {earlier during : List (Label α)}
    {loaded last : State α}
    (sizing : Sizing slots thread earlier during loaded last count) :
    (PublishesFirst during → WithinQueued slots loaded during count) ∧
      (last.pushedTotal ≤ loaded.poppedTotal + capacity →
        WithinQueued slots loaded during count → PublishesFirst during) := by
  obtain ⟨rfl, wide, small⟩ := ringSlots_ok built
  constructor
  · intro publishesFirst
    obtain ⟨instant, passes, isCount⟩ :=
      sizing.exists_queued wide small publishesFirst
    exact ⟨instant, instant, passes, passes, Nat.le_of_eq isCount.symm,
      Nat.le_of_eq isCount⟩
  · intro noLap within
    exact sizing.publishesFirst_of_within wide small (by omega) within

/-- Fill a ring of two elements; an observer enters `size()`. -/
def fillSchedule : List (Label Nat) :=
  [⟨.producer, .invoke (.tryPushN [5, 6])⟩, ⟨.producer, .load 0⟩,
    ⟨.producer, .check⟩, ⟨.producer, .move 0⟩, ⟨.producer, .move 0⟩,
    ⟨.producer, .store⟩, ⟨.producer, .respond⟩,
    ⟨.observer 0, .invoke .size⟩]

/-- The consumer releases one slot. -/
def releaseSchedule : List (Label Nat) :=
  [⟨.consumer, .invoke (.tryPop 0)⟩, ⟨.consumer, .check⟩,
    ⟨.consumer, .load 1⟩, ⟨.consumer, .move 0⟩, ⟨.consumer, .store⟩]

/-- The producer publishes another element in the slot released. -/
def refillSchedule : List (Label Nat) :=
  [⟨.producer, .invoke (.tryPush 7)⟩, ⟨.producer, .load 0⟩,
    ⟨.producer, .check⟩, ⟨.producer, .load 1⟩, ⟨.producer, .move 0⟩,
    ⟨.producer, .store⟩]

theorem size_within_queued_two :
    ∃ loaded last,
      Sizing 3 0 fillSchedule releaseSchedule loaded last 2 ∧
        last.queued = 1 ∧ WithinQueued 3 loaded releaseSchedule 2 := by
  have replayed :
      ∃ before loaded last after,
        replay? (step? 3) sequential initial fillSchedule = some before ∧
          step? 3 before ⟨.observer 0, .load 0⟩ = some loaded ∧
          replay? (step? 3) sequential loaded releaseSchedule = some last ∧
          step? 3 last ⟨.observer 0, .load 1⟩ = some after ∧
          before.observers 0 = .sizeHead ∧
          sequential before ⟨.observer 0, .load 0⟩ ∧
          sequential last ⟨.observer 0, .load 1⟩ ∧
          after.observers 0 = .returning (.size 2) ∧
          last.queued = 1 :=
    ⟨_, _, _, _, rfl, rfl, rfl, rfl, by decide⟩
  obtain ⟨before, loaded, last, after, filled, takesHead, released,
    takesTail, isAt, headCurrent, tailCurrent, returns, left⟩ := replayed
  have sizing : Sizing 3 0 fillSchedule releaseSchedule loaded last 2 :=
    { headLoaded :=
        ⟨before, 0, Run.of_replay? filled, isAt, headCurrent, takesHead⟩
      between := Run.of_replay? released
      waits := by decide
      tailLoaded := ⟨1, after, tailCurrent, takesTail, returns⟩ }
  have built : ringSlots 8 2 = .ok 3 := by
    rfl
  exact ⟨loaded, last, sizing, left,
    (size_within_queued built sizing).1
      ⟨[], releaseSchedule, rfl, by decide, by decide⟩⟩

/--
A pop and a push between the two loads make `size()` of a full queue return
zero, though at no instant fewer than one element is queued.
-/
theorem size_zero_never_empty :
    ∃ loaded last,
      Sizing 3 0 fillSchedule (releaseSchedule ++ refillSchedule)
          loaded last 0 ∧
        (∀ instant,
          Passes (step? 3) sequential loaded
              (releaseSchedule ++ refillSchedule) instant →
            1 ≤ instant.queued) ∧
        ¬ WithinQueued 3 loaded (releaseSchedule ++ refillSchedule) 0 := by
  have replayed :
      ∃ before loaded last after,
        replay? (step? 3) sequential initial fillSchedule = some before ∧
          step? 3 before ⟨.observer 0, .load 0⟩ = some loaded ∧
          replay? (step? 3) sequential loaded
              (releaseSchedule ++ refillSchedule) = some last ∧
          step? 3 last ⟨.observer 0, .load 2⟩ = some after ∧
          before.observers 0 = .sizeHead ∧
          sequential before ⟨.observer 0, .load 0⟩ ∧
          sequential last ⟨.observer 0, .load 2⟩ ∧
          after.observers 0 = .returning (.size 0) ∧
          ∀ instant ∈
            trace (step? 3) loaded (releaseSchedule ++ refillSchedule),
            1 ≤ instant.queued :=
    ⟨_, _, _, _, rfl, rfl, rfl, rfl, by decide⟩
  obtain ⟨before, loaded, last, after, filled, takesHead, turned,
    takesTail, isAt, headCurrent, tailCurrent, returns, never⟩ := replayed
  have nonempty :
      ∀ instant,
        Passes (step? 3) sequential loaded
            (releaseSchedule ++ refillSchedule) instant →
          1 ≤ instant.queued :=
    fun instant passes => never instant passes.mem_trace
  refine ⟨loaded, last, ?_, nonempty, ?_⟩
  · exact
      { headLoaded :=
          ⟨before, 0, Run.of_replay? filled, isAt, headCurrent, takesHead⟩
        between := Run.of_replay? turned
        waits := by decide
        tailLoaded := ⟨2, after, tailCurrent, takesTail, returns⟩ }
  · rintro ⟨low, _, passes, _, bound, _⟩
    have := nonempty low passes
    omega

end ConcurrentQueue.Spsc
