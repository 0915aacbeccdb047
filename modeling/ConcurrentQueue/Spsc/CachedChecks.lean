import ConcurrentQueue.Spsc.Exactness
import ConcurrentQueue.Spsc.Sequential

namespace ConcurrentQueue.Spsc

/-!
# What the cached checks decide

A check that the cached copy of the other index passes would also pass against
the index itself, and a check that refreshes its copy compares the two current
indices.  A bulk operation therefore returns zero only on an empty span, on a
closed queue or on a ring that is full or empty at its refreshing load, and it
never moves more than the ring really has to offer.
-/

variable {α : Type}

/-- The checks of both sides against the current indices. -/
structure ChecksAgree (slots : Nat) (state : State α) : Prop where
  cachedRoom :
    ∀ pusher : Pusher α,
      pusher.hasRoom slots state.headCache state.tail.latest = true →
      next slots state.tail.latest ≠ state.head.latest
  refreshedRoom :
    ∀ (pusher : Pusher α) {message after},
      state.producer = .refreshHead pusher →
      sequential state ⟨.producer, .load message⟩ →
      step? slots state ⟨.producer, .load message⟩ = some after →
      after.headCache = state.head.latest ∧
        (pusher.hasRoom slots after.headCache state.tail.latest = true ↔
          next slots state.tail.latest ≠ state.head.latest)
  cachedData :
    ∀ popper : Popper α,
      popper.hasData slots state.tailCache state.head.latest = true →
      state.head.latest ≠ state.tail.latest
  refreshedData :
    ∀ (popper : Popper α) {message after},
      state.consumer = .refreshTail popper →
      sequential state ⟨.consumer, .load message⟩ →
      step? slots state ⟨.consumer, .load message⟩ = some after →
      after.tailCache = state.tail.latest ∧
        (popper.hasData slots after.tailCache state.head.latest = true ↔
          state.head.latest ≠ state.tail.latest)

/-- The message behind a cached copy carries the copy. -/
theorem Published.read?_seen
    {slots seen cache : Nat}
    {index : Atomic Publication Nat}
    (published : Published slots index seen cache) :
    index.read? seen = some cache := by
  obtain ⟨value, reads⟩ := index.exists_read? published.seenBound
  rw [reads, published.reads reads, ← published.cached]

namespace Indices

variable {slots : Nat} {state : State α}

/-- Against the current head a push finds room unless the ring is full. -/
theorem hasRoom_latest_iff
    (indices : Indices slots state)
    (wide : 1 < slots)
    (small : slots ≤ SizeT.halfRange)
    (pusher : Pusher α) :
    pusher.hasRoom slots state.head.latest state.tail.latest = true ↔
      state.pushedTotal < state.poppedTotal + (slots - 1) := by
  have window := indices.pushedTotal_lt wide
  rw [indices.head.latest_eq, indices.tail.latest_eq]
  exact pusher.hasRoom_iff wide small indices.poppedTotal_le
    (Nat.le_of_lt_succ (by omega))

/-- Against the current tail a pop finds data unless the ring is empty. -/
theorem hasData_latest_iff
    (indices : Indices slots state)
    (wide : 1 < slots)
    (small : slots ≤ SizeT.halfRange)
    (popper : Popper α) :
    popper.hasData slots state.tail.latest state.head.latest = true ↔
      state.poppedTotal < state.pushedTotal := by
  rw [indices.head.latest_eq, indices.tail.latest_eq]
  exact popper.hasData_iff wide small indices.poppedTotal_le
    (indices.pushedTotal_lt wide)

/-- `next(tail_) != head_` says that the ring is not full. -/
theorem next_tail_ne_head_iff
    (indices : Indices slots state)
    (wide : 1 < slots)
    (small : slots ≤ SizeT.halfRange) :
    next slots state.tail.latest ≠ state.head.latest ↔
      state.pushedTotal < state.poppedTotal + (slots - 1) := by
  have window := indices.pushedTotal_lt wide
  rw [indices.head.latest_eq, indices.tail.latest_eq, ← bne_iff_ne]
  exact (Pusher.tryPush ()).hasRoom_iff wide small indices.poppedTotal_le
    (Nat.le_of_lt_succ (by omega))

/-- `head_ != tail_` says that the ring is not empty. -/
theorem head_ne_tail_iff
    (indices : Indices slots state)
    (wide : 1 < slots)
    (small : slots ≤ SizeT.halfRange) :
    state.head.latest ≠ state.tail.latest ↔
      state.poppedTotal < state.pushedTotal := by
  rw [indices.head.latest_eq, indices.tail.latest_eq, ← bne_iff_ne]
  exact (Popper.tryPop ()).hasData_iff wide small indices.poppedTotal_le
    (indices.pushedTotal_lt wide)

/-- What passes against the cached head would pass against `head_`. -/
theorem room_of_cached
    (indices : Indices slots state)
    (wide : 1 < slots)
    (small : slots ≤ SizeT.halfRange)
    {pusher : Pusher α}
    (hasRoom :
      pusher.hasRoom slots state.headCache state.tail.latest = true) :
    state.pushedTotal < state.poppedTotal + (slots - 1) := by
  have lag := indices.cachedPopped_le
  rw [indices.head.cached, indices.tail.latest_eq] at hasRoom
  have room :=
    (pusher.hasRoom_iff wide small indices.cachedPopped_le_pushed
      indices.tailAt).mp hasRoom
  have bound : state.pushedTotal < state.cachedPopped + (slots - 1) := room
  omega

/-- What passes against the cached tail would pass against `tail_`. -/
theorem data_of_cached
    (indices : Indices slots state)
    (wide : 1 < slots)
    (small : slots ≤ SizeT.halfRange)
    {popper : Popper α}
    (hasData :
      popper.hasData slots state.tailCache state.head.latest = true) :
    state.poppedTotal < state.pushedTotal := by
  have lag := indices.cachedPushed_le
  rw [indices.tail.cached, indices.head.latest_eq] at hasData
  have ahead :=
    (popper.hasData_iff wide small indices.headAt
      (indices.cachedPushed_lt wide)).mp hasData
  exact Nat.lt_of_lt_of_le ahead lag

end Indices

/-- The cached checks agree with the current indices in every such state. -/
theorem Indices.checksAgree
    {slots : Nat}
    {state : State α}
    (indices : Indices slots state)
    (wide : 1 < slots)
    (small : slots ≤ SizeT.halfRange) :
    ChecksAgree slots state where
  cachedRoom := by
    intro pusher hasRoom
    rw [indices.next_tail_ne_head_iff wide small]
    exact indices.room_of_cached wide small hasRoom
  refreshedRoom := by
    intro pusher message after isAt admitted taken
    simp only [sequential, producerCurrent, isAt] at admitted
    subst admitted
    have refreshed : after.headCache = state.head.latest := by
      cases Step.of_step? taken with
      | producer own =>
          cases own with
          | refreshedRoom _ _ reads | refreshedFull _ _ reads =>
              rw [Atomic.read?_newest] at reads
              cases reads
              rfl
          | refused other | admitted other =>
              rw [isAt] at other
              cases other
    refine ⟨refreshed, ?_⟩
    rw [refreshed, indices.next_tail_ne_head_iff wide small]
    exact indices.hasRoom_latest_iff wide small pusher
  cachedData := by
    intro popper hasData
    rw [indices.head_ne_tail_iff wide small]
    exact indices.data_of_cached wide small hasData
  refreshedData := by
    intro popper message after isAt admitted taken
    simp only [sequential, consumerCurrent, isAt] at admitted
    subst admitted
    have refreshed : after.tailCache = state.tail.latest := by
      cases Step.of_step? taken with
      | consumer own =>
          cases own with
          | refreshedData _ _ reads | refreshedEmpty _ _ reads =>
              rw [Atomic.read?_newest] at reads
              cases reads
              rfl
          | popClosed other | loadClosed other =>
              rw [isAt] at other
              cases other
    refine ⟨refreshed, ?_⟩
    rw [refreshed, indices.head_ne_tail_iff wide small]
    exact indices.hasData_latest_iff wide small popper

/-- The producer reads `closed_` as true. -/
def ReadsClosed (state : State α) (label : Label α) (_ : State α) : Prop :=
  ∃ pusher message,
    state.producer = .checkClosed pusher ∧
      label = ⟨.producer, .load message⟩ ∧
      state.closed.read? message = some true

/-- The refreshing load of a push finds `next(tail_) == head_`. -/
def FindsFull
    (slots : Nat)
    (state : State α)
    (label : Label α)
    (_ : State α) : Prop :=
  ∃ pusher message,
    state.producer = .refreshHead pusher ∧
      label = ⟨.producer, .load message⟩ ∧
      Spsc.next slots state.tail.latest = state.head.latest

/-- The refreshing load of a pop finds `head_ == tail_`. -/
def FindsEmpty (state : State α) (label : Label α) (_ : State α) : Prop :=
  ∃ popper message,
    state.consumer = .refreshTail popper ∧
      label = ⟨.consumer, .load message⟩ ∧
      state.head.latest = state.tail.latest

/--
A check of the producer, refreshing or not, sets out to move `count` elements,
no more than the span holds and no more than there are free slots.
-/
def SetsOutToPush
    (slots span count : Nat)
    (state : State α)
    (label : Label α)
    (after : State α) : Prop :=
  label.agent = .producer ∧
    (∃ pusher index,
      (state.producer = .checkRoom pusher ∨
          state.producer = .refreshHead pusher) ∧
        after.producer = .moveIn pusher index [] count) ∧
    1 ≤ count ∧ count ≤ min span (slots - 1 - state.queued)

/--
A check of the consumer, refreshing or not, sets out to move `count` elements,
no more than the span holds and no more than there are queued.
-/
def SetsOutToPop
    (span count : Nat)
    (state : State α)
    (label : Label α)
    (after : State α) : Prop :=
  label.agent = .consumer ∧
    (∃ popper index,
      (state.consumer = .checkData popper ∨
          state.consumer = .refreshTail popper) ∧
        after.consumer = .moveOut popper index [] count) ∧
    1 ≤ count ∧ count ≤ min span state.queued

/-- The call of an agent from its invocation on and before its answer. -/
abbrev CallWindow
    [Inhabited α]
    (slots : Nat)
    (guard : StepGuard (State α) (Label α))
    (agent : Agent)
    (op : Op α)
    (earlier during : List (Label α))
    (invoked last : State α) : Prop :=
  Window (step? slots) guard initial
    ⟨agent, .invoke op⟩ ⟨agent, .respond⟩ earlier during invoked last

/-- What keeps a bulk push from moving anything. -/
def PushRefused
    (slots : Nat)
    (items : List α)
    (invoked : State α)
    (during : List (Label α)) : Prop :=
  items = [] ∨
    Happens (step? slots) sequential invoked during ReadsClosed ∨
    Happens (step? slots) sequential invoked during (FindsFull slots)

/-- What keeps a bulk pop from moving anything. -/
def PopRefused
    (slots : Nat)
    (out : List α)
    (invoked : State α)
    (during : List (Label α)) : Prop :=
  out = [] ∨ Happens (step? slots) sequential invoked during FindsEmpty

/-- How far a bulk push is, by what has happened since its invocation. -/
inductive PushProgress
    (items : List α)
    (refused : Prop)
    (setOut : Nat → Prop) :
    ProducerPc α → Prop where
  | checkClosed :
      ¬ refused →
      PushProgress items refused setOut (.checkClosed (.tryPushN items))
  | checkRoom :
      ¬ refused →
      PushProgress items refused setOut (.checkRoom (.tryPushN items))
  | refreshHead :
      ¬ refused →
      PushProgress items refused setOut (.refreshHead (.tryPushN items))
  | moveIn {left index moved count} :
      ¬ refused →
      setOut count →
      PushProgress items refused setOut
        (.moveIn (.tryPushN left) index moved count)
  | publishTail {left index moved} :
      ¬ refused →
      setOut moved.length →
      PushProgress items refused setOut
        (.publishTail (.tryPushN left) index moved)
  | refused {left} :
      refused →
      PushProgress items refused setOut (.returning (.pushedN 0 left))
  | accepted {left count} :
      ¬ refused →
      setOut count →
      PushProgress items refused setOut (.returning (.pushedN count left))

/-- How far a bulk pop is, by what has happened since its invocation. -/
inductive PopProgress
    (out : List α)
    (refused : Prop)
    (setOut : Nat → Prop) :
    ConsumerPc α → Prop where
  | checkData :
      ¬ refused →
      PopProgress out refused setOut (.checkData (.tryPopN out))
  | refreshTail :
      ¬ refused →
      PopProgress out refused setOut (.refreshTail (.tryPopN out))
  | moveOut {left index moved count} :
      ¬ refused →
      setOut count →
      PopProgress out refused setOut
        (.moveOut (.tryPopN left) index moved count)
  | publishHead {left index moved} :
      ¬ refused →
      setOut moved.length →
      PopProgress out refused setOut
        (.publishHead (.tryPopN left) index moved)
  | refused {left} :
      refused →
      PopProgress out refused setOut (.returning (.poppedN 0 left))
  | accepted {left count} :
      ¬ refused →
      setOut count →
      PopProgress out refused setOut (.returning (.poppedN count left))

section Progress

variable {items out : List α} {refused later : Prop}
variable {setOut also : Nat → Prop}
variable {slots : Nat} {state after : State α} {action : Action α}

/-- What decides nothing keeps the progress of a bulk push. -/
theorem PushProgress.mono
    {pc : ProducerPc α}
    (progress : PushProgress items refused setOut pc)
    (sameRefusal : later ↔ refused)
    (extended : ∀ count, setOut count → also count) :
    PushProgress items later also pc := by
  rw [← sameRefusal] at progress
  cases progress with
  | checkClosed notRefused => exact .checkClosed notRefused
  | checkRoom notRefused => exact .checkRoom notRefused
  | refreshHead notRefused => exact .refreshHead notRefused
  | moveIn notRefused sets =>
      exact .moveIn notRefused (extended _ sets)
  | publishTail notRefused sets =>
      exact .publishTail notRefused (extended _ sets)
  | refused isRefused => exact .refused isRefused
  | accepted notRefused sets =>
      exact .accepted notRefused (extended _ sets)

/-- What decides nothing keeps the progress of a bulk pop. -/
theorem PopProgress.mono
    {pc : ConsumerPc α}
    (progress : PopProgress out refused setOut pc)
    (sameRefusal : later ↔ refused)
    (extended : ∀ count, setOut count → also count) :
    PopProgress out later also pc := by
  rw [← sameRefusal] at progress
  cases progress with
  | checkData notRefused => exact .checkData notRefused
  | refreshTail notRefused => exact .refreshTail notRefused
  | moveOut notRefused sets =>
      exact .moveOut notRefused (extended _ sets)
  | publishHead notRefused sets =>
      exact .publishHead notRefused (extended _ sets)
  | refused isRefused => exact .refused isRefused
  | accepted notRefused sets =>
      exact .accepted notRefused (extended _ sets)

/-- The progress of a bulk push from its invocation. -/
theorem PushProgress.start
    {pc : ProducerPc α}
    (starts : ProducerPc.start? (.tryPushN items) = some pc)
    (isRefused : refused ↔ items = []) :
    PushProgress items refused setOut pc := by
  cases starts
  cases items with
  | nil =>
      exact .refused (isRefused.mpr rfl)
  | cons first rest =>
      refine .checkClosed ?_
      rw [isRefused]
      exact List.cons_ne_nil _ _

/-- The progress of a bulk pop from its invocation. -/
theorem PopProgress.start
    {pc : ConsumerPc α}
    (starts : ConsumerPc.start? (.tryPopN out) = some pc)
    (isRefused : refused ↔ out = []) :
    PopProgress out refused setOut pc := by
  cases starts
  cases out with
  | nil =>
      exact .refused (isRefused.mpr rfl)
  | cons first rest =>
      refine .checkData ?_
      rw [isRefused]
      exact List.cons_ne_nil _ _

/-- One more element moved in keeps the count set out for. -/
theorem PushProgress.afterMove
    {left moved : List α}
    {index count : Nat}
    (notRefused : ¬ refused)
    (sets : setOut count)
    (more : moved.length < count)
    (value : α) :
    PushProgress items refused setOut
      (.afterMove slots (.tryPushN left) index (moved ++ [value]) count) := by
  unfold ProducerPc.afterMove
  split
  · exact .moveIn notRefused sets
  · rename_i finished
    have reached : (moved ++ [value]).length = count := by
      rw [List.length_append, List.length_singleton] at finished ⊢
      omega
    rw [← reached] at sets
    exact .publishTail notRefused sets

/-- One more element moved out keeps the count set out for. -/
theorem PopProgress.afterMove
    {left moved : List α}
    {index count : Nat}
    (notRefused : ¬ refused)
    (sets : setOut count)
    (more : moved.length < count)
    (value : α) :
    PopProgress out refused setOut
      (.afterMove slots (.tryPopN left) index (moved ++ [value]) count) := by
  unfold ConsumerPc.afterMove
  split
  · exact .moveOut notRefused sets
  · rename_i finished
    have reached : (moved ++ [value]).length = count := by
      rw [List.length_append, List.length_singleton] at finished ⊢
      omega
    rw [← reached] at sets
    exact .publishHead notRefused sets

/-- A check that finds room sets out within the real number of free slots. -/
theorem Indices.setsOutToPush
    (indices : Indices slots state)
    (tracked : Tracked state)
    (wide : 1 < slots)
    (small : slots ≤ SizeT.halfRange)
    {label : Label α}
    (isProducer : label.agent = .producer)
    (isAt :
      state.producer = .checkRoom (.tryPushN items) ∨
        state.producer = .refreshHead (.tryPushN items))
    {message index : Nat}
    (reads : state.head.read? message = some index)
    (fresh : state.headSeen ≤ message)
    (hasRoom :
      (Pusher.tryPushN items).hasRoom slots index state.tail.latest = true)
    (moves :
      after.producer =
        .moveIn (.tryPushN items) state.tail.latest []
          ((Pusher.tryPushN items).count slots index state.tail.latest)) :
    SetsOutToPush slots items.length
      ((Pusher.tryPushN items).count slots index state.tail.latest)
      state label after := by
  have refreshed := indices.cacheHead fresh reads
  have bound := (refreshed.within_room wide small hasRoom).2
  have lag : totalAt state.head message ≤ state.poppedTotal :=
    refreshed.cachedPopped_le
  have limit :
      state.pushedTotal +
          (Pusher.tryPushN items).count slots index state.tail.latest ≤
        totalAt state.head message + (slots - 1) :=
    bound
  have order := indices.poppedTotal_le
  have agrees := tracked.producer
  have opened :
      ∃ call op,
        state.log.current .producer = some ⟨call, op, []⟩ ∧
          (Pusher.tryPushN items).After op [] ∧
          0 < op.operands.length := by
    rcases isAt with isAt | isAt <;>
      · rw [isAt] at agrees
        exact agrees
  obtain ⟨call, op, _, afterNone, nonempty⟩ := opened
  have positive := (Pusher.count_bounds afterNone nonempty hasRoom).1
  refine ⟨isProducer, ⟨_, _, ?_, moves⟩, positive, ?_⟩
  · rcases isAt with isAt | isAt
    · exact Or.inl isAt
    · exact Or.inr isAt
  · refine Nat.le_min.mpr ⟨Nat.min_le_left _ _, ?_⟩
    unfold State.queued
    omega

/-- A check that finds data sets out within the real number of elements. -/
theorem Indices.setsOutToPop
    (indices : Indices slots state)
    (tracked : Tracked state)
    (wide : 1 < slots)
    (small : slots ≤ SizeT.halfRange)
    {label : Label α}
    (isConsumer : label.agent = .consumer)
    (isAt :
      state.consumer = .checkData (.tryPopN out) ∨
        state.consumer = .refreshTail (.tryPopN out))
    {message index : Nat}
    (reads : state.tail.read? message = some index)
    (fresh : state.tailSeen ≤ message)
    (hasData :
      (Popper.tryPopN out).hasData slots index state.head.latest = true)
    (moves :
      after.consumer =
        .moveOut (.tryPopN out) state.head.latest []
          ((Popper.tryPopN out).count slots index state.head.latest)) :
    SetsOutToPop out.length
      ((Popper.tryPopN out).count slots index state.head.latest)
      state label after := by
  have refreshed := indices.cacheTail fresh reads
  have bound := (refreshed.within_data wide small hasData).2
  have lag : totalAt state.tail message ≤ state.pushedTotal :=
    refreshed.cachedPushed_le
  have limit :
      state.poppedTotal +
          (Popper.tryPopN out).count slots index state.head.latest ≤
        totalAt state.tail message :=
    bound
  have agrees := tracked.consumer
  have opened :
      ∃ call op,
        state.log.current .consumer = some ⟨call, op, []⟩ ∧
          (Popper.tryPopN out).After op [] ∧
          0 < op.operands.length := by
    rcases isAt with isAt | isAt <;>
      · rw [isAt] at agrees
        exact agrees
  obtain ⟨call, op, _, afterNone, nonempty⟩ := opened
  have positive := (Popper.count_bounds afterNone nonempty hasData).1
  refine ⟨isConsumer, ⟨_, _, ?_, moves⟩, positive, ?_⟩
  · rcases isAt with isAt | isAt
    · exact Or.inl isAt
    · exact Or.inr isAt
  · refine Nat.le_min.mpr ⟨Nat.min_le_left _ _, ?_⟩
    unfold State.queued
    omega

/-- Every step of the producer carries the progress of its bulk push on. -/
theorem PushProgress.step
    (progress : PushProgress items refused setOut state.producer)
    (indices : Indices slots state)
    (tracked : Tracked state)
    (wide : 1 < slots)
    (small : slots ≤ SizeT.halfRange)
    (admitted : sequential state ⟨.producer, action⟩)
    (notAnswer : action ≠ .respond)
    (step : ProducerStep slots state action after) :
    PushProgress items
      (refused ∨ ReadsClosed state ⟨.producer, action⟩ after ∨
        FindsFull slots state ⟨.producer, action⟩ after)
      (fun count =>
        setOut count ∨
          SetsOutToPush slots items.length count state
            ⟨.producer, action⟩ after)
      after.producer := by
  have refreshes :
      ∀ {pusher message index},
        state.producer = .refreshHead pusher →
        action = .load message →
        state.head.read? message = some index →
        index = state.head.latest := by
    intro pusher message index isAt isLoad reads
    subst isLoad
    simp only [sequential, producerCurrent, isAt] at admitted
    rw [admitted, Atomic.read?_newest] at reads
    exact (Option.some.inj reads).symm
  cases step with
  | invoke isAt =>
      rw [isAt] at progress
      cases progress
  | refused isAt reads =>
      rw [isAt] at progress
      cases progress with
      | checkClosed notRefused =>
          exact .refused (Or.inr (Or.inl ⟨_, _, isAt, rfl, reads⟩))
  | admitted isAt reads =>
      rw [isAt] at progress
      cases progress with
      | checkClosed notRefused =>
          refine .checkRoom ?_
          simp [ReadsClosed, FindsFull, isAt, notRefused, reads]
  | room isAt hasRoom =>
      rw [isAt] at progress
      cases progress with
      | checkRoom notRefused =>
          refine .moveIn ?_ (Or.inr ?_)
          · simp [ReadsClosed, FindsFull, isAt, notRefused]
          · exact indices.setsOutToPush tracked wide small rfl
              (Or.inl isAt) indices.head.read?_seen (Nat.le_refl _) hasRoom
              rfl
  | noRoom isAt isFull =>
      rw [isAt] at progress
      cases progress with
      | checkRoom notRefused =>
          refine .refreshHead ?_
          simp [ReadsClosed, FindsFull, isAt, notRefused]
  | refreshedRoom isAt fresh reads hasRoom =>
      have isLatest := refreshes isAt rfl reads
      rw [isAt] at progress
      cases progress with
      | refreshHead notRefused =>
          refine .moveIn ?_ (Or.inr ?_)
          · rintro (isRefused | ⟨_, _, other, _⟩ | ⟨_, _, _, _, isFull⟩)
            · exact notRefused isRefused
            · rw [isAt] at other
              cases other
            · rw [isLatest,
                indices.hasRoom_latest_iff wide small] at hasRoom
              rw [← indices.next_tail_ne_head_iff wide small] at hasRoom
              exact hasRoom isFull
          · exact indices.setsOutToPush tracked wide small rfl
              (Or.inr isAt) reads fresh hasRoom rfl
  | refreshedFull isAt fresh reads isFull =>
      have isLatest := refreshes isAt rfl reads
      rw [isAt] at progress
      cases progress with
      | refreshHead notRefused =>
          refine .refused (Or.inr (Or.inr ⟨_, _, isAt, rfl, ?_⟩))
          by_contra different
          rw [← ne_eq, indices.next_tail_ne_head_iff wide small,
            ← indices.hasRoom_latest_iff wide small
              (.tryPushN items)] at different
          rw [isLatest, different] at isFull
          cases isFull
  | moveIn isAt taken =>
      have agrees := tracked.producer
      rw [isAt] at progress agrees
      obtain ⟨call, op, _, _, more, _⟩ := agrees
      cases progress with
      | moveIn notRefused sets =>
          obtain ⟨found, _, shape⟩ := Option.map_eq_some_iff.mp taken
          cases shape
          refine .afterMove ?_ (Or.inl sets) more _
          simp [ReadsClosed, FindsFull, isAt, notRefused]
  | throwIn isAt mayThrow =>
      rw [isAt] at progress
      cases progress
      cases mayThrow
  | publishTail isAt =>
      rw [isAt] at progress
      cases progress with
      | publishTail notRefused sets =>
          refine .accepted ?_ (Or.inl sets)
          simp [ReadsClosed, FindsFull, isAt, notRefused]
  | respond isAt =>
      exact absurd rfl notAnswer

/-- Every step of the consumer carries the progress of its bulk pop on. -/
theorem PopProgress.step
    (progress : PopProgress out refused setOut state.consumer)
    (indices : Indices slots state)
    (tracked : Tracked state)
    (wide : 1 < slots)
    (small : slots ≤ SizeT.halfRange)
    (admitted : sequential state ⟨.consumer, action⟩)
    (notAnswer : action ≠ .respond)
    (step : ConsumerStep slots state action after) :
    PopProgress out
      (refused ∨ FindsEmpty state ⟨.consumer, action⟩ after)
      (fun count =>
        setOut count ∨
          SetsOutToPop out.length count state ⟨.consumer, action⟩ after)
      after.consumer := by
  have refreshes :
      ∀ {popper message index},
        state.consumer = .refreshTail popper →
        action = .load message →
        state.tail.read? message = some index →
        index = state.tail.latest := by
    intro popper message index isAt isLoad reads
    subst isLoad
    simp only [sequential, consumerCurrent, isAt] at admitted
    rw [admitted, Atomic.read?_newest] at reads
    exact (Option.some.inj reads).symm
  cases step with
  | invoke isAt =>
      rw [isAt] at progress
      cases progress
  | data isAt hasData =>
      rw [isAt] at progress
      cases progress with
      | checkData notRefused =>
          refine .moveOut ?_ (Or.inr ?_)
          · simp [FindsEmpty, isAt, notRefused]
          · exact indices.setsOutToPop tracked wide small rfl
              (Or.inl isAt) indices.tail.read?_seen (Nat.le_refl _) hasData
              rfl
  | noData isAt isEmpty =>
      rw [isAt] at progress
      cases progress with
      | checkData notRefused =>
          refine .refreshTail ?_
          simp [FindsEmpty, isAt, notRefused]
  | refreshedData isAt fresh reads hasData =>
      have isLatest := refreshes isAt rfl reads
      rw [isAt] at progress
      cases progress with
      | refreshTail notRefused =>
          refine .moveOut ?_ (Or.inr ?_)
          · rintro (isRefused | ⟨_, _, _, _, isEmpty⟩)
            · exact notRefused isRefused
            · rw [isLatest,
                indices.hasData_latest_iff wide small] at hasData
              rw [← indices.head_ne_tail_iff wide small] at hasData
              exact hasData isEmpty
          · exact indices.setsOutToPop tracked wide small rfl
              (Or.inr isAt) reads fresh hasData rfl
  | refreshedEmpty isAt fresh reads isEmpty =>
      have isLatest := refreshes isAt rfl reads
      rw [isAt] at progress
      cases progress with
      | refreshTail notRefused =>
          refine .refused (Or.inr ⟨_, _, isAt, rfl, ?_⟩)
          by_contra different
          rw [← ne_eq, indices.head_ne_tail_iff wide small,
            ← indices.hasData_latest_iff wide small
              (.tryPopN out)] at different
          rw [isLatest, different] at isEmpty
          cases isEmpty
  | popClosed isAt | loadClosed isAt =>
      rw [isAt] at progress
      cases progress
  | moveOut isAt =>
      have agrees := tracked.consumer
      rw [isAt] at progress agrees
      obtain ⟨call, op, _, _, more, _⟩ := agrees
      cases progress with
      | moveOut notRefused sets =>
          refine .afterMove ?_ (Or.inl sets) more _
          simp [FindsEmpty, isAt, notRefused]
  | throwOut isAt mayThrow =>
      rw [isAt] at progress
      cases progress
      cases mayThrow
  | publishHead isAt =>
      rw [isAt] at progress
      cases progress with
      | publishHead notRefused sets =>
          refine .accepted ?_ (Or.inl sets)
          simp [FindsEmpty, isAt, notRefused]
  | respond isAt =>
      exact absurd rfl notAnswer

end Progress

section Bulk

variable [Inhabited α] {slots : Nat} {items out : List α}
variable {earlier during : List (Label α)} {invoked last : State α}

/-- How far a bulk push is at any time before its answer. -/
theorem PushProgress.of_window
    (wide : 1 < slots)
    (small : slots ≤ SizeT.halfRange)
    (window :
      CallWindow slots sequential .producer (.tryPushN items) earlier
        during invoked last) :
    PushProgress items (PushRefused slots items invoked during)
      (fun count =>
        Happens (step? slots) sequential invoked during
          (SetsOutToPush slots items.length count))
      last.producer := by
  refine window.step_induction
    (fun labels state =>
      PushProgress items (PushRefused slots items invoked labels)
        (fun count =>
          Happens (step? slots) sequential invoked labels
            (SetsOutToPush slots items.length count))
        state.producer) ?_ ?_
  · intro idle _ _ opens
    cases Step.of_step? opens with
    | producer own =>
        cases own with
        | invoke _ starts =>
            refine .start starts ?_
            simp [PushRefused, Happens.not_nil]
  · intro labels state label next shorter progress admitted notAnswer taken
    have run := shorter.runs
    have reachable := shorter.run
    have sameRefusal :
        PushRefused slots items invoked (labels ++ [label]) ↔
          PushRefused slots items invoked labels ∨
            ReadsClosed state label next ∨
              FindsFull slots state label next := by
      unfold PushRefused
      rw [Happens.snoc_iff run admitted taken,
        Happens.snoc_iff run admitted taken]
      tauto
    have extended :
        ∀ count,
          Happens (step? slots) sequential invoked labels
              (SetsOutToPush slots items.length count) ∨
            SetsOutToPush slots items.length count state label next →
          Happens (step? slots) sequential invoked (labels ++ [label])
            (SetsOutToPush slots items.length count) :=
      fun count => (Happens.snoc_iff run admitted taken).mpr
    rcases label with ⟨agent, action⟩
    have step := Step.of_step? taken
    cases step with
    | producer own =>
        have moved :=
          progress.step (Indices.of_run wide small reachable)
            (Tracked.of_run reachable) wide small admitted
            (fun isRespond => notAnswer (by rw [isRespond])) own
        exact moved.mono sameRefusal extended
    | consumer own =>
        rw [own.producer_eq]
        refine progress.mono ?_ fun count sets => extended count (Or.inl sets)
        rw [sameRefusal]
        simp [ReadsClosed, FindsFull]
    | observer own =>
        rw [own.producer_eq]
        refine progress.mono ?_ fun count sets => extended count (Or.inl sets)
        rw [sameRefusal]
        simp [ReadsClosed, FindsFull]

/-- How far a bulk pop is at any time before its answer. -/
theorem PopProgress.of_window
    (wide : 1 < slots)
    (small : slots ≤ SizeT.halfRange)
    (window :
      CallWindow slots sequential .consumer (.tryPopN out) earlier
        during invoked last) :
    PopProgress out (PopRefused slots out invoked during)
      (fun count =>
        Happens (step? slots) sequential invoked during
          (SetsOutToPop out.length count))
      last.consumer := by
  refine window.step_induction
    (fun labels state =>
      PopProgress out (PopRefused slots out invoked labels)
        (fun count =>
          Happens (step? slots) sequential invoked labels
            (SetsOutToPop out.length count))
        state.consumer) ?_ ?_
  · intro idle _ _ opens
    cases Step.of_step? opens with
    | consumer own =>
        cases own with
        | invoke _ starts =>
            refine .start starts ?_
            simp [PopRefused, Happens.not_nil]
  · intro labels state label next shorter progress admitted notAnswer taken
    have run := shorter.runs
    have reachable := shorter.run
    have sameRefusal :
        PopRefused slots out invoked (labels ++ [label]) ↔
          PopRefused slots out invoked labels ∨
            FindsEmpty state label next := by
      unfold PopRefused
      rw [Happens.snoc_iff run admitted taken]
      tauto
    have extended :
        ∀ count,
          Happens (step? slots) sequential invoked labels
              (SetsOutToPop out.length count) ∨
            SetsOutToPop out.length count state label next →
          Happens (step? slots) sequential invoked (labels ++ [label])
            (SetsOutToPop out.length count) :=
      fun count => (Happens.snoc_iff run admitted taken).mpr
    rcases label with ⟨agent, action⟩
    have step := Step.of_step? taken
    cases step with
    | consumer own =>
        have moved :=
          progress.step (Indices.of_run wide small reachable)
            (Tracked.of_run reachable) wide small admitted
            (fun isRespond => notAnswer (by rw [isRespond])) own
        exact moved.mono sameRefusal extended
    | producer own =>
        rw [own.consumer_eq]
        refine progress.mono ?_ fun count sets => extended count (Or.inl sets)
        rw [sameRefusal]
        simp [FindsEmpty]
    | observer own =>
        rw [own.consumer_eq]
        refine progress.mono ?_ fun count sets => extended count (Or.inl sets)
        rw [sameRefusal]
        simp [FindsEmpty]

/-- A bulk push that is about to return `count`. -/
theorem push_count
    (wide : 1 < slots)
    (small : slots ≤ SizeT.halfRange)
    (window :
      CallWindow slots sequential .producer (.tryPushN items) earlier
        during invoked last)
    {count : Nat}
    {left : List α}
    (returns : last.producer = .returning (.pushedN count left)) :
    (count = 0 ↔ PushRefused slots items invoked during) ∧
      (count ≠ 0 →
        Happens (step? slots) sequential invoked during
          (SetsOutToPush slots items.length count)) := by
  have progress := PushProgress.of_window wide small window
  rw [returns] at progress
  cases progress with
  | refused isRefused =>
      exact ⟨iff_of_true rfl isRefused, fun nonzero => absurd rfl nonzero⟩
  | accepted notRefused sets =>
      have positive : 1 ≤ count := by
        obtain ⟨_, _, _, _, _, _, _, _, _, event⟩ := sets
        exact event.2.2.1
      exact ⟨iff_of_false (Nat.pos_iff_ne_zero.mp positive) notRefused,
        fun _ => sets⟩

/-- A bulk pop that is about to return `count`. -/
theorem pop_count
    (wide : 1 < slots)
    (small : slots ≤ SizeT.halfRange)
    (window :
      CallWindow slots sequential .consumer (.tryPopN out) earlier
        during invoked last)
    {count : Nat}
    {left : List α}
    (returns : last.consumer = .returning (.poppedN count left)) :
    (count = 0 ↔ PopRefused slots out invoked during) ∧
      (count ≠ 0 →
        Happens (step? slots) sequential invoked during
          (SetsOutToPop out.length count)) := by
  have progress := PopProgress.of_window wide small window
  rw [returns] at progress
  cases progress with
  | refused isRefused =>
      exact ⟨iff_of_true rfl isRefused, fun nonzero => absurd rfl nonzero⟩
  | accepted notRefused sets =>
      have positive : 1 ≤ count := by
        obtain ⟨_, _, _, _, _, _, _, _, _, event⟩ := sets
        exact event.2.2.1
      exact ⟨iff_of_false (Nat.pos_iff_ne_zero.mp positive) notRefused,
        fun _ => sets⟩

end Bulk

end ConcurrentQueue.Spsc
