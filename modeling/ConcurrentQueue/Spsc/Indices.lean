import ConcurrentQueue.Spsc.Calls

namespace ConcurrentQueue.Spsc

/-!
# Indices, caches and the slots they license

Each index counts elements modulo the number of slots.  The totals behind the
two indices and the two cached copies stay in one order, and the slots a side
still works on lie within what its cached copy of the other index licenses.
-/

variable {α : Type}

section Arithmetic

variable {slots : Nat} {cached current : Nat}

/-- `next` walks to the slot of the next position. -/
theorem next_mod
    (wide : 1 < slots)
    (small : slots ≤ SizeT.halfRange)
    (position : Nat) :
    next slots (position % slots) = (position + 1) % slots :=
  Ring.next_mod (Nat.zero_lt_of_lt wide) small position

/-- `free_slots()` counts what is left of the cached window. -/
theorem freeSlots_mod
    (wide : 1 < slots)
    (small : slots ≤ SizeT.halfRange)
    (ordered : cached ≤ current)
    (near : current ≤ cached + (slots - 1)) :
    freeSlots slots (cached % slots) (current % slots) =
      cached + (slots - 1) - current := by
  have cachedBound := Nat.mod_lt cached (Nat.zero_lt_of_lt wide)
  have currentBound := Nat.mod_lt current (Nat.zero_lt_of_lt wide)
  have added :
      SizeT.add (cached % slots) slots = cached % slots + slots :=
    SizeT.add_of_lt (by rw [SizeT.modulus_eq]; omega)
  have first :
      SizeT.sub (cached % slots + slots) 1 = cached % slots + slots - 1 :=
    SizeT.sub_of_le (by omega) (by rw [SizeT.modulus_eq]; omega)
  have second :
      SizeT.sub (cached % slots + slots - 1) (current % slots) =
        cached % slots + slots - 1 - current % slots :=
    SizeT.sub_of_le (by omega) (by rw [SizeT.modulus_eq]; omega)
  have gathered :
      cached % slots + slots - 1 - current % slots + current % slots =
        cached % slots + (slots - 1) := by
    omega
  have returned :
      cached + (slots - 1) - current + current = cached + (slots - 1) := by
    omega
  unfold freeSlots
  rw [added, first, second]
  refine Ring.mod_eq_of_add_mod current (by omega) ?_
  calc
    (cached % slots + slots - 1 - current % slots + current) % slots
        = (cached % slots + slots - 1 - current % slots
            + current % slots) % slots := (Nat.add_mod_mod _ _ _).symm
    _ = (cached % slots + (slots - 1)) % slots := by
        rw [gathered]
    _ = (cached + (slots - 1)) % slots := Nat.mod_add_mod _ _ _
    _ = (cached + (slots - 1) - current + current) % slots := by
        rw [returned]

/-- `available()` counts what is left up to the cached index. -/
theorem available_mod
    (wide : 1 < slots)
    (small : slots ≤ SizeT.halfRange)
    (ordered : current ≤ cached)
    (near : cached < current + slots) :
    available slots (cached % slots) (current % slots) =
      cached - current := by
  have cachedBound := Nat.mod_lt cached (Nat.zero_lt_of_lt wide)
  have currentBound := Nat.mod_lt current (Nat.zero_lt_of_lt wide)
  have added :
      SizeT.add (cached % slots) slots = cached % slots + slots :=
    SizeT.add_of_lt (by rw [SizeT.modulus_eq]; omega)
  have subtracted :
      SizeT.sub (cached % slots + slots) (current % slots) =
        cached % slots + slots - current % slots :=
    SizeT.sub_of_le (by omega) (by rw [SizeT.modulus_eq]; omega)
  have gathered :
      cached % slots + slots - current % slots + current % slots =
        cached % slots + slots := by
    omega
  have returned : cached - current + current = cached :=
    Nat.sub_add_cancel ordered
  unfold available
  rw [added, subtracted]
  refine Ring.mod_eq_of_add_mod current (by omega) ?_
  calc
    (cached % slots + slots - current % slots + current) % slots
        = (cached % slots + slots - current % slots
            + current % slots) % slots := (Nat.add_mod_mod _ _ _).symm
    _ = (cached % slots + slots) % slots := by
        rw [gathered]
    _ = cached % slots := by
        rw [Nat.add_mod_right, Nat.mod_mod]
    _ = (cached - current + current) % slots := by
        rw [returned]

/-- A push finds room exactly while the cached window is not used up. -/
theorem Pusher.hasRoom_iff
    (wide : 1 < slots)
    (small : slots ≤ SizeT.halfRange)
    (ordered : cached ≤ current)
    (near : current ≤ cached + (slots - 1))
    (pusher : Pusher α) :
    pusher.hasRoom slots (cached % slots) (current % slots) = true ↔
      current < cached + (slots - 1) := by
  have single :
      (next slots (current % slots) != cached % slots) = true ↔
        current < cached + (slots - 1) := by
    rw [next_mod wide small, bne_iff_ne]
    constructor
    · intro different
      by_contra used
      have lap : current + 1 = cached + slots := by omega
      rw [lap, Nat.add_mod_right] at different
      exact different rfl
    · intro room
      exact (Ring.mod_ne_of_lt (by omega) (by omega)).symm
  cases pusher with
  | push | tryPush => exact single
  | tryPushN items =>
      simp only [Pusher.hasRoom, freeSlots_mod wide small ordered near,
        bne_iff_ne]
      omega

/-- A pop finds data exactly while the cached index is ahead. -/
theorem Popper.hasData_iff
    (wide : 1 < slots)
    (small : slots ≤ SizeT.halfRange)
    (ordered : current ≤ cached)
    (near : cached < current + slots)
    (popper : Popper α) :
    popper.hasData slots (cached % slots) (current % slots) = true ↔
      current < cached := by
  have single :
      (current % slots != cached % slots) = true ↔ current < cached := by
    rw [bne_iff_ne]
    constructor
    · intro different
      by_contra exhausted
      have same : current = cached := by omega
      exact different (by rw [same])
    · intro ahead
      exact Ring.mod_ne_of_lt ahead near
  cases popper with
  | pop | tryPop => exact single
  | tryPopN out =>
      simp only [Popper.hasData, available_mod wide small ordered near,
        bne_iff_ne]
      omega

/-- A push moves in no more than the cached window has left. -/
theorem Pusher.count_le
    (wide : 1 < slots)
    (small : slots ≤ SizeT.halfRange)
    (ordered : cached ≤ current)
    (near : current ≤ cached + (slots - 1))
    {pusher : Pusher α}
    (hasRoom :
      pusher.hasRoom slots (cached % slots) (current % slots) = true) :
    current + pusher.count slots (cached % slots) (current % slots) ≤
      cached + (slots - 1) := by
  rw [pusher.hasRoom_iff wide small ordered near] at hasRoom
  cases pusher with
  | push | tryPush => exact hasRoom
  | tryPushN items =>
      simp only [Pusher.count, freeSlots_mod wide small ordered near]
      omega

/-- A pop moves out no more than the cached index has published. -/
theorem Popper.count_le
    (wide : 1 < slots)
    (small : slots ≤ SizeT.halfRange)
    (ordered : current ≤ cached)
    (near : cached < current + slots)
    {popper : Popper α}
    (hasData :
      popper.hasData slots (cached % slots) (current % slots) = true) :
    current + popper.count slots (cached % slots) (current % slots) ≤
      cached := by
  rw [popper.hasData_iff wide small ordered near] at hasData
  cases popper with
  | pop | tryPop => exact hasData
  | tryPopN out =>
      simp only [Popper.count, available_mod wide small ordered near]
      omega

end Arithmetic

section Totals

variable (index : Atomic Publication Nat) (author : Publication) (value : Nat)

/-- A store adds the total it was made with. -/
theorem totalAt_store (message : Nat) :
    totalAt (index.store author value) message =
      if message = index.newest + 1 then author.total
      else totalAt index message := by
  unfold totalAt
  rw [index.author?_store]
  split <;> rfl

@[simp] theorem total_store :
    total (index.store author value) = author.total := by
  simp [total, totalAt_store]

/-- A store leaves the totals of all earlier messages. -/
theorem totalAt_store_of_le
    {message : Nat}
    (old : message ≤ index.newest) :
    totalAt (index.store author value) message =
      totalAt index message := by
  rw [totalAt_store, if_neg (by omega)]

end Totals

/-- A published index and the copy that the other side has cached of it. -/
structure Published
    (slots : Nat)
    (index : Atomic Publication Nat)
    (seen cache : Nat) : Prop where
  reads :
    ∀ {message value},
      index.read? message = some value →
      value = totalAt index message % slots
  mono :
    ∀ {first second},
      first ≤ second → second ≤ index.newest →
      totalAt index first ≤ totalAt index second
  seenBound : seen ≤ index.newest
  cached : cache = totalAt index seen % slots

namespace Published

variable {slots seen cache : Nat} {index : Atomic Publication Nat}

/-- The constructor publishes index zero and caches it. -/
theorem initial : Published slots { initial := 0 } 0 0 where
  reads := by
    intro message value isRead
    cases message with
    | zero =>
        cases isRead
        simp [totalAt, Atomic.author?]
    | succ message =>
        simp [Atomic.read?] at isRead
  mono := by
    intro first second ordered bound
    have isFirst : first = second := by
      simp only [Atomic.newest, List.length_nil] at bound
      omega
    rw [isFirst]
  seenBound := Nat.zero_le _
  cached := by
    simp [totalAt, Atomic.author?]

/-- The cached total is not ahead of the published one. -/
theorem seen_le
    (published : Published slots index seen cache) :
    totalAt index seen ≤ total index :=
  published.mono published.seenBound (Nat.le_refl _)

/-- The owner of the index knows its slot. -/
theorem latest_eq
    (published : Published slots index seen cache) :
    index.latest = total index % slots :=
  published.reads index.read?_newest

/-- Publishing more elements. -/
theorem store
    (published : Published slots index seen cache)
    (call moved : Nat) :
    Published slots
      (index.store ⟨call, total index + moved⟩
        ((total index + moved) % slots))
      seen cache where
  reads := by
    intro message value isRead
    rw [index.read?_store] at isRead
    rw [totalAt_store]
    split at isRead
    · rename_i isNew
      cases isRead
      rw [if_pos isNew]
    · rename_i isOld
      rw [if_neg isOld]
      exact published.reads isRead
  mono := by
    intro first second ordered bound
    rw [Atomic.newest_store] at bound
    rw [totalAt_store, totalAt_store]
    split
    · rw [if_pos (by omega)]
    · split
      · have before : totalAt index first ≤ total index :=
          published.mono (by omega) (Nat.le_refl _)
        exact Nat.le_trans before (Nat.le_add_right _ _)
      · exact published.mono ordered (by omega)
  seenBound := by
    have bound := published.seenBound
    rw [Atomic.newest_store]
    omega
  cached := by
    rw [totalAt_store_of_le _ _ _ published.seenBound]
    exact published.cached

/-- Caching a message that is not older than the one cached before. -/
theorem refresh
    (published : Published slots index seen cache)
    {message value : Nat}
    (isRead : index.read? message = some value) :
    Published slots index message value where
  reads := published.reads
  mono := published.mono
  seenBound := index.le_newest_of_read? isRead
  cached := published.reads isRead

end Published

/-- The elements moved in but not published. -/
def ProducerPc.moved : ProducerPc α → List α
  | .moveIn _ _ moved _ => moved
  | .publishTail _ _ moved => moved
  | _ => []

/-- The elements moved out whose slots are not handed back. -/
def ConsumerPc.moved : ConsumerPc α → List α
  | .moveOut _ _ moved _ => moved
  | .publishHead _ _ moved => moved
  | _ => []

/-- The slot the producer is about to write. -/
def ProducerPc.slot? : ProducerPc α → Option Nat
  | .moveIn _ index _ _ => some index
  | _ => none

/-- The slot the consumer is about to move out of. -/
def ConsumerPc.slot? : ConsumerPc α → Option Nat
  | .moveOut _ index _ _ => some index
  | _ => none

/-- The producer works at its total and stays below a limit. -/
def ProducerPc.Within (slots total limit : Nat) : ProducerPc α → Prop
  | .moveIn _ index moved count =>
      index = (total + moved.length) % slots ∧ total + count ≤ limit
  | .publishTail _ index moved =>
      index = (total + moved.length) % slots ∧
        total + moved.length ≤ limit
  | _ => True

/-- The consumer works at its total and stays below a limit. -/
def ConsumerPc.Within (slots total limit : Nat) : ConsumerPc α → Prop
  | .moveOut _ index moved count =>
      index = (total + moved.length) % slots ∧ total + count ≤ limit
  | .publishHead _ index moved =>
      index = (total + moved.length) % slots ∧
        total + moved.length ≤ limit
  | _ => True

namespace State

/-- `H`, the number of elements whose slots were handed back. -/
def poppedTotal (state : State α) : Nat :=
  total state.head

/-- `T`, the number of elements published. -/
def pushedTotal (state : State α) : Nat :=
  total state.tail

/-- `Hc`, the total behind `head_cache_`. -/
def cachedPopped (state : State α) : Nat :=
  totalAt state.head state.headSeen

/-- `Tc`, the total behind `tail_cache_`. -/
def cachedPushed (state : State α) : Nat :=
  totalAt state.tail state.tailSeen

end State

/-- The order of the totals and the slots that both sides work on. -/
structure Indices (slots : Nat) (state : State α) : Prop where
  head : Published slots state.head state.headSeen state.headCache
  tail : Published slots state.tail state.tailSeen state.tailCache
  headAt : state.poppedTotal ≤ state.cachedPushed
  tailAt : state.pushedTotal ≤ state.cachedPopped + (slots - 1)
  producer :
    state.producer.Within slots state.pushedTotal
      (state.cachedPopped + (slots - 1))
  consumer :
    state.consumer.Within slots state.poppedTotal state.cachedPushed

section Windows

variable {slots total limit larger : Nat}

/-- A call that has only started works on no slot. -/
theorem ProducerPc.within_start?
    {op : Op α}
    {pc : ProducerPc α}
    (starts : ProducerPc.start? op = some pc) :
    pc.Within slots total limit := by
  cases op with
  | push | tryPush =>
      cases starts
      trivial
  | tryPushN items =>
      cases starts
      split <;> trivial
  | _ =>
      cases starts

theorem ConsumerPc.within_start?
    {op : Op α}
    {pc : ConsumerPc α}
    (starts : ConsumerPc.start? op = some pc) :
    pc.Within slots total limit := by
  cases op with
  | pop | tryPop | closed =>
      cases starts
      trivial
  | tryPopN out =>
      cases starts
      split <;> trivial
  | _ =>
      cases starts

theorem ProducerPc.within_afterFull (pusher : Pusher α) :
    pusher.afterFull.Within slots total limit := by
  cases pusher <;> trivial

theorem ConsumerPc.within_afterEmpty (popper : Popper α) :
    popper.afterEmpty.Within slots total limit := by
  rcases popper with ⟨out, _ | _⟩ | out | out <;> trivial

/-- A later copy of the other index licenses at least as much. -/
theorem ProducerPc.Within.mono
    {pc : ProducerPc α}
    (within : pc.Within slots total limit)
    (extended : limit ≤ larger) :
    pc.Within slots total larger := by
  cases pc with
  | moveIn | publishTail =>
      exact ⟨within.1, Nat.le_trans within.2 extended⟩
  | _ =>
      trivial

theorem ConsumerPc.Within.mono
    {pc : ConsumerPc α}
    (within : pc.Within slots total limit)
    (extended : limit ≤ larger) :
    pc.Within slots total larger := by
  cases pc with
  | moveOut | publishHead =>
      exact ⟨within.1, Nat.le_trans within.2 extended⟩
  | _ =>
      trivial

/-- After one more element the producer is at the next slot. -/
theorem ProducerPc.within_afterMove
    (wide : 1 < slots)
    (small : slots ≤ SizeT.halfRange)
    {pusher left : Pusher α}
    {index count : Nat}
    {moved : List α}
    (within :
      (ProducerPc.moveIn pusher index moved count).Within slots total limit)
    (more : moved.length < count)
    (value : α) :
    (ProducerPc.afterMove slots left index (moved ++ [value]) count).Within
      slots total limit := by
  obtain ⟨isIndex, bound⟩ := within
  have isNext :
      next slots index =
        (total + (moved ++ [value]).length) % slots := by
    rw [isIndex, next_mod wide small]
    simp [Nat.add_assoc]
  unfold ProducerPc.afterMove
  split
  · exact ⟨isNext, bound⟩
  · refine ⟨isNext, ?_⟩
    simp only [List.length_append, List.length_singleton]
    omega

/-- After one more element the consumer is at the next slot. -/
theorem ConsumerPc.within_afterMove
    (wide : 1 < slots)
    (small : slots ≤ SizeT.halfRange)
    {popper left : Popper α}
    {index count : Nat}
    {moved : List α}
    (within :
      (ConsumerPc.moveOut popper index moved count).Within slots total limit)
    (more : moved.length < count)
    (value : α) :
    (ConsumerPc.afterMove slots left index (moved ++ [value]) count).Within
      slots total limit := by
  obtain ⟨isIndex, bound⟩ := within
  have isNext :
      next slots index =
        (total + (moved ++ [value]).length) % slots := by
    rw [isIndex, next_mod wide small]
    simp [Nat.add_assoc]
  unfold ConsumerPc.afterMove
  split
  · exact ⟨isNext, bound⟩
  · refine ⟨isNext, ?_⟩
    simp only [List.length_append, List.length_singleton]
    omega

end Windows

namespace Indices

variable {slots : Nat} {state next : State α}
variable {agent : Agent} {action : Action α}

/-- The constructor starts with all totals zero. -/
theorem initial [Inhabited α] :
    Indices slots (initial : State α) where
  head := Published.initial
  tail := Published.initial
  headAt := Nat.le_refl _
  tailAt := Nat.zero_le _
  producer := trivial
  consumer := trivial

/-- `Hc ≤ H` -/
theorem cachedPopped_le (indices : Indices slots state) :
    state.cachedPopped ≤ state.poppedTotal :=
  indices.head.seen_le

/-- `Tc ≤ T` -/
theorem cachedPushed_le (indices : Indices slots state) :
    state.cachedPushed ≤ state.pushedTotal :=
  indices.tail.seen_le

/-- `Hc ≤ T` -/
theorem cachedPopped_le_pushed (indices : Indices slots state) :
    state.cachedPopped ≤ state.pushedTotal :=
  calc
    state.cachedPopped ≤ state.poppedTotal := indices.cachedPopped_le
    _ ≤ state.cachedPushed := indices.headAt
    _ ≤ state.pushedTotal := indices.cachedPushed_le

/-- `Tc < H + slots` -/
theorem cachedPushed_lt
    (indices : Indices slots state)
    (wide : 1 < slots) :
    state.cachedPushed < state.poppedTotal + slots := by
  have first := indices.cachedPushed_le
  have second := indices.tailAt
  have third := indices.cachedPopped_le
  omega

/-- The producer moves to a program point within its window. -/
theorem atProducer
    (indices : Indices slots state)
    {pc : ProducerPc α}
    (within :
      pc.Within slots state.pushedTotal
        (state.cachedPopped + (slots - 1))) :
    Indices slots (state.atProducer pc) :=
  ⟨indices.head, indices.tail, indices.headAt, indices.tailAt, within,
    indices.consumer⟩

/-- The consumer moves to a program point within its window. -/
theorem atConsumer
    (indices : Indices slots state)
    {pc : ConsumerPc α}
    (within :
      pc.Within slots state.poppedTotal state.cachedPushed) :
    Indices slots (state.atConsumer pc) :=
  ⟨indices.head, indices.tail, indices.headAt, indices.tailAt,
    indices.producer, within⟩

/-- Slots, `closed_`, observers and history are no part of the indices. -/
theorem aside
    (indices : Indices slots state)
    {buffer : Nat → α}
    {closed : Atomic Nat Bool}
    {observers : Nat → ObserverPc α}
    {closesRead : List Nat}
    {log : CallLog Agent (Op α) (Handover α) (Result α)} :
    Indices slots
      { state with
        buffer := buffer
        closed := closed
        observers := observers
        closesRead := closesRead
        log := log } :=
  ⟨indices.head, indices.tail, indices.headAt, indices.tailAt,
    indices.producer, indices.consumer⟩

/-- Refreshing `head_cache_` only widens the producer's window. -/
theorem cacheHead
    (indices : Indices slots state)
    {message index : Nat}
    (fresh : state.headSeen ≤ message)
    (isRead : state.head.read? message = some index) :
    Indices slots (state.cacheHead message index) := by
  have widened : state.cachedPopped ≤ totalAt state.head message :=
    indices.head.mono fresh (state.head.le_newest_of_read? isRead)
  exact ⟨indices.head.refresh isRead, indices.tail, indices.headAt,
    Nat.le_trans indices.tailAt (Nat.add_le_add_right widened _),
    indices.producer.mono (Nat.add_le_add_right widened _),
    indices.consumer⟩

/-- Refreshing `tail_cache_` only widens the consumer's window. -/
theorem cacheTail
    (indices : Indices slots state)
    {message index : Nat}
    (fresh : state.tailSeen ≤ message)
    (isRead : state.tail.read? message = some index) :
    Indices slots (state.cacheTail message index) := by
  have widened : state.cachedPushed ≤ totalAt state.tail message :=
    indices.tail.mono fresh (state.tail.le_newest_of_read? isRead)
  exact ⟨indices.head, indices.tail.refresh isRead,
    Nat.le_trans indices.headAt widened, indices.tailAt,
    indices.producer, indices.consumer.mono widened⟩

/-- A producer that found room starts within its window. -/
theorem within_room
    (indices : Indices slots state)
    (wide : 1 < slots)
    (small : slots ≤ SizeT.halfRange)
    {pusher : Pusher α}
    (hasRoom :
      pusher.hasRoom slots state.headCache state.tail.latest = true) :
    (ProducerPc.moveIn pusher state.tail.latest []
        (pusher.count slots state.headCache state.tail.latest)).Within
      slots state.pushedTotal (state.cachedPopped + (slots - 1)) := by
  rw [indices.head.cached, indices.tail.latest_eq] at hasRoom ⊢
  exact ⟨rfl, Pusher.count_le wide small indices.cachedPopped_le_pushed
    indices.tailAt hasRoom⟩

/-- A consumer that found data starts within its window. -/
theorem within_data
    (indices : Indices slots state)
    (wide : 1 < slots)
    (small : slots ≤ SizeT.halfRange)
    {popper : Popper α}
    (hasData :
      popper.hasData slots state.tailCache state.head.latest = true) :
    (ConsumerPc.moveOut popper state.head.latest []
        (popper.count slots state.tailCache state.head.latest)).Within
      slots state.poppedTotal state.cachedPushed := by
  rw [indices.tail.cached, indices.head.latest_eq] at hasData ⊢
  exact ⟨rfl, Popper.count_le wide small indices.headAt
    (indices.cachedPushed_lt wide) hasData⟩

/-- Publishing what was moved in. -/
theorem publishTail
    (indices : Indices slots state)
    {pusher : Pusher α}
    {index : Nat}
    {moved : List α}
    (isAt : state.producer = .publishTail pusher index moved)
    (result : Result α) :
    Indices slots
      ((state.publishTail index moved).atProducer (.returning result)) := by
  have within := indices.producer
  rw [isAt] at within
  obtain ⟨isIndex, bound⟩ := within
  have sameCached :
      totalAt
          (state.tail.store
            ⟨state.callOf .producer, total state.tail + moved.length⟩ index)
          state.tailSeen =
        state.cachedPushed :=
    totalAt_store_of_le _ _ _ indices.tail.seenBound
  refine ⟨indices.head, ?_, ?_, ?_, trivial, ?_⟩
  · rw [isIndex]
    exact indices.tail.store _ _
  · exact Nat.le_trans indices.headAt (Nat.le_of_eq sameCached.symm)
  · exact Nat.le_trans (Nat.le_of_eq (total_store _ _ _)) bound
  · have within := indices.consumer
    rw [← sameCached] at within
    exact within

/-- Handing back the slots of what was moved out. -/
theorem publishHead
    (indices : Indices slots state)
    {popper : Popper α}
    {index : Nat}
    {moved : List α}
    (isAt : state.consumer = .publishHead popper index moved)
    (result : Result α) :
    Indices slots
      ((state.publishHead index moved).atConsumer (.returning result)) := by
  have within := indices.consumer
  rw [isAt] at within
  obtain ⟨isIndex, bound⟩ := within
  have sameCached :
      totalAt
          (state.head.store
            ⟨state.callOf .consumer, total state.head + moved.length⟩ index)
          state.headSeen =
        state.cachedPopped :=
    totalAt_store_of_le _ _ _ indices.head.seenBound
  refine ⟨?_, indices.tail, ?_, ?_, ?_, trivial⟩
  · rw [isIndex]
    exact indices.head.store _ _
  · exact Nat.le_trans (Nat.le_of_eq (total_store _ _ _)) bound
  · refine Nat.le_trans indices.tailAt (Nat.add_le_add_right ?_ _)
    exact Nat.le_of_eq sameCached.symm
  · have within := indices.producer
    rw [← sameCached] at within
    exact within

/-- Every step of the producer keeps the order of the totals. -/
theorem producer_step
    (indices : Indices slots state)
    (wide : 1 < slots)
    (small : slots ≤ SizeT.halfRange)
    (tracked : Tracked state)
    (step : ProducerStep slots state action next) :
    Indices slots next := by
  cases step with
  | invoke isAt starts =>
      exact indices.aside.atProducer (ProducerPc.within_start? starts)
  | refused isAt reads | admitted isAt reads | noRoom isAt isFull =>
      exact indices.atProducer trivial
  | room isAt hasRoom =>
      exact indices.atProducer (indices.within_room wide small hasRoom)
  | refreshedRoom isAt fresh reads hasRoom =>
      have refreshed := indices.cacheHead fresh reads
      exact refreshed.atProducer (refreshed.within_room wide small hasRoom)
  | refreshedFull isAt fresh reads isFull =>
      have refreshed := indices.cacheHead fresh reads
      exact refreshed.atProducer (ProducerPc.within_afterFull _)
  | moveIn isAt taken =>
      have within := indices.producer
      have agrees := tracked.producer
      rw [isAt] at within agrees
      obtain ⟨call, op, isCurrent, after, more, bound⟩ := agrees
      exact indices.aside.atProducer
        (ProducerPc.within_afterMove wide small within more _)
  | throwIn isAt mayThrow =>
      refine indices.aside.atProducer ?_
      trivial
  | publishTail isAt =>
      exact indices.publishTail isAt _
  | respond isAt =>
      refine indices.aside.atProducer ?_
      trivial

/-- Every step of the consumer keeps the order of the totals. -/
theorem consumer_step
    (indices : Indices slots state)
    (wide : 1 < slots)
    (small : slots ≤ SizeT.halfRange)
    (tracked : Tracked state)
    (step : ConsumerStep slots state action next) :
    Indices slots next := by
  cases step with
  | invoke isAt starts =>
      exact indices.aside.atConsumer (ConsumerPc.within_start? starts)
  | noData isAt isEmpty =>
      exact indices.atConsumer trivial
  | data isAt hasData =>
      exact indices.atConsumer (indices.within_data wide small hasData)
  | refreshedData isAt fresh reads hasData =>
      have refreshed := indices.cacheTail fresh reads
      exact refreshed.atConsumer (refreshed.within_data wide small hasData)
  | refreshedEmpty isAt fresh reads isEmpty =>
      have refreshed := indices.cacheTail fresh reads
      exact refreshed.atConsumer (ConsumerPc.within_afterEmpty _)
  | popClosed isAt reads | loadClosed isAt reads =>
      refine indices.aside.atConsumer ?_
      trivial
  | moveOut isAt =>
      have within := indices.consumer
      have agrees := tracked.consumer
      rw [isAt] at within agrees
      obtain ⟨call, op, isCurrent, after, more, bound⟩ := agrees
      exact indices.aside.atConsumer
        (ConsumerPc.within_afterMove wide small within more _)
  | throwOut isAt mayThrow =>
      refine indices.aside.atConsumer ?_
      trivial
  | publishHead isAt =>
      exact indices.publishHead isAt _
  | respond isAt =>
      refine indices.aside.atConsumer ?_
      trivial

/-- Every step keeps the order of the totals. -/
theorem step
    (indices : Indices slots state)
    (wide : 1 < slots)
    (small : slots ≤ SizeT.halfRange)
    (tracked : Tracked state)
    (step : Step slots state agent action next) :
    Indices slots next := by
  cases step with
  | producer own => exact indices.producer_step wide small tracked own
  | consumer own => exact indices.consumer_step wide small tracked own
  | observer own =>
      cases own <;> exact indices.aside

/-- The totals are in order in every reachable state. -/
theorem of_run
    [Inhabited α]
    (wide : 1 < slots)
    (small : slots ≤ SizeT.halfRange)
    {guard : StepGuard (State α) (Label α)}
    {labels : List (Label α)}
    (run : Run (step? slots) guard Spsc.initial labels state) :
    Indices slots state :=
  run.invariant_of Tracked.of_run Indices.initial
    fun tracked _ indices _ taken =>
      indices.step wide small tracked (Step.of_step? taken)

end Indices

end ConcurrentQueue.Spsc
