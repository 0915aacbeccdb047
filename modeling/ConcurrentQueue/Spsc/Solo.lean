import ConcurrentQueue.Spsc.CachedChecks

namespace ConcurrentQueue.Spsc

/-!
# Calls of one side on their own

While one side runs a call and nobody else moves, what it loads is the same at
every load.  The state a call leaves is then determined by the state it starts
in: the closed check, the check against the cached or the refreshed copy, and
the slots written or emptied one after the other.
-/

variable {α : Type}

/-- The producer reads one message of `head_` and one of `closed_`. -/
def producerAlone
    (indexMessage flagMessage : Nat)
    (state : State α)
    (action : Action α) : Prop :=
  match state.producer, action with
  | .checkClosed _, .load message => message = flagMessage
  | .refreshHead _, .load message => message = indexMessage
  | _, _ => True

instance
    (indexMessage flagMessage : Nat)
    (state : State α)
    (action : Action α) :
    Decidable (producerAlone indexMessage flagMessage state action) :=
  decidable_of_bool
    (match state.producer, action with
      | .checkClosed _, .load message => message == flagMessage
      | .refreshHead _, .load message => message == indexMessage
      | _, _ => true)
    (by unfold producerAlone; split <;> simp)

/--
The consumer reads one message of `tail_` and one of `closed_`, and what a move
leaves in the slot of a position is what `leaves` allows.
-/
def consumerAlone
    (indexMessage flagMessage : Nat)
    (leaves : Nat → α → Prop)
    (state : State α)
    (action : Action α) : Prop :=
  match state.consumer, action with
  | .refreshTail _, .load message => message = indexMessage
  | .popClosed _, .load message => message = flagMessage
  | .loadClosed, .load message => message = flagMessage
  | .moveOut _ _ moved _, .move husk =>
      leaves (state.poppedTotal + moved.length) husk
  | _, _ => True

instance
    (indexMessage flagMessage : Nat)
    (leaves : Nat → α → Prop)
    [∀ position husk, Decidable (leaves position husk)]
    (state : State α)
    (action : Action α) :
    Decidable
      (consumerAlone indexMessage flagMessage leaves state action) :=
  decidable_of_bool
    (match state.consumer, action with
      | .refreshTail _, .load message => message == indexMessage
      | .popClosed _, .load message => message == flagMessage
      | .loadClosed, .load message => message == flagMessage
      | .moveOut _ _ moved _, .move husk =>
          decide (leaves (state.poppedTotal + moved.length) husk)
      | _, _ => true)
    (by unfold consumerAlone; split <;> simp)

/-- Only the producer moves. -/
def producerOnly
    (indexMessage flagMessage : Nat) :
    StepGuard (State α) (Label α) :=
  fun state label =>
    label.agent = .producer ∧
      producerAlone indexMessage flagMessage state label.action

instance
    (indexMessage flagMessage : Nat)
    (state : State α)
    (label : Label α) :
    Decidable (producerOnly indexMessage flagMessage state label) :=
  inferInstanceAs
    (Decidable
      (label.agent = .producer ∧
        producerAlone indexMessage flagMessage state label.action))

/-- Only the consumer moves. -/
def consumerOnly
    (indexMessage flagMessage : Nat)
    (leaves : Nat → α → Prop) :
    StepGuard (State α) (Label α) :=
  fun state label =>
    label.agent = .consumer ∧
      consumerAlone indexMessage flagMessage leaves state label.action

instance
    (indexMessage flagMessage : Nat)
    (leaves : Nat → α → Prop)
    [∀ position husk, Decidable (leaves position husk)]
    (state : State α)
    (label : Label α) :
    Decidable
      (consumerOnly indexMessage flagMessage leaves state label) :=
  inferInstanceAs
    (Decidable
      (label.agent = .consumer ∧
        consumerAlone indexMessage flagMessage leaves state label.action))

section Producer

variable {slots indexMessage flagMessage : Nat}

/--
The cached head is the one from before, or it is the one read by a refreshing
load because the one from before did not license the push.
-/
def HeadCached
    (slots indexMessage : Nat)
    (before : State α)
    (start : Pusher α)
    (cache : Nat) : Prop :=
  cache = before.headCache ∨
    start.hasRoom slots before.headCache before.tail.latest = false ∧
      before.headSeen ≤ indexMessage ∧
      before.head.read? indexMessage = some cache

/-- A push that goes ahead was not refused and found room. -/
structure PushGoes
    (slots indexMessage flagMessage : Nat)
    (before : State α)
    (start : Pusher α)
    (cache : Nat) : Prop where
  isOpen : before.closed.read? flagMessage = some false
  cached : HeadCached slots indexMessage before start cache
  room : start.hasRoom slots cache before.tail.latest = true

/-- Where a push on its own is, in terms of the state it started in. -/
inductive PushSolo
    (slots indexMessage flagMessage : Nat)
    (before : State α)
    (op : Op α)
    (start : Pusher α) :
    (Nat → α) → Atomic Publication Nat → Nat → ProducerPc α → Prop where
  | checkClosed {cache} :
      HeadCached slots indexMessage before start cache →
      PushSolo slots indexMessage flagMessage before op start
        before.buffer before.tail cache (.checkClosed start)
  | checkRoom {cache} :
      HeadCached slots indexMessage before start cache →
      before.closed.read? flagMessage = some false →
      PushSolo slots indexMessage flagMessage before op start
        before.buffer before.tail cache (.checkRoom start)
  | refreshHead {cache} :
      HeadCached slots indexMessage before start cache →
      before.closed.read? flagMessage = some false →
      start.hasRoom slots cache before.tail.latest = false →
      PushSolo slots indexMessage flagMessage before op start
        before.buffer before.tail cache (.refreshHead start)
  | moveIn {cache index} {left : Pusher α} {moved : List α} :
      PushGoes slots indexMessage flagMessage before start cache →
      left.After op moved →
      index = (before.pushedTotal + moved.length) % slots →
      moved.length < start.count slots cache before.tail.latest →
      PushSolo slots indexMessage flagMessage before op start
        (Ring.written slots before.buffer before.pushedTotal moved)
        before.tail cache
        (.moveIn left index moved
          (start.count slots cache before.tail.latest))
  | publishTail {cache index} {left : Pusher α} {moved : List α} :
      PushGoes slots indexMessage flagMessage before start cache →
      left.After op moved →
      index = (before.pushedTotal + moved.length) % slots →
      moved.length = start.count slots cache before.tail.latest →
      PushSolo slots indexMessage flagMessage before op start
        (Ring.written slots before.buffer before.pushedTotal moved)
        before.tail cache (.publishTail left index moved)
  | closed {cache} :
      HeadCached slots indexMessage before start cache →
      before.closed.read? flagMessage = some true →
      PushSolo slots indexMessage flagMessage before op start
        before.buffer before.tail cache (.returning start.refused)
  | full {cache} :
      HeadCached slots indexMessage before start cache →
      before.closed.read? flagMessage = some false →
      start.hasRoom slots cache before.tail.latest = false →
      before.head.read? indexMessage = some cache →
      op.isBlocking = false →
      PushSolo slots indexMessage flagMessage before op start
        before.buffer before.tail cache (.returning start.refused)
  | accepted {cache call} {left : Pusher α} {moved : List α} :
      PushGoes slots indexMessage flagMessage before start cache →
      left.After op moved →
      moved.length = start.count slots cache before.tail.latest →
      PushSolo slots indexMessage flagMessage before op start
        (Ring.written slots before.buffer before.pushedTotal moved)
        (before.tail.store
          ⟨call, before.pushedTotal + moved.length⟩
          ((before.pushedTotal + moved.length) % slots))
        cache
        (.returning (left.accepted moved.length))
  | threw {buffer tail cache} :
      PushSolo slots indexMessage flagMessage before op start
        buffer tail cache (.returning .pushThrew)

/-- The producer caches no older message than before. -/
theorem ProducerStep.headSeen_le
    {state after : State α}
    {action : Action α}
    (step : ProducerStep slots state action after) :
    state.headSeen ≤ after.headSeen := by
  cases step with
  | refreshedRoom _ fresh | refreshedFull _ fresh => exact fresh
  | _ => exact Nat.le_refl _

/-- What a push on its own leaves alone. -/
structure ProducerFrame (before state : State α) : Prop where
  head : state.head = before.head
  closed : state.closed = before.closed
  seen : before.headSeen ≤ state.headSeen
  tailCache : state.tailCache = before.tailCache
  consumer : state.consumer = before.consumer
  observers : state.observers = before.observers

/-- What one call and then another leaves alone. -/
theorem ProducerFrame.trans
    {first second third : State α}
    (sooner : ProducerFrame first second)
    (later : ProducerFrame second third) :
    ProducerFrame first third where
  head := later.head.trans sooner.head
  closed := later.closed.trans sooner.closed
  seen := Nat.le_trans sooner.seen later.seen
  tailCache := later.tailCache.trans sooner.tailCache
  consumer := later.consumer.trans sooner.consumer
  observers := later.observers.trans sooner.observers

/-- The producer leaves the other side alone. -/
theorem ProducerFrame.of_run
    {before state : State α}
    {labels : List (Label α)}
    (run :
      Run (step? slots) (producerOnly indexMessage flagMessage) before labels
        state) :
    ProducerFrame before state := by
  induction run with
  | start =>
      exact ⟨rfl, rfl, Nat.le_refl _, rfl, rfl, rfl⟩
  | @snoc _ _ _ label _ admitted taken frame =>
      rcases label with ⟨agent, action⟩
      obtain ⟨isProducer, _⟩ := admitted
      subst isProducer
      cases Step.of_step? taken with
      | producer own =>
          refine ⟨own.head_eq.trans frame.head,
            own.closed_eq.trans frame.closed,
            Nat.le_trans frame.seen own.headSeen_le, ?_,
            own.consumer_eq.trans frame.consumer,
            own.observers_eq.trans frame.observers⟩
          rw [← frame.tailCache]
          cases own <;> rfl

section Step

variable {before state after : State α} {op : Op α} {start : Pusher α}
variable {action : Action α}

/-- A refreshing load follows a check that the cached head failed. -/
theorem HeadCached.refresh
    {cache index : Nat}
    (cached : HeadCached slots indexMessage before start cache)
    (isFull :
      start.hasRoom slots cache before.tail.latest = false)
    (fresh : before.headSeen ≤ indexMessage)
    (reads : before.head.read? indexMessage = some index) :
    HeadCached slots indexMessage before start index := by
  rcases cached with rfl | ⟨wasFull, _⟩
  · exact Or.inr ⟨isFull, fresh, reads⟩
  · exact Or.inr ⟨wasFull, fresh, reads⟩

/-- A push that goes ahead starts at the slot of the published total. -/
theorem PushSolo.opening
    {cache : Nat}
    (indices : Indices slots before)
    (runs : start.After op [])
    (nonempty : 0 < op.operands.length)
    (goes : PushGoes slots indexMessage flagMessage before start cache) :
    PushSolo slots indexMessage flagMessage before op start
      before.buffer before.tail cache
      (.moveIn start before.tail.latest []
        (start.count slots cache before.tail.latest)) :=
  .moveIn goes runs indices.tail.latest_eq
    (Pusher.count_bounds runs nonempty goes.room).1

/-- A push that found the ring full waits or gives up. -/
theorem PushSolo.afterFull
    {cache : Nat}
    (runs : start.After op [])
    (cached : HeadCached slots indexMessage before start cache)
    (isOpen : before.closed.read? flagMessage = some false)
    (isFull : start.hasRoom slots cache before.tail.latest = false)
    (reads : before.head.read? indexMessage = some cache) :
    PushSolo slots indexMessage flagMessage before op start
      before.buffer before.tail cache start.afterFull := by
  have sameKind := runs.1
  cases start with
  | push value =>
      exact .checkClosed cached
  | tryPush value | tryPushN items =>
      refine .full cached isOpen isFull reads ?_
      cases op <;> simp_all [Pusher.Runs, Op.isBlocking]

/-- After one more element a push is at the next slot or publishes. -/
theorem PushSolo.afterMove
    (wide : 1 < slots)
    (small : slots ≤ SizeT.halfRange)
    {cache index : Nat}
    {left : Pusher α}
    {moved : List α}
    {value : α}
    (goes : PushGoes slots indexMessage flagMessage before start cache)
    (afterOp : left.After op (moved ++ [value]))
    (isIndex : index = (before.pushedTotal + moved.length) % slots)
    (more : moved.length < start.count slots cache before.tail.latest) :
    PushSolo slots indexMessage flagMessage before op start
      (Function.update
        (Ring.written slots before.buffer before.pushedTotal moved)
        index value)
      before.tail cache
      (.afterMove slots left index (moved ++ [value])
        (start.count slots cache before.tail.latest)) := by
  have isNext :
      next slots index =
        (before.pushedTotal + (moved ++ [value]).length) % slots := by
    rw [isIndex, next_mod wide small]
    simp [Nat.add_assoc]
  rw [isIndex, ← Ring.written_snoc, ← isIndex]
  unfold ProducerPc.afterMove
  split
  · rename_i unfinished
    exact .moveIn goes afterOp isNext unfinished
  · rename_i finished
    refine .publishTail goes afterOp isNext ?_
    rw [List.length_append, List.length_singleton] at finished ⊢
    omega

/-- Every step of a push on its own. -/
theorem PushSolo.step
    (solo :
      PushSolo slots indexMessage flagMessage before op start
        state.buffer state.tail state.headCache state.producer)
    (wide : 1 < slots)
    (small : slots ≤ SizeT.halfRange)
    (indices : Indices slots before)
    (runs : start.After op [])
    (nonempty : 0 < op.operands.length)
    (frame : ProducerFrame before state)
    (admitted : producerAlone indexMessage flagMessage state action)
    (notAnswer : action ≠ .respond)
    (step : ProducerStep slots state action after) :
    PushSolo slots indexMessage flagMessage before op start
      after.buffer after.tail after.headCache after.producer := by
  generalize isBuffer : state.buffer = buffer at solo
  generalize isTail : state.tail = tail at solo
  generalize isCache : state.headCache = cache at solo
  cases step with
  | invoke isAt =>
      rw [isAt] at solo
      cases solo
  | refused isAt reads =>
      rw [isAt] at solo
      simp only [producerAlone, isAt] at admitted
      rw [admitted, frame.closed] at reads
      cases solo with
      | checkClosed cached =>
          simp only [State.atProducer, isBuffer, isTail, isCache]
          exact .closed cached reads
  | admitted isAt reads =>
      rw [isAt] at solo
      simp only [producerAlone, isAt] at admitted
      rw [admitted, frame.closed] at reads
      cases solo with
      | checkClosed cached =>
          simp only [State.atProducer, isBuffer, isTail, isCache]
          exact .checkRoom cached reads
  | room isAt hasRoom =>
      rw [isAt] at solo
      cases solo with
      | checkRoom cached isOpen =>
          rw [isCache, isTail] at hasRoom
          simp only [State.atProducer, isBuffer, isTail, isCache]
          exact .opening indices runs nonempty ⟨isOpen, cached, hasRoom⟩
  | noRoom isAt isFull =>
      rw [isAt] at solo
      cases solo with
      | checkRoom cached isOpen =>
          rw [isCache, isTail] at isFull
          simp only [State.atProducer, isBuffer, isTail, isCache]
          exact .refreshHead cached isOpen isFull
  | refreshedRoom isAt fresh reads hasRoom =>
      rw [isAt] at solo
      simp only [producerAlone, isAt] at admitted
      have newer := Nat.le_trans frame.seen fresh
      rw [admitted] at newer
      rw [admitted, frame.head] at reads
      cases solo with
      | refreshHead cached isOpen isFull =>
          rw [isTail] at hasRoom
          have refreshed := cached.refresh isFull newer reads
          simp only [State.atProducer, State.cacheHead, isBuffer, isTail]
          exact .opening indices runs nonempty ⟨isOpen, refreshed, hasRoom⟩
  | refreshedFull isAt fresh reads isFull =>
      rw [isAt] at solo
      simp only [producerAlone, isAt] at admitted
      have newer := Nat.le_trans frame.seen fresh
      rw [admitted] at newer
      rw [admitted, frame.head] at reads
      cases solo with
      | refreshHead cached isOpen wasFull =>
          rw [isTail] at isFull
          have refreshed := cached.refresh wasFull newer reads
          simp only [State.atProducer, State.cacheHead, isBuffer, isTail]
          exact .afterFull runs refreshed isOpen isFull reads
  | moveIn isAt taken =>
      rw [isAt] at solo
      cases solo with
      | moveIn goes afterOp isIndex more =>
          have bound := (Pusher.count_bounds runs nonempty goes.room).2
          simp only [State.atProducer, State.setSlot, isBuffer, isTail,
            isCache]
          exact .afterMove wide small goes
            (afterOp.move (Nat.lt_of_lt_of_le more bound) taken)
            isIndex more
  | throwIn isAt mayThrow =>
      exact .threw
  | publishTail isAt =>
      rw [isAt] at solo
      cases solo with
      | publishTail goes afterOp isIndex isCount =>
          subst isIndex
          simp only [State.atProducer, State.publishTail, isBuffer, isTail,
            isCache]
          exact .accepted goes afterOp isCount
  | respond isAt =>
      exact absurd rfl notAnswer

end Step

section Call

variable {before last after : State α} {op : Op α}

/-- A whole call that the producer makes on its own. -/
structure ProducerCall
    (slots indexMessage flagMessage : Nat)
    (op : Op α)
    (result : Result α)
    (before after : State α) : Prop where
  runs :
    ∃ during last,
      Run (step? slots) (producerOnly indexMessage flagMessage) before
          (⟨.producer, .invoke op⟩ :: during) last ∧
        (∀ label ∈ during, label.action ≠ .respond) ∧
        last.producer = .returning result ∧
        step? slots last ⟨.producer, .respond⟩ = some after

/-- A call that starts with its closed check, up to its answer. -/
theorem PushSolo.of_run
    (wide : 1 < slots)
    (small : slots ≤ SizeT.halfRange)
    (indices : Indices slots before)
    {start : Pusher α}
    (starts : ProducerPc.start? op = some (.checkClosed start))
    (runs : start.After op [])
    (nonempty : 0 < op.operands.length)
    {during : List (Label α)}
    (run :
      Run (step? slots) (producerOnly indexMessage flagMessage) before
        (⟨.producer, .invoke op⟩ :: during) last)
    (unanswered : ∀ label ∈ during, label.action ≠ .respond) :
    PushSolo slots indexMessage flagMessage before op start
      last.buffer last.tail last.headCache last.producer := by
  obtain ⟨invoked, admittedFirst, takenFirst, rest⟩ := run.uncons
  clear run
  induction rest with
  | start =>
      cases Step.of_step? takenFirst with
      | producer own =>
          cases own with
          | invoke _ starts' =>
              rw [starts] at starts'
              cases starts'
              exact .checkClosed (Or.inl rfl)
  | @snoc _ _ _ label shorter admitted taken inductionHypothesis =>
      rcases label with ⟨agent, action⟩
      have solo := inductionHypothesis fun label member =>
        unanswered label (List.mem_append_left _ member)
      have frame :=
        ProducerFrame.of_run (shorter.cons admittedFirst takenFirst)
      obtain ⟨isProducer, alone⟩ := admitted
      subst isProducer
      cases Step.of_step? taken with
      | producer own =>
          exact solo.step wide small indices runs nonempty frame alone
            (unanswered _ (by simp)) own

end Call

end Producer

section Consumer

variable {slots indexMessage flagMessage : Nat}
variable {leaves : Nat → α → Prop}

/--
The cached tail is the one from before, or it is the one read by a refreshing
load because the one from before did not license the pop.
-/
def TailCached
    (slots indexMessage : Nat)
    (before : State α)
    (start : Popper α)
    (cache : Nat) : Prop :=
  cache = before.tailCache ∨
    start.hasData slots before.tailCache before.head.latest = false ∧
      before.tailSeen ≤ indexMessage ∧
      before.tail.read? indexMessage = some cache

/-- A pop that goes ahead found data. -/
structure PopGoes
    (slots indexMessage : Nat)
    (before : State α)
    (start : Popper α)
    (cache : Nat) : Prop where
  cached : TailCached slots indexMessage before start cache
  data : start.hasData slots cache before.head.latest = true

/-- What was moved out, and what it left in the slots. -/
structure Hollowed
    (slots : Nat)
    (leaves : Nat → α → Prop)
    (before : State α)
    (moved : List α)
    (buffer : Nat → α) : Prop where
  taken :
    moved = Ring.contents slots before.buffer before.poppedTotal moved.length
  left :
    ∃ used,
      used.length = moved.length ∧
        (∀ offset value,
          used[offset]? = some value →
          leaves (before.poppedTotal + offset) value) ∧
        buffer = Ring.written slots before.buffer before.poppedTotal used

/-- The result where nothing was popped. -/
def Popper.failed : Popper α → Result α
  | .pop out _ | .tryPop out => .popped false out
  | .tryPopN out => .poppedN 0 out

/-- Where a pop on its own is, in terms of the state it started in. -/
inductive PopSolo
    (slots indexMessage flagMessage : Nat)
    (leaves : Nat → α → Prop)
    (before : State α)
    (op : Op α)
    (start : Popper α) :
    (Nat → α) → Atomic Publication Nat → Nat → ConsumerPc α → Prop where
  | checkData {cache} {popper : Popper α} :
      TailCached slots indexMessage before start cache →
      popper.After op [] →
      (∀ out,
        popper = .pop out true →
        before.closed.read? flagMessage = some true) →
      PopSolo slots indexMessage flagMessage leaves before op start
        before.buffer before.head cache (.checkData popper)
  | refreshTail {cache} {popper : Popper α} :
      TailCached slots indexMessage before start cache →
      popper.After op [] →
      (∀ out,
        popper = .pop out true →
        before.closed.read? flagMessage = some true) →
      start.hasData slots cache before.head.latest = false →
      PopSolo slots indexMessage flagMessage leaves before op start
        before.buffer before.head cache (.refreshTail popper)
  | popClosed {cache out} :
      TailCached slots indexMessage before start cache →
      op = .pop out →
      PopSolo slots indexMessage flagMessage leaves before op start
        before.buffer before.head cache (.popClosed out)
  | moveOut {cache index buffer} {popper : Popper α} {moved : List α} :
      PopGoes slots indexMessage before start cache →
      popper.After op moved →
      Hollowed slots leaves before moved buffer →
      index = (before.poppedTotal + moved.length) % slots →
      moved.length < start.count slots cache before.head.latest →
      PopSolo slots indexMessage flagMessage leaves before op start
        buffer before.head cache
        (.moveOut popper index moved
          (start.count slots cache before.head.latest))
  | publishHead {cache index buffer} {popper : Popper α} {moved : List α} :
      PopGoes slots indexMessage before start cache →
      popper.After op moved →
      Hollowed slots leaves before moved buffer →
      index = (before.poppedTotal + moved.length) % slots →
      moved.length = start.count slots cache before.head.latest →
      PopSolo slots indexMessage flagMessage leaves before op start
        buffer before.head cache (.publishHead popper index moved)
  | empty {cache} {popper : Popper α} :
      TailCached slots indexMessage before start cache →
      popper.After op [] →
      start.hasData slots cache before.head.latest = false →
      before.tail.read? indexMessage = some cache →
      (op.isBlocking = true →
        before.closed.read? flagMessage = some true) →
      PopSolo slots indexMessage flagMessage leaves before op start
        before.buffer before.head cache (.returning popper.failed)
  | delivered {cache buffer call} {popper : Popper α} {moved : List α} :
      PopGoes slots indexMessage before start cache →
      popper.After op moved →
      Hollowed slots leaves before moved buffer →
      moved.length = start.count slots cache before.head.latest →
      PopSolo slots indexMessage flagMessage leaves before op start
        buffer
        (before.head.store
          ⟨call, before.poppedTotal + moved.length⟩
          ((before.poppedTotal + moved.length) % slots))
        cache
        (.returning (popper.delivered moved.length))
  | threw {buffer head cache out} :
      PopSolo slots indexMessage flagMessage leaves before op start
        buffer head cache (.returning (.popThrew out))

/-- The consumer caches no older message than before. -/
theorem ConsumerStep.tailSeen_le
    {state after : State α}
    {action : Action α}
    (step : ConsumerStep slots state action after) :
    state.tailSeen ≤ after.tailSeen := by
  cases step with
  | refreshedData _ fresh | refreshedEmpty _ fresh => exact fresh
  | _ => exact Nat.le_refl _

/-- What a pop on its own leaves alone. -/
structure ConsumerFrame (before state : State α) : Prop where
  tail : state.tail = before.tail
  closed : state.closed = before.closed
  seen : before.tailSeen ≤ state.tailSeen
  headCache : state.headCache = before.headCache
  producer : state.producer = before.producer
  observers : state.observers = before.observers

/-- What one call and then another leaves alone. -/
theorem ConsumerFrame.trans
    {first second third : State α}
    (sooner : ConsumerFrame first second)
    (later : ConsumerFrame second third) :
    ConsumerFrame first third where
  tail := later.tail.trans sooner.tail
  closed := later.closed.trans sooner.closed
  seen := Nat.le_trans sooner.seen later.seen
  headCache := later.headCache.trans sooner.headCache
  producer := later.producer.trans sooner.producer
  observers := later.observers.trans sooner.observers

/-- The consumer leaves the other side alone. -/
theorem ConsumerFrame.of_run
    {before state : State α}
    {labels : List (Label α)}
    (run :
      Run (step? slots) (consumerOnly indexMessage flagMessage leaves) before
        labels state) :
    ConsumerFrame before state := by
  induction run with
  | start =>
      exact ⟨rfl, rfl, Nat.le_refl _, rfl, rfl, rfl⟩
  | @snoc _ _ _ label _ admitted taken frame =>
      rcases label with ⟨agent, action⟩
      obtain ⟨isConsumer, _⟩ := admitted
      subst isConsumer
      cases Step.of_step? taken with
      | consumer own =>
          refine ⟨own.tail_eq.trans frame.tail,
            own.closed_eq.trans frame.closed,
            Nat.le_trans frame.seen own.tailSeen_le, ?_,
            own.producer_eq.trans frame.producer,
            own.observers_eq.trans frame.observers⟩
          rw [← frame.headCache]
          cases own <;> rfl

section Step

variable {before state after : State α} {op : Op α}
variable {start popper : Popper α} {action : Action α}

/-- All poppers of one call make the same checks. -/
theorem Popper.After.hasData_eq
    {moved : List α}
    (first : start.After op [])
    (second : popper.After op moved)
    (cache head : Nat) :
    popper.hasData slots cache head = start.hasData slots cache head := by
  have kinds := first.1
  have kinds' := second.1
  cases start <;> cases popper <;> cases op <;>
    first
      | rfl
      | exact False.elim kinds
      | exact False.elim kinds'

/-- All poppers of one call move as many elements. -/
theorem Popper.After.count_eq
    {moved : List α}
    (first : start.After op [])
    (second : popper.After op moved)
    (cache head : Nat) :
    popper.count slots cache head = start.count slots cache head := by
  have kinds := first.1
  have kinds' := second.1
  have lengths := first.2.1.trans second.2.1.symm
  cases start <;> cases popper <;> cases op <;>
    first
      | rfl
      | exact False.elim kinds
      | exact False.elim kinds'
      | (simp only [Popper.operands] at lengths
         simp only [Popper.count, lengths])

/-- No pop moves out a whole lap. -/
theorem Popper.count_lt
    (wide : 1 < slots)
    (popper : Popper α)
    (cache head : Nat) :
    popper.count slots cache head < slots := by
  cases popper with
  | pop | tryPop => exact wide
  | tryPopN out =>
      have bound : available slots cache head < slots :=
        Nat.mod_lt _ (Nat.zero_lt_of_lt wide)
      exact Nat.lt_of_le_of_lt (Nat.min_le_right _ _) bound

/-- A refreshing load follows a check that the cached tail failed. -/
theorem TailCached.refresh
    {cache index : Nat}
    (cached : TailCached slots indexMessage before start cache)
    (isEmpty :
      start.hasData slots cache before.head.latest = false)
    (fresh : before.tailSeen ≤ indexMessage)
    (reads : before.tail.read? indexMessage = some index) :
    TailCached slots indexMessage before start index := by
  rcases cached with rfl | ⟨wasEmpty, _⟩
  · exact Or.inr ⟨isEmpty, fresh, reads⟩
  · exact Or.inr ⟨wasEmpty, fresh, reads⟩

/-- One more element moved out. -/
theorem Hollowed.move
    {moved : List α}
    {buffer : Nat → α}
    {husk : α}
    (hollowed : Hollowed slots leaves before moved buffer)
    (room : moved.length < slots)
    (allowed : leaves (before.poppedTotal + moved.length) husk) :
    Hollowed slots leaves before
      (moved ++ [buffer ((before.poppedTotal + moved.length) % slots)])
      (Function.update buffer
        ((before.poppedTotal + moved.length) % slots) husk) := by
  obtain ⟨taken, used, sameLength, isLeft, written⟩ := hollowed
  constructor
  · rw [List.length_append, List.length_singleton, Ring.contents_succ_last,
      ← taken, written, ← sameLength, Ring.written_next (by omega)]
  · refine ⟨used ++ [husk], by simp [sameLength], ?_, ?_⟩
    · intro offset value isValue
      rcases Nat.lt_trichotomy offset used.length with old | isNew | beyond
      · rw [List.getElem?_append_left old] at isValue
        exact isLeft offset value isValue
      · subst isNew
        rw [List.getElem?_concat_length] at isValue
        cases isValue
        rw [sameLength]
        exact allowed
      · rw [List.getElem?_eq_none (by simp; omega)] at isValue
        cases isValue
    · rw [Ring.written_snoc, sameLength, written]

/-- A pop that goes ahead starts at the slot of the released total. -/
theorem PopSolo.opening
    {cache : Nat}
    (indices : Indices slots before)
    (starts : start.After op [])
    (runs : popper.After op [])
    (nonempty : 0 < op.operands.length)
    (goes : PopGoes slots indexMessage before start cache) :
    PopSolo slots indexMessage flagMessage leaves before op start
      before.buffer before.head cache
      (.moveOut popper before.head.latest []
        (popper.count slots cache before.head.latest)) := by
  rw [Popper.After.count_eq starts runs]
  exact .moveOut goes runs
    ⟨rfl, [], rfl, by simp, rfl⟩
    indices.head.latest_eq
    (Popper.count_bounds starts nonempty goes.data).1

/-- A pop that found the ring empty looks for a close or gives up. -/
theorem PopSolo.afterEmpty
    {cache : Nat}
    (runs : popper.After op [])
    (cached : TailCached slots indexMessage before start cache)
    (isEmpty : start.hasData slots cache before.head.latest = false)
    (reads : before.tail.read? indexMessage = some cache)
    (seen :
      ∀ out,
        popper = .pop out true →
        before.closed.read? flagMessage = some true) :
    PopSolo slots indexMessage flagMessage leaves before op start
      before.buffer before.head cache popper.afterEmpty := by
  have sameKind := runs.1
  have sameOut := runs.operands_eq
  rcases popper with ⟨out, _ | _⟩ | out | out
  · refine .popClosed cached ?_
    cases op <;> simp_all [Popper.Runs, Popper.operands, Op.operands]
  · exact .empty cached runs isEmpty reads fun _ => seen out rfl
  · refine .empty cached runs isEmpty reads ?_
    cases op <;> simp_all [Popper.Runs, Op.isBlocking]
  · refine .empty cached runs isEmpty reads ?_
    cases op <;> simp_all [Popper.Runs, Op.isBlocking]

/-- After one more element a pop is at the next slot or publishes. -/
theorem PopSolo.afterMove
    (wide : 1 < slots)
    (small : slots ≤ SizeT.halfRange)
    {cache index : Nat}
    {moved : List α}
    {buffer : Nat → α}
    {value : α}
    (goes : PopGoes slots indexMessage before start cache)
    (afterOp : popper.After op (moved ++ [value]))
    (hollowed : Hollowed slots leaves before (moved ++ [value]) buffer)
    (isIndex : index = (before.poppedTotal + moved.length) % slots)
    (more : moved.length < start.count slots cache before.head.latest) :
    PopSolo slots indexMessage flagMessage leaves before op start
      buffer before.head cache
      (.afterMove slots popper index (moved ++ [value])
        (start.count slots cache before.head.latest)) := by
  have isNext :
      next slots index =
        (before.poppedTotal + (moved ++ [value]).length) % slots := by
    rw [isIndex, next_mod wide small]
    simp [Nat.add_assoc]
  unfold ConsumerPc.afterMove
  split
  · rename_i unfinished
    exact .moveOut goes afterOp hollowed isNext unfinished
  · rename_i finished
    refine .publishHead goes afterOp hollowed isNext ?_
    rw [List.length_append, List.length_singleton] at finished ⊢
    omega

/-- Every step of a pop on its own. -/
theorem PopSolo.step
    (solo :
      PopSolo slots indexMessage flagMessage leaves before op start
        state.buffer state.head state.tailCache state.consumer)
    (wide : 1 < slots)
    (small : slots ≤ SizeT.halfRange)
    (indices : Indices slots before)
    (starts : start.After op [])
    (nonempty : 0 < op.operands.length)
    (frame : ConsumerFrame before state)
    (admitted :
      consumerAlone indexMessage flagMessage leaves state action)
    (notAnswer : action ≠ .respond)
    (step : ConsumerStep slots state action after) :
    PopSolo slots indexMessage flagMessage leaves before op start
      after.buffer after.head after.tailCache after.consumer := by
  generalize isBuffer : state.buffer = buffer at solo
  generalize isHead : state.head = head at solo
  generalize isCache : state.tailCache = cache at solo
  cases step with
  | invoke isAt =>
      rw [isAt] at solo
      cases solo
  | data isAt hasData =>
      rw [isAt] at solo
      cases solo with
      | checkData cached runs seen =>
          rw [isCache, isHead, Popper.After.hasData_eq starts runs] at hasData
          simp only [State.atConsumer, isBuffer, isHead, isCache]
          exact .opening indices starts runs nonempty ⟨cached, hasData⟩
  | noData isAt isEmpty =>
      rw [isAt] at solo
      cases solo with
      | checkData cached runs seen =>
          rw [isCache, isHead, Popper.After.hasData_eq starts runs] at isEmpty
          simp only [State.atConsumer, isBuffer, isHead, isCache]
          exact .refreshTail cached runs seen isEmpty
  | refreshedData isAt fresh reads hasData =>
      rw [isAt] at solo
      simp only [consumerAlone, isAt] at admitted
      have newer := Nat.le_trans frame.seen fresh
      rw [admitted] at newer
      rw [admitted, frame.tail] at reads
      cases solo with
      | refreshTail cached runs seen isEmpty =>
          rw [isHead, Popper.After.hasData_eq starts runs] at hasData
          have refreshed := cached.refresh isEmpty newer reads
          simp only [State.atConsumer, State.cacheTail, isBuffer, isHead]
          exact .opening indices starts runs nonempty ⟨refreshed, hasData⟩
  | refreshedEmpty isAt fresh reads isEmpty =>
      rw [isAt] at solo
      simp only [consumerAlone, isAt] at admitted
      have newer := Nat.le_trans frame.seen fresh
      rw [admitted] at newer
      rw [admitted, frame.tail] at reads
      cases solo with
      | refreshTail cached runs seen wasEmpty =>
          rw [isHead, Popper.After.hasData_eq starts runs] at isEmpty
          have refreshed := cached.refresh wasEmpty newer reads
          simp only [State.atConsumer, State.cacheTail, isBuffer, isHead]
          exact .afterEmpty runs refreshed isEmpty reads seen
  | @popClosed out message flag isAt reads =>
      rw [isAt] at solo
      simp only [consumerAlone, isAt] at admitted
      rw [admitted, frame.closed] at reads
      cases solo with
      | popClosed cached isOp =>
          subst isOp
          simp only [State.atConsumer, State.noteClose, isBuffer, isHead,
            isCache]
          refine .checkData cached ?_ ?_
          · exact ⟨trivial, rfl, rfl, rfl⟩
          · intro _ isSeen
            cases isSeen
            exact reads
  | moveOut isAt =>
      rw [isAt] at solo
      simp only [consumerAlone, isAt, State.poppedTotal, isHead] at admitted
      cases solo with
      | moveOut goes runs hollowed isIndex more =>
          have bound := (Popper.count_bounds starts nonempty goes.data).2
          have room :=
            Nat.lt_trans more
              (start.count_lt wide _ before.head.latest)
          have taken := hollowed.move room admitted
          rw [← isIndex] at taken
          simp only [State.atConsumer, State.setSlot, isBuffer, isHead,
            isCache]
          exact .afterMove wide small goes
            (runs.move (Nat.lt_of_lt_of_le more bound) _) taken isIndex more
  | throwOut isAt mayThrow =>
      exact .threw
  | publishHead isAt =>
      rw [isAt] at solo
      cases solo with
      | publishHead goes runs hollowed isIndex isCount =>
          subst isIndex
          simp only [State.atConsumer, State.publishHead, isBuffer, isHead,
            isCache]
          exact .delivered goes runs hollowed isCount
  | loadClosed isAt =>
      rw [isAt] at solo
      cases solo
  | respond isAt =>
      exact absurd rfl notAnswer

end Step

section Call

variable {before last after : State α} {op : Op α}

/-- A whole call that the consumer makes on its own. -/
structure ConsumerCall
    (slots indexMessage flagMessage : Nat)
    (leaves : Nat → α → Prop)
    (op : Op α)
    (result : Result α)
    (before after : State α) : Prop where
  runs :
    ∃ during last,
      Run (step? slots) (consumerOnly indexMessage flagMessage leaves)
          before (⟨.consumer, .invoke op⟩ :: during) last ∧
        (∀ label ∈ during, label.action ≠ .respond) ∧
        last.consumer = .returning result ∧
        step? slots last ⟨.consumer, .respond⟩ = some after

/-- A call that starts with its check, up to its answer. -/
theorem PopSolo.of_run
    (wide : 1 < slots)
    (small : slots ≤ SizeT.halfRange)
    (indices : Indices slots before)
    {start : Popper α}
    (begins : ConsumerPc.start? op = some (.checkData start))
    (starts : start.After op [])
    (unseen : ∀ out, start ≠ .pop out true)
    (nonempty : 0 < op.operands.length)
    {during : List (Label α)}
    (run :
      Run (step? slots) (consumerOnly indexMessage flagMessage leaves)
        before (⟨.consumer, .invoke op⟩ :: during) last)
    (unanswered : ∀ label ∈ during, label.action ≠ .respond) :
    PopSolo slots indexMessage flagMessage leaves before op start
      last.buffer last.head last.tailCache last.consumer := by
  obtain ⟨invoked, admittedFirst, takenFirst, rest⟩ := run.uncons
  clear run
  induction rest with
  | start =>
      cases Step.of_step? takenFirst with
      | consumer own =>
          cases own with
          | invoke _ begins' =>
              rw [begins] at begins'
              cases begins'
              exact .checkData (Or.inl rfl) starts
                fun out seen => absurd seen (unseen out)
  | @snoc _ _ _ label shorter admitted taken inductionHypothesis =>
      rcases label with ⟨agent, action⟩
      have solo := inductionHypothesis fun label member =>
        unanswered label (List.mem_append_left _ member)
      have frame :=
        ConsumerFrame.of_run (shorter.cons admittedFirst takenFirst)
      obtain ⟨isConsumer, alone⟩ := admitted
      subst isConsumer
      cases Step.of_step? taken with
      | consumer own =>
          exact solo.step wide small indices starts nonempty frame alone
            (unanswered _ (by simp)) own

end Call

end Consumer

end ConcurrentQueue.Spsc
