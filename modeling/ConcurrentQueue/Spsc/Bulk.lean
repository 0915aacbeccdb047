import ConcurrentQueue.Spsc.Solo

namespace ConcurrentQueue.Spsc

/-!
# Bulk operations against single ones

A bulk push or pop that moves `k` elements leaves the queue as `k` successful
single calls do, if the other side stands still and the loads read the same
messages.  Under any interleaving its elements are handed over in one step.
-/

variable {α : Type}

/-- The members of the queue object that a later call can observe. -/
structure Alike (first second : State α) : Prop where
  buffer : first.buffer = second.buffer
  head : first.head.latest = second.head.latest
  tail : first.tail.latest = second.tail.latest
  headCache : first.headCache = second.headCache
  tailCache : first.tailCache = second.tailCache
  closed : first.closed = second.closed

/-- Successful `try_push` calls of these values, one after the other. -/
inductive PushCalls
    (slots indexMessage flagMessage : Nat)
    (before : State α) :
    List α → State α → Prop where
  | none :
      PushCalls slots indexMessage flagMessage before [] before
  | snoc {values value middle after} :
      PushCalls slots indexMessage flagMessage before values middle →
      ProducerCall slots indexMessage flagMessage (.tryPush value)
        (.pushed true) middle after →
      PushCalls slots indexMessage flagMessage before (values ++ [value])
        after

/-- Successful `try_pop` calls with the values they deliver. -/
inductive PopCalls
    (slots indexMessage flagMessage : Nat)
    (leaves : Nat → α → Prop)
    (before : State α) :
    List α → State α → Prop where
  | none :
      PopCalls slots indexMessage flagMessage leaves before [] before
  | snoc {values out value middle after} :
      PopCalls slots indexMessage flagMessage leaves before values middle →
      ConsumerCall slots indexMessage flagMessage leaves (.tryPop out)
        (.popped true value) middle after →
      PopCalls slots indexMessage flagMessage leaves before
        (values ++ [value]) after

section Push

variable {slots indexMessage flagMessage : Nat}
variable {before middle after : State α}

/-- What a whole call of the producer leaves, answer included. -/
theorem ProducerCall.solo
    (wide : 1 < slots)
    (small : slots ≤ SizeT.halfRange)
    (indices : Indices slots before)
    {op : Op α}
    {result : Result α}
    {start : Pusher α}
    (starts : ProducerPc.start? op = some (.checkClosed start))
    (runs : start.After op [])
    (nonempty : 0 < op.operands.length)
    (call :
      ProducerCall slots indexMessage flagMessage op result before after) :
    PushSolo slots indexMessage flagMessage before op start
      after.buffer after.tail after.headCache (.returning result) := by
  obtain ⟨during, last, run, unanswered, returns, answers⟩ := call.runs
  have solo :=
    PushSolo.of_run wide small indices starts runs nonempty run unanswered
  rw [returns] at solo
  cases Step.of_step? answers with
  | producer own =>
      cases own
      exact solo

/-- A whole call of the producer is a run. -/
theorem ProducerCall.run
    {op : Op α}
    {result : Result α}
    (call :
      ProducerCall slots indexMessage flagMessage op result before after) :
    ∃ labels,
      Run (step? slots) (producerOnly indexMessage flagMessage) before labels
        after := by
  obtain ⟨during, last, run, _, returns, answers⟩ := call.runs
  refine ⟨_, run.snoc ?_ answers⟩
  simp [producerOnly, producerAlone, returns]

/-- After a whole call the producer is idle again. -/
theorem ProducerCall.idle
    {op : Op α}
    {result : Result α}
    (call :
      ProducerCall slots indexMessage flagMessage op result before after) :
    before.producer = .idle ∧ after.producer = .idle := by
  obtain ⟨during, last, run, _, _, answers⟩ := call.runs
  constructor
  · obtain ⟨invoked, _, taken, _⟩ := run.uncons
    cases Step.of_step? taken with
    | producer own =>
        cases own
        assumption
  · cases Step.of_step? answers with
    | producer own =>
        cases own
        rfl

/-- A push that succeeded on its own. -/
theorem PushSolo.succeeded
    {op : Op α}
    {result : Result α}
    {start : Pusher α}
    {buffer : Nat → α}
    {tail : Atomic Publication Nat}
    {cache : Nat}
    (solo :
      PushSolo slots indexMessage flagMessage before op start
        buffer tail cache (.returning result))
    (notRefused : result ≠ start.refused)
    (notThrown : result ≠ .pushThrew) :
    ∃ (call : Nat) (left : Pusher α) (moved : List α),
      PushGoes slots indexMessage flagMessage before start cache ∧
        left.After op moved ∧
        moved.length = start.count slots cache before.tail.latest ∧
        buffer =
          Ring.written slots before.buffer before.pushedTotal moved ∧
        tail =
          before.tail.store ⟨call, before.pushedTotal + moved.length⟩
            ((before.pushedTotal + moved.length) % slots) ∧
        result = left.accepted moved.length := by
  cases solo with
  | accepted goes runs isCount =>
      exact ⟨_, _, _, goes, runs, isCount, rfl, rfl, rfl⟩
  | closed | full => exact absurd rfl notRefused
  | threw => exact absurd rfl notThrown

/-- The total that a usable cached head stands for. -/
theorem HeadCached.licensed
    {start : Pusher α}
    {cache : Nat}
    (cached : HeadCached slots indexMessage before start cache)
    (indices : Indices slots before) :
    ∃ licensed,
      cache = licensed % slots ∧ licensed ≤ before.pushedTotal ∧
        before.pushedTotal ≤ licensed + (slots - 1) := by
  rcases cached with rfl | ⟨_, fresh, reads⟩
  · exact ⟨before.cachedPopped, indices.head.cached,
      indices.cachedPopped_le_pushed, indices.tailAt⟩
  · have refreshed := indices.cacheHead fresh reads
    exact ⟨_, refreshed.head.cached, refreshed.cachedPopped_le_pushed,
      refreshed.tailAt⟩

/-- All pushes make the same check against a head of the ring. -/
theorem HeadCached.hasRoom_eq
    {first : Pusher α}
    {cache : Nat}
    (cached : HeadCached slots indexMessage before first cache)
    (wide : 1 < slots)
    (small : slots ≤ SizeT.halfRange)
    (indices : Indices slots before)
    (second : Pusher α) :
    second.hasRoom slots cache before.tail.latest =
      first.hasRoom slots cache before.tail.latest := by
  obtain ⟨licensed, isCache, ordered, near⟩ := cached.licensed indices
  rw [isCache, indices.tail.latest_eq, Bool.eq_iff_iff]
  exact (second.hasRoom_iff wide small ordered near).trans
    (first.hasRoom_iff wide small ordered near).symm

/-- Two pushes from one state end up with the same cached head. -/
theorem PushGoes.cache_eq
    (wide : 1 < slots)
    (small : slots ≤ SizeT.halfRange)
    {first second : Pusher α}
    {cache other : Nat}
    (indices : Indices slots before)
    (goes : PushGoes slots indexMessage flagMessage before first cache)
    (alsoGoes :
      PushGoes slots indexMessage flagMessage before second other) :
    other = cache := by
  have unchanged :
      HeadCached slots indexMessage before first before.headCache :=
    Or.inl rfl
  have sameCheck :
      second.hasRoom slots before.headCache before.tail.latest =
        first.hasRoom slots before.headCache before.tail.latest :=
    unchanged.hasRoom_eq wide small indices second
  rcases goes.cached with isOld | ⟨wasFull, _, reads⟩ <;>
    rcases alsoGoes.cached with isOld' | ⟨wasFull', _, reads'⟩
  · rw [isOld, isOld']
  · have room := goes.room
    rw [isOld, ← sameCheck, wasFull'] at room
    cases room
  · have room := alsoGoes.room
    rw [isOld', sameCheck, wasFull] at room
    cases room
  · rw [reads] at reads'
    exact (Option.some.inj reads').symm

/-- Where one push may go ahead, any other may. -/
theorem PushGoes.other
    (wide : 1 < slots)
    (small : slots ≤ SizeT.halfRange)
    {first second : Pusher α}
    {cache : Nat}
    (indices : Indices slots before)
    (goes : PushGoes slots indexMessage flagMessage before first cache) :
    PushGoes slots indexMessage flagMessage before second cache := by
  have unchanged :
      HeadCached slots indexMessage before first before.headCache :=
    Or.inl rfl
  refine ⟨goes.isOpen, ?_, ?_⟩
  · rcases goes.cached with isOld | ⟨wasFull, fresh, reads⟩
    · exact Or.inl isOld
    · rw [← unchanged.hasRoom_eq wide small indices second] at wasFull
      exact Or.inr ⟨wasFull, fresh, reads⟩
  · rw [goes.cached.hasRoom_eq wide small indices second]
    exact goes.room

/-- What successful pushes of these values leave. -/
structure AfterPushes
    (slots : Nat)
    (before : State α)
    (cache : Nat)
    (values : List α)
    (after : State α) : Prop where
  frame : ProducerFrame before after
  buffer :
    after.buffer =
      Ring.written slots before.buffer before.pushedTotal values
  total : after.pushedTotal = before.pushedTotal + values.length
  headCache : values = [] ∧ after = before ∨ after.headCache = cache

/-- What one successful `try_push` leaves. -/
theorem ProducerCall.pushed
    (wide : 1 < slots)
    (small : slots ≤ SizeT.halfRange)
    (indices : Indices slots before)
    {value : α}
    (call :
      ProducerCall slots indexMessage flagMessage (.tryPush value)
        (.pushed true) before after) :
    PushGoes slots indexMessage flagMessage before (.tryPush value)
        after.headCache ∧
      after.buffer =
        Ring.written slots before.buffer before.pushedTotal [value] ∧
      after.pushedTotal = before.pushedTotal + 1 := by
  have runs : (Pusher.tryPush value).After (.tryPush value) [] :=
    ⟨trivial, rfl, rfl, rfl⟩
  have solo :=
    call.solo wide small indices rfl runs (Nat.succ_pos _)
  obtain ⟨author, left, moved, goes, afterOp, isCount, isBuffer, isTail,
    _⟩ := solo.succeeded (by simp [Pusher.refused]) (by simp)
  have isOne : moved.length = 1 := isCount
  have isMoved : moved = [value] := by
    rw [← afterOp.2.2.1, isOne]
    rfl
  subst isMoved
  refine ⟨goes, isBuffer, ?_⟩
  simp [State.pushedTotal, isTail]

/-- Successive pushes within one cached window. -/
theorem PushCalls.leave
    [Inhabited α]
    (wide : 1 < slots)
    (small : slots ≤ SizeT.halfRange)
    {labels : List (Label α)}
    (reached : Run (step? slots) unrestricted initial labels before)
    {start : Pusher α}
    {cache licensed : Nat}
    (goes : PushGoes slots indexMessage flagMessage before start cache)
    (isCache : cache = licensed % slots)
    (ordered : licensed ≤ before.pushedTotal)
    {values : List α}
    (calls :
      PushCalls slots indexMessage flagMessage before values after)
    (fits :
      before.pushedTotal + values.length ≤ licensed + (slots - 1)) :
    AfterPushes slots before cache values after ∧
      ∃ more, Run (step? slots) unrestricted before more after := by
  induction calls with
  | none =>
      exact ⟨⟨⟨rfl, rfl, Nat.le_refl _, rfl, rfl, rfl⟩, rfl, rfl,
        Or.inl ⟨rfl, rfl⟩⟩, [], .start⟩
  | @snoc values value middle after _ call inductionHypothesis =>
      rw [List.length_append, List.length_singleton] at fits
      obtain ⟨soFar, more, run⟩ := inductionHypothesis (by omega)
      have indices : Indices slots middle :=
        Indices.of_run wide small (reached.append run)
      obtain ⟨single, isBuffer, isTotal⟩ :=
        call.pushed wide small indices
      obtain ⟨own, ownRun⟩ := call.run
      have frame := ProducerFrame.of_run ownRun
      refine ⟨⟨?_, ?_, ?_, Or.inr ?_⟩, more ++ own,
        run.append ownRun.free⟩
      · exact soFar.frame.trans frame
      · rw [isBuffer, soFar.buffer, soFar.total, Ring.written_append]
      · rw [isTotal, soFar.total, List.length_append,
          List.length_singleton, Nat.add_assoc]
      · rcases soFar.headCache with ⟨_, isBefore⟩ | isCached
        · subst isBefore
          exact goes.cache_eq wide small indices single
        · have near : middle.pushedTotal < licensed + (slots - 1) := by
            rw [soFar.total]
            omega
          have still : licensed ≤ middle.pushedTotal := by
            rw [soFar.total]
            omega
          have room :
              (Pusher.tryPush value).hasRoom slots middle.headCache
                  middle.tail.latest = true := by
            rw [isCached, isCache, indices.tail.latest_eq]
            exact ((Pusher.tryPush value).hasRoom_iff wide small still
              (Nat.le_of_lt near)).mpr near
          rcases single.cached with kept | ⟨refused, _⟩
          · rw [kept, isCached]
          · rw [room] at refused
            cases refused

/-- A `try_push` that found room can move in, publish and return. -/
theorem exists_pushFinish
    (slots indexMessage flagMessage : Nat)
    {state : State α}
    {value : α}
    {index : Nat}
    (isAt : state.producer = .moveIn (.tryPush value) index [] 1) :
    ∃ during last after,
      Run (step? slots) (producerOnly indexMessage flagMessage) state during
          last ∧
        (∀ label ∈ during, label.action ≠ .respond) ∧
        last.producer = .returning (.pushed true) ∧
        step? slots last ⟨.producer, .respond⟩ = some after := by
  let pusher : Pusher α := .tryPush value
  let written :=
    (state.setSlot index value).atProducer
      (.publishTail pusher (next slots index) [value])
  let published :=
    (written.publishTail (next slots index) [value]).atProducer
      (.returning (.pushed true))
  have moves : ProducerStep slots state (.move value) written :=
    .moveIn isAt rfl
  have isWritten :
      written.producer = .publishTail pusher (next slots index) [value] :=
    rfl
  have stores : ProducerStep slots written .store published :=
    .publishTail isWritten
  have answers :
      ProducerStep slots published .respond
        ((published.respond .producer (.pushed true)).atProducer .idle) :=
    .respond rfl
  refine ⟨[⟨.producer, .move value⟩, ⟨.producer, .store⟩], published, _,
    ?_, by simp, rfl, answers.taken⟩
  exact (Run.start.snoc ⟨rfl, by simp [producerAlone, isAt]⟩
    moves.taken).snoc ⟨rfl, trivial⟩ stores.taken

/-- A `try_push` that may go ahead succeeds. -/
theorem exists_pushCall
    {value : α}
    {cache : Nat}
    (idle : before.producer = .idle)
    (goes :
      PushGoes slots indexMessage flagMessage before (.tryPush value)
        cache) :
    ∃ after,
      ProducerCall slots indexMessage flagMessage (.tryPush value)
        (.pushed true) before after := by
  let pusher : Pusher α := .tryPush value
  let invoked :=
    (before.invoke .producer (.tryPush value)).atProducer
      (.checkClosed pusher)
  let checking := invoked.atProducer (.checkRoom pusher)
  have invokes :
      ProducerStep slots before (.invoke (.tryPush value)) invoked :=
    .invoke idle rfl
  have admits : ProducerStep slots invoked (.load flagMessage) checking :=
    .admitted rfl goes.isOpen
  have invoking :
      producerOnly indexMessage flagMessage before
        ⟨.producer, .invoke (.tryPush value)⟩ :=
    ⟨rfl, by simp [producerAlone, idle]⟩
  have loads :
      Run (step? slots) (producerOnly indexMessage flagMessage) invoked
        [⟨.producer, .load flagMessage⟩] checking :=
    Run.start.snoc ⟨rfl, rfl⟩ admits.taken
  rcases goes.cached with isOld | ⟨wasFull, fresh, reads⟩
  · have room := goes.room
    rw [isOld] at room
    have finds :
        ProducerStep slots checking .check
          (checking.atProducer
            (.moveIn pusher checking.tail.latest [] 1)) :=
      .room rfl room
    obtain ⟨during, last, after, run, unanswered, returns, answers⟩ :=
      exists_pushFinish slots indexMessage flagMessage
        (show (checking.atProducer
          (.moveIn pusher checking.tail.latest [] 1)).producer = _ from rfl)
    refine ⟨after, ⟨_, last,
      ((loads.snoc ⟨rfl, trivial⟩ finds.taken).append run).cons invoking
        invokes.taken, ?_, returns, answers⟩⟩
    intro label member
    rcases List.mem_append.mp member with first | later
    · simp at first
      rcases first with rfl | rfl <;> simp
    · exact unanswered label later
  · let refreshing := checking.atProducer (.refreshHead pusher)
    let refreshed := refreshing.cacheHead indexMessage cache
    have misses : ProducerStep slots checking .check refreshing :=
      .noRoom rfl wasFull
    have finds :
        ProducerStep slots refreshing (.load indexMessage)
          (refreshed.atProducer
            (.moveIn pusher refreshed.tail.latest [] 1)) :=
      .refreshedRoom rfl fresh reads goes.room
    have refreshes :
        producerOnly indexMessage flagMessage refreshing
          ⟨.producer, .load indexMessage⟩ :=
      ⟨rfl, rfl⟩
    obtain ⟨during, last, after, run, unanswered, returns, answers⟩ :=
      exists_pushFinish slots indexMessage flagMessage
        (show (refreshed.atProducer
          (.moveIn pusher refreshed.tail.latest [] 1)).producer = _ from rfl)
    refine ⟨after, ⟨_, last,
      (((loads.snoc ⟨rfl, trivial⟩ misses.taken).snoc refreshes
        finds.taken).append run).cons invoking invokes.taken, ?_, returns,
      answers⟩⟩
    intro label member
    rcases List.mem_append.mp member with first | later
    · simp at first
      rcases first with rfl | rfl | rfl <;> simp
    · exact unanswered label later

/-- Where a bulk push may go ahead, as many single pushes succeed. -/
theorem exists_pushCalls
    [Inhabited α]
    (wide : 1 < slots)
    (small : slots ≤ SizeT.halfRange)
    {labels : List (Label α)}
    (reached : Run (step? slots) unrestricted initial labels before)
    (idle : before.producer = .idle)
    {start : Pusher α}
    {cache licensed : Nat}
    (goes : PushGoes slots indexMessage flagMessage before start cache)
    (isCache : cache = licensed % slots)
    (ordered : licensed ≤ before.pushedTotal)
    (values : List α)
    (fits :
      before.pushedTotal + values.length ≤ licensed + (slots - 1)) :
    ∃ after,
      PushCalls slots indexMessage flagMessage before values after ∧
        after.producer = .idle := by
  have indices : Indices slots before :=
    Indices.of_run wide small reached
  induction values using List.reverseRecOn with
  | nil =>
      exact ⟨before, .none, idle⟩
  | append_singleton values value inductionHypothesis =>
      rw [List.length_append, List.length_singleton] at fits
      obtain ⟨middle, calls, isIdle⟩ := inductionHypothesis (by omega)
      obtain ⟨soFar, more, run⟩ :=
        calls.leave wide small reached goes isCache ordered (by omega)
      have within : Indices slots middle :=
        Indices.of_run wide small (reached.append run)
      have isOpen : middle.closed.read? flagMessage = some false := by
        rw [soFar.frame.closed]
        exact goes.isOpen
      have single :
          PushGoes slots indexMessage flagMessage middle (.tryPush value)
            cache := by
        rcases soFar.headCache with ⟨_, isBefore⟩ | isCached
        · subst isBefore
          exact goes.other wide small indices
        · refine ⟨isOpen, Or.inl isCached.symm, ?_⟩
          have near : middle.pushedTotal < licensed + (slots - 1) := by
            rw [soFar.total]
            omega
          have still : licensed ≤ middle.pushedTotal := by
            rw [soFar.total]
            omega
          rw [isCache, within.tail.latest_eq]
          exact ((Pusher.tryPush value).hasRoom_iff wide small still
            (Nat.le_of_lt near)).mpr near
      obtain ⟨after, call⟩ := exists_pushCall isIdle single
      exact ⟨after, .snoc calls call, call.idle.2⟩

end Push

/-- The move out of a position leaves a given value in its slot. -/
def leavesHusk (husks : Nat → α) (position : Nat) (value : α) : Prop :=
  value = husks position

instance
    [DecidableEq α]
    (husks : Nat → α)
    (position : Nat)
    (value : α) :
    Decidable (leavesHusk husks position value) :=
  inferInstanceAs (Decidable (value = husks position))

/-- What the moves out of `count` positions leave. -/
def husksFrom (husks : Nat → α) (start count : Nat) : List α :=
  (List.range count).map fun offset => husks (start + offset)

section Pop

variable {slots indexMessage flagMessage : Nat}
variable {leaves : Nat → α → Prop} {husks : Nat → α}
variable {before middle after : State α}

/-- What a whole call of the consumer leaves, answer included. -/
theorem ConsumerCall.solo
    (wide : 1 < slots)
    (small : slots ≤ SizeT.halfRange)
    (indices : Indices slots before)
    {op : Op α}
    {result : Result α}
    {start : Popper α}
    (begins : ConsumerPc.start? op = some (.checkData start))
    (starts : start.After op [])
    (unseen : ∀ out, start ≠ .pop out true)
    (nonempty : 0 < op.operands.length)
    (call :
      ConsumerCall slots indexMessage flagMessage leaves op result before
        after) :
    PopSolo slots indexMessage flagMessage leaves before op start
      after.buffer after.head after.tailCache (.returning result) := by
  obtain ⟨during, last, run, unanswered, returns, answers⟩ := call.runs
  have solo :=
    PopSolo.of_run wide small indices begins starts unseen nonempty run
      unanswered
  rw [returns] at solo
  cases Step.of_step? answers with
  | consumer own =>
      cases own
      exact solo

/-- A whole call of the consumer is a run. -/
theorem ConsumerCall.run
    {op : Op α}
    {result : Result α}
    (call :
      ConsumerCall slots indexMessage flagMessage leaves op result before
        after) :
    ∃ labels,
      Run (step? slots) (consumerOnly indexMessage flagMessage leaves)
        before labels after := by
  obtain ⟨during, last, run, _, returns, answers⟩ := call.runs
  refine ⟨_, run.snoc ?_ answers⟩
  simp [consumerOnly, consumerAlone, returns]

/-- After a whole call the consumer is idle again. -/
theorem ConsumerCall.idle
    {op : Op α}
    {result : Result α}
    (call :
      ConsumerCall slots indexMessage flagMessage leaves op result before
        after) :
    before.consumer = .idle ∧ after.consumer = .idle := by
  obtain ⟨during, last, run, _, _, answers⟩ := call.runs
  constructor
  · obtain ⟨invoked, _, taken, _⟩ := run.uncons
    cases Step.of_step? taken with
    | consumer own =>
        cases own
        assumption
  · cases Step.of_step? answers with
    | consumer own =>
        cases own
        rfl

/-- A pop that succeeded on its own. -/
theorem PopSolo.succeeded
    {op : Op α}
    {result : Result α}
    {start : Popper α}
    {buffer : Nat → α}
    {head : Atomic Publication Nat}
    {cache : Nat}
    (solo :
      PopSolo slots indexMessage flagMessage leaves before op start
        buffer head cache (.returning result))
    (notFailed : ∀ popper : Popper α, result ≠ popper.failed)
    (notThrown : ∀ out, result ≠ .popThrew out) :
    ∃ (call : Nat) (popper : Popper α) (moved : List α),
      PopGoes slots indexMessage before start cache ∧
        popper.After op moved ∧
        Hollowed slots leaves before moved buffer ∧
        moved.length = start.count slots cache before.head.latest ∧
        head =
          before.head.store ⟨call, before.poppedTotal + moved.length⟩
            ((before.poppedTotal + moved.length) % slots) ∧
        result = popper.delivered moved.length := by
  cases solo with
  | delivered goes runs hollowed isCount =>
      exact ⟨_, _, _, goes, runs, hollowed, isCount, rfl, rfl⟩
  | empty => exact absurd rfl (notFailed _)
  | threw => exact absurd rfl (notThrown _)

/-- The total that a usable cached tail stands for. -/
theorem TailCached.licensed
    {start : Popper α}
    {cache : Nat}
    (cached : TailCached slots indexMessage before start cache)
    (wide : 1 < slots)
    (indices : Indices slots before) :
    ∃ licensed,
      cache = licensed % slots ∧ before.poppedTotal ≤ licensed ∧
        licensed < before.poppedTotal + slots := by
  rcases cached with rfl | ⟨_, fresh, reads⟩
  · exact ⟨before.cachedPushed, indices.tail.cached, indices.headAt,
      indices.cachedPushed_lt wide⟩
  · have refreshed := indices.cacheTail fresh reads
    exact ⟨_, refreshed.tail.cached, refreshed.headAt,
      refreshed.cachedPushed_lt wide⟩

/-- All pops make the same check against a tail of the ring. -/
theorem TailCached.hasData_eq
    {first : Popper α}
    {cache : Nat}
    (cached : TailCached slots indexMessage before first cache)
    (wide : 1 < slots)
    (small : slots ≤ SizeT.halfRange)
    (indices : Indices slots before)
    (second : Popper α) :
    second.hasData slots cache before.head.latest =
      first.hasData slots cache before.head.latest := by
  obtain ⟨licensed, isCache, ordered, near⟩ :=
    cached.licensed wide indices
  rw [isCache, indices.head.latest_eq, Bool.eq_iff_iff]
  exact (second.hasData_iff wide small ordered near).trans
    (first.hasData_iff wide small ordered near).symm

/-- Two pops from one state end up with the same cached tail. -/
theorem PopGoes.cache_eq
    (wide : 1 < slots)
    (small : slots ≤ SizeT.halfRange)
    {first second : Popper α}
    {cache other : Nat}
    (indices : Indices slots before)
    (goes : PopGoes slots indexMessage before first cache)
    (alsoGoes : PopGoes slots indexMessage before second other) :
    other = cache := by
  have unchanged :
      TailCached slots indexMessage before first before.tailCache :=
    Or.inl rfl
  have sameCheck :
      second.hasData slots before.tailCache before.head.latest =
        first.hasData slots before.tailCache before.head.latest :=
    unchanged.hasData_eq wide small indices second
  rcases goes.cached with isOld | ⟨wasEmpty, _, reads⟩ <;>
    rcases alsoGoes.cached with isOld' | ⟨wasEmpty', _, reads'⟩
  · rw [isOld, isOld']
  · have data := goes.data
    rw [isOld, ← sameCheck, wasEmpty'] at data
    cases data
  · have data := alsoGoes.data
    rw [isOld', sameCheck, wasEmpty] at data
    cases data
  · rw [reads] at reads'
    exact (Option.some.inj reads').symm

/-- Where one pop may go ahead, any other may. -/
theorem PopGoes.other
    (wide : 1 < slots)
    (small : slots ≤ SizeT.halfRange)
    {first second : Popper α}
    {cache : Nat}
    (indices : Indices slots before)
    (goes : PopGoes slots indexMessage before first cache) :
    PopGoes slots indexMessage before second cache := by
  have unchanged :
      TailCached slots indexMessage before first before.tailCache :=
    Or.inl rfl
  constructor
  · rcases goes.cached with isOld | ⟨wasEmpty, fresh, reads⟩
    · exact Or.inl isOld
    · rw [← unchanged.hasData_eq wide small indices second] at wasEmpty
      exact Or.inr ⟨wasEmpty, fresh, reads⟩
  · rw [goes.cached.hasData_eq wide small indices second]
    exact goes.data

/-- What the moves left in the slots is determined by their positions. -/
theorem Hollowed.buffer_eq
    {moved : List α}
    {buffer : Nat → α}
    (hollowed : Hollowed slots (leavesHusk husks) before moved buffer) :
    buffer =
      Ring.written slots before.buffer before.poppedTotal
        (husksFrom husks before.poppedTotal moved.length) := by
  obtain ⟨used, sameLength, isLeft, isWritten⟩ := hollowed.left
  have same :
      used = husksFrom husks before.poppedTotal moved.length := by
    refine List.ext_getElem (by simp [husksFrom, sameLength]) ?_
    intro offset inUsed inHusks
    have isHusk :=
      isLeft offset used[offset] (List.getElem?_eq_getElem inUsed)
    simpa [husksFrom, leavesHusk] using isHusk
  rw [isWritten, same]

/-- What successful pops of these values leave. -/
structure AfterPops
    (slots : Nat)
    (husks : Nat → α)
    (before : State α)
    (cache : Nat)
    (values : List α)
    (after : State α) : Prop where
  frame : ConsumerFrame before after
  delivered :
    values =
      Ring.contents slots before.buffer before.poppedTotal values.length
  buffer :
    after.buffer =
      Ring.written slots before.buffer before.poppedTotal
        (husksFrom husks before.poppedTotal values.length)
  total : after.poppedTotal = before.poppedTotal + values.length
  tailCache : values = [] ∧ after = before ∨ after.tailCache = cache

/-- What one successful `try_pop` leaves. -/
theorem ConsumerCall.popped
    (wide : 1 < slots)
    (small : slots ≤ SizeT.halfRange)
    (indices : Indices slots before)
    {out value : α}
    (call :
      ConsumerCall slots indexMessage flagMessage (leavesHusk husks)
        (.tryPop out) (.popped true value) before after) :
    PopGoes slots indexMessage before (.tryPop out) after.tailCache ∧
      value = before.buffer (before.poppedTotal % slots) ∧
      after.buffer =
        Ring.written slots before.buffer before.poppedTotal
          [husks before.poppedTotal] ∧
      after.poppedTotal = before.poppedTotal + 1 := by
  have starts : (Popper.tryPop out).After (.tryPop out) [] :=
    ⟨trivial, rfl, rfl, rfl⟩
  have solo :=
    call.solo wide small indices rfl starts (by simp) (Nat.succ_pos _)
  obtain ⟨author, popper, moved, goes, afterOp, hollowed, isCount, isHead,
    isResult⟩ :=
    solo.succeeded (by rintro (_ | _ | _) <;> simp [Popper.failed]) (by simp)
  have isOne : moved.length = 1 := isCount
  have isMoved : moved = [value] := by
    have kind := afterOp.1
    rw [← afterOp.2.2.1, isOne]
    cases popper with
    | tryPop delivered =>
        simp only [Popper.delivered, Result.popped.injEq,
          true_and] at isResult
        rw [isResult]
        rfl
    | pop => exact False.elim kind
    | tryPopN => exact False.elim kind
  have isTaken := hollowed.taken
  have isBuffer := hollowed.buffer_eq
  subst isMoved
  refine ⟨goes, ?_, isBuffer, ?_⟩
  · simpa [Ring.contents] using isTaken
  · simp [State.poppedTotal, isHead]

/-- Successive pops within one cached window. -/
theorem PopCalls.leave
    [Inhabited α]
    (wide : 1 < slots)
    (small : slots ≤ SizeT.halfRange)
    {labels : List (Label α)}
    (reached : Run (step? slots) unrestricted initial labels before)
    {start : Popper α}
    {cache licensed : Nat}
    (goes : PopGoes slots indexMessage before start cache)
    (isCache : cache = licensed % slots)
    (near : licensed < before.poppedTotal + slots)
    {values : List α}
    (calls :
      PopCalls slots indexMessage flagMessage (leavesHusk husks) before
        values after)
    (fits : before.poppedTotal + values.length ≤ licensed) :
    AfterPops slots husks before cache values after ∧
      ∃ more, Run (step? slots) unrestricted before more after := by
  induction calls with
  | none =>
      exact ⟨⟨⟨rfl, rfl, Nat.le_refl _, rfl, rfl, rfl⟩, rfl, rfl, rfl,
        Or.inl ⟨rfl, rfl⟩⟩, [], .start⟩
  | @snoc values out value middle after _ call inductionHypothesis =>
      rw [List.length_append, List.length_singleton] at fits
      obtain ⟨soFar, more, run⟩ := inductionHypothesis (by omega)
      have indices : Indices slots middle :=
        Indices.of_run wide small (reached.append run)
      obtain ⟨single, isValue, isBuffer, isTotal⟩ :=
        call.popped wide small indices
      obtain ⟨own, ownRun⟩ := call.run
      have frame := ConsumerFrame.of_run ownRun
      have husksLength :
          (husksFrom husks before.poppedTotal values.length).length =
            values.length := by
        simp [husksFrom]
      refine ⟨⟨soFar.frame.trans frame, ?_, ?_, ?_, Or.inr ?_⟩,
        more ++ own, run.append ownRun.free⟩
      · have next :
            Ring.written slots before.buffer before.poppedTotal
                (husksFrom husks before.poppedTotal values.length)
                ((before.poppedTotal +
                  (husksFrom husks before.poppedTotal values.length).length)
                    % slots) =
              before.buffer
                ((before.poppedTotal +
                  (husksFrom husks before.poppedTotal values.length).length)
                    % slots) :=
          Ring.written_next (by omega)
        rw [husksLength] at next
        rw [List.length_append, List.length_singleton,
          Ring.contents_succ_last, ← soFar.delivered, isValue, soFar.buffer,
          soFar.total, next]
      · rw [isBuffer, soFar.buffer, soFar.total, List.length_append,
          List.length_singleton]
        have more :
            husksFrom husks before.poppedTotal (values.length + 1) =
              husksFrom husks before.poppedTotal values.length ++
                [husks (before.poppedTotal + values.length)] := by
          simp [husksFrom, List.range_succ]
        rw [more, Ring.written_append, husksLength]
      · rw [isTotal, soFar.total, List.length_append,
          List.length_singleton, Nat.add_assoc]
      · rcases soFar.tailCache with ⟨_, isBefore⟩ | isCached
        · subst isBefore
          exact goes.cache_eq wide small indices single
        · have ahead : middle.poppedTotal < licensed := by
            rw [soFar.total]
            omega
          have within : licensed < middle.poppedTotal + slots := by
            rw [soFar.total]
            omega
          have data :
              (Popper.tryPop out).hasData slots middle.tailCache
                  middle.head.latest = true := by
            rw [isCached, isCache, indices.head.latest_eq]
            exact ((Popper.tryPop out).hasData_iff wide small
              (Nat.le_of_lt ahead) within).mpr ahead
          rcases single.cached with kept | ⟨refused, _⟩
          · rw [kept, isCached]
          · rw [data] at refused
            cases refused

/-- A `try_pop` that found data can move out, publish and return. -/
theorem exists_popFinish
    (slots indexMessage flagMessage : Nat)
    {state : State α}
    {out husk : α}
    {index : Nat}
    (isAt : state.consumer = .moveOut (.tryPop out) index [] 1)
    (allowed : leaves state.poppedTotal husk) :
    ∃ during last after,
      Run (step? slots) (consumerOnly indexMessage flagMessage leaves) state
          during last ∧
        (∀ label ∈ during, label.action ≠ .respond) ∧
        last.consumer = .returning (.popped true (state.buffer index)) ∧
        step? slots last ⟨.consumer, .respond⟩ = some after := by
  let value := state.buffer index
  let popper : Popper α := .tryPop value
  let emptied :=
    (state.setSlot index husk).atConsumer
      (.publishHead popper (next slots index) [value])
  let released :=
    (emptied.publishHead (next slots index) [value]).atConsumer
      (.returning (.popped true value))
  have moves : ConsumerStep slots state (.move husk) emptied :=
    .moveOut isAt
  have isEmptied :
      emptied.consumer = .publishHead popper (next slots index) [value] :=
    rfl
  have stores : ConsumerStep slots emptied .store released :=
    .publishHead isEmptied
  have answers :
      ConsumerStep slots released .respond
        ((released.respond .consumer (.popped true value)).atConsumer
          .idle) :=
    .respond rfl
  refine ⟨[⟨.consumer, .move husk⟩, ⟨.consumer, .store⟩], released, _,
    ?_, by simp, rfl, answers.taken⟩
  have moving :
      consumerOnly indexMessage flagMessage leaves state
        ⟨.consumer, .move husk⟩ :=
    ⟨rfl, by simpa [consumerAlone, isAt] using allowed⟩
  exact (Run.start.snoc moving moves.taken).snoc ⟨rfl, trivial⟩
    stores.taken

/-- A `try_pop` that may go ahead succeeds. -/
theorem exists_popCall
    {flagMessage : Nat}
    {out husk : α}
    {cache : Nat}
    (idle : before.consumer = .idle)
    (allowed : leaves before.poppedTotal husk)
    (goes : PopGoes slots indexMessage before (.tryPop out) cache) :
    ∃ value after,
      ConsumerCall slots indexMessage flagMessage leaves (.tryPop out)
        (.popped true value) before after := by
  let popper : Popper α := .tryPop out
  let invoked :=
    (before.invoke .consumer (.tryPop out)).atConsumer (.checkData popper)
  have invokes :
      ConsumerStep slots before (.invoke (.tryPop out)) invoked :=
    .invoke idle rfl
  have invoking :
      consumerOnly indexMessage flagMessage leaves before
        ⟨.consumer, .invoke (.tryPop out)⟩ :=
    ⟨rfl, by simp [consumerAlone, idle]⟩
  rcases goes.cached with isOld | ⟨wasEmpty, fresh, reads⟩
  · have data := goes.data
    rw [isOld] at data
    let found :=
      invoked.atConsumer (.moveOut popper invoked.head.latest [] 1)
    have finds : ConsumerStep slots invoked .check found :=
      .data rfl data
    have isFound :
        found.consumer = .moveOut popper invoked.head.latest [] 1 :=
      rfl
    obtain ⟨during, last, after, run, unanswered, returns, answers⟩ :=
      exists_popFinish slots indexMessage flagMessage isFound allowed
    refine ⟨_, after, ⟨_, last,
      ((Run.start.snoc ⟨rfl, trivial⟩ finds.taken).append run).cons invoking
        invokes.taken, ?_, returns, answers⟩⟩
    intro label member
    rcases List.mem_append.mp member with first | later
    · simp at first
      simp [first]
    · exact unanswered label later
  · let refreshing := invoked.atConsumer (.refreshTail popper)
    let refreshed := refreshing.cacheTail indexMessage cache
    let found :=
      refreshed.atConsumer (.moveOut popper refreshed.head.latest [] 1)
    have misses : ConsumerStep slots invoked .check refreshing :=
      .noData rfl wasEmpty
    have finds :
        ConsumerStep slots refreshing (.load indexMessage) found :=
      .refreshedData rfl fresh reads goes.data
    have refreshes :
        consumerOnly indexMessage flagMessage leaves refreshing
          ⟨.consumer, .load indexMessage⟩ :=
      ⟨rfl, rfl⟩
    have isFound :
        found.consumer = .moveOut popper refreshed.head.latest [] 1 :=
      rfl
    obtain ⟨during, last, after, run, unanswered, returns, answers⟩ :=
      exists_popFinish slots indexMessage flagMessage isFound allowed
    refine ⟨_, after, ⟨_, last,
      (((Run.start.snoc ⟨rfl, trivial⟩ misses.taken).snoc refreshes
        finds.taken).append run).cons invoking invokes.taken, ?_, returns,
      answers⟩⟩
    intro label member
    rcases List.mem_append.mp member with first | later
    · simp at first
      rcases first with rfl | rfl <;> simp
    · exact unanswered label later

/-- Where a bulk pop may go ahead, as many single pops succeed. -/
theorem exists_popCalls
    [Inhabited α]
    (flagMessage : Nat)
    (husks : Nat → α)
    (wide : 1 < slots)
    (small : slots ≤ SizeT.halfRange)
    {labels : List (Label α)}
    (reached : Run (step? slots) unrestricted initial labels before)
    (idle : before.consumer = .idle)
    {start : Popper α}
    {cache licensed : Nat}
    (goes : PopGoes slots indexMessage before start cache)
    (isCache : cache = licensed % slots)
    (near : licensed < before.poppedTotal + slots)
    (count : Nat)
    (fits : before.poppedTotal + count ≤ licensed) :
    ∃ values after,
      values.length = count ∧
        PopCalls slots indexMessage flagMessage (leavesHusk husks) before
          values after ∧
        after.consumer = .idle := by
  have indices : Indices slots before :=
    Indices.of_run wide small reached
  induction count with
  | zero =>
      exact ⟨[], before, rfl, .none, idle⟩
  | succ count inductionHypothesis =>
      obtain ⟨values, middle, isCount, calls, isIdle⟩ :=
        inductionHypothesis (by omega)
      subst isCount
      obtain ⟨soFar, more, run⟩ :=
        calls.leave wide small reached goes isCache near (by omega)
      have within : Indices slots middle :=
        Indices.of_run wide small (reached.append run)
      have single :
          PopGoes slots indexMessage middle (.tryPop default) cache := by
        rcases soFar.tailCache with ⟨_, isBefore⟩ | isCached
        · subst isBefore
          exact goes.other wide small indices
        · refine ⟨Or.inl isCached.symm, ?_⟩
          have ahead : middle.poppedTotal < licensed := by
            rw [soFar.total]
            omega
          have still : licensed < middle.poppedTotal + slots := by
            rw [soFar.total]
            omega
          rw [isCache, within.head.latest_eq]
          exact ((Popper.tryPop default).hasData_iff wide small
            (Nat.le_of_lt ahead) still).mpr ahead
      have allowed :
          leavesHusk husks middle.poppedTotal (husks middle.poppedTotal) :=
        rfl
      obtain ⟨value, after, call⟩ :
          ∃ value after,
            ConsumerCall slots indexMessage flagMessage (leavesHusk husks)
              (.tryPop default) (.popped true value) middle after :=
        exists_popCall isIdle allowed single
      exact ⟨values ++ [value], after, by simp, .snoc calls call,
        call.idle.2⟩

end Pop

end ConcurrentQueue.Spsc
