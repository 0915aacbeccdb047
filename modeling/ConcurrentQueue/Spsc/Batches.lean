import ConcurrentQueue.Spsc.Bulk
import ConcurrentQueue.Spsc.HandOff

namespace ConcurrentQueue.Spsc

/-!
# Batches

What a whole bulk call leaves, in terms of the single calls it stands for, and
the one step that hands its batch over to the other side.
-/

variable {α : Type}

section Calls

variable {slots indexMessage flagMessage : Nat}
variable {before after : State α}

/-- A call that is about to return its first result moves nothing. -/
theorem ProducerStep.only_respond
    {state next : State α}
    {action : Action α}
    {result : Result α}
    (step : ProducerStep slots state action next)
    (returns : state.producer = .returning result) :
    action = .respond := by
  cases step with
  | respond => rfl
  | invoke isAt | refused isAt | admitted isAt | room isAt | noRoom isAt
  | refreshedRoom isAt | refreshedFull isAt | moveIn isAt | throwIn isAt
  | publishTail isAt =>
      rw [isAt] at returns
      cases returns

theorem ConsumerStep.only_respond
    {state next : State α}
    {action : Action α}
    {result : Result α}
    (step : ConsumerStep slots state action next)
    (returns : state.consumer = .returning result) :
    action = .respond := by
  cases step with
  | respond => rfl
  | invoke isAt | data isAt | noData isAt | refreshedData isAt
  | refreshedEmpty isAt | popClosed isAt | moveOut isAt | throwOut isAt
  | publishHead isAt | loadClosed isAt =>
      rw [isAt] at returns
      cases returns

/-- A bulk push that moved nothing. -/
structure PushedNothing
    (before after : State α)
    (items left : List α) : Prop where
  buffer : after.buffer = before.buffer
  tail : after.tail = before.tail
  frame : ProducerFrame before after
  untouched : left = items

/-- A bulk pop that moved nothing. -/
structure PoppedNothing
    (before after : State α)
    (out left : List α) : Prop where
  buffer : after.buffer = before.buffer
  head : after.head = before.head
  frame : ConsumerFrame before after
  untouched : left = out

/-- A `try_push_n` of an empty span returns at once. -/
theorem ProducerCall.nothing
    {count : Nat}
    {left : List α}
    (call :
      ProducerCall slots indexMessage flagMessage (.tryPushN [])
        (.pushedN count left) before after) :
    count = 0 ∧ PushedNothing before after [] left := by
  obtain ⟨labels, whole⟩ := call.run
  have frame := ProducerFrame.of_run whole
  obtain ⟨during, last, run, unanswered, returns, answers⟩ := call.runs
  obtain ⟨invoked, _, taken, rest⟩ := run.uncons
  have opened :
      invoked =
        (before.invoke .producer (.tryPushN [])).atProducer
          (.returning (.pushedN 0 [])) := by
    cases Step.of_step? taken with
    | producer own =>
        cases own with
        | invoke _ starts =>
            cases starts
            rfl
  have still : last = invoked := by
    clear run returns answers
    induction rest with
    | start => rfl
    | @snoc _ _ _ label _ admitted taken inductionHypothesis =>
        have same := inductionHypothesis fun label member =>
          unanswered label (List.mem_append_left _ member)
        rcases label with ⟨agent, action⟩
        obtain ⟨isProducer, _⟩ := admitted
        subst isProducer
        cases Step.of_step? taken with
        | producer own =>
            have responds :=
              own.only_respond (by rw [same, opened]; rfl)
            exact absurd responds (unanswered ⟨_, _⟩ (by simp))
  subst still opened
  cases returns
  cases Step.of_step? answers with
  | producer own =>
      cases own with
      | respond => exact ⟨rfl, rfl, rfl, frame, rfl⟩

/-- A `try_pop_n` into an empty span returns at once. -/
theorem ConsumerCall.nothing
    {leaves : Nat → α → Prop}
    {count : Nat}
    {left : List α}
    (call :
      ConsumerCall slots indexMessage flagMessage leaves (.tryPopN [])
        (.poppedN count left) before after) :
    count = 0 ∧ PoppedNothing before after [] left := by
  obtain ⟨labels, whole⟩ := call.run
  have frame := ConsumerFrame.of_run whole
  obtain ⟨during, last, run, unanswered, returns, answers⟩ := call.runs
  obtain ⟨invoked, _, taken, rest⟩ := run.uncons
  have opened :
      invoked =
        (before.invoke .consumer (.tryPopN [])).atConsumer
          (.returning (.poppedN 0 [])) := by
    cases Step.of_step? taken with
    | consumer own =>
        cases own with
        | invoke _ starts =>
            cases starts
            rfl
  have still : last = invoked := by
    clear run returns answers
    induction rest with
    | start => rfl
    | @snoc _ _ _ label _ admitted taken inductionHypothesis =>
        have same := inductionHypothesis fun label member =>
          unanswered label (List.mem_append_left _ member)
        rcases label with ⟨agent, action⟩
        obtain ⟨isConsumer, _⟩ := admitted
        subst isConsumer
        cases Step.of_step? taken with
        | consumer own =>
            have responds :=
              own.only_respond (by rw [same, opened]; rfl)
            exact absurd responds (unanswered ⟨_, _⟩ (by simp))
  subst still opened
  cases returns
  cases Step.of_step? answers with
  | consumer own =>
      cases own with
      | respond => exact ⟨rfl, rfl, rfl, frame, rfl⟩

end Calls

/-- A bulk push that moved as much as these successful single pushes. -/
structure PushedAsSingles
    (slots indexMessage flagMessage : Nat)
    (before after : State α)
    (items left : List α)
    (count : Nat) : Prop where
  bound : count ≤ items.length
  sameLength : left.length = items.length
  untouched : left.drop count = items.drop count
  singles :
    ∃ single,
      PushCalls slots indexMessage flagMessage before (items.take count)
        single
  alike :
    ∀ single,
      PushCalls slots indexMessage flagMessage before (items.take count)
        single →
      Alike after single

/-- A bulk pop that moved as much as these successful single pops. -/
structure PoppedAsSingles
    (slots indexMessage flagMessage : Nat)
    (husks : Nat → α)
    (before after : State α)
    (out left : List α)
    (count : Nat) : Prop where
  bound : count ≤ out.length
  sameLength : left.length = out.length
  untouched : left.drop count = out.drop count
  singles :
    ∃ single,
      PopCalls slots indexMessage flagMessage (leavesHusk husks) before
        (left.take count) single
  alike :
    ∀ values single,
      values.length = count →
      PopCalls slots indexMessage flagMessage (leavesHusk husks) before
        values single →
      values = left.take count ∧ Alike after single

section Equality

variable [Inhabited α] {slots indexMessage flagMessage count : Nat}
variable {before after : State α} {labels : List (Label α)}

/-- What a `try_push_n` on its own leaves. -/
theorem ProducerCall.batch
    (wide : 1 < slots)
    (small : slots ≤ SizeT.halfRange)
    (reached : Run (step? slots) unrestricted initial labels before)
    {items left : List α}
    (call :
      ProducerCall slots indexMessage flagMessage (.tryPushN items)
        (.pushedN count left) before after) :
    (count = 0 → PushedNothing before after items left) ∧
      (1 ≤ count →
        PushedAsSingles slots indexMessage flagMessage before after items
          left count) := by
  have indices : Indices slots before :=
    Indices.of_run wide small reached
  obtain ⟨own, whole⟩ := call.run
  have frame := ProducerFrame.of_run whole
  rcases items with _ | ⟨first, rest⟩
  · obtain ⟨isZero, nothing⟩ := call.nothing
    exact ⟨fun _ => nothing, by omega⟩
  generalize isItems : first :: rest = items at call
  have nonempty : 0 < items.length := by
    rw [← isItems]
    exact Nat.succ_pos _
  have starts :
      ProducerPc.start? (.tryPushN items) =
        some (.checkClosed (.tryPushN items)) := by
    rw [← isItems]
    rfl
  have runs : (Pusher.tryPushN items).After (.tryPushN items) [] :=
    ⟨trivial, rfl, rfl, rfl⟩
  have solo := call.solo wide small indices starts runs nonempty
  generalize isResult : Result.pushedN count left = result at solo
  generalize isBuffer : after.buffer = buffer at solo
  generalize isTail : after.tail = tail at solo
  generalize isCache : after.headCache = cache at solo
  cases solo with
  | closed | full =>
      cases isResult
      exact ⟨fun _ => ⟨isBuffer, isTail, frame, rfl⟩, by omega⟩
  | threw =>
      cases isResult
  | @accepted cache author pusher moved goes afterOp isCount =>
      obtain ⟨kind, sameLength, isTaken, untouched⟩ := afterOp
      have bounds := Pusher.count_bounds runs nonempty goes.room
      rw [← isCount] at bounds
      cases pusher with
      | push | tryPush => exact False.elim kind
      | tryPushN remaining =>
          cases isResult
          simp only [Op.operands, Pusher.operands]
            at sameLength isTaken untouched bounds
          refine ⟨by omega, fun _ => ?_⟩
          obtain ⟨licensed, isLicensed, ordered, near⟩ :=
            goes.cached.licensed indices
          have fits :
              before.pushedTotal + (items.take moved.length).length ≤
                licensed + (slots - 1) := by
            have room := goes.room
            rw [isLicensed, indices.tail.latest_eq] at room
            have limit := Pusher.count_le wide small ordered near room
            rw [isLicensed, indices.tail.latest_eq] at isCount
            rw [isTaken, isCount]
            exact limit
          obtain ⟨single, calls, _⟩ :=
            exists_pushCalls wide small reached call.idle.1 goes isLicensed
              ordered _ fits
          refine ⟨bounds.2, sameLength, untouched, ⟨single, calls⟩, ?_⟩
          intro single calls
          obtain ⟨leaves, more, run⟩ :=
            calls.leave wide small reached goes isLicensed ordered fits
          have within : Indices slots single :=
            Indices.of_run wide small (reached.append run)
          rw [isTaken] at leaves
          constructor
          · rw [isBuffer, leaves.buffer]
          · rw [frame.head, leaves.frame.head]
          · have published :
                total single.tail = before.pushedTotal + moved.length :=
              leaves.total
            rw [isTail, Atomic.latest_store, within.tail.latest_eq,
              published]
          · rw [isCache]
            rcases leaves.headCache with ⟨nothing, _⟩ | isCached
            · rw [nothing] at bounds
              exact absurd bounds.1 (Nat.lt_irrefl 0)
            · exact isCached.symm
          · rw [frame.tailCache, leaves.frame.tailCache]
          · rw [frame.closed, leaves.frame.closed]

/-- What a `try_pop_n` on its own leaves. -/
theorem ConsumerCall.batch
    (wide : 1 < slots)
    (small : slots ≤ SizeT.halfRange)
    (reached : Run (step? slots) unrestricted initial labels before)
    {husks : Nat → α}
    {out left : List α}
    (call :
      ConsumerCall slots indexMessage flagMessage (leavesHusk husks)
        (.tryPopN out) (.poppedN count left) before after) :
    (count = 0 → PoppedNothing before after out left) ∧
      (1 ≤ count →
        PoppedAsSingles slots indexMessage flagMessage husks before after
          out left count) := by
  have indices : Indices slots before :=
    Indices.of_run wide small reached
  obtain ⟨own, whole⟩ := call.run
  have frame := ConsumerFrame.of_run whole
  rcases out with _ | ⟨first, rest⟩
  · obtain ⟨isZero, nothing⟩ := call.nothing
    exact ⟨fun _ => nothing, by omega⟩
  generalize isOut : first :: rest = out at call
  have nonempty : 0 < out.length := by
    rw [← isOut]
    exact Nat.succ_pos _
  have begins :
      ConsumerPc.start? (.tryPopN out) =
        some (.checkData (.tryPopN out)) := by
    rw [← isOut]
    rfl
  have starts : (Popper.tryPopN out).After (.tryPopN out) [] :=
    ⟨trivial, rfl, rfl, rfl⟩
  have solo :=
    call.solo wide small indices begins starts (by simp) nonempty
  generalize isResult : Result.poppedN count left = result at solo
  generalize isBuffer : after.buffer = buffer at solo
  generalize isHead : after.head = head at solo
  generalize isCache : after.tailCache = cache at solo
  cases solo with
  | @empty _ popper _ runs =>
      have kind := runs.1
      have untouched := runs.operands_eq
      cases popper with
      | pop | tryPop => exact False.elim kind
      | tryPopN =>
          cases isResult
          exact ⟨fun _ => ⟨isBuffer, isHead, frame, untouched⟩, by omega⟩
  | threw =>
      cases isResult
  | @delivered cache buffer author popper moved goes afterOp hollowed
      isCount =>
      obtain ⟨kind, sameLength, isTaken, untouched⟩ := afterOp
      have bounds := Popper.count_bounds starts nonempty goes.data
      rw [← isCount] at bounds
      cases popper with
      | pop | tryPop => exact False.elim kind
      | tryPopN =>
          cases isResult
          simp only [Op.operands, Popper.operands]
            at sameLength isTaken untouched bounds
          refine ⟨by omega, fun _ => ?_⟩
          obtain ⟨licensed, isLicensed, ordered, near⟩ :=
            goes.cached.licensed wide indices
          have fits : before.poppedTotal + moved.length ≤ licensed := by
            have data := goes.data
            rw [isLicensed, indices.head.latest_eq] at data
            have limit := Popper.count_le wide small ordered near data
            rw [isLicensed, indices.head.latest_eq] at isCount
            rw [isCount]
            exact limit
          have agree :
              ∀ values single,
                values.length = moved.length →
                PopCalls slots indexMessage flagMessage (leavesHusk husks)
                  before values single →
                values = left.take moved.length ∧ Alike after single := by
            intro values single sameCount calls
            obtain ⟨leaves, more, run⟩ :=
              calls.leave wide small reached goes isLicensed near
                (by omega)
            have within : Indices slots single :=
              Indices.of_run wide small (reached.append run)
            refine ⟨?_, ?_, ?_, ?_, ?_, ?_, ?_⟩
            · rw [isTaken, leaves.delivered, sameCount, ← hollowed.taken]
            · rw [isBuffer, hollowed.buffer_eq, leaves.buffer, sameCount]
            · have released :
                  total single.head = before.poppedTotal + values.length :=
                leaves.total
              rw [isHead, Atomic.latest_store, within.head.latest_eq,
                released, sameCount]
            · rw [frame.tail, leaves.frame.tail]
            · rw [frame.headCache, leaves.frame.headCache]
            · rw [isCache]
              rcases leaves.tailCache with ⟨nothing, _⟩ | isCached
              · rw [nothing] at sameCount
                rw [← sameCount] at bounds
                exact absurd bounds.1 (Nat.lt_irrefl 0)
              · exact isCached.symm
            · rw [frame.closed, leaves.frame.closed]
          obtain ⟨values, single, isLength, calls, _⟩ :=
            exists_popCalls flagMessage husks wide small reached
              call.idle.1 goes isLicensed near moved.length fits
          have same := (agree values single isLength calls).1
          exact ⟨bounds.2, sameLength, untouched,
            ⟨single, same ▸ calls⟩, agree⟩

end Equality

section Marks

variable {slots : Nat} {state next : State α}
variable {agent : Agent} {action : Action α}

/-- A mark that pushes nothing leaves the elements pushed. -/
theorem pushed_mark
    (log : CallLog Agent (Op α) (Handover α) (Result α))
    (agent : Agent)
    {made : Handover α}
    (pushesNothing : made.pushedValues = []) :
    (log.mark agent made).marks.flatMap Handover.pushedValues =
      log.marks.flatMap Handover.pushedValues := by
  cases isCurrent : log.current agent with
  | none => simp [CallLog.mark, isCurrent]
  | some opened => simp [log.marks_mark isCurrent, pushesNothing]

/-- A mark that pops nothing leaves the elements popped. -/
theorem popped_mark
    (log : CallLog Agent (Op α) (Handover α) (Result α))
    (agent : Agent)
    {made : Handover α}
    (popsNothing : made.poppedValues = []) :
    (log.mark agent made).marks.flatMap Handover.poppedValues =
      log.marks.flatMap Handover.poppedValues := by
  cases isCurrent : log.current agent with
  | none => simp [CallLog.mark, isCurrent]
  | some opened => simp [log.marks_mark isCurrent, popsNothing]

/-- Only the producer's index store pushes elements. -/
theorem Step.pushed_eq
    (step : Step slots state agent action next)
    (notPublication :
      (⟨agent, action⟩ : Label α) ≠ ⟨.producer, .store⟩) :
    next.pushed = state.pushed := by
  unfold State.pushed State.handovers
  cases step with
  | producer own =>
      cases own with
      | publishTail => exact absurd rfl notPublication
      | invoke | respond => simp
      | _ => rfl
  | consumer own =>
      cases own with
      | throwOut | publishHead => exact pushed_mark _ _ rfl
      | invoke | respond => simp
      | _ => rfl
  | observer own =>
      cases own with
      | invoke | respond => simp
      | _ => rfl

/-- Only the consumer's index store pops elements. -/
theorem Step.popped_eq
    (step : Step slots state agent action next)
    (notRelease :
      (⟨agent, action⟩ : Label α) ≠ ⟨.consumer, .store⟩) :
    next.popped = state.popped := by
  unfold State.popped State.handovers
  cases step with
  | producer own =>
      cases own with
      | publishTail => exact popped_mark _ _ rfl
      | invoke | respond => simp
      | _ => rfl
  | consumer own =>
      cases own with
      | publishHead => exact absurd rfl notRelease
      | throwOut => exact popped_mark _ _ rfl
      | invoke | respond => simp
      | _ => rfl
  | observer own =>
      cases own with
      | invoke | respond => simp
      | _ => rfl

end Marks

/-- A side of the queue: only its own store moves its index. -/
structure Side (α : Type) where
  agent : Agent
  index : State α → Atomic Publication Nat
  handed : State α → List α
  mark : List α → Handover α
  kept :
    ∀ {slots state next mover action},
      Step slots state mover action next →
      (⟨mover, action⟩ : Label α) ≠ ⟨agent, .store⟩ →
      index next = index state ∧ handed next = handed state

/-- The producer publishes elements with `tail_`. -/
def pushSide : Side α where
  agent := .producer
  index := State.tail
  handed := State.pushed
  mark := .pushed
  kept step notPublication :=
    ⟨step.tail_eq notPublication, step.pushed_eq notPublication⟩

/-- The consumer releases elements with `head_`. -/
def popSide : Side α where
  agent := .consumer
  index := State.head
  handed := State.popped
  mark := .popped
  kept step notRelease :=
    ⟨step.head_eq notRelease, step.popped_eq notRelease⟩

/--
A run hands over these elements with one store of an index, and at no other
instant: before the store neither the index nor the elements handed over have
changed, after it they stay as the store left them.
-/
def AtOnce
    (slots : Nat)
    (side : Side α)
    (first : State α)
    (labels : List (Label α))
    (moved : List α) : Prop :=
  ∃ sooner later before after author,
    labels = sooner ++ ⟨side.agent, .store⟩ :: later ∧
      Run (step? slots) unrestricted first sooner before ∧
      step? slots before ⟨side.agent, .store⟩ = some after ∧
      author.total = total (side.index first) + moved.length ∧
      (∀ state,
        Passes (step? slots) unrestricted first sooner state →
        side.index state = side.index first ∧
          side.handed state = side.handed first) ∧
      ∀ state,
        Passes (step? slots) unrestricted after later state →
        side.index state =
            (side.index first).store author (author.total % slots) ∧
          side.handed state = side.handed first ++ moved

/-- One store of a side that hands over these elements. -/
structure Hands
    (slots : Nat)
    (side : Side α)
    (moved : List α)
    (before after : State α) : Prop where
  taken : step? slots before ⟨side.agent, .store⟩ = some after
  index :
    ∃ author,
      author.total = total (side.index before) + moved.length ∧
        side.index after =
          (side.index before).store author (author.total % slots)
  handed : side.handed after = side.handed before ++ moved

/-- How far a bulk call is in handing its batch over. -/
inductive BatchProgress
    (slots : Nat)
    (side : Side α)
    (op : Op α)
    (first : State α)
    (labels : List (Label α))
    (state : State α) : Prop where
  | before {call} :
      (∀ label ∈ labels, label ≠ ⟨side.agent, .store⟩) →
      state.log.current side.agent = some ⟨call, op, []⟩ →
      BatchProgress slots side op first labels state
  | after {call sooner later start finish moved} :
      labels = sooner ++ ⟨side.agent, .store⟩ :: later →
      Run (step? slots) unrestricted first sooner start →
      Hands slots side moved start finish →
      (∀ label ∈ sooner ++ later, label ≠ ⟨side.agent, .store⟩) →
      state.log.current side.agent = some ⟨call, op, [side.mark moved]⟩ →
      BatchProgress slots side op first labels state

namespace Side

variable {slots : Nat} {side : Side α}

/-- A run without a store of a side keeps what it has handed over. -/
theorem kept_of_run
    {first last : State α}
    {labels : List (Label α)}
    (run : Run (step? slots) unrestricted first labels last)
    (noStore : ∀ label ∈ labels, label ≠ ⟨side.agent, .store⟩) :
    side.index last = side.index first ∧
      side.handed last = side.handed first := by
  constructor
  · exact run.keeps side.index fun member taken =>
      (side.kept (Step.of_step? taken) (noStore _ member)).1
  · exact run.keeps side.handed fun member taken =>
      (side.kept (Step.of_step? taken) (noStore _ member)).2

/-- At every instant before or after the store. -/
theorem kept_of_passes
    {first state : State α}
    {labels : List (Label α)}
    (passes : Passes (step? slots) unrestricted first labels state)
    (noStore : ∀ label ∈ labels, label ≠ ⟨side.agent, .store⟩) :
    side.index state = side.index first ∧
      side.handed state = side.handed first := by
  obtain ⟨earlier, later, rfl, run⟩ := passes
  exact kept_of_run run fun label member =>
    noStore label (List.mem_append_left _ member)

end Side

namespace BatchProgress

variable {slots : Nat} {side : Side α} {op : Op α}
variable {first state next : State α} {labels : List (Label α)}

/-- A batch that was handed over was handed over at once. -/
theorem atOnce
    {sooner later : List (Label α)}
    {start finish : State α}
    {moved : List α}
    (shape : labels = sooner ++ ⟨side.agent, .store⟩ :: later)
    (run : Run (step? slots) unrestricted first sooner start)
    (hands : Hands slots side moved start finish)
    (noOther :
      ∀ label ∈ sooner ++ later, label ≠ ⟨side.agent, .store⟩) :
    AtOnce slots side first labels moved := by
  have noSooner :
      ∀ label ∈ sooner, label ≠ ⟨side.agent, .store⟩ :=
    fun label member => noOther label (List.mem_append_left _ member)
  have noLater :
      ∀ label ∈ later, label ≠ ⟨side.agent, .store⟩ :=
    fun label member => noOther label (List.mem_append_right _ member)
  obtain ⟨sameIndex, sameHanded⟩ := Side.kept_of_run run noSooner
  obtain ⟨author, isTotal, isIndex⟩ := hands.index
  rw [sameIndex] at isTotal isIndex
  refine ⟨sooner, later, start, finish, author, shape, run, hands.taken,
    isTotal, ?_, ?_⟩
  · exact fun state passes => Side.kept_of_passes passes noSooner
  · intro state passes
    obtain ⟨laterIndex, laterHanded⟩ :=
      Side.kept_of_passes passes noLater
    rw [laterIndex, laterHanded, isIndex, hands.handed, sameHanded]
    exact ⟨rfl, rfl⟩

/-- A step of anybody else changes nothing. -/
theorem other
    (progress : BatchProgress slots side op first labels state)
    (tracked : Tracked state)
    {agent : Agent}
    {action : Action α}
    (different : side.agent ≠ agent)
    (step : Step slots state agent action next) :
    BatchProgress slots side op first (labels ++ [⟨agent, action⟩])
      next := by
  have sameCall := tracked.current_other step different
  have notStore : (⟨agent, action⟩ : Label α) ≠ ⟨side.agent, .store⟩ := by
    intro same
    cases same
    exact different rfl
  cases progress with
  | before noStore isCurrent =>
      refine .before ?_ (sameCall.trans isCurrent)
      intro label member
      rcases List.mem_append.mp member with old | new
      · exact noStore label old
      · rw [List.mem_singleton.mp new]
        exact notStore
  | after shape run hands noOther isCurrent =>
      rename_i call sooner later start finish moved
      subst shape
      have longer :
          sooner ++ ⟨side.agent, .store⟩ :: later ++ [⟨agent, action⟩] =
            sooner ++ ⟨side.agent, .store⟩ ::
              (later ++ [⟨agent, action⟩]) := by
        simp
      refine .after longer run hands ?_ (sameCall.trans isCurrent)
      intro label member
      rw [← List.append_assoc] at member
      rcases List.mem_append.mp member with old | new
      · exact noOther label old
      · rw [List.mem_singleton.mp new]
        exact notStore

/-- A step of the caller that neither stores nor touches the history. -/
theorem silent
    {call : Nat}
    (noStore : ∀ label ∈ labels, label ≠ ⟨side.agent, .store⟩)
    (isCurrent : state.log.current side.agent = some ⟨call, op, []⟩)
    {label : Label α}
    (notStore : label ≠ ⟨side.agent, .store⟩)
    (sameLog : next.log = state.log) :
    BatchProgress slots side op first (labels ++ [label]) next := by
  refine .before ?_ (by rw [sameLog]; exact isCurrent)
  intro other member
  rcases List.mem_append.mp member with old | new
  · exact noStore other old
  · rw [List.mem_singleton.mp new]
    exact notStore

/-- The store of the caller hands its batch over. -/
theorem stored
    (call : Nat)
    {moved : List α}
    (noStore : ∀ label ∈ labels, label ≠ ⟨side.agent, .store⟩)
    (run : Run (step? slots) unrestricted first labels state)
    (hands : Hands slots side moved state next)
    (marked :
      next.log.current side.agent = some ⟨call, op, [side.mark moved]⟩) :
    BatchProgress slots side op first
      (labels ++ [⟨side.agent, .store⟩]) next :=
  .after rfl run hands (by simpa using noStore) marked

/-- A step of the producer in the middle of a bulk push. -/
theorem push_step
    {items : List α}
    (progress :
      BatchProgress slots pushSide (.tryPushN items) first labels state)
    (run : Run (step? slots) unrestricted first labels state)
    (tracked : Tracked state)
    (nextIndices : Indices slots next)
    {action : Action α}
    (notAnswer : action ≠ .respond)
    (step : ProducerStep slots state action next) :
    BatchProgress slots pushSide (.tryPushN items) first
      (labels ++ [⟨.producer, action⟩]) next := by
  have agrees := tracked.producer
  cases progress with
  | @after call sooner later start finish moved _ _ _ _ isCurrent =>
      change state.log.current .producer = _ at isCurrent
      rw [isCurrent] at agrees
      cases step with
      | respond => exact absurd rfl notAnswer
      | invoke isAt | refused isAt | admitted isAt | room isAt | noRoom isAt
      | refreshedRoom isAt | refreshedFull isAt | moveIn isAt
      | throwIn isAt | publishTail isAt =>
          rw [isAt] at agrees
          simp [ProducerPc.Agrees] at agrees
  | @before call noStore isCurrent =>
      have isOpen := isCurrent
      change state.log.current .producer = _ at isOpen
      rw [isOpen] at agrees
      cases step with
      | respond => exact absurd rfl notAnswer
      | invoke isAt =>
          rw [isAt] at agrees
          cases agrees
      | publishTail isAt =>
          rename_i pusher index moved
          have isIndex := nextIndices.tail.latest_eq
          simp only [State.publishTail, State.atProducer,
            Atomic.latest_store, total_store] at isIndex
          have marked :
              ((state.publishTail index moved).atProducer
                  (.returning (pusher.accepted moved.length))).handovers =
                state.handovers ++ [.pushed moved] :=
            state.log.marks_mark isOpen _
          have hands :
              Hands slots pushSide moved state
                ((state.publishTail index moved).atProducer
                  (.returning (pusher.accepted moved.length))) := by
            refine ⟨(ProducerStep.publishTail isAt).taken,
              ⟨⟨state.callOf .producer, total state.tail + moved.length⟩,
                rfl, ?_⟩,
              State.pushed_append marked⟩
            simp only [pushSide, State.publishTail, State.atProducer]
            rw [isIndex]
          refine stored call noStore run hands ?_
          simp [pushSide, State.publishTail, State.atProducer,
            state.log.mark_of_current isOpen]
      | refused | admitted | room | noRoom | refreshedRoom | refreshedFull
      | moveIn | throwIn =>
          exact silent noStore isCurrent (by simp) rfl

/-- A step of the consumer in the middle of a bulk pop. -/
theorem pop_step
    {out : List α}
    (progress :
      BatchProgress slots popSide (.tryPopN out) first labels state)
    (run : Run (step? slots) unrestricted first labels state)
    (tracked : Tracked state)
    (nextIndices : Indices slots next)
    {action : Action α}
    (notAnswer : action ≠ .respond)
    (step : ConsumerStep slots state action next) :
    BatchProgress slots popSide (.tryPopN out) first
      (labels ++ [⟨.consumer, action⟩]) next := by
  have agrees := tracked.consumer
  cases progress with
  | @after call sooner later start finish moved _ _ _ _ isCurrent =>
      change state.log.current .consumer = _ at isCurrent
      rw [isCurrent] at agrees
      cases step with
      | respond => exact absurd rfl notAnswer
      | invoke isAt | data isAt | noData isAt | refreshedData isAt
      | refreshedEmpty isAt | popClosed isAt | moveOut isAt | throwOut isAt
      | publishHead isAt | loadClosed isAt =>
          rw [isAt] at agrees
          simp [ConsumerPc.Agrees] at agrees
  | @before call noStore isCurrent =>
      have isOpen := isCurrent
      change state.log.current .consumer = _ at isOpen
      rw [isOpen] at agrees
      cases step with
      | respond => exact absurd rfl notAnswer
      | invoke isAt =>
          rw [isAt] at agrees
          cases agrees
      | throwOut isAt mayThrow =>
          rename_i popper index moved count slotValue outValue
          rw [isAt] at agrees
          obtain ⟨_, _, isCall, ⟨kind, _⟩, _⟩ := agrees
          cases isCall
          cases popper with
          | pop | tryPop => exact False.elim kind
          | tryPopN => cases mayThrow
      | publishHead isAt =>
          rename_i popper index moved
          have isIndex := nextIndices.head.latest_eq
          simp only [State.publishHead, State.atConsumer,
            Atomic.latest_store, total_store] at isIndex
          have marked :
              ((state.publishHead index moved).atConsumer
                  (.returning (popper.delivered moved.length))).handovers =
                state.handovers ++ [.popped moved] :=
            state.log.marks_mark isOpen _
          have hands :
              Hands slots popSide moved state
                ((state.publishHead index moved).atConsumer
                  (.returning (popper.delivered moved.length))) := by
            refine ⟨(ConsumerStep.publishHead isAt).taken,
              ⟨⟨state.callOf .consumer, total state.head + moved.length⟩,
                rfl, ?_⟩,
              State.popped_append marked⟩
            simp only [popSide, State.publishHead, State.atConsumer]
            rw [isIndex]
          refine stored call noStore run hands ?_
          simp [popSide, State.publishHead, State.atConsumer,
            state.log.mark_of_current isOpen]
      | data | noData | refreshedData | refreshedEmpty | popClosed | moveOut
      | loadClosed =>
          exact silent noStore isCurrent (by simp) rfl

end BatchProgress

section Window

variable [Inhabited α] {slots count : Nat} {items out left : List α}
variable {earlier during : List (Label α)} {invoked last : State α}

/-- How far a bulk push is in handing its batch over. -/
theorem BatchProgress.of_push
    (wide : 1 < slots)
    (small : slots ≤ SizeT.halfRange)
    (window :
      CallWindow slots unrestricted .producer (.tryPushN items) earlier
        during invoked last) :
    BatchProgress slots pushSide (.tryPushN items) invoked during last := by
  refine window.step_induction
    (BatchProgress slots pushSide (.tryPushN items) invoked) ?_ ?_
  · intro idle _ _ opens
    cases Step.of_step? opens with
    | producer own =>
        cases own with
        | invoke => exact .before (by simp) (by simp [pushSide]; rfl)
  · intro labels state label next shorter progress admitted notAnswer taken
    have run := shorter.runs
    have tracked : Tracked state := Tracked.of_run shorter.run
    have indices : Indices slots next :=
      Indices.of_run wide small (shorter.run.snoc admitted taken)
    rcases label with ⟨agent, action⟩
    have step := Step.of_step? taken
    cases step with
    | producer own =>
        refine progress.push_step run tracked indices ?_ own
        rintro rfl
        exact notAnswer rfl
    | consumer | observer =>
        exact progress.other tracked (by simp [pushSide])
          (Step.of_step? taken)

/-- How far a bulk pop is in handing its batch over. -/
theorem BatchProgress.of_pop
    (wide : 1 < slots)
    (small : slots ≤ SizeT.halfRange)
    (window :
      CallWindow slots unrestricted .consumer (.tryPopN out) earlier
        during invoked last) :
    BatchProgress slots popSide (.tryPopN out) invoked during last := by
  refine window.step_induction
    (BatchProgress slots popSide (.tryPopN out) invoked) ?_ ?_
  · intro idle _ _ opens
    cases Step.of_step? opens with
    | consumer own =>
        cases own with
        | invoke => exact .before (by simp) (by simp [popSide]; rfl)
  · intro labels state label next shorter progress admitted notAnswer taken
    have run := shorter.runs
    have tracked : Tracked state := Tracked.of_run shorter.run
    have indices : Indices slots next :=
      Indices.of_run wide small (shorter.run.snoc admitted taken)
    rcases label with ⟨agent, action⟩
    have step := Step.of_step? taken
    cases step with
    | consumer own =>
        refine progress.pop_step run tracked indices ?_ own
        rintro rfl
        exact notAnswer rfl
    | producer | observer =>
        exact progress.other tracked (by simp [popSide])
          (Step.of_step? taken)

/-- Under any interleaving a bulk push publishes its batch at once. -/
theorem publishes_at_once
    (wide : 1 < slots)
    (small : slots ≤ SizeT.halfRange)
    (window :
      CallWindow slots unrestricted .producer (.tryPushN items) earlier
        during invoked last)
    (returns : last.producer = .returning (.pushedN count left))
    (positive : 1 ≤ count) :
    AtOnce slots pushSide invoked during (items.take count) := by
  have tracked : Tracked last := Tracked.of_run window.run
  have agrees := tracked.producer
  rw [returns] at agrees
  obtain ⟨_, _, marks, isOpen, originals, rfl, _, _, _, isMarks⟩ := agrees
  have nonzero : count ≠ 0 := Nat.pos_iff_ne_zero.mp positive
  rw [marksOf, if_neg nonzero] at isMarks
  cases BatchProgress.of_push wide small window with
  | before _ isCurrent =>
      change last.log.current .producer = _ at isCurrent
      rw [isCurrent] at isOpen
      cases isOpen
      cases isMarks
  | after shape run hands noOther isCurrent =>
      change last.log.current .producer = _ at isCurrent
      rw [isCurrent] at isOpen
      cases isOpen
      cases isMarks
      exact BatchProgress.atOnce shape run hands noOther

/-- Under any interleaving a bulk pop releases its batch at once. -/
theorem releases_at_once
    (wide : 1 < slots)
    (small : slots ≤ SizeT.halfRange)
    (window :
      CallWindow slots unrestricted .consumer (.tryPopN out) earlier
        during invoked last)
    (returns : last.consumer = .returning (.poppedN count left))
    (positive : 1 ≤ count) :
    AtOnce slots popSide invoked during (left.take count) := by
  have tracked : Tracked last := Tracked.of_run window.run
  have agrees := tracked.consumer
  rw [returns] at agrees
  obtain ⟨_, _, marks, isOpen, originals, rfl, _, _, _, isMarks⟩ := agrees
  have nonzero : count ≠ 0 := Nat.pos_iff_ne_zero.mp positive
  rw [marksOf, if_neg nonzero] at isMarks
  cases BatchProgress.of_pop wide small window with
  | before _ isCurrent =>
      change last.log.current .consumer = _ at isCurrent
      rw [isCurrent] at isOpen
      cases isOpen
      cases isMarks
  | after shape run hands noOther isCurrent =>
      change last.log.current .consumer = _ at isCurrent
      rw [isCurrent] at isOpen
      cases isOpen
      cases isMarks
      exact BatchProgress.atOnce shape run hands noOther

end Window

/--
What the bulk operations of a ring are in terms of the single ones: a call on
its own moves nothing or leaves what as many successful single calls leave,
and in any interleaving it hands its whole batch over with one store.
-/
structure BulkAsSingles
    (α : Type)
    [Inhabited α]
    (slots : Nat) : Prop where
  push :
    ∀ {labels indexMessage flagMessage count} {items left : List α}
      {before after : State α},
      Run (step? slots) unrestricted initial labels before →
      ProducerCall slots indexMessage flagMessage (.tryPushN items)
        (.pushedN count left) before after →
      (count = 0 → PushedNothing before after items left) ∧
        (1 ≤ count →
          PushedAsSingles slots indexMessage flagMessage before after items
            left count)
  pop :
    ∀ {labels indexMessage flagMessage count} {husks : Nat → α}
      {out left : List α} {before after : State α},
      Run (step? slots) unrestricted initial labels before →
      ConsumerCall slots indexMessage flagMessage (leavesHusk husks)
        (.tryPopN out) (.poppedN count left) before after →
      (count = 0 → PoppedNothing before after out left) ∧
        (1 ≤ count →
          PoppedAsSingles slots indexMessage flagMessage husks before after
            out left count)
  published :
    ∀ {earlier during : List (Label α)} {invoked last : State α} {count}
      {items left : List α},
      CallWindow slots unrestricted .producer (.tryPushN items) earlier
        during invoked last →
      last.producer = .returning (.pushedN count left) →
      1 ≤ count →
      AtOnce slots pushSide invoked during (items.take count)
  released :
    ∀ {earlier during : List (Label α)} {invoked last : State α} {count}
      {out left : List α},
      CallWindow slots unrestricted .consumer (.tryPopN out) earlier during
        invoked last →
      last.consumer = .returning (.poppedN count left) →
      1 ≤ count →
      AtOnce slots popSide invoked during (left.take count)

/-- The bulk operations of a queue that could be constructed. -/
theorem bulk_equals_singles
    [Inhabited α]
    {elementSize capacity slots : Nat}
    (built : ringSlots elementSize capacity = .ok slots) :
    BulkAsSingles α slots := by
  obtain ⟨_, wide, small⟩ := ringSlots_ok built
  exact
    { push := fun reached call => call.batch wide small reached
      pop := fun reached call => call.batch wide small reached
      published := publishes_at_once wide small
      released := releases_at_once wide small }

/-- The steps of a `try_push_n` of three elements into two free slots. -/
def bulkSchedule : List (Label Nat) :=
  [⟨.producer, .load 0⟩, ⟨.producer, .check⟩, ⟨.producer, .move 0⟩,
    ⟨.producer, .move 0⟩, ⟨.producer, .store⟩]

/-- The steps of a `try_pop_n` into three places, with two queued. -/
def bulkPopsSchedule : List (Label Nat) :=
  [⟨.consumer, .check⟩, ⟨.consumer, .load 1⟩, ⟨.consumer, .move 1⟩,
    ⟨.consumer, .move 1⟩, ⟨.consumer, .store⟩]

/-- The same push; in its midst a `try_pop` finds the queue empty. -/
def watchedPushSchedule : List (Label Nat) :=
  [⟨.producer, .load 0⟩, ⟨.producer, .check⟩, ⟨.producer, .move 0⟩,
    ⟨.consumer, .invoke (.tryPop 9)⟩, ⟨.consumer, .check⟩,
    ⟨.producer, .move 0⟩, ⟨.consumer, .load 0⟩, ⟨.producer, .store⟩,
    ⟨.consumer, .respond⟩]

/-- The same pop; in its midst a `try_push` finds the queue full. -/
def watchedPopSchedule : List (Label Nat) :=
  [⟨.consumer, .check⟩, ⟨.consumer, .load 1⟩, ⟨.consumer, .move 1⟩,
    ⟨.producer, .invoke (.tryPush 8)⟩, ⟨.producer, .load 0⟩,
    ⟨.consumer, .move 1⟩, ⟨.producer, .check⟩, ⟨.producer, .load 0⟩,
    ⟨.consumer, .store⟩, ⟨.producer, .respond⟩]

theorem bulk_equals_singles_two :
    ∃ full empty,
      (ProducerCall 3 0 0 (.tryPushN [5, 6, 7]) (.pushedN 2 [0, 0, 7])
            initial full ∧
          PushedAsSingles 3 0 0 initial full [5, 6, 7] [0, 0, 7] 2) ∧
        (ConsumerCall 3 1 0 (leavesHusk fun _ => 1) (.tryPopN [0, 0, 0])
            (.poppedN 2 [5, 6, 0]) full empty ∧
          PoppedAsSingles 3 1 0 (fun _ => 1) full empty [0, 0, 0]
            [5, 6, 0] 2) ∧
        (∃ invoked last,
          CallWindow 3 unrestricted .producer (.tryPushN [5, 6, 7]) []
              watchedPushSchedule invoked last ∧
            AtOnce 3 pushSide invoked watchedPushSchedule [5, 6]) ∧
        ∃ earlier invoked last,
          CallWindow 3 unrestricted .consumer (.tryPopN [0, 0, 0]) earlier
              watchedPopSchedule invoked last ∧
            AtOnce 3 popSide invoked watchedPopSchedule [5, 6] := by
  have replayed :
      ∃ pushLast full popLast empty invoked last,
        replay? (step? 3) (producerOnly 0 0) initial
            (⟨.producer, .invoke (.tryPushN [5, 6, 7])⟩ :: bulkSchedule) =
          some pushLast ∧
        pushLast.producer = .returning (.pushedN 2 [0, 0, 7]) ∧
        step? 3 pushLast ⟨.producer, .respond⟩ = some full ∧
        replay? (step? 3) (consumerOnly 1 0 (leavesHusk fun _ => 1)) full
            (⟨.consumer, .invoke (.tryPopN [0, 0, 0])⟩ ::
              bulkPopsSchedule) =
          some popLast ∧
        popLast.consumer = .returning (.poppedN 2 [5, 6, 0]) ∧
        step? 3 popLast ⟨.consumer, .respond⟩ = some empty ∧
        step? 3 full ⟨.consumer, .invoke (.tryPopN [0, 0, 0])⟩ =
          some invoked ∧
        replay? (step? 3) unrestricted invoked watchedPopSchedule =
          some last ∧
        last.consumer = .returning (.poppedN 2 [5, 6, 0]) :=
    ⟨_, _, _, _, _, _, rfl, rfl, rfl, rfl, rfl, rfl, rfl, rfl, rfl⟩
  have watched :
      ∃ invoked last,
        step? 3 (initial : State Nat)
            ⟨.producer, .invoke (.tryPushN [5, 6, 7])⟩ =
          some invoked ∧
        replay? (step? 3) unrestricted invoked watchedPushSchedule =
          some last ∧
        last.producer = .returning (.pushedN 2 [0, 0, 7]) :=
    ⟨_, _, rfl, rfl, rfl⟩
  obtain ⟨pushLast, full, popLast, empty, popInvoked, watchedPop, pushes,
    pushReturns, pushAnswers, pops, popReturns, popAnswers, popOpens,
    popAccepted, popEnds⟩ := replayed
  obtain ⟨pushInvoked, watchedPush, pushOpens, pushAccepted, pushEnds⟩ :=
    watched
  have built : ringSlots 8 2 = .ok 3 := by
    rfl
  have bulk : BulkAsSingles Nat 3 := bulk_equals_singles built
  have filled :=
    ((Run.of_replay? pushes).mono fun _ _ _ => trivial).snoc trivial
      pushAnswers
  have pushCall :
      ProducerCall 3 0 0 (.tryPushN [5, 6, 7]) (.pushedN 2 [0, 0, 7])
        initial full :=
    ⟨_, pushLast, Run.of_replay? pushes, by decide, pushReturns,
      pushAnswers⟩
  have popCall :
      ConsumerCall 3 1 0 (leavesHusk fun _ => 1) (.tryPopN [0, 0, 0])
        (.poppedN 2 [5, 6, 0]) full empty :=
    ⟨_, popLast, Run.of_replay? pops, by decide, popReturns, popAnswers⟩
  have pushWindow :
      CallWindow 3 unrestricted .producer (.tryPushN [5, 6, 7]) []
        watchedPushSchedule pushInvoked watchedPush :=
    { opens := ⟨_, .start, trivial, pushOpens⟩
      runs := Run.of_replay? pushAccepted
      unclosed := by decide }
  have popWindow :
      CallWindow 3 unrestricted .consumer (.tryPopN [0, 0, 0]) _
        watchedPopSchedule popInvoked watchedPop :=
    { opens := ⟨full, filled, trivial, popOpens⟩
      runs := Run.of_replay? popAccepted
      unclosed := by decide }
  exact ⟨full, empty,
    ⟨pushCall, (bulk.push .start pushCall).2 (by decide)⟩,
    ⟨popCall, (bulk.pop filled popCall).2 (by decide)⟩,
    ⟨_, _, pushWindow, bulk.published pushWindow pushEnds (by decide)⟩,
    ⟨_, _, _, popWindow, bulk.released popWindow popEnds (by decide)⟩⟩

end ConcurrentQueue.Spsc
