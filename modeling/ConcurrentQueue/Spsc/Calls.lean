import ConcurrentQueue.Spsc.Steps

namespace ConcurrentQueue.Spsc

/-!
# Calls and the elements they hand over

The history of a run agrees with the program counters: a call that is moving
elements has its operands partly replaced, and a call that is about to return
has marked exactly the elements its result speaks of.
-/

variable {α : Type}

/-- The mark left by a handover, if anything was handed over. -/
def marksOf (count : Nat) (handover : Handover α) : List (Handover α) :=
  if count = 0 then [] else [handover]

/-- The results a call may return with the marks it has made. -/
def Answers (op : Op α) (marks : List (Handover α)) : Result α → Prop
  | .pushed true =>
      ∃ value,
        (op = .push value ∨ op = .tryPush value) ∧
          marks = [.pushed [value]]
  | .pushed false =>
      (∃ value, op = .push value ∨ op = .tryPush value) ∧ marks = []
  | .pushedN count items =>
      ∃ originals,
        op = .tryPushN originals ∧ items.length = originals.length ∧
          items.drop count = originals.drop count ∧
          count ≤ originals.length ∧
          marks = marksOf count (.pushed (originals.take count))
  | .popped true out =>
      (∃ before, op = .pop before ∨ op = .tryPop before) ∧
        marks = [.popped [out]]
  | .popped false out =>
      (op = .pop out ∨ op = .tryPop out) ∧ marks = []
  | .poppedN count out =>
      ∃ before,
        op = .tryPopN before ∧ out.length = before.length ∧
          out.drop count = before.drop count ∧
          count ≤ out.length ∧
          marks = marksOf count (.popped (out.take count))
  | .pushThrew =>
      (∃ value, op = .push value ∨ op = .tryPush value) ∧ marks = []
  | .popThrew _ =>
      (∃ before, op = .pop before ∨ op = .tryPop before) ∧
        marks = [.spoiled]
  | .done => op = .close ∧ marks = []
  | .closed _ => op = .closed ∧ marks = []
  | .size _ => op = .size ∧ marks = []
  | .capacity _ => op = .capacity ∧ marks = []

namespace Pusher

/-- The values a call of the producer still holds, husks included. -/
def operands : Pusher α → List α
  | .push value | .tryPush value => [value]
  | .tryPushN items => items

/-- The member function that a call of the producer runs. -/
def Runs : Pusher α → Op α → Prop
  | .push _, .push _ => True
  | .tryPush _, .tryPush _ => True
  | .tryPushN _, .tryPushN _ => True
  | _, _ => False

/-- The call has moved its first operands and holds the others untouched. -/
def After (pusher : Pusher α) (op : Op α) (moved : List α) : Prop :=
  pusher.Runs op ∧
    pusher.operands.length = op.operands.length ∧
    op.operands.take moved.length = moved ∧
    pusher.operands.drop moved.length =
      op.operands.drop moved.length

variable {pusher left : Pusher α} {op : Op α} {moved : List α}

/-- Before anything is moved the operands are those of the call. -/
theorem After.operands_eq
    (after : pusher.After op []) :
    pusher.operands = op.operands := by
  simpa using after.2.2.2

/-- Moved elements are a part of the operands. -/
theorem After.length_le
    (after : pusher.After op moved) :
    moved.length ≤ op.operands.length := by
  have taken := congrArg List.length after.2.2.1
  rw [List.length_take] at taken
  omega

/-- What `take?` takes and what it leaves. -/
theorem take?_spec
    {index : Nat}
    {husk value : α}
    (inBounds : index < pusher.operands.length)
    (taken : pusher.take? index husk = some (value, left)) :
    pusher.operands[index]? = some value ∧
      left.operands = pusher.operands.set index husk ∧
      ∀ op, pusher.Runs op → left.Runs op := by
  cases pusher with
  | push before | tryPush before =>
      simp only [operands, List.length_singleton, Nat.lt_one_iff]
        at inBounds
      subst inBounds
      simp only [take?, Option.some.injEq, Prod.mk.injEq] at taken
      obtain ⟨rfl, rfl⟩ := taken
      refine ⟨rfl, rfl, ?_⟩
      intro op runs
      cases op <;> simp_all [Runs]
  | tryPushN items =>
      obtain ⟨found, isFound, shape⟩ := Option.map_eq_some_iff.mp taken
      simp only [Prod.mk.injEq] at shape
      obtain ⟨rfl, rfl⟩ := shape
      refine ⟨isFound, rfl, ?_⟩
      intro op runs
      cases op <;> simp_all [Runs]

/-- Taking one more element moves one more operand. -/
theorem After.move
    {husk value : α}
    (after : pusher.After op moved)
    (inBounds : moved.length < op.operands.length)
    (taken : pusher.take? moved.length husk = some (value, left)) :
    left.After op (moved ++ [value]) := by
  obtain ⟨runs, sameLength, isTaken, untouched⟩ := after
  obtain ⟨isValue, leaves, stillRuns⟩ :=
    take?_spec (by omega) taken
  have original : op.operands[moved.length]? = some value := by
    have first := congrArg (fun items => items[0]?) untouched
    simp only [List.getElem?_drop, Nat.add_zero] at first
    rw [← first]
    exact isValue
  refine ⟨stillRuns op runs, ?_, ?_, ?_⟩
  · rw [leaves, List.length_set, sameLength]
  · rw [List.length_append, List.length_singleton,
      List.take_add_one, isTaken, original]
    rfl
  · have rest := congrArg (List.drop 1) untouched
    simp only [List.drop_drop] at rest
    rw [leaves, List.length_append, List.length_singleton,
      List.drop_set_of_lt (by omega)]
    exact rest

end Pusher

namespace Popper

/-- The variables a call of the consumer moves into. -/
def operands : Popper α → List α
  | .pop out _ | .tryPop out => [out]
  | .tryPopN out => out

/-- The member function that a call of the consumer runs. -/
def Runs : Popper α → Op α → Prop
  | .pop _ _, .pop _ => True
  | .tryPop _, .tryPop _ => True
  | .tryPopN _, .tryPopN _ => True
  | _, _ => False

/-- The call has filled its first variables and left the others untouched. -/
def After (popper : Popper α) (op : Op α) (moved : List α) : Prop :=
  popper.Runs op ∧
    popper.operands.length = op.operands.length ∧
    popper.operands.take moved.length = moved ∧
    popper.operands.drop moved.length =
      op.operands.drop moved.length

variable {popper : Popper α} {op : Op α} {moved : List α}

theorem After.operands_eq
    (after : popper.After op []) :
    popper.operands = op.operands := by
  simpa using after.2.2.2

theorem After.length_le
    (after : popper.After op moved) :
    moved.length ≤ op.operands.length := by
  have taken := congrArg List.length after.2.2.1
  have sameLength := after.2.1
  rw [List.length_take] at taken
  omega

/-- What `receive` fills. -/
theorem operands_receive
    {index : Nat}
    (inBounds : index < popper.operands.length)
    (value : α) :
    (popper.receive index value).operands =
      popper.operands.set index value := by
  cases popper with
  | pop | tryPop =>
      simp only [operands, List.length_singleton, Nat.lt_one_iff]
        at inBounds
      subst inBounds
      rfl
  | tryPopN =>
      rfl

theorem runs_receive
    (index : Nat)
    (value : α)
    (runs : popper.Runs op) :
    (popper.receive index value).Runs op := by
  cases popper <;> cases op <;> simp_all [Runs, receive]

/-- Receiving one more element fills one more variable. -/
theorem After.move
    (after : popper.After op moved)
    (inBounds : moved.length < op.operands.length)
    (value : α) :
    (popper.receive moved.length value).After op (moved ++ [value]) := by
  obtain ⟨runs, sameLength, isTaken, untouched⟩ := after
  refine ⟨runs_receive _ _ runs, ?_, ?_, ?_⟩
  · rw [operands_receive (by omega), List.length_set, sameLength]
  · rw [operands_receive (by omega), List.length_append,
      List.length_singleton, List.take_add_one,
      List.take_set_of_le (Nat.le_refl _), isTaken,
      List.getElem?_set_self (by omega)]
    rfl
  · have rest := congrArg (List.drop 1) untouched
    simp only [List.drop_drop] at rest
    rw [operands_receive (by omega), List.length_append,
      List.length_singleton, List.drop_set_of_lt (by omega)]
    exact rest

end Popper

/-- A call in progress. -/
abbrev Opened (α : Type) :=
  Option (OpenCall (Op α) (Handover α))

/-- A call in progress whose result is decided. -/
def Decided (opened : Opened α) (result : Result α) : Prop :=
  ∃ call op marks,
    opened = some ⟨call, op, marks⟩ ∧ Answers op marks result

/-- The call in progress that the producer's program counter stands for. -/
def ProducerPc.Agrees (opened : Opened α) : ProducerPc α → Prop
  | .idle => opened = none
  | .checkClosed pusher | .checkRoom pusher | .refreshHead pusher =>
      ∃ call op,
        opened = some ⟨call, op, []⟩ ∧ pusher.After op [] ∧
          0 < op.operands.length
  | .moveIn pusher _ moved count =>
      ∃ call op,
        opened = some ⟨call, op, []⟩ ∧ pusher.After op moved ∧
          moved.length < count ∧ count ≤ op.operands.length
  | .publishTail pusher _ moved =>
      ∃ call op,
        opened = some ⟨call, op, []⟩ ∧ pusher.After op moved ∧
          0 < moved.length
  | .returning result => Decided opened result

/-- The call in progress that the consumer's program counter stands for. -/
def ConsumerPc.Agrees (opened : Opened α) : ConsumerPc α → Prop
  | .idle => opened = none
  | .checkData popper | .refreshTail popper =>
      ∃ call op,
        opened = some ⟨call, op, []⟩ ∧ popper.After op [] ∧
          0 < op.operands.length
  | .popClosed out =>
      ∃ call, opened = some ⟨call, .pop out, []⟩
  | .moveOut popper _ moved count =>
      ∃ call op,
        opened = some ⟨call, op, []⟩ ∧ popper.After op moved ∧
          moved.length < count ∧ count ≤ op.operands.length
  | .publishHead popper _ moved =>
      ∃ call op,
        opened = some ⟨call, op, []⟩ ∧ popper.After op moved ∧
          0 < moved.length
  | .loadClosed => ∃ call, opened = some ⟨call, .closed, []⟩
  | .returning result => Decided opened result

/-- The call in progress that an observer's program counter stands for. -/
def ObserverPc.Agrees (opened : Opened α) : ObserverPc α → Prop
  | .idle => opened = none
  | .storeClosed => ∃ call, opened = some ⟨call, .close, []⟩
  | .loadClosed => ∃ call, opened = some ⟨call, .closed, []⟩
  | .sizeHead | .sizeTail _ => ∃ call, opened = some ⟨call, .size, []⟩
  | .returning result => Decided opened result

section Agreement

variable {call : Nat} {op : Op α} {moved : List α}

theorem ProducerPc.agrees_start?
    {pc : ProducerPc α}
    (starts : ProducerPc.start? op = some pc) :
    pc.Agrees (some ⟨call, op, []⟩) := by
  cases op with
  | push | tryPush =>
      cases starts
      exact ⟨call, _, rfl, ⟨trivial, rfl, rfl, rfl⟩, Nat.one_pos⟩
  | tryPushN items =>
      cases starts
      cases items with
      | nil => exact ⟨call, _, [], rfl, [], rfl, by simp [marksOf]⟩
      | cons first rest =>
          exact ⟨call, _, rfl, ⟨trivial, rfl, rfl, rfl⟩, Nat.succ_pos _⟩
  | _ =>
      cases starts

theorem ConsumerPc.agrees_start?
    {pc : ConsumerPc α}
    (starts : ConsumerPc.start? op = some pc) :
    pc.Agrees (some ⟨call, op, []⟩) := by
  cases op with
  | pop | tryPop =>
      cases starts
      exact ⟨call, _, rfl, ⟨trivial, rfl, rfl, rfl⟩, Nat.one_pos⟩
  | tryPopN out =>
      cases starts
      cases out with
      | nil => exact ⟨call, _, [], rfl, [], rfl, by simp [marksOf]⟩
      | cons first rest =>
          exact ⟨call, _, rfl, ⟨trivial, rfl, rfl, rfl⟩, Nat.succ_pos _⟩
  | closed =>
      cases starts
      exact ⟨call, rfl⟩
  | _ =>
      cases starts

theorem ObserverPc.agrees_start?
    {slots : Nat}
    {pc : ObserverPc α}
    (starts : ObserverPc.start? slots op = some pc) :
    pc.Agrees (some ⟨call, op, []⟩) := by
  cases op with
  | close | closed | size =>
      cases starts
      exact ⟨call, rfl⟩
  | capacity =>
      cases starts
      exact ⟨call, _, [], rfl, rfl, rfl⟩
  | _ =>
      cases starts

/-- A push that was refused handed nothing over. -/
theorem Pusher.answers_refused
    {pusher : Pusher α}
    (after : pusher.After op []) :
    Answers op [] pusher.refused := by
  have sameOperands := after.operands_eq
  have runs := after.1
  cases pusher <;> cases op <;>
    simp_all [Pusher.Runs, Pusher.refused, Answers, marksOf,
      Pusher.operands, Op.operands]

/-- A push that found the ring full handed nothing over. -/
theorem Pusher.agrees_afterFull
    {pusher : Pusher α}
    (after : pusher.After op [])
    (nonempty : 0 < op.operands.length) :
    pusher.afterFull.Agrees (some ⟨call, op, []⟩) := by
  have answers := pusher.answers_refused after
  cases pusher with
  | push value => exact ⟨call, op, rfl, after, nonempty⟩
  | tryPush value => exact ⟨call, op, [], rfl, answers⟩
  | tryPushN items => exact ⟨call, op, [], rfl, answers⟩

/-- A push that published handed over what it had moved. -/
theorem Pusher.answers_accepted
    {pusher : Pusher α}
    (after : pusher.After op moved)
    (nonempty : 0 < moved.length) :
    Answers op [.pushed moved] (pusher.accepted moved.length) := by
  have bound := after.length_le
  obtain ⟨runs, sameLength, isTaken, untouched⟩ := after
  have some : moved.length ≠ 0 := by omega
  cases pusher <;> cases op <;> simp only [Pusher.Runs] at runs
  case push.push value original | tryPush.tryPush value original =>
    have single : moved.length = 1 := by
      simp only [Op.operands, List.length_singleton] at bound
      omega
    simp only [Op.operands, single, List.take_succ_cons,
      List.take_zero] at isTaken
    exact ⟨original, by simp, by rw [isTaken]⟩
  case tryPushN.tryPushN items originals =>
    refine ⟨originals, rfl, sameLength, untouched, bound, ?_⟩
    simp only [Op.operands] at isTaken
    simp [marksOf, some, isTaken]

/-- A push whose move threw handed nothing over. -/
theorem Pusher.answers_threw
    {pusher : Pusher α}
    (runs : pusher.Runs op)
    (mayThrow : pusher.mayThrow = true) :
    Answers op [] .pushThrew := by
  cases pusher <;> cases op <;>
    simp_all [Pusher.Runs, Pusher.mayThrow, Answers]

/-- A pop whose move threw spoiled an element. -/
theorem Popper.answers_threw
    {popper : Popper α}
    (runs : popper.Runs op)
    (mayThrow : popper.mayThrow = true)
    (out : α) :
    Answers op [.spoiled] (.popThrew out) := by
  cases popper <;> cases op <;>
    simp_all [Popper.Runs, Popper.mayThrow, Answers]

/-- A pop that found the ring empty was handed nothing. -/
theorem Popper.agrees_afterEmpty
    {popper : Popper α}
    (after : popper.After op []) :
    popper.afterEmpty.Agrees (some ⟨call, op, []⟩) := by
  have sameOperands := after.operands_eq
  have runs := after.1
  rcases popper with ⟨out, _ | _⟩ | out | out <;> cases op <;>
    simp_all [Popper.Runs, Popper.afterEmpty, ConsumerPc.Agrees, Decided,
      Answers, marksOf, Popper.operands, Op.operands]

/-- A pop that handed its slots back was handed what it had moved. -/
theorem Popper.answers_delivered
    {popper : Popper α}
    (after : popper.After op moved)
    (nonempty : 0 < moved.length) :
    Answers op [.popped moved] (popper.delivered moved.length) := by
  have bound := after.length_le
  obtain ⟨runs, sameLength, isTaken, untouched⟩ := after
  have some : moved.length ≠ 0 := by omega
  cases popper <;> cases op <;> simp only [Popper.Runs] at runs
  case pop.pop out closedSeen before | tryPop.tryPop out before =>
    have single : moved.length = 1 := by
      simp only [Op.operands, List.length_singleton] at bound
      omega
    simp only [Popper.operands, single, List.take_succ_cons,
      List.take_zero] at isTaken
    exact ⟨⟨before, by simp⟩, by rw [isTaken]⟩
  case tryPopN.tryPopN out before =>
    refine ⟨before, rfl, sameLength, untouched, ?_, ?_⟩
    · rw [← sameLength] at bound
      exact bound
    · simp only [Popper.operands] at isTaken
      simp [marksOf, some, isTaken]

/-- After one more element the producer goes on moving or publishes. -/
theorem ProducerPc.agrees_afterMove
    {slots index count : Nat}
    {pusher : Pusher α}
    (after : pusher.After op moved)
    (nonempty : 0 < moved.length)
    (bound : count ≤ op.operands.length) :
    (ProducerPc.afterMove slots pusher index moved count).Agrees
      (some ⟨call, op, []⟩) := by
  unfold ProducerPc.afterMove
  split
  · rename_i more
    exact ⟨call, op, rfl, after, more, bound⟩
  · exact ⟨call, op, rfl, after, nonempty⟩

/-- After one more element the consumer goes on moving or publishes. -/
theorem ConsumerPc.agrees_afterMove
    {slots index count : Nat}
    {popper : Popper α}
    (after : popper.After op moved)
    (nonempty : 0 < moved.length)
    (bound : count ≤ op.operands.length) :
    (ConsumerPc.afterMove slots popper index moved count).Agrees
      (some ⟨call, op, []⟩) := by
  unfold ConsumerPc.afterMove
  split
  · rename_i more
    exact ⟨call, op, rfl, after, more, bound⟩
  · exact ⟨call, op, rfl, after, nonempty⟩

/-- Where there is room, something is moved but not more than asked. -/
theorem Pusher.count_bounds
    {slots headCache tail : Nat}
    {pusher : Pusher α}
    (after : pusher.After op [])
    (nonempty : 0 < op.operands.length)
    (hasRoom : pusher.hasRoom slots headCache tail = true) :
    0 < pusher.count slots headCache tail ∧
      pusher.count slots headCache tail ≤ op.operands.length := by
  rw [← after.operands_eq] at nonempty ⊢
  cases pusher with
  | push | tryPush => exact ⟨Nat.one_pos, Nat.le_refl _⟩
  | tryPushN items =>
      simp only [Pusher.hasRoom, bne_iff_ne, ne_eq] at hasRoom
      simp only [Pusher.operands] at nonempty
      simp only [Pusher.count, Pusher.operands]
      omega

/-- Where there is data, something is moved but not more than asked. -/
theorem Popper.count_bounds
    {slots tailCache head : Nat}
    {popper : Popper α}
    (after : popper.After op [])
    (nonempty : 0 < op.operands.length)
    (hasData : popper.hasData slots tailCache head = true) :
    0 < popper.count slots tailCache head ∧
      popper.count slots tailCache head ≤ op.operands.length := by
  rw [← after.operands_eq] at nonempty ⊢
  cases popper with
  | pop | tryPop => exact ⟨Nat.one_pos, Nat.le_refl _⟩
  | tryPopN out =>
      simp only [Popper.hasData, bne_iff_ne, ne_eq] at hasData
      simp only [Popper.operands] at nonempty
      simp only [Popper.count, Popper.operands]
      omega

end Agreement

/-- The history accounts for the program counters and the results. -/
structure Tracked (state : State α) : Prop where
  wellFormed : state.log.WellFormed
  producer : state.producer.Agrees (state.log.current .producer)
  consumer : state.consumer.Agrees (state.log.current .consumer)
  observers :
    ∀ thread,
      (state.observers thread).Agrees
        (state.log.current (.observer thread))
  answered :
    ∀ {call op marks result},
      state.log.Completed call op marks result → Answers op marks result

namespace Tracked

variable {slots : Nat} {state next : State α}
variable {agent : Agent} {action : Action α}

/-- The constructor starts with an empty history. -/
theorem initial [Inhabited α] : Tracked (initial : State α) where
  wellFormed := CallLog.WellFormed.empty
  producer := by
    rfl
  consumer := by
    rfl
  observers := by
    intro thread
    rfl
  answered := by
    rintro call op marks result ⟨owner, invoked, _⟩
    simp [Spsc.initial] at invoked

/-- What a step may do to the history. -/
theorem log_step
    (tracked : Tracked state)
    (step : Step slots state agent action next) :
    next.log = state.log ∨
      (∃ op,
        action = .invoke op ∧ state.log.current agent = none ∧
          next.log = state.log.invoke agent op) ∨
      (∃ opened handover,
        state.log.current agent = some opened ∧
          next.log = state.log.mark agent handover) ∨
      ∃ result,
        Decided (state.log.current agent) result ∧
          next.log = state.log.respond agent result := by
  cases step with
  | producer step =>
      have agrees := tracked.producer
      cases step with
      | invoke isAt starts =>
          rw [isAt] at agrees
          exact Or.inr (Or.inl ⟨_, rfl, agrees, rfl⟩)
      | publishTail isAt =>
          rw [isAt] at agrees
          obtain ⟨call, op, isCurrent, _⟩ := agrees
          exact Or.inr (Or.inr (Or.inl ⟨_, _, isCurrent, rfl⟩))
      | respond isAt =>
          rw [isAt] at agrees
          exact Or.inr (Or.inr (Or.inr ⟨_, agrees, rfl⟩))
      | _ => exact Or.inl rfl
  | consumer step =>
      have agrees := tracked.consumer
      cases step with
      | invoke isAt starts =>
          rw [isAt] at agrees
          exact Or.inr (Or.inl ⟨_, rfl, agrees, rfl⟩)
      | throwOut isAt _ | publishHead isAt =>
          rw [isAt] at agrees
          obtain ⟨call, op, isCurrent, _⟩ := agrees
          exact Or.inr (Or.inr (Or.inl ⟨_, _, isCurrent, rfl⟩))
      | respond isAt =>
          rw [isAt] at agrees
          exact Or.inr (Or.inr (Or.inr ⟨_, agrees, rfl⟩))
      | _ => exact Or.inl rfl
  | observer step =>
      rename_i thread
      have agrees := tracked.observers thread
      cases step with
      | invoke isAt starts =>
          rw [isAt] at agrees
          exact Or.inr (Or.inl ⟨_, rfl, agrees, rfl⟩)
      | respond isAt =>
          rw [isAt] at agrees
          exact Or.inr (Or.inr (Or.inr ⟨_, agrees, rfl⟩))
      | _ => exact Or.inl rfl

/-- The history of the next state is well formed. -/
theorem wellFormed_step
    (tracked : Tracked state)
    (step : Step slots state agent action next) :
    next.log.WellFormed := by
  rcases tracked.log_step step with
    same | ⟨op, _, isIdle, shape⟩ | ⟨opened, handover, isCurrent, shape⟩
    | ⟨result, ⟨call, op, marks, isCurrent, _⟩, shape⟩
  · rw [same]
    exact tracked.wellFormed
  · rw [shape]
    exact tracked.wellFormed.invoke isIdle op
  · rw [shape]
    exact tracked.wellFormed.mark isCurrent handover
  · rw [shape]
    exact tracked.wellFormed.respond isCurrent result

/-- A step only extends the history. -/
theorem history_sublist
    (tracked : Tracked state)
    (step : Step slots state agent action next) :
    state.log.history.Sublist next.log.history := by
  rcases tracked.log_step step with
    same | ⟨op, _, _, shape⟩ | ⟨_, handover, _, shape⟩ | ⟨result, _, shape⟩
  · rw [same]
  · rw [shape]
    simp
  · rw [shape]
    exact state.log.history_sublist_mark agent handover
  · rw [shape]
    exact state.log.history_sublist_respond agent result

/-- A step touches no call but that of the moving agent. -/
theorem current_other
    (tracked : Tracked state)
    (step : Step slots state agent action next)
    {other : Agent}
    (different : other ≠ agent) :
    next.log.current other = state.log.current other := by
  rcases tracked.log_step step with
    same | ⟨op, _, _, shape⟩ | ⟨_, handover, _, shape⟩ | ⟨result, _, shape⟩
  · rw [same]
  · rw [shape]
    simp [different]
  · rw [shape]
    exact state.log.current_mark_of_ne different handover
  · rw [shape]
    exact state.log.current_respond_of_ne different result

/-- A call is completed by the step that returns from it. -/
theorem completed_step
    (tracked : Tracked state)
    (step : Step slots state agent action next)
    {call : Nat}
    {op : Op α}
    {marks : List (Handover α)}
    {result : Result α}
    (completed : next.log.Completed call op marks result) :
    state.log.Completed call op marks result ∨
      state.log.current agent = some ⟨call, op, marks⟩ ∧
        Answers op marks result ∧
        next.log = state.log.respond agent result := by
  rcases tracked.log_step step with
    same | ⟨op, _, _, shape⟩ | ⟨_, handover, isCurrent, shape⟩
    | ⟨decided, ⟨owner, op', marks', isCurrent, answers⟩, shape⟩
  · rw [same] at completed
    exact Or.inl completed
  · rw [shape] at completed
    exact Or.inl (tracked.wellFormed.completed_invoke.mp completed)
  · rw [shape] at completed
    exact Or.inl
      ((tracked.wellFormed.completed_mark isCurrent).mp completed)
  · rw [shape] at completed
    rcases (tracked.wellFormed.completed_respond isCurrent).mp completed
      with old | ⟨rfl, rfl, rfl, rfl⟩
    · exact Or.inl old
    · exact Or.inr ⟨isCurrent, answers, shape⟩

/-- The producer agrees with its call after its step. -/
theorem producer_step
    (tracked : Tracked state)
    (step : ProducerStep slots state action next) :
    next.producer.Agrees (next.log.current .producer) := by
  have agrees := tracked.producer
  cases step with
  | invoke isAt starts =>
      simpa using ProducerPc.agrees_start? starts
  | refused isAt reads =>
      rw [isAt] at agrees
      obtain ⟨call, op, isCurrent, after, _⟩ := agrees
      exact ⟨call, op, [], isCurrent, Pusher.answers_refused after⟩
  | admitted isAt reads =>
      rw [isAt] at agrees
      exact agrees
  | room isAt hasRoom =>
      rw [isAt] at agrees
      obtain ⟨call, op, isCurrent, after, nonempty⟩ := agrees
      obtain ⟨more, bound⟩ := Pusher.count_bounds after nonempty hasRoom
      exact ⟨call, op, isCurrent, after, more, bound⟩
  | noRoom isAt isFull =>
      rw [isAt] at agrees
      exact agrees
  | refreshedRoom isAt fresh reads hasRoom =>
      rw [isAt] at agrees
      obtain ⟨call, op, isCurrent, after, nonempty⟩ := agrees
      obtain ⟨more, bound⟩ := Pusher.count_bounds after nonempty hasRoom
      exact ⟨call, op, isCurrent, after, more, bound⟩
  | refreshedFull isAt fresh reads isFull =>
      rw [isAt] at agrees
      obtain ⟨call, op, isCurrent, after, nonempty⟩ := agrees
      simpa [isCurrent] using Pusher.agrees_afterFull after nonempty
  | moveIn isAt taken =>
      rw [isAt] at agrees
      obtain ⟨call, op, isCurrent, after, more, bound⟩ := agrees
      have moved := after.move (by omega) taken
      simpa [isCurrent] using
        ProducerPc.agrees_afterMove moved (by simp) bound
  | throwIn isAt mayThrow =>
      rw [isAt] at agrees
      obtain ⟨call, op, isCurrent, ⟨runs, _⟩, _⟩ := agrees
      exact ⟨call, op, [], isCurrent, Pusher.answers_threw runs mayThrow⟩
  | publishTail isAt =>
      rw [isAt] at agrees
      obtain ⟨call, op, isCurrent, after, nonempty⟩ := agrees
      refine ⟨call, op, _, ?_, Pusher.answers_accepted after nonempty⟩
      simp [CallLog.mark_of_current _ isCurrent]
  | respond isAt =>
      rw [isAt] at agrees
      obtain ⟨call, op, marks, isCurrent, _⟩ := agrees
      simp [CallLog.respond_of_current _ isCurrent, ProducerPc.Agrees]

/-- The consumer agrees with its call after its step. -/
theorem consumer_step
    (tracked : Tracked state)
    (step : ConsumerStep slots state action next) :
    next.consumer.Agrees (next.log.current .consumer) := by
  have agrees := tracked.consumer
  cases step with
  | invoke isAt starts =>
      simpa using ConsumerPc.agrees_start? starts
  | data isAt hasData =>
      rw [isAt] at agrees
      obtain ⟨call, op, isCurrent, after, nonempty⟩ := agrees
      obtain ⟨more, bound⟩ := Popper.count_bounds after nonempty hasData
      exact ⟨call, op, isCurrent, after, more, bound⟩
  | noData isAt isEmpty =>
      rw [isAt] at agrees
      exact agrees
  | refreshedData isAt fresh reads hasData =>
      rw [isAt] at agrees
      obtain ⟨call, op, isCurrent, after, nonempty⟩ := agrees
      obtain ⟨more, bound⟩ := Popper.count_bounds after nonempty hasData
      exact ⟨call, op, isCurrent, after, more, bound⟩
  | refreshedEmpty isAt fresh reads isEmpty =>
      rw [isAt] at agrees
      obtain ⟨call, op, isCurrent, after, _⟩ := agrees
      simpa [isCurrent] using Popper.agrees_afterEmpty after
  | popClosed isAt reads =>
      rw [isAt] at agrees
      obtain ⟨call, isCurrent⟩ := agrees
      exact ⟨call, _, isCurrent, ⟨trivial, rfl, rfl, rfl⟩, Nat.one_pos⟩
  | moveOut isAt =>
      rw [isAt] at agrees
      obtain ⟨call, op, isCurrent, after, more, bound⟩ := agrees
      simpa [isCurrent] using
        ConsumerPc.agrees_afterMove
          (after.move (by omega) _) (by simp) bound
  | throwOut isAt mayThrow =>
      rw [isAt] at agrees
      obtain ⟨call, op, isCurrent, ⟨runs, _⟩, _⟩ := agrees
      refine ⟨call, op, _, ?_, Popper.answers_threw runs mayThrow _⟩
      simp [CallLog.mark_of_current _ isCurrent]
  | publishHead isAt =>
      rw [isAt] at agrees
      obtain ⟨call, op, isCurrent, after, nonempty⟩ := agrees
      refine ⟨call, op, _, ?_, Popper.answers_delivered after nonempty⟩
      simp [CallLog.mark_of_current _ isCurrent]
  | loadClosed isAt reads =>
      rw [isAt] at agrees
      obtain ⟨call, isCurrent⟩ := agrees
      exact ⟨call, _, [], isCurrent, rfl, rfl⟩
  | respond isAt =>
      rw [isAt] at agrees
      obtain ⟨call, op, marks, isCurrent, _⟩ := agrees
      simp [CallLog.respond_of_current _ isCurrent, ConsumerPc.Agrees]

/-- The moving observer agrees with its call after its step. -/
theorem observer_step
    (tracked : Tracked state)
    {thread : Nat}
    (step : ObserverStep slots state thread action next) :
    (next.observers thread).Agrees
      (next.log.current (.observer thread)) := by
  have agrees := tracked.observers thread
  cases step with
  | invoke isAt starts =>
      simpa using ObserverPc.agrees_start? starts
  | storeClosed isAt | loadClosed isAt reads | sizeTail isAt reads =>
      rw [isAt] at agrees
      obtain ⟨call, isCurrent⟩ := agrees
      simp [isCurrent, ObserverPc.Agrees, Decided, Answers]
  | sizeHead isAt reads =>
      rw [isAt] at agrees
      obtain ⟨call, isCurrent⟩ := agrees
      simp [isCurrent, ObserverPc.Agrees]
  | respond isAt =>
      rw [isAt] at agrees
      obtain ⟨call, op, marks, isCurrent, _⟩ := agrees
      simp [CallLog.respond_of_current _ isCurrent, ObserverPc.Agrees]

end Tracked

section Frame

variable {slots : Nat} {state next : State α} {action : Action α}

theorem ProducerStep.consumer_eq
    (step : ProducerStep slots state action next) :
    next.consumer = state.consumer := by
  cases step <;> rfl

theorem ProducerStep.observers_eq
    (step : ProducerStep slots state action next) :
    next.observers = state.observers := by
  cases step <;> rfl

theorem ProducerStep.closed_eq
    (step : ProducerStep slots state action next) :
    next.closed = state.closed := by
  cases step <;> rfl

theorem ConsumerStep.closed_eq
    (step : ConsumerStep slots state action next) :
    next.closed = state.closed := by
  cases step <;> rfl

theorem ProducerStep.head_eq
    (step : ProducerStep slots state action next) :
    next.head = state.head := by
  cases step <;> rfl

theorem ObserverStep.head_eq
    {thread : Nat}
    (step : ObserverStep slots state thread action next) :
    next.head = state.head := by
  cases step <;> rfl

theorem ProducerStep.closesRead_eq
    (step : ProducerStep slots state action next) :
    next.closesRead = state.closesRead := by
  cases step <;> rfl

theorem ObserverStep.closesRead_eq
    {thread : Nat}
    (step : ObserverStep slots state thread action next) :
    next.closesRead = state.closesRead := by
  cases step <;> rfl

theorem ConsumerStep.tail_eq
    (step : ConsumerStep slots state action next) :
    next.tail = state.tail := by
  cases step <;> rfl

theorem ObserverStep.tail_eq
    {thread : Nat}
    (step : ObserverStep slots state thread action next) :
    next.tail = state.tail := by
  cases step <;> rfl

theorem ConsumerStep.producer_eq
    (step : ConsumerStep slots state action next) :
    next.producer = state.producer := by
  cases step <;> rfl

theorem ConsumerStep.observers_eq
    (step : ConsumerStep slots state action next) :
    next.observers = state.observers := by
  cases step <;> rfl

theorem ObserverStep.producer_eq
    {thread : Nat}
    (step : ObserverStep slots state thread action next) :
    next.producer = state.producer := by
  cases step <;> rfl

theorem ObserverStep.consumer_eq
    {thread : Nat}
    (step : ObserverStep slots state thread action next) :
    next.consumer = state.consumer := by
  cases step <;> rfl

theorem ObserverStep.observers_other
    {thread other : Nat}
    (step : ObserverStep slots state thread action next)
    (different : other ≠ thread) :
    next.observers other = state.observers other := by
  cases step <;> simp [different]

end Frame

/-- Every step keeps the history in agreement with the machine. -/
theorem Tracked.step
    {slots : Nat}
    {state next : State α}
    {agent : Agent}
    {action : Action α}
    (tracked : Tracked state)
    (step : Step slots state agent action next) :
    Tracked next where
  wellFormed := tracked.wellFormed_step step
  producer := by
    cases step with
    | producer own => exact tracked.producer_step own
    | consumer other =>
        rw [other.producer_eq,
          tracked.current_other (.consumer other) (by simp)]
        exact tracked.producer
    | observer other =>
        rw [other.producer_eq,
          tracked.current_other (.observer other) (by simp)]
        exact tracked.producer
  consumer := by
    cases step with
    | consumer own => exact tracked.consumer_step own
    | producer other =>
        rw [other.consumer_eq,
          tracked.current_other (.producer other) (by simp)]
        exact tracked.consumer
    | observer other =>
        rw [other.consumer_eq,
          tracked.current_other (.observer other) (by simp)]
        exact tracked.consumer
  observers := by
    intro thread
    cases step with
    | producer other =>
        rw [other.observers_eq,
          tracked.current_other (.producer other) (by simp)]
        exact tracked.observers thread
    | consumer other =>
        rw [other.observers_eq,
          tracked.current_other (.consumer other) (by simp)]
        exact tracked.observers thread
    | observer own =>
        rename_i moving
        by_cases same : thread = moving
        · subst same
          exact tracked.observer_step own
        · rw [own.observers_other same,
            tracked.current_other (.observer own) (by simpa using same)]
          exact tracked.observers thread
  answered := by
    intro call op marks result completed
    rcases tracked.completed_step step completed with
      old | ⟨_, answers, _⟩
    · exact tracked.answered old
    · exact answers

/-- The history agrees with the machine in every reachable state. -/
theorem Tracked.of_run
    [Inhabited α]
    {slots : Nat}
    {guard : StepGuard (State α) (Label α)}
    {labels : List (Label α)}
    {state : State α}
    (run : Run (step? slots) guard Spsc.initial labels state) :
    Tracked state :=
  run.invariant Tracked.initial fun tracked _ taken =>
    tracked.step (Step.of_step? taken)

end ConcurrentQueue.Spsc
