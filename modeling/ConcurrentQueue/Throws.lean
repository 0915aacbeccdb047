import ConcurrentQueue.Mutex.Delivery
import ConcurrentQueue.Spsc.Throws

namespace ConcurrentQueue

/-!
# Throwing move assignments

Both `MutexQueue` and `SpscQueue` allow the move assignment of an element to
throw.  No element is lost or duplicated then: successful pops deliver the
elements of the successful pushes in their order, except that an element whose
move out threw once may have been left with any value.
-/

variable {α : Type}

/-- What a finished call has handed in or out, by its result. -/
def Accounted
    (given taken : List (Nat × α))
    (call : Nat)
    (op : Op α) :
    Result α → Prop
  | .pushed true =>
      ∃ value,
        op.argument? = some value ∧
          given.filter (fun entry => entry.1 == call) = [(call, value)]
  | .pushed false | .pushThrew =>
      given.filter (fun entry => entry.1 == call) = []
  | .popped true value =>
      taken.filter (fun entry => entry.1 == call) = [(call, value)]
  | .popped false _ | .popThrew _ =>
      taken.filter (fun entry => entry.1 == call) = []
  | _ => True

/-- The calls of a history hand over every element once and in order. -/
structure LosesNothing
    {Thread Mark : Type}
    (transfers : Transfers Mark α)
    (log : CallLog Thread (Op α) Mark (Result α)) : Prop where
  bound :
    (tagged transfers.taken log.history).length ≤
      (tagged transfers.given log.history).length
  delivered :
    ∀ {position popper value},
      (tagged transfers.taken log.history)[position]? =
        some (popper, value) →
      position ∉ transfers.spoiledFrom 0 log.marks →
      ∃ pusher,
        (tagged transfers.given log.history)[position]? =
          some (pusher, value)
  accounted :
    ∀ {call op marks result},
      log.Completed call op marks result →
      Accounted (tagged transfers.given log.history)
        (tagged transfers.taken log.history) call op result
  spoilers :
    ∀ {call made op marks result},
      .mark call made ∈ log.history →
      transfers.spoils made = true →
      log.Completed call op marks result →
      ∃ out, result = .popThrew out

section Tagged

variable {Thread Mark : Type} {transfers : Transfers Mark α}
variable {log : CallLog Thread (Op α) Mark (Result α)}

/-- What was handed over in order, with the calls that did so. -/
theorem Ring.Delivery.tagged
    {slots : Nat}
    {buffer : Nat → α}
    {spoiled : List Nat}
    (delivery :
      Ring.Delivery slots buffer (log.marks.flatMap transfers.given)
        (log.marks.flatMap transfers.taken) spoiled)
    {position popper : Nat}
    {value : α}
    (isTaken :
      (ConcurrentQueue.tagged transfers.taken log.history)[position]? =
        some (popper, value))
    (intact : position ∉ spoiled) :
    ∃ pusher,
      (ConcurrentQueue.tagged transfers.given log.history)[position]? =
        some (pusher, value) :=
  getElem?_tagged.mp
    (delivery.delivered (getElem?_tagged.mpr ⟨popper, isTaken⟩) intact)

/-- The values handed over, without their calls. -/
theorem length_tagged
    (values : Mark → List α)
    (log : CallLog Thread (Op α) Mark (Result α)) :
    (tagged values log.history).length =
      (log.marks.flatMap values).length := by
  rw [← List.length_map Prod.snd, map_snd_tagged]
  rfl

/-- What one call handed over is what its marks hand over. -/
theorem filter_eq_of_marks
    {values : Mark → List α}
    {call : Nat}
    {marks : List Mark}
    (isMarks : log.marksOf call = marks)
    {handed : List α}
    (hands : marks.flatMap values = handed) :
    (tagged values log.history).filter (fun entry => entry.1 == call) =
      handed.map fun value => (call, value) := by
  rw [filter_tagged, ← hands, ← isMarks]
  rfl

end Tagged

section Mutex

open Mutex

variable [Inhabited α] {slots threads : Nat}
variable {labels : List (Mutex.Label α)} {state : Mutex.State α}

/-- `MutexQueue` hands over every element once and in order. -/
theorem mutex_loses_nothing
    (positive : 0 < slots)
    (small : slots ≤ SizeT.halfRange)
    (run :
      Run (Mutex.step? slots) unrestricted (Mutex.initial threads) labels
        state) :
    LosesNothing Mutex.transfers state.log := by
  have tracked : Mutex.Tracked slots state := Mutex.Tracked.of_run run
  have delivers : Delivers slots state :=
    Delivers.of_run positive small run
  obtain ⟨fifo, legal, _⟩ := linear_of_run positive small run
  constructor
  · rw [length_tagged, length_tagged]
    exact delivers.delivery.ordered
  · intro position popper value isTaken intact
    exact delivers.delivery.tagged isTaken intact
  · intro call op marks result completed
    have isMarks : state.log.marksOf call = marks := by
      obtain ⟨_, _, _, isMarks⟩ := completed
      exact isMarks
    rcases tracked.answered completed with
      ⟨made, rfl, sameOp, sameResult⟩ | ⟨_, _, rfl⟩
    · have inHistory : .mark call made ∈ state.log.history :=
        CallLog.mem_marksOf.mp (by simp [isMarks])
      obtain ⟨front, back, shape⟩ := List.append_of_mem inHistory
      obtain ⟨before, after, _, takes, _⟩ := taken_at legal shape
      subst sameOp sameResult
      cases made with
      | pushThrew | popThrew =>
          exact filter_eq_of_marks isMarks rfl
      | answered op result timedOut =>
          cases result with
          | pushed accepted =>
              cases accepted with
              | false => exact filter_eq_of_marks isMarks rfl
              | true =>
                  obtain ⟨value, isArgument, _⟩ := takes.appended rfl
                  have gives :
                      [Commit.answered op (.pushed true) timedOut].flatMap
                          Mutex.transfers.given = [value] := by
                    simp only [Commit.op] at isArgument
                    simp [Mutex.transfers, isArgument]
                  exact ⟨value, isArgument,
                    filter_eq_of_marks isMarks gives⟩
          | popped delivered out =>
              cases delivered <;> exact filter_eq_of_marks isMarks rfl
          | pushThrew | popThrew =>
              exact filter_eq_of_marks isMarks rfl
          | _ => trivial
    · trivial
  · intro call made op marks result inHistory spoils completed
    have isMade : made ∈ marks := by
      obtain ⟨_, _, _, isMarks⟩ := completed
      rw [← isMarks]
      exact CallLog.mem_marksOf.mpr inHistory
    rcases tracked.answered completed with
      ⟨only, rfl, _, sameResult⟩ | ⟨_, rfl, _⟩
    · rw [List.mem_singleton.mp isMade] at spoils
      cases only with
      | popThrew op slotValue outValue =>
          exact ⟨outValue, sameResult.symm⟩
      | answered | pushThrew => cases spoils
    · cases isMade

end Mutex

section Spsc

open Spsc

variable [Inhabited α] {slots : Nat}
variable {labels : List (Spsc.Label α)} {state : Spsc.State α}

/-- `SpscQueue` hands over every element once and in order. -/
theorem spsc_loses_nothing
    (wide : 1 < slots)
    (small : slots ≤ SizeT.halfRange)
    (run : Run (Spsc.step? slots) unrestricted Spsc.initial labels state) :
    LosesNothing Spsc.transfers state.log := by
  have tracked : Spsc.Tracked state := Spsc.Tracked.of_run run
  have indices : Indices slots state := Indices.of_run wide small run
  have delivered : Delivered slots state :=
    Delivered.of_run wide small run
  constructor
  · rw [length_tagged, length_tagged]
    have ordered := delivered.moved_le indices tracked
    rw [List.length_append] at ordered
    exact Nat.le_trans (Nat.le_add_right _ _) ordered
  · intro position popper value isTaken intact
    have isPopped : state.popped[position]? = some value :=
      getElem?_tagged.mpr ⟨popper, isTaken⟩
    have inBounds := (List.getElem?_eq_some_iff.mp isPopped).1
    refine getElem?_tagged.mp
      (delivered.intact indices tracked ?_ intact)
    rw [List.getElem?_append_left inBounds]
    exact isPopped
  · intro call op marks result completed
    have isMarks : state.log.marksOf call = marks := by
      obtain ⟨_, _, _, isMarks⟩ := completed
      exact isMarks
    have answers := tracked.answered completed
    cases result with
    | pushed accepted =>
        cases accepted with
        | false =>
            obtain ⟨_, rfl⟩ := answers
            exact filter_eq_of_marks isMarks rfl
        | true =>
            obtain ⟨value, isPush, rfl⟩ := answers
            refine ⟨value, ?_, filter_eq_of_marks isMarks rfl⟩
            rcases isPush with rfl | rfl <;> rfl
    | popped delivered out =>
        cases delivered with
        | false =>
            obtain ⟨_, rfl⟩ := answers
            exact filter_eq_of_marks isMarks rfl
        | true =>
            obtain ⟨_, rfl⟩ := answers
            exact filter_eq_of_marks isMarks rfl
    | pushThrew | popThrew =>
        obtain ⟨_, rfl⟩ := answers
        exact filter_eq_of_marks isMarks rfl
    | _ => trivial
  · intro call made op marks result inHistory spoils completed
    have isMade : made ∈ marks := by
      obtain ⟨_, _, _, isMarks⟩ := completed
      rw [← isMarks]
      exact CallLog.mem_marksOf.mpr inHistory
    cases made with
    | pushed | popped => cases spoils
    | spoiled =>
        have answers := tracked.answered completed
        cases result with
        | popThrew out => exact ⟨out, rfl⟩
        | pushed accepted =>
            cases accepted with
            | false =>
                obtain ⟨_, rfl⟩ := answers
                cases isMade
            | true =>
                obtain ⟨_, _, rfl⟩ := answers
                simp at isMade
        | popped delivered =>
            cases delivered <;> obtain ⟨_, rfl⟩ := answers <;>
              simp at isMade
        | pushedN | poppedN =>
            obtain ⟨_, _, _, _, _, rfl⟩ := answers
            simp [marksOf] at isMade
        | _ =>
            obtain ⟨_, rfl⟩ := answers
            simp at isMade

end Spsc

/-- What exceptions may do to a `MutexQueue`. -/
structure MutexThrows
    (α : Type)
    [Inhabited α]
    (slots threads : Nat) : Prop where
  elements :
    ∀ {labels} {state : Mutex.State α},
      Run (Mutex.step? slots) unrestricted (Mutex.initial threads) labels
        state →
      LosesNothing Mutex.transfers state.log
  thrower :
    ∀ {thread op result during} {before last : Mutex.State α},
      Mutex.WholeCall slots threads thread op result during before last →
      result.isException = true →
      EachStep (Mutex.step? slots) unrestricted before
        (⟨thread, .invoke op⟩ :: during) fun state label next =>
          label.thread = thread →
          Mutex.OnlySlot (state.slotOf op) state next

/-- What exceptions may do to an `SpscQueue`. -/
structure SpscThrows
    (α : Type)
    [Inhabited α]
    (slots : Nat) : Prop where
  elements :
    ∀ {labels} {state : Spsc.State α},
      Run (Spsc.step? slots) unrestricted Spsc.initial labels state →
      LosesNothing Spsc.transfers state.log
  push :
    ∀ {op result earlier during} {invoked last : Spsc.State α},
      Spsc.CallWindow slots unrestricted .producer op earlier during invoked
        last →
      last.producer = .returning result →
      result.isException = true →
      EachStep (Spsc.step? slots) unrestricted invoked during
        fun state label next =>
          label.agent = .producer →
          Spsc.OnlySlot state.tail.latest state next
  pop :
    ∀ {op result earlier during} {invoked last : Spsc.State α},
      Spsc.CallWindow slots unrestricted .consumer op earlier during invoked
        last →
      last.consumer = .returning result →
      result.isException = true →
      EachStep (Spsc.step? slots) unrestricted invoked during
        fun state label next =>
          label.agent = .consumer →
          Spsc.OnlySlot state.head.latest state next

/--
Throwing move assignments lose and duplicate nothing in a `MutexQueue` or an
`SpscQueue` that could be constructed.
-/
theorem throws_lose_nothing
    [Inhabited α]
    (elementSize capacity threads slots : Nat) :
    (Mutex.bufferSlots elementSize capacity = .ok slots →
        MutexThrows α slots threads) ∧
      (Spsc.ringSlots elementSize capacity = .ok slots →
        SpscThrows α slots) := by
  constructor
  · intro built
    obtain ⟨_, positive, small⟩ := Mutex.bufferSlots_ok built
    exact
      { elements := mutex_loses_nothing positive small
        thrower := Mutex.WholeCall.only_slot positive small }
  · intro built
    obtain ⟨_, wide, small⟩ := Spsc.ringSlots_ok built
    exact
      { elements := spsc_loses_nothing wide small
        push := Spsc.push_only_slot wide small
        pop := Spsc.pop_only_slot wide small }

/-- A push throws, another succeeds, and the first of two pops throws. -/
def throwingSchedule : List (Mutex.Label Nat) :=
  [⟨0, .invoke (.tryPush 7)⟩, ⟨0, .lock (.throws 3 3)⟩, ⟨0, .respond⟩,
    ⟨0, .invoke (.tryPush 8)⟩, ⟨0, .lock (.moves 0)⟩, ⟨0, .notify none⟩,
    ⟨0, .respond⟩, ⟨1, .invoke (.tryPop 0)⟩, ⟨1, .lock (.throws 9 9)⟩,
    ⟨1, .respond⟩, ⟨1, .invoke (.tryPop 0)⟩, ⟨1, .lock (.moves 0)⟩]

/-- In the ring too, a push throws and another one succeeds. -/
def throwingPushes : List (Spsc.Label Nat) :=
  [⟨.producer, .invoke (.tryPush 7)⟩, ⟨.producer, .load 0⟩,
    ⟨.producer, .check⟩, ⟨.producer, .throw 3 3⟩, ⟨.producer, .respond⟩,
    ⟨.producer, .invoke (.tryPush 8)⟩, ⟨.producer, .load 0⟩,
    ⟨.producer, .check⟩, ⟨.producer, .move 0⟩, ⟨.producer, .store⟩,
    ⟨.producer, .respond⟩]

/-- The steps of a pop from the ring whose move throws. -/
def throwingPop : List (Spsc.Label Nat) :=
  [⟨.consumer, .check⟩, ⟨.consumer, .load 1⟩, ⟨.consumer, .throw 9 9⟩]

/-- The pop that gets what the exception left in the slot. -/
def secondPop : List (Spsc.Label Nat) :=
  [⟨.consumer, .respond⟩, ⟨.consumer, .invoke (.tryPop 0)⟩,
    ⟨.consumer, .check⟩, ⟨.consumer, .move 0⟩, ⟨.consumer, .store⟩]

theorem throws_lose_nothing_one :
    (∃ state,
      replay? (Mutex.step? 1) unrestricted (Mutex.initial 2)
          throwingSchedule = some state ∧
        state.pushed = [8] ∧ state.popped = [9] ∧ state.spoiled = [0] ∧
        LosesNothing Mutex.transfers state.log) ∧
      ∃ invoked last state,
        Spsc.CallWindow 2 unrestricted .consumer (.tryPop 0) throwingPushes
            throwingPop invoked last ∧
          last.consumer = .returning (.popThrew 9) ∧
          (EachStep (Spsc.step? 2) unrestricted invoked throwingPop
            fun state label next =>
              label.agent = .consumer →
              Spsc.OnlySlot state.head.latest state next) ∧
          replay? (Spsc.step? 2) unrestricted last secondPop =
            some state ∧
          state.pushed = [8] ∧ state.popped = [9] ∧ state.spoiled = [0] ∧
          LosesNothing Spsc.transfers state.log := by
  have mutexBuilt : Mutex.bufferSlots 8 1 = .ok 1 := by
    rfl
  have spscBuilt : Spsc.ringSlots 8 1 = .ok 2 := by
    rfl
  have mutex : MutexThrows Nat 1 2 :=
    (throws_lose_nothing 8 1 2 1).1 mutexBuilt
  have spsc : SpscThrows Nat 2 :=
    (throws_lose_nothing 8 1 2 2).2 spscBuilt
  constructor
  · have replayed :
        ∃ state,
          replay? (Mutex.step? 1) unrestricted (Mutex.initial 2)
              throwingSchedule = some state ∧
            state.pushed = [8] ∧ state.popped = [9] ∧
            state.spoiled = [0] :=
      ⟨_, rfl, by decide⟩
    obtain ⟨state, accepted, pushed, popped, spoiled⟩ := replayed
    exact ⟨state, accepted, pushed, popped, spoiled,
      mutex.elements (Run.of_replay? accepted)⟩
  · have replayed :
        ∃ before invoked last state,
          replay? (Spsc.step? 2) unrestricted
              (Spsc.initial : Spsc.State Nat) throwingPushes =
            some before ∧
          Spsc.step? 2 before ⟨.consumer, .invoke (.tryPop 0)⟩ =
            some invoked ∧
          replay? (Spsc.step? 2) unrestricted invoked throwingPop =
            some last ∧
          last.consumer = .returning (.popThrew 9) ∧
          replay? (Spsc.step? 2) unrestricted last secondPop =
            some state ∧
          state.pushed = [8] ∧ state.popped = [9] ∧
          state.spoiled = [0] :=
      ⟨_, _, _, _, rfl, rfl, rfl, rfl, rfl, by decide⟩
    obtain ⟨before, invoked, last, state, pushes, opens, throws, raises,
      pops, pushed, popped, spoiled⟩ := replayed
    have window :
        Spsc.CallWindow 2 unrestricted .consumer (.tryPop 0) throwingPushes
          throwingPop invoked last :=
      { opens := ⟨before, Run.of_replay? pushes, trivial, opens⟩
        runs := Run.of_replay? throws
        unclosed := by decide }
    exact ⟨invoked, last, state, window, raises,
      spsc.pop window raises rfl, pops, pushed, popped, spoiled,
      spsc.elements (window.run.append (Run.of_replay? pops))⟩

end ConcurrentQueue
