import ConcurrentQueue.Library.Simulation
import Mathlib.Data.List.Basic
import Mathlib.Logic.Function.Basic

namespace ConcurrentQueue

/-!
# What happens before what

Threads share atomic objects, whose messages are numbered, and plain cells,
whose accesses are numbered.  Everything a thread did, or came to know by
synchronizing with whoever did it, happens before the thread's next step.  A
release store lets its message carry all that the storing thread knows, an
acquire load of the message hands it to the loading thread, and a relaxed
access carries nothing.  Clients synchronize by means of their own, such as
joining a thread.

The module adds this knowledge to any step function that says which memory
accesses its steps make.
-/

/-- The memory orders. -/
inductive MemoryOrder where
  | relaxed
  | acquire
  | release
  deriving Repr, DecidableEq

/-- Something that happened and that threads may come to know of. -/
inductive Occurrence (Location Cell : Type) where
  /-- A store or a load of one message of an atomic object. -/
  | seen (location : Location) (message : Nat)
  /-- The access of a plain cell with this number. -/
  | access (cell : Cell) (number : Nat)
  /-- Something that a client did. -/
  | action (name : Nat)
  deriving Repr, DecidableEq

/-- The message of an atomic object that was seen. -/
def Occurrence.message?
    {Location Cell : Type}
    [DecidableEq Location]
    (location : Location) :
    Occurrence Location Cell → Option Nat
  | .seen other message => if other = location then some message else none
  | _ => none

/-- What one step does to the memory, or where a call begins and ends. -/
inductive Effect (Location Cell : Type) where
  | load (order : MemoryOrder) (location : Location) (message : Nat)
  | store (order : MemoryOrder) (location : Location) (message : Nat)
  | access (cell : Cell)
  | begins (call : Nat)
  | ends (call : Nat)
  deriving Repr, DecidableEq

/-- What every thread knows and what every message carries. -/
structure Memory (Thread Location Cell : Type) where
  knows : Thread → List (Occurrence Location Cell) := fun _ => []
  carried : Location → Nat → List (Occurrence Location Cell) :=
    fun _ _ => []
  accesses : Cell → Nat := fun _ => 0
  /-- What the calling thread knew when a call was invoked. -/
  begun : Nat → List (Occurrence Location Cell) := fun _ => []
  /-- What the calling thread knew when a call returned. -/
  ended : Nat → List (Occurrence Location Cell) := fun _ => []

namespace Memory

variable {Thread Location Cell : Type}
variable [DecidableEq Thread] [DecidableEq Location] [DecidableEq Cell]

/-- Let a thread know more. -/
def learn
    (memory : Memory Thread Location Cell)
    (thread : Thread)
    (more : List (Occurrence Location Cell)) :
    Memory Thread Location Cell :=
  { memory with
    knows :=
      Function.update memory.knows thread (more ++ memory.knows thread) }

/-- What a load of a message hands over. -/
def handed
    (memory : Memory Thread Location Cell)
    (location : Location)
    (message : Nat) :
    MemoryOrder → List (Occurrence Location Cell)
  | .acquire => memory.carried location message
  | .relaxed | .release => []

/-- What a store lets its message carry. -/
def released
    (memory : Memory Thread Location Cell)
    (thread : Thread) :
    MemoryOrder → List (Occurrence Location Cell)
  | .release => memory.knows thread
  | .relaxed | .acquire => []

/-- Set what a message carries. -/
def carry
    (memory : Memory Thread Location Cell)
    (location : Location)
    (message : Nat)
    (content : List (Occurrence Location Cell)) :
    Memory Thread Location Cell :=
  { memory with
    carried :=
      Function.update memory.carried location
        (Function.update (memory.carried location) message content) }

/-- One effect of a thread. -/
def apply
    (memory : Memory Thread Location Cell)
    (thread : Thread) :
    Effect Location Cell → Memory Thread Location Cell
  | .load order location message =>
      memory.learn thread
        (.seen location message :: memory.handed location message order)
  | .store order location message =>
      let storing := memory.learn thread [.seen location message]
      storing.carry location message (storing.released thread order)
  | .access cell =>
      { memory.learn thread [.access cell (memory.accesses cell)] with
        accesses :=
          Function.update memory.accesses cell (memory.accesses cell + 1) }
  | .begins call =>
      { memory with
        begun := Function.update memory.begun call (memory.knows thread) }
  | .ends call =>
      { memory with
        ended := Function.update memory.ended call (memory.knows thread) }

/-- All effects of a step, one after the other. -/
def applyAll
    (memory : Memory Thread Location Cell)
    (thread : Thread)
    (effects : List (Effect Location Cell)) :
    Memory Thread Location Cell :=
  effects.foldl (fun memory effect => memory.apply thread effect) memory

/-- Every access of a cell so far happens before the thread's next step. -/
def Settled
    (memory : Memory Thread Location Cell)
    (thread : Thread)
    (cell : Cell) : Prop :=
  ∀ number < memory.accesses cell,
    .access cell number ∈ memory.knows thread

/-- A load returns no message older than one the thread knows to be seen. -/
def Coherent
    (memory : Memory Thread Location Cell)
    (thread : Thread) :
    Effect Location Cell → Prop
  | .load _ location message =>
      ∀ later ∈
          (memory.knows thread).filterMap (Occurrence.message? location),
        later ≤ message
  | _ => True

instance (memory : Memory Thread Location Cell) (thread : Thread) :
    ∀ effect : Effect Location Cell,
      Decidable (memory.Coherent thread effect)
  | .load _ _ _ => inferInstanceAs (Decidable (∀ _ ∈ _, _))
  | .store _ _ _ => .isTrue trivial
  | .access _ => .isTrue trivial
  | .begins _ => .isTrue trivial
  | .ends _ => .isTrue trivial

omit [DecidableEq Thread] [DecidableEq Cell] in
/-- A coherent load of a message is not older than any message seen. -/
theorem Coherent.le
    {memory : Memory Thread Location Cell}
    {thread : Thread}
    {order : MemoryOrder}
    {location : Location}
    {message later : Nat}
    (coherent : memory.Coherent thread (.load order location message))
    (seen : .seen location later ∈ memory.knows thread) :
    later ≤ message := by
  apply coherent later
  rw [List.mem_filterMap]
  exact ⟨_, seen, by simp [Occurrence.message?]⟩

section Effects

variable (memory : Memory Thread Location Cell) (thread : Thread)

omit [DecidableEq Location] [DecidableEq Cell] in
/-- A thread that learns more forgets nothing. -/
theorem knows_learn
    (more : List (Occurrence Location Cell))
    (other : Thread) :
    memory.knows other ⊆ (memory.learn thread more).knows other := by
  intro occurrence isKnown
  by_cases same : other = thread
  · subst same
    simp [learn, isKnown]
  · simp [learn, same, isKnown]

/-- No effect makes a thread forget. -/
theorem knows_apply
    (effect : Effect Location Cell)
    {other : Thread}
    {occurrence : Occurrence Location Cell}
    (isKnown : occurrence ∈ memory.knows other) :
    occurrence ∈ (memory.apply thread effect).knows other := by
  cases effect with
  | begins | ends =>
      exact isKnown
  | load | store | access =>
      by_cases same : other = thread
      · subst same
        simp [apply, learn, carry, isKnown]
      · simp [apply, learn, carry, same, isKnown]

/-- A step keeps what each of its effects keeps. -/
theorem applyAll_frame
    {Observed : Type}
    (observe : Memory Thread Location Cell → Observed)
    {effects : List (Effect Location Cell)}
    (framed :
      ∀ effect ∈ effects, ∀ memory : Memory Thread Location Cell,
        observe (memory.apply thread effect) = observe memory) :
    observe (memory.applyAll thread effects) = observe memory := by
  induction effects generalizing memory with
  | nil =>
      rfl
  | cons effect rest inductionHypothesis =>
      have first := framed effect List.mem_cons_self memory
      rw [← first]
      apply inductionHypothesis
      intro later member
      exact framed later (List.mem_cons_of_mem effect member)

/-- A message carries the same until it is stored again. -/
theorem carried_applyAll
    {effects : List (Effect Location Cell)}
    {location : Location}
    {message : Nat}
    (notStored : ∀ order, .store order location message ∉ effects) :
    (memory.applyAll thread effects).carried location message =
      memory.carried location message := by
  apply memory.applyAll_frame thread
    (fun memory => memory.carried location message)
  intro effect member memory
  cases effect with
  | store order other stored =>
      by_cases same : location = other ∧ message = stored
      · obtain ⟨rfl, rfl⟩ := same
        exact absurd member (notStored order)
      · simp only [apply, learn, carry, Function.update_apply]
        split
        · rename_i isLocation
          subst isLocation
          rw [Function.update_of_ne fun isMessage => same ⟨rfl, isMessage⟩]
        · rfl
  | load | access | begins | ends =>
      rfl

/-- A cell that a step does not access keeps its count. -/
theorem accesses_applyAll
    {effects : List (Effect Location Cell)}
    {cell : Cell}
    (untouched : .access cell ∉ effects) :
    (memory.applyAll thread effects).accesses cell =
      memory.accesses cell := by
  apply memory.applyAll_frame thread (fun memory => memory.accesses cell)
  intro effect member memory
  cases effect with
  | access other =>
      have different : cell ≠ other := by
        rintro rfl
        exact untouched member
      simp [apply, learn, different]
  | load | store | begins | ends =>
      rfl

/-- What was known at the start of a call stands. -/
theorem begun_applyAll
    {effects : List (Effect Location Cell)}
    {call : Nat}
    (notBegun : .begins call ∉ effects) :
    (memory.applyAll thread effects).begun call = memory.begun call := by
  apply memory.applyAll_frame thread (fun memory => memory.begun call)
  intro effect member memory
  cases effect with
  | begins other =>
      have different : call ≠ other := by
        rintro rfl
        exact notBegun member
      simp [apply, different]
  | load | store | access | ends =>
      rfl

/-- What was known at the end of a call stands. -/
theorem ended_applyAll
    {effects : List (Effect Location Cell)}
    {call : Nat}
    (notEnded : .ends call ∉ effects) :
    (memory.applyAll thread effects).ended call = memory.ended call := by
  apply memory.applyAll_frame thread (fun memory => memory.ended call)
  intro effect member memory
  cases effect with
  | ends other =>
      have different : call ≠ other := by
        rintro rfl
        exact notEnded member
      simp [apply, different]
  | load | store | access | begins =>
      rfl

/-- No step makes a thread forget. -/
theorem knows_applyAll
    (effects : List (Effect Location Cell))
    (other : Thread) :
    memory.knows other ⊆
      (memory.applyAll thread effects).knows other := by
  induction effects generalizing memory with
  | nil =>
      exact List.Subset.refl _
  | cons effect rest inductionHypothesis =>
      intro occurrence isKnown
      apply inductionHypothesis
      exact memory.knows_apply thread effect isKnown

/-- A storing thread has seen its message. -/
theorem seen_store (order : MemoryOrder) (location : Location) (message : Nat) :
    .seen location message ∈
      (memory.apply thread (.store order location message)).knows
        thread := by
  simp [apply, learn, carry]

/-- A message carries no more than its thread knows. -/
theorem carried_store_subset
    (order : MemoryOrder)
    (location : Location)
    (message : Nat) :
    (memory.apply thread (.store order location message)).carried location
        message ⊆
      (memory.apply thread (.store order location message)).knows
        thread := by
  cases order <;> simp [apply, learn, carry, released]

/-- A released message carries all that its thread knows. -/
theorem subset_carried_release (location : Location) (message : Nat) :
    memory.knows thread ⊆
      (memory.apply thread (.store .release location message)).carried
        location message := by
  intro occurrence isKnown
  simp [apply, learn, carry, released, isKnown]

/-- An acquire load hands over what its message carries. -/
theorem carried_subset_acquired
    {effects : List (Effect Location Cell)}
    {location : Location}
    {message : Nat}
    (loaded : .load .acquire location message ∈ effects)
    (notStored : ∀ order, .store order location message ∉ effects) :
    memory.carried location message ⊆
      (memory.applyAll thread effects).knows thread := by
  induction effects generalizing memory with
  | nil =>
      cases loaded
  | cons effect rest inductionHypothesis =>
      rcases List.mem_cons.mp loaded with rfl | later
      · intro occurrence isCarried
        apply knows_applyAll _ thread rest thread
        simp [apply, learn, handed, isCarried]
      · have same :
            (memory.applyAll thread [effect]).carried location message =
              memory.carried location message := by
          apply memory.carried_applyAll
          intro order member
          rw [List.mem_singleton] at member
          subst member
          exact notStored order List.mem_cons_self
        rw [← same]
        apply inductionHypothesis (memory.applyAll thread [effect]) later
        intro order member
        exact notStored order (List.mem_cons_of_mem effect member)

/-- A cell that no other thread accesses stays settled. -/
theorem Settled.applyAll
    {memory : Memory Thread Location Cell}
    {owner : Thread}
    {cell : Cell}
    (settled : memory.Settled owner cell)
    {effects : List (Effect Location Cell)}
    (own : .access cell ∈ effects → thread = owner) :
    (memory.applyAll thread effects).Settled owner cell := by
  induction effects generalizing memory with
  | nil =>
      exact settled
  | cons effect rest inductionHypothesis =>
      have first : (memory.apply thread effect).Settled owner cell := by
        intro number bound
        cases effect with
        | access other =>
            by_cases same : cell = other
            · subst same
              have isOwner := own List.mem_cons_self
              subst isOwner
              simp only [apply, Function.update_self] at bound
              rcases Nat.lt_succ_iff_lt_or_eq.mp bound with old | rfl
              · exact memory.knows_apply _ _ (settled number old)
              · simp [apply, learn]
            · simp only [apply, Function.update_of_ne same] at bound
              exact memory.knows_apply _ _ (settled number bound)
        | load | store | begins | ends =>
            exact memory.knows_apply _ _ (settled number bound)
      apply inductionHypothesis first
      intro member
      exact own (List.mem_cons_of_mem effect member)

end Effects

end Memory

section Machines

variable {State Label Thread Location Cell : Type}

/-- The memory accesses of a step function. -/
structure Accesses (State Label Thread Location Cell : Type) where
  thread : Label → Thread
  effects : State → Label → List (Effect Location Cell)

/-- A state together with the memory behind it. -/
structure Ordered (State Thread Location Cell : Type) where
  state : State
  memory : Memory Thread Location Cell := {}

/-- A step of the program, or something that the clients do. -/
inductive Move (Label Thread : Type) where
  | step (label : Label)
  /-- A client does something of its own. -/
  | act (thread : Thread) (name : Nat)
  /-- What the source did so far happens before what the target does next. -/
  | synchronize (source target : Thread)
  deriving Repr, DecidableEq

/-- The step of the program that a move makes, if any. -/
def Move.label? : Move Label Thread → Option Label
  | .step label => some label
  | .act _ _ | .synchronize _ _ => none

variable [DecidableEq Thread] [DecidableEq Location] [DecidableEq Cell]

/-- A step function with the knowledge that its accesses pass on. -/
def orderedStep?
    (step? : StepFunction State Label)
    (accesses : Accesses State Label Thread Location Cell) :
    StepFunction (Ordered State Thread Location Cell) (Move Label Thread)
  | ordered, .step label =>
      (step? ordered.state label).map fun next =>
        { state := next
          memory :=
            ordered.memory.applyAll (accesses.thread label)
              (accesses.effects ordered.state label) }
  | ordered, .act thread name =>
      some { ordered with
        memory := ordered.memory.learn thread [.action name] }
  | ordered, .synchronize source target =>
      some { ordered with
        memory :=
          ordered.memory.learn target (ordered.memory.knows source) }

/--
Whichever step is taken next, each cell it accesses has only been accessed by
steps that happen before it.
-/
def RaceFree
    (accesses : Accesses State Label Thread Location Cell)
    (ordered : Ordered State Thread Location Cell) : Prop :=
  ∀ label cell,
    .access cell ∈ accesses.effects ordered.state label →
    ordered.memory.Settled (accesses.thread label) cell

/-- Loads are coherent. -/
def coherently
    (accesses : Accesses State Label Thread Location Cell) :
    StepGuard (Ordered State Thread Location Cell) (Move Label Thread)
  | ordered, .step label =>
      ∀ effect ∈ accesses.effects ordered.state label,
        ordered.memory.Coherent (accesses.thread label) effect
  | _, _ => True

instance (accesses : Accesses State Label Thread Location Cell) :
    ∀ (ordered : Ordered State Thread Location Cell)
      (move : Move Label Thread),
      Decidable (coherently accesses ordered move)
  | _, .step _ => inferInstanceAs (Decidable (∀ _ ∈ _, _))
  | _, .act _ _ => .isTrue trivial
  | _, .synchronize _ _ => .isTrue trivial

section Runs

variable {step? : StepFunction State Label}
variable {accesses : Accesses State Label Thread Location Cell}

/-- Forgetting the memory, a run is a run of the program. -/
theorem Run.ofOrdered
    {guard : StepGuard (Ordered State Thread Location Cell)
      (Move Label Thread)}
    {stepGuard : StepGuard State Label}
    {initial ordered : Ordered State Thread Location Cell}
    {moves : List (Move Label Thread)}
    (implied :
      ∀ ordered label,
        guard ordered (.step label) → stepGuard ordered.state label)
    (run :
      Run (orderedStep? step? accesses) guard initial moves ordered) :
    Run step? stepGuard initial.state (moves.filterMap Move.label?)
      ordered.state := by
  induction run with
  | start =>
      exact .start
  | snoc earlier admitted taken inductionHypothesis =>
      rename_i moves ordered next move
      rw [List.filterMap_append]
      cases move with
      | step label =>
          obtain ⟨state, takes, rfl⟩ := Option.map_eq_some_iff.mp taken
          exact inductionHypothesis.snoc (implied _ _ admitted) takes
      | act thread name | synchronize source target =>
          cases taken
          simpa [List.filterMap, Move.label?] using inductionHypothesis

/-- Whatever the clients do, the state is one that the program reaches. -/
theorem Run.unordered
    {guard : StepGuard (Ordered State Thread Location Cell)
      (Move Label Thread)}
    {initial ordered : Ordered State Thread Location Cell}
    {moves : List (Move Label Thread)}
    (run :
      Run (orderedStep? step? accesses) guard initial moves ordered) :
    Run step? unrestricted initial.state (moves.filterMap Move.label?)
      ordered.state :=
  run.ofOrdered fun _ _ _ => trivial

/--
A property holds along a run when the effects of each step keep it, and when
threads may learn more of what is known already.
-/
theorem Run.ordered_invariant
    {guard : StepGuard (Ordered State Thread Location Cell)
      (Move Label Thread)}
    {initial ordered : Ordered State Thread Location Cell}
    {moves : List (Move Label Thread)}
    (Known : State → Prop)
    {Holds : Ordered State Thread Location Cell → Prop}
    (known :
      ∀ {moves ordered},
        Run (orderedStep? step? accesses) guard initial moves ordered →
        Known ordered.state)
    (base : Holds initial)
    (stepped :
      ∀ {state next label memory},
        Known state →
        Known next →
        Holds ⟨state, memory⟩ →
        guard ⟨state, memory⟩ (.step label) →
        step? state label = some next →
        Holds
          ⟨next,
            memory.applyAll (accesses.thread label)
              (accesses.effects state label)⟩)
    (learned :
      ∀ {state memory thread more},
        Holds ⟨state, memory⟩ →
        (∀ occurrence ∈ more,
          (∃ name, occurrence = .action name) ∨
            ∃ source, occurrence ∈ memory.knows source) →
        Holds ⟨state, memory.learn thread more⟩)
    (run :
      Run (orderedStep? step? accesses) guard initial moves ordered) :
    Holds ordered := by
  refine run.invariant_of known base ?_
  rintro ⟨state, memory⟩ next move before after holds admitted taken
  cases move with
  | step label =>
      obtain ⟨following, takes, rfl⟩ := Option.map_eq_some_iff.mp taken
      exact stepped before after holds admitted takes
  | act thread name =>
      cases taken
      apply learned holds
      intro occurrence member
      rw [List.mem_singleton] at member
      exact Or.inl ⟨name, member⟩
  | synchronize source target =>
      cases taken
      apply learned holds
      intro occurrence member
      exact Or.inr ⟨source, member⟩

end Runs

end Machines

end ConcurrentQueue
