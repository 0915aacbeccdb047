import ConcurrentQueue.Library.Run

namespace ConcurrentQueue

/-!
# Objects used by one thread

A thread that uses an object alone makes one call after another: it invokes,
takes the steps of the call, and responds.  Such an object serves a sequence
of calls if every way of making them gives the expected results and no call
fails to return.  This module is independent of any particular object.  It
defines what serving means and the simulation by which it is proved.
-/

variable {State Label Op Result Spec : Type}

/-- Whatever is done next, and something can be done, the goal is reached. -/
inductive Inevitable
    (step? : StepFunction State Label)
    (guard : StepGuard State Label)
    (Goal : State → Prop) :
    State → Prop where
  | here {state : State} :
      Goal state →
      Inevitable step? guard Goal state
  | later {state : State} :
      (∃ label next, guard state label ∧ step? state label = some next) →
      (∀ label next,
        guard state label →
        step? state label = some next →
        Inevitable step? guard Goal next) →
      Inevitable step? guard Goal state

namespace Inevitable

variable {step? : StepFunction State Label}
variable {guard : StepGuard State Label}
variable {Goal : State → Prop}

/-- A rank that every step lowers, where some step is enabled. -/
theorem of_rank
    {Known : State → Prop}
    (rank : State → Nat)
    (enabled :
      ∀ {state},
        Known state →
        ¬ Goal state →
        ∃ label next, guard state label ∧ step? state label = some next)
    (lowered :
      ∀ {state label next},
        Known state →
        guard state label →
        step? state label = some next →
        Known next ∧ rank next < rank state)
    {state : State}
    (known : Known state) :
    Inevitable step? guard Goal state := by
  generalize bound : rank state = measure
  induction measure using Nat.strongRecOn generalizing state with
  | ind measure inductionHypothesis =>
      by_cases reached : Goal state
      · exact .here reached
      · apply Inevitable.later (enabled known reached)
        intro label next admitted taken
        obtain ⟨knownNext, decreases⟩ := lowered known admitted taken
        rw [bound] at decreases
        exact inductionHypothesis _ decreases knownNext rfl

/-- What is inevitable happens in some run. -/
theorem exists_run
    {state : State}
    (inevitable : Inevitable step? guard Goal state) :
    ∃ labels final, Run step? guard state labels final ∧ Goal final := by
  induction inevitable with
  | here reached =>
      exact ⟨[], _, .start, reached⟩
  | later enabled _ inductionHypothesis =>
      obtain ⟨label, next, admitted, taken⟩ := enabled
      obtain ⟨labels, final, run, reached⟩ :=
        inductionHypothesis label next admitted taken
      exact ⟨label :: labels, final, run.cons admitted taken, reached⟩

end Inevitable

/-- An object and the labels with which one thread calls it. -/
structure SerialObject (State Label Op Result : Type) where
  step? : StepFunction State Label
  /-- The steps that the thread may take within a call. -/
  inner : Op → StepGuard State Label
  /-- Those of them that may happen any number of times in vain. -/
  spurious : StepGuard State Label
  invoke : Op → Label
  respond : Op → Label
  /-- The result of a call that is about to respond. -/
  result? : Op → State → Option Result

namespace SerialObject

variable (object : SerialObject State Label Op Result)

/-- A state within a call. -/
def Within (op : Op) (before state : State) : Prop :=
  ∃ entered labels,
    object.step? before (object.invoke op) = some entered ∧
      Run object.step? (object.inner op) entered labels state

/-- A whole call and its result. -/
def Call (op : Op) (result : Result) (before after : State) : Prop :=
  ∃ state,
    object.Within op before state ∧
      object.result? op state = some result ∧
      object.step? state (object.respond op) = some after

/-- Calls made one after another and their results. -/
inductive Calls : State → List Op → List Result → State → Prop where
  | nothing {state : State} :
      Calls state [] [] state
  | call
      {before next after : State}
      {op : Op} {ops : List Op}
      {result : Result} {results : List Result} :
      object.Call op result before next →
      Calls next ops results after →
      Calls before (op :: ops) (result :: results) after

/-- The call returns, unless spurious steps go on for ever. -/
def Returns (op : Op) (state : State) : Prop :=
  Inevitable object.step?
    (fun state label =>
      object.inner op state label ∧ ¬ object.spurious state label)
    (fun state => (object.result? op state).isSome = true)
    state

/-- The calls can be made, they all return, and only with these results. -/
structure Serves
    (initial : State)
    (ops : List Op)
    (results : List Result) : Prop where
  answered :
    ∀ {earlier later returned state},
      ops = earlier ++ later →
      object.Calls initial earlier returned state →
      returned <+: results
  returns :
    ∀ {earlier op later returned before},
      ops = earlier ++ op :: later →
      object.Calls initial earlier returned before →
      (object.step? before (object.invoke op)).isSome = true ∧
        ∀ {state},
          object.Within op before state →
          object.Returns op state
  completes :
    ∃ final, object.Calls initial ops results final

end SerialObject

/-- The answers of a specification to calls made one after another. -/
inductive Script
    (answer? : Spec → Op → Option (Result × Spec)) :
    Spec → List Op → List Result → Spec → Prop where
  | nothing {spec : Spec} :
      Script answer? spec [] [] spec
  | call
      {spec next final : Spec}
      {op : Op} {ops : List Op}
      {result : Result} {results : List Result} :
      answer? spec op = some (result, next) →
      Script answer? next ops results final →
      Script answer? spec (op :: ops) (result :: results) final

/--
An object that answers at most `limit` allowed calls as its specification
does.  Between calls it is `Idle` after some number of calls; a call whose
result is due keeps it `Busy` until the result is handed back.
-/
structure SerialSimulation
    (object : SerialObject State Label Op Result)
    (answer? : Spec → Op → Option (Result × Spec))
    (allowed : Op → Prop)
    (limit : Nat) where
  Idle : Nat → Spec → State → Prop
  Busy : Nat → Op → Result → Spec → State → Prop
  rank : Op → State → Nat
  invoked :
    ∀ {calls spec state op result after},
      calls < limit →
      allowed op →
      Idle calls spec state →
      answer? spec op = some (result, after) →
      ∃ entered,
        object.step? state (object.invoke op) = some entered ∧
          Busy calls op result after entered
  stepped :
    ∀ {calls op result after state label next},
      Busy calls op result after state →
      object.inner op state label →
      object.step? state label = some next →
      Busy calls op result after next ∧
        (¬ object.spurious state label →
          rank op next < rank op state)
  enabled :
    ∀ {calls op result after state},
      Busy calls op result after state →
      object.result? op state = none →
      ∃ label next,
        (object.inner op state label ∧ ¬ object.spurious state label) ∧
          object.step? state label = some next
  responded :
    ∀ {calls op result after state returned},
      Busy calls op result after state →
      object.result? op state = some returned →
      returned = result ∧
        ∃ next,
          object.step? state (object.respond op) = some next ∧
            Idle (calls + 1) after next

namespace SerialSimulation

variable {object : SerialObject State Label Op Result}
variable {answer? : Spec → Op → Option (Result × Spec)}
variable {allowed : Op → Prop} {limit calls : Nat}
variable {spec after : Spec} {op : Op} {result : Result}
variable {ops : List Op} {results : List Result}
variable {before state : State}
variable (simulation : SerialSimulation object answer? allowed limit)

include simulation in
/-- The object stays busy with a call until it responds. -/
theorem busy_of_within
    (few : calls < limit)
    (isAllowed : allowed op)
    (idle : simulation.Idle calls spec before)
    (answers : answer? spec op = some (result, after))
    (within : object.Within op before state) :
    simulation.Busy calls op result after state := by
  obtain ⟨entered, labels, invokes, run⟩ := within
  obtain ⟨entered', invokes', busy⟩ :=
    simulation.invoked few isAllowed idle answers
  have same : entered' = entered :=
    Option.some.inj (invokes'.symm.trans invokes)
  rw [same] at busy
  exact run.invariant busy fun busy admitted taken =>
    (simulation.stepped busy admitted taken).1

include simulation in
/-- A busy object returns. -/
theorem returns_of_busy
    (busy : simulation.Busy calls op result after state) :
    object.Returns op state := by
  apply Inevitable.of_rank (simulation.rank op) _ _ busy
  · intro state busy unanswered
    apply simulation.enabled busy
    rw [Bool.not_eq_true, Option.isSome_eq_false_iff,
      Option.isNone_iff_eq_none] at unanswered
    exact unanswered
  · intro state label next busy admitted taken
    obtain ⟨busyNext, lowered⟩ :=
      simulation.stepped busy admitted.1 taken
    exact ⟨busyNext, lowered admitted.2⟩

include simulation in
/-- A whole call returns the result that is due. -/
theorem idle_of_call
    (few : calls < limit)
    (isAllowed : allowed op)
    (idle : simulation.Idle calls spec before)
    (answers : answer? spec op = some (result, after))
    {returned : Result}
    (call : object.Call op returned before state) :
    returned = result ∧ simulation.Idle (calls + 1) after state := by
  obtain ⟨last, within, isResult, responds⟩ := call
  have busy :=
    simulation.busy_of_within few isAllowed idle answers within
  obtain ⟨same, next, responds', idleNext⟩ :=
    simulation.responded busy isResult
  have sameState : next = state :=
    Option.some.inj (responds'.symm.trans responds)
  rw [sameState] at idleNext
  exact ⟨same, idleNext⟩

include simulation in
/-- An idle object can be called. -/
theorem exists_call
    (few : calls < limit)
    (isAllowed : allowed op)
    (idle : simulation.Idle calls spec before)
    (answers : answer? spec op = some (result, after)) :
    ∃ next,
      object.Call op result before next ∧
        simulation.Idle (calls + 1) after next := by
  obtain ⟨entered, invokes, busy⟩ :=
    simulation.invoked few isAllowed idle answers
  obtain ⟨labels, last, run, isSome⟩ :=
    (simulation.returns_of_busy busy).exists_run
  have within : object.Within op before last :=
    ⟨entered, labels, invokes,
      run.mono fun _ _ admitted => admitted.1⟩
  obtain ⟨returned, isResult⟩ := Option.isSome_iff_exists.mp isSome
  have busyLast :=
    simulation.busy_of_within few isAllowed idle answers within
  obtain ⟨same, next, responds, idleNext⟩ :=
    simulation.responded busyLast isResult
  rw [same] at isResult
  exact ⟨next, ⟨last, within, isResult, responds⟩, idleNext⟩

include simulation in
/-- Calls so far returned what was due, and the object is idle again. -/
theorem idle_of_calls
    {earlier later : List Op}
    {returned : List Result}
    {final : Spec}
    (few : calls + (earlier ++ later).length ≤ limit)
    (allAllowed : ∀ op ∈ earlier ++ later, allowed op)
    (idle : simulation.Idle calls spec before)
    (script : Script answer? spec (earlier ++ later) results final)
    (made : object.Calls before earlier returned state) :
    ∃ rest middle,
      results = returned ++ rest ∧
        Script answer? middle later rest final ∧
        simulation.Idle (calls + earlier.length) middle state := by
  induction made generalizing calls spec results with
  | nothing =>
      exact ⟨results, spec, rfl, script, idle⟩
  | call call _ inductionHypothesis =>
      rw [List.cons_append] at script allAllowed few
      cases script with
      | call answers script =>
          simp only [List.length_cons] at few ⊢
          obtain ⟨rfl, idleNext⟩ :=
            simulation.idle_of_call (by omega)
              (allAllowed _ List.mem_cons_self) idle answers call
          obtain ⟨rest, middle, rfl, scriptRest, idleLast⟩ :=
            inductionHypothesis (by omega)
              (fun op member =>
                allAllowed op (List.mem_cons_of_mem _ member))
              idleNext script
          refine ⟨rest, middle, rfl, scriptRest, ?_⟩
          rw [Nat.add_right_comm, Nat.add_assoc] at idleLast
          exact idleLast

include simulation in
/-- All calls of a script can be made. -/
theorem exists_calls
    {final : Spec}
    (few : calls + ops.length ≤ limit)
    (allAllowed : ∀ op ∈ ops, allowed op)
    (idle : simulation.Idle calls spec before)
    (script : Script answer? spec ops results final) :
    ∃ after, object.Calls before ops results after := by
  induction script generalizing calls before with
  | nothing =>
      exact ⟨before, .nothing⟩
  | call answers _ inductionHypothesis =>
      rw [List.length_cons] at few
      obtain ⟨next, call, idleNext⟩ :=
        simulation.exists_call (by omega)
          (allAllowed _ List.mem_cons_self) idle answers
      obtain ⟨after, rest⟩ :=
        inductionHypothesis (by omega)
          (fun op member =>
            allAllowed op (List.mem_cons_of_mem _ member))
          idleNext
      exact ⟨after, .call call rest⟩

include simulation in
/-- A simulated object serves every script that is not too long. -/
theorem serves
    {initial : State}
    {final : Spec}
    (idle : simulation.Idle 0 spec initial)
    (few : ops.length ≤ limit)
    (allAllowed : ∀ op ∈ ops, allowed op)
    (script : Script answer? spec ops results final) :
    object.Serves initial ops results := by
  refine ⟨?_, ?_, ?_⟩
  · intro earlier later returned state shape made
    subst shape
    obtain ⟨rest, _, same, _⟩ :=
      simulation.idle_of_calls (by omega) allAllowed idle script made
    exact ⟨rest, same.symm⟩
  · intro earlier op later returned before shape made
    subst shape
    obtain ⟨rest, middle, _, scriptRest, idleBefore⟩ :=
      simulation.idle_of_calls (by omega) allAllowed idle script made
    rw [List.length_append, List.length_cons] at few
    have isAllowed : allowed op :=
      allAllowed op (List.mem_append_right _ List.mem_cons_self)
    cases scriptRest with
    | call answers _ =>
        constructor
        · obtain ⟨entered, invokes, _⟩ :=
            simulation.invoked (by omega) isAllowed idleBefore answers
          rw [invokes]
          rfl
        · intro state within
          apply simulation.returns_of_busy
          exact simulation.busy_of_within (by omega) isAllowed idleBefore
            answers within
  · exact simulation.exists_calls (by omega) allAllowed idle script

end SerialSimulation

end ConcurrentQueue
