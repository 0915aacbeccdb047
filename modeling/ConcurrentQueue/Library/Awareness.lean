import ConcurrentQueue.Library.HappensBefore
import ConcurrentQueue.Library.History

namespace ConcurrentQueue

/-!
# What calls come to know

A call stores messages and knows of them when it returns, it knows when it
returns all that was known when it was made, and the messages of an object
that is only stored with release carry what was known when the storing call
was made.

Clients may order two kinds of calls by joining: a call of the one kind is
only made when all calls of the other kind have returned, by a thread that
knows what was known at their ends.
-/

variable {State Label Thread Location Cell Op Mark Result : Type}

/-- The effect is a load or a plain access. -/
def Effect.isInner : Effect Location Cell → Bool
  | .load _ _ _ | .access _ => true
  | .store _ _ _ | .begins _ | .ends _ => false

/-- Where a state keeps its calls and the calls that stored its messages. -/
structure Recording
    (State Label Thread Location Op Mark Result : Type) where
  log : State → CallLog Thread Op Mark Result
  author? : State → Location → Nat → Option Nat
  /-- The operation that a step starts a call on, if it starts one. -/
  op? : Label → Option Op

/-- The log after a step in the middle of the thread's call. -/
def CallLog.Continues
    [DecidableEq Thread]
    (log next : CallLog Thread Op Mark Result)
    (thread : Thread) : Prop :=
  next = log ∨ ∃ made, next = log.mark thread made

namespace CallLog.Continues

variable [DecidableEq Thread]
variable {log next : CallLog Thread Op Mark Result} {thread : Thread}

/-- A step in the middle of a call adds at most a mark. -/
theorem history_cases
    (continues : log.Continues next thread) :
    next.history = log.history ∨
      ∃ call made, next.history = log.history ++ [.mark call made] := by
  rcases continues with rfl | ⟨made, rfl⟩
  · exact Or.inl rfl
  · unfold mark
    split
    · exact Or.inl rfl
    · rename_i opened _
      exact Or.inr ⟨opened.call, made, rfl⟩

/-- It starts no call. -/
theorem nextCall_eq
    (continues : log.Continues next thread) :
    next.nextCall = log.nextCall := by
  rcases continues with rfl | ⟨made, rfl⟩
  · rfl
  · unfold mark
    split <;> rfl

/-- A call in progress was in progress before. -/
theorem current
    (continues : log.Continues next thread)
    {other : Thread}
    {opened : OpenCall Op Mark}
    (isCurrent : next.current other = some opened) :
    ∃ before,
      log.current other = some before ∧
        before.call = opened.call ∧ before.op = opened.op := by
  rcases continues with rfl | ⟨made, rfl⟩
  · exact ⟨opened, isCurrent, rfl, rfl⟩
  · unfold mark at isCurrent
    split at isCurrent
    · exact ⟨opened, isCurrent, rfl, rfl⟩
    · rename_i own isOwn
      by_cases same : other = thread
      · subst same
        simp only [Function.update_self, Option.some.injEq] at isCurrent
        subst isCurrent
        exact ⟨own, isOwn, rfl, rfl⟩
      · simp only [Function.update_of_ne same] at isCurrent
        exact ⟨opened, isCurrent, rfl, rfl⟩

end CallLog.Continues

section Definitions

variable [DecidableEq Thread]
variable (accesses : Accesses State Label Thread Location Cell)
variable (recording : Recording State Label Thread Location Op Mark Result)

/-- What a step records of the call it belongs to. -/
inductive Records (state : State) (label : Label) (next : State) : Prop where
  | invokes {op}
      (starts : recording.op? label = some op)
      (isIdle :
        (recording.log state).current (accesses.thread label) = none)
      (isLogged :
        recording.log next =
          (recording.log state).invoke (accesses.thread label) op)
      (isEffect :
        accesses.effects state label =
          [.begins (recording.log state).nextCall])
      (sameAuthors : recording.author? next = recording.author? state)
  | responds {opened result}
      (isCurrent :
        (recording.log state).current (accesses.thread label) =
          some opened)
      (isLogged :
        recording.log next =
          (recording.log state).respond (accesses.thread label) result)
      (isEffect : accesses.effects state label = [.ends opened.call])
      (sameAuthors : recording.author? next = recording.author? state)
  | works {opened}
      (isCurrent :
        (recording.log state).current (accesses.thread label) =
          some opened)
      (isLogged :
        (recording.log state).Continues (recording.log next)
          (accesses.thread label))
      (inner :
        ∀ effect ∈ accesses.effects state label, effect.isInner = true)
      (sameAuthors : recording.author? next = recording.author? state)
  | stores {opened order location message}
      (isCurrent :
        (recording.log state).current (accesses.thread label) =
          some opened)
      (isLogged :
        (recording.log state).Continues (recording.log next)
          (accesses.thread label))
      (isEffect :
        accesses.effects state label = [.store order location message])
      (fresh : recording.author? state location message = none)
      (isAuthor :
        recording.author? next location message = some opened.call)
      (otherAuthors :
        ∀ other later,
          ¬ (other = location ∧ later = message) →
          recording.author? next other later =
            recording.author? state other later)

/-- What calls know of their own stores, and at their ends. -/
structure Aware (ordered : Ordered State Thread Location Cell) : Prop where
  /-- Whatever was stored was stored by a call. -/
  authors :
    ∀ {location message call},
      recording.author? ordered.state location message = some call →
      call < (recording.log ordered.state).nextCall
  /-- A call in progress knows its stores and what they carry. -/
  stored :
    ∀ {thread opened location message},
      (recording.log ordered.state).current thread = some opened →
      recording.author? ordered.state location message =
        some opened.call →
      .seen location message ∈ ordered.memory.knows thread ∧
        ordered.memory.carried location message ⊆
          ordered.memory.knows thread
  /-- So does a call that has returned. -/
  storedEnded :
    ∀ {thread call result location message},
      .respond thread call result ∈
        (recording.log ordered.state).history →
      recording.author? ordered.state location message = some call →
      .seen location message ∈ ordered.memory.ended call ∧
        ordered.memory.carried location message ⊆
          ordered.memory.ended call
  /-- A thread remembers what it knew when it made its call. -/
  remembered :
    ∀ {thread opened},
      (recording.log ordered.state).current thread = some opened →
      ordered.memory.begun opened.call ⊆ ordered.memory.knows thread
  /-- A call ends with at least the knowledge it began with. -/
  begunEnded :
    ∀ {thread call result},
      .respond thread call result ∈
        (recording.log ordered.state).history →
      ordered.memory.begun call ⊆ ordered.memory.ended call

/-- Messages of the location carry what was known at their authors' calls. -/
def Releases
    (location : Location)
    (ordered : Ordered State Thread Location Cell) : Prop :=
  ∀ message call,
    recording.author? ordered.state location message = some call →
    ordered.memory.begun call ⊆ ordered.memory.carried location message

end Definitions

namespace Records

variable [DecidableEq Thread]
variable {accesses : Accesses State Label Thread Location Cell}
variable {recording : Recording State Label Thread Location Op Mark Result}
variable {state next : State} {label : Label}

/--
A call in progress was in progress before the step or is the one it starts.
-/
theorem current_cases
    (records : Records accesses recording state label next)
    {thread : Thread}
    {opened : OpenCall Op Mark}
    (isCurrent : (recording.log next).current thread = some opened) :
    (∃ before,
      (recording.log state).current thread = some before ∧
        before.call = opened.call ∧ before.op = opened.op) ∨
      thread = accesses.thread label ∧
        opened.call = (recording.log state).nextCall ∧
        recording.op? label = some opened.op ∧
        accesses.effects state label = [.begins opened.call] ∧
        recording.author? next = recording.author? state := by
  cases records with
  | invokes starts isIdle isLogged isEffect sameAuthors =>
      rw [isLogged, CallLog.current_invoke, Function.update_apply]
        at isCurrent
      split at isCurrent
      · rename_i same
        simp only [Option.some.injEq] at isCurrent
        subst isCurrent
        exact Or.inr ⟨same, rfl, starts, isEffect, sameAuthors⟩
      · exact Or.inl ⟨opened, isCurrent, rfl, rfl⟩
  | responds isOwn isLogged isEffect sameAuthors =>
      rw [isLogged, CallLog.respond_of_current _ isOwn] at isCurrent
      simp only [Function.update_apply] at isCurrent
      split at isCurrent
      · cases isCurrent
      · exact Or.inl ⟨opened, isCurrent, rfl, rfl⟩
  | works _ isLogged | stores _ isLogged =>
      exact Or.inl (isLogged.current isCurrent)

/-- A response was there before the step or ends its call. -/
theorem respond_cases
    (records : Records accesses recording state label next)
    {owner : Thread}
    {call : Nat}
    {result : Result}
    (returned : .respond owner call result ∈ (recording.log next).history) :
    .respond owner call result ∈ (recording.log state).history ∨
      ∃ opened,
        (recording.log state).current (accesses.thread label) =
            some opened ∧
          opened.call = call ∧
          accesses.effects state label = [.ends call] ∧
          recording.author? next = recording.author? state := by
  cases records with
  | invokes _ _ isLogged =>
      left
      simpa [isLogged] using returned
  | responds isOwn isLogged isEffect sameAuthors =>
      rw [isLogged, CallLog.respond_of_current _ isOwn] at returned
      simp only [List.mem_append, List.mem_singleton, Event.respond.injEq]
        at returned
      rcases returned with old | ⟨_, rfl, _⟩
      · exact Or.inl old
      · exact Or.inr ⟨_, isOwn, rfl, isEffect, sameAuthors⟩
  | works _ isLogged | stores _ isLogged =>
      left
      rcases isLogged.history_cases with same | ⟨_, _, shape⟩
      · rwa [same] at returned
      · simpa [shape] using returned

/-- An invocation was there before the step or starts its call. -/
theorem invoke_cases
    (records : Records accesses recording state label next)
    {owner : Thread}
    {call : Nat}
    {op : Op}
    (invoked : .invoke owner call op ∈ (recording.log next).history) :
    .invoke owner call op ∈ (recording.log state).history ∨
      call = (recording.log state).nextCall ∧
        recording.op? label = some op ∧
        accesses.effects state label = [.begins call] := by
  cases records with
  | invokes starts isIdle isLogged isEffect =>
      rw [isLogged, CallLog.history_invoke] at invoked
      simp only [List.mem_append, List.mem_singleton, Event.invoke.injEq]
        at invoked
      rcases invoked with old | ⟨_, rfl, rfl⟩
      · exact Or.inl old
      · exact Or.inr ⟨rfl, starts, isEffect⟩
  | responds isOwn isLogged =>
      left
      simpa [isLogged, CallLog.respond_of_current _ isOwn] using invoked
  | works _ isLogged | stores _ isLogged =>
      left
      rcases isLogged.history_cases with same | ⟨_, _, shape⟩
      · rwa [same] at invoked
      · simpa [shape] using invoked

/-- Nothing is taken out of the history. -/
theorem history_subset
    (records : Records accesses recording state label next) :
    (recording.log state).history ⊆ (recording.log next).history := by
  cases records with
  | invokes _ _ isLogged =>
      simp [isLogged]
  | responds _ isLogged =>
      rw [isLogged]
      exact List.Sublist.subset (CallLog.history_sublist_respond _ _ _)
  | works _ isLogged | stores _ isLogged =>
      rcases isLogged.history_cases with same | ⟨_, _, shape⟩
      · simp [same]
      · simp [shape]

/-- Identities of calls are not given back. -/
theorem nextCall_le
    (records : Records accesses recording state label next) :
    (recording.log state).nextCall ≤ (recording.log next).nextCall := by
  cases records with
  | invokes _ _ isLogged =>
      simp [isLogged]
  | responds isOwn isLogged =>
      simp [isLogged, CallLog.respond_of_current _ isOwn]
  | works _ isLogged | stores _ isLogged =>
      exact Nat.le_of_eq isLogged.nextCall_eq.symm

/-- A message was stored before the step or is stored by its call. -/
theorem author_cases
    (records : Records accesses recording state label next)
    {location : Location}
    {message call : Nat}
    (authored : recording.author? next location message = some call) :
    recording.author? state location message = some call ∨
      ∃ opened order,
        (recording.log state).current (accesses.thread label) =
            some opened ∧
          opened.call = call ∧
          accesses.effects state label = [.store order location message] ∧
          (recording.log state).Continues (recording.log next)
            (accesses.thread label) := by
  cases records with
  | invokes _ _ _ _ sameAuthors | responds _ _ _ sameAuthors
  | works _ _ _ sameAuthors =>
      left
      rwa [sameAuthors] at authored
  | stores isCurrent isLogged isEffect fresh isAuthor otherAuthors =>
      rename_i opened order stored newest
      by_cases same : location = stored ∧ message = newest
      · obtain ⟨rfl, rfl⟩ := same
        rw [isAuthor] at authored
        cases authored
        exact Or.inr ⟨opened, order, isCurrent, rfl, isEffect, isLogged⟩
      · left
        rwa [otherAuthors _ _ same] at authored

/-- A message that has an author is not stored again. -/
theorem not_stored
    (records : Records accesses recording state label next)
    {location : Location}
    {message call : Nat}
    (authored : recording.author? state location message = some call)
    (order : MemoryOrder) :
    .store order location message ∉ accesses.effects state label := by
  cases records with
  | invokes _ _ _ isEffect _ | responds _ _ isEffect _ =>
      simp [isEffect]
  | works _ _ inner _ =>
      intro member
      cases inner _ member
  | stores _ _ isEffect fresh _ _ =>
      rw [isEffect, List.mem_singleton]
      rintro ⟨rfl, rfl, rfl⟩
      rw [fresh] at authored
      cases authored

/-- A call that is not fresh does not begin. -/
theorem not_begun
    (records : Records accesses recording state label next)
    {call : Nat}
    (old : call < (recording.log state).nextCall) :
    .begins call ∉ accesses.effects state label := by
  cases records with
  | invokes _ _ _ isEffect _ =>
      rw [isEffect, List.mem_singleton]
      rintro ⟨rfl⟩
      exact Nat.lt_irrefl _ old
  | responds _ _ isEffect _ | stores _ _ isEffect _ _ _ =>
      simp [isEffect]
  | works _ _ inner _ =>
      intro member
      cases inner _ member

/-- A call that has returned does not end again. -/
theorem not_ended
    (records : Records accesses recording state label next)
    (wellFormed : (recording.log state).WellFormed)
    {owner : Thread}
    {call : Nat}
    {result : Result}
    (returned : .respond owner call result ∈ (recording.log state).history) :
    .ends call ∉ accesses.effects state label := by
  cases records with
  | responds isOwn _ isEffect _ =>
      rw [isEffect, List.mem_singleton]
      rintro ⟨rfl⟩
      exact wellFormed.currentOpen isOwn _ _ returned
  | invokes _ _ _ isEffect _ | stores _ _ isEffect _ _ _ =>
      simp [isEffect]
  | works _ _ inner _ =>
      intro member
      cases inner _ member

end Records

section Knowledge

variable [DecidableEq Thread] [DecidableEq Location] [DecidableEq Cell]
variable {accesses : Accesses State Label Thread Location Cell}
variable {recording : Recording State Label Thread Location Op Mark Result}
variable {state next : State} {label : Label}
variable {memory : Memory Thread Location Cell}

/-- The memory after a step. -/
def Memory.after
    (memory : Memory Thread Location Cell)
    (accesses : Accesses State Label Thread Location Cell)
    (state : State)
    (label : Label) :
    Memory Thread Location Cell :=
  memory.applyAll (accesses.thread label) (accesses.effects state label)

namespace Records

/-- What was known when an old call was made stands. -/
theorem begun_eq
    (records : Records accesses recording state label next)
    {call : Nat}
    (old : call < (recording.log state).nextCall) :
    (memory.after accesses state label).begun call = memory.begun call :=
  memory.begun_applyAll _ (records.not_begun old)

/-- What was known when a call returned stands. -/
theorem ended_eq
    (records : Records accesses recording state label next)
    (wellFormed : (recording.log state).WellFormed)
    {owner : Thread}
    {call : Nat}
    {result : Result}
    (returned : .respond owner call result ∈ (recording.log state).history) :
    (memory.after accesses state label).ended call = memory.ended call :=
  memory.ended_applyAll _ (records.not_ended wellFormed returned)

/-- What a message carries stands. -/
theorem carried_eq
    (records : Records accesses recording state label next)
    {location : Location}
    {message call : Nat}
    (authored : recording.author? state location message = some call) :
    (memory.after accesses state label).carried location message =
      memory.carried location message :=
  memory.carried_applyAll _ (records.not_stored authored)

end Records

namespace Aware

omit [DecidableEq Thread] [DecidableEq Location] [DecidableEq Cell] in
/-- Nothing was called or stored yet. -/
theorem initial
    (noCalls : recording.log state = {})
    (noAuthors :
      ∀ location message, recording.author? state location message = none) :
    Aware recording (⟨state, memory⟩ : Ordered State Thread Location Cell)
    where
  authors := by
    intro location message call authored
    rw [noAuthors] at authored
    cases authored
  stored := by
    intro thread opened location message isCurrent
    rw [noCalls] at isCurrent
    cases isCurrent
  storedEnded := by
    intro thread call result location message returned
    rw [noCalls] at returned
    cases returned
  remembered := by
    intro thread opened isCurrent
    rw [noCalls] at isCurrent
    cases isCurrent
  begunEnded := by
    intro thread call result returned
    rw [noCalls] at returned
    cases returned

omit [DecidableEq Location] [DecidableEq Cell] in
/-- Threads may learn more. -/
theorem learn
    (aware :
      Aware recording (⟨state, memory⟩ : Ordered State Thread Location Cell))
    (thread : Thread)
    (more : List (Occurrence Location Cell)) :
    Aware recording
      (⟨state, memory.learn thread more⟩ :
        Ordered State Thread Location Cell) := by
  have grows := memory.knows_learn thread more
  exact {
    authors := aware.authors
    stored := fun isCurrent authored =>
      have known := aware.stored isCurrent authored
      ⟨grows _ known.1, List.Subset.trans known.2 (grows _)⟩
    storedEnded := aware.storedEnded
    remembered := fun isCurrent =>
      List.Subset.trans (aware.remembered isCurrent) (grows _)
    begunEnded := aware.begunEnded }

omit [DecidableEq Location] [DecidableEq Cell] in
/-- Whatever a step stores is stored by a call. -/
theorem authors_step
    (aware :
      Aware recording (⟨state, memory⟩ : Ordered State Thread Location Cell))
    (wellFormed : (recording.log state).WellFormed)
    (records : Records accesses recording state label next)
    {location : Location}
    {message call : Nat}
    (authored : recording.author? next location message = some call) :
    call < (recording.log next).nextCall := by
  apply Nat.lt_of_lt_of_le _ records.nextCall_le
  rcases records.author_cases authored with
    old | ⟨opened, _, isCurrent, rfl, _⟩
  · exact aware.authors old
  · exact wellFormed.currentFresh isCurrent

/-- A call in progress knows its stores and what they carry. -/
theorem stored_step
    (aware :
      Aware recording (⟨state, memory⟩ : Ordered State Thread Location Cell))
    (wellFormed : (recording.log state).WellFormed)
    (records : Records accesses recording state label next)
    {thread : Thread}
    {opened : OpenCall Op Mark}
    {location : Location}
    {message : Nat}
    (isCurrent : (recording.log next).current thread = some opened)
    (authored :
      recording.author? next location message = some opened.call) :
    .seen location message ∈
        (memory.after accesses state label).knows thread ∧
      (memory.after accesses state label).carried location message ⊆
        (memory.after accesses state label).knows thread := by
  have grows := memory.knows_applyAll (accesses.thread label)
    (accesses.effects state label) thread
  rcases records.current_cases isCurrent with
    ⟨before, wasCurrent, sameCall, _⟩ | ⟨_, isNew, _, _, sameAuthors⟩
  · rw [← sameCall] at authored
    rcases records.author_cases authored with
      old | ⟨own, order, isOwn, isOwnCall, isEffect, _⟩
    · have known := aware.stored wasCurrent old
      rw [records.carried_eq old]
      exact ⟨grows known.1, List.Subset.trans known.2 grows⟩
    · have isThread :=
        wellFormed.currentInjective isOwn wasCurrent isOwnCall
      subst isThread
      rw [Memory.after, isEffect]
      exact ⟨memory.seen_store _ order location message,
        memory.carried_store_subset _ order location message⟩
  · rw [sameAuthors, isNew] at authored
    exact absurd (aware.authors authored) (Nat.lt_irrefl _)

/-- A call that has returned knew as much. -/
theorem storedEnded_step
    (aware :
      Aware recording (⟨state, memory⟩ : Ordered State Thread Location Cell))
    (wellFormed : (recording.log state).WellFormed)
    (records : Records accesses recording state label next)
    {owner : Thread}
    {call : Nat}
    {result : Result}
    {location : Location}
    {message : Nat}
    (returned : .respond owner call result ∈ (recording.log next).history)
    (authored : recording.author? next location message = some call) :
    .seen location message ∈
        (memory.after accesses state label).ended call ∧
      (memory.after accesses state label).carried location message ⊆
        (memory.after accesses state label).ended call := by
  rcases records.respond_cases returned with
    old | ⟨opened, isCurrent, rfl, isEffect, sameAuthors⟩
  · rcases records.author_cases authored with
      before | ⟨own, _, isOwn, rfl, _⟩
    · rw [records.ended_eq wellFormed old, records.carried_eq before]
      exact aware.storedEnded old before
    · exact absurd old (wellFormed.currentOpen isOwn owner result)
  · rw [sameAuthors] at authored
    have known := aware.stored isCurrent authored
    rw [records.carried_eq authored]
    simpa [Memory.after, isEffect, Memory.applyAll, Memory.apply] using known

/-- A thread remembers what it knew when it made its call. -/
theorem remembered_step
    (aware :
      Aware recording (⟨state, memory⟩ : Ordered State Thread Location Cell))
    (wellFormed : (recording.log state).WellFormed)
    (records : Records accesses recording state label next)
    {thread : Thread}
    {opened : OpenCall Op Mark}
    (isCurrent : (recording.log next).current thread = some opened) :
    (memory.after accesses state label).begun opened.call ⊆
      (memory.after accesses state label).knows thread := by
  rcases records.current_cases isCurrent with
    ⟨before, wasCurrent, sameCall, _⟩ | ⟨rfl, _, _, isEffect, _⟩
  · rw [← sameCall, records.begun_eq (wellFormed.currentFresh wasCurrent)]
    exact List.Subset.trans (aware.remembered wasCurrent)
      (memory.knows_applyAll _ _ thread)
  · simp [Memory.after, isEffect, Memory.applyAll, Memory.apply]

/-- A call ends with at least the knowledge it began with. -/
theorem begunEnded_step
    (aware :
      Aware recording (⟨state, memory⟩ : Ordered State Thread Location Cell))
    (wellFormed : (recording.log state).WellFormed)
    (records : Records accesses recording state label next)
    {owner : Thread}
    {call : Nat}
    {result : Result}
    (returned : .respond owner call result ∈ (recording.log next).history) :
    (memory.after accesses state label).begun call ⊆
      (memory.after accesses state label).ended call := by
  rcases records.respond_cases returned with
    old | ⟨opened, isCurrent, rfl, isEffect, _⟩
  · have fresh : call < (recording.log state).nextCall :=
      wellFormed.fresh _ old
    rw [records.ended_eq wellFormed old, records.begun_eq fresh]
    exact aware.begunEnded old
  · rw [records.begun_eq (wellFormed.currentFresh isCurrent)]
    simpa [Memory.after, isEffect, Memory.applyAll, Memory.apply]
      using aware.remembered isCurrent

/-- Every step keeps what calls know. -/
theorem step
    (aware :
      Aware recording (⟨state, memory⟩ : Ordered State Thread Location Cell))
    (wellFormed : (recording.log state).WellFormed)
    (records : Records accesses recording state label next) :
    Aware recording
      (⟨next, memory.after accesses state label⟩ :
        Ordered State Thread Location Cell) where
  authors := aware.authors_step wellFormed records
  stored := aware.stored_step wellFormed records
  storedEnded := aware.storedEnded_step wellFormed records
  remembered := aware.remembered_step wellFormed records
  begunEnded := aware.begunEnded_step wellFormed records

end Aware

/-- A location that is only stored with release keeps releasing. -/
theorem Releases.step
    {location : Location}
    (releases :
      Releases recording location
        (⟨state, memory⟩ : Ordered State Thread Location Cell))
    (aware :
      Aware recording (⟨state, memory⟩ : Ordered State Thread Location Cell))
    (records : Records accesses recording state label next)
    (isRelease :
      ∀ order message,
        .store order location message ∈ accesses.effects state label →
        order = .release) :
    Releases recording location
      (⟨next, memory.after accesses state label⟩ :
        Ordered State Thread Location Cell) := by
  intro message call authored
  rcases records.author_cases authored with
    old | ⟨opened, order, isCurrent, rfl, isEffect, _⟩
  · simp only [records.carried_eq old, records.begun_eq (aware.authors old)]
    exact releases message call old
  · have released : order = .release := by
      apply isRelease order message
      simp [isEffect]
    subst released
    simp only [Memory.after, isEffect]
    exact List.Subset.trans (aware.remembered isCurrent)
      (memory.subset_carried_release _ location message)

end Knowledge

end ConcurrentQueue
