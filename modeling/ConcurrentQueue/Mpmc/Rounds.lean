import ConcurrentQueue.Library.Ring
import ConcurrentQueue.Mpmc.Wrap

namespace ConcurrentQueue.Mpmc

/-!
# Rounds of one push and one pop

A thread that meets nobody else passes its claim loop at the first attempt.
Pushing and popping by turns it draws as many tickets as one likes, in a
comparable run, and always gets back the value it has just pushed.
-/

open TicketRing

variable {α : Type}
variable {capacity rounds ticket : Nat} {state : State α}

/-- A step of a thread whose loop is new is comparable. -/
theorem comparable_of_pc
    {thread : Nat}
    {action : Action α}
    {pc : Pc α}
    (isAt : (state.threads thread).pc = pc)
    (current :
      sequential (Arithmetic.exact capacity) state ⟨thread, action⟩)
    (entered :
      ∀ caller,
        pc.attempting = some caller →
        (state.pos caller.side).newest ≤
          (state.threads thread).entered + 2 ^ 61)
    (notSize : ∀ tail, pc ≠ .sizeHead tail)
    (masked :
      capacity.isPowerOfTwo ∨ ∀ side, (state.pos side).newest < 2 ^ 64) :
    comparable capacity state ⟨thread, action⟩ := by
  subst isAt
  refine ⟨current, ?_, ?_, ?_⟩
  · cases isAttempting : (state.threads thread).pc.attempting with
    | none =>
        trivial
    | some caller =>
        exact entered caller isAttempting
  · cases isAt : (state.threads thread).pc with
    | sizeHead tail =>
        exact absurd isAt (notSize tail)
    | _ =>
        trivial
  · exact masked.imp_right fun bound => ⟨bound .producer, bound .consumer⟩

/-- What a claim loop leaves behind that met nobody else. -/
structure PassedAlone
    (capacity : Nat)
    (husk : α)
    (thread : Nat)
    (caller : Caller α)
    (ticket : Nat)
    (state next : State α) : Prop where
  returns :
    (next.threads thread).pc =
      (caller.transfer (state.slots (ticket % capacity)).value
        husk).1.afterSuccess
  sequence :
    ∀ index,
      (next.slots index).sequence.latest =
        if index = ticket % capacity then
          (Arithmetic.exact capacity).published caller.side ticket
        else
          (state.slots index).sequence.latest
  value :
    (next.slots (ticket % capacity)).value =
      (caller.transfer (state.slots (ticket % capacity)).value husk).2
  counter :
    (next.pos caller.side).latest = ticket + 1 ∧
      (next.pos caller.side).newest = (state.pos caller.side).newest + 1
  other : ∀ side, side ≠ caller.side → next.pos side = state.pos side
  closed : next.closed = state.closed
  log : next.log = state.log.mark thread ⟨caller.side, ticket⟩

namespace State

variable (state : State α) (thread : Nat) (caller : Caller α)

/-- The queue once the thread has found its ticket to be the current one. -/
def found (ticket : Nat) : State α :=
  (state.goto thread (.loadSequence caller ticket)).goto thread
    (.exchange caller ticket)

/-- The queue once the thread has won its exchange. -/
def won (capacity ticket : Nat) : State α :=
  ((state.found thread caller ticket).claim (Arithmetic.exact capacity)
    thread caller.side ticket).goto thread (.moveValue caller ticket)

/-- The queue once the thread has assigned its slot or its local. -/
def assigned (capacity ticket : Nat) (husk : α) : State α :=
  let moved :=
    caller.transfer (state.slots (ticket % capacity)).value husk
  ((state.won thread caller capacity ticket).setValue (ticket % capacity)
    moved.2).goto thread (.storeSequence moved.1 ticket)

/-- The queue once a push has found it open. -/
def pushing (value : α) : State α :=
  ((state.invoke thread (.push value)).goto thread
    (.checkClosed (.push value))).goto thread (.loadPos (.push value))

/-- The queue once a pop has been called. -/
def popping (out : α) : State α :=
  (state.invoke thread (.pop out)).goto thread (.loadPos (.pop out false))

end State

section Alone

variable {thread : Nat} {caller : Caller α}

/-- The masks of a run stay valid while it draws one ticket. -/
theorem masked_won
    (masked :
      capacity.isPowerOfTwo ∨
        ∀ side, (state.pos side).newest + 1 < 2 ^ 64) :
    capacity.isPowerOfTwo ∨
      ∀ side,
        ((state.won thread caller capacity ticket).pos side).newest <
          2 ^ 64 := by
  refine masked.imp_right fun bound side => ?_
  have below := bound side
  by_cases isSide : side = caller.side
  · subst isSide
    simpa [State.won, State.found] using below
  · simp only [State.won, State.found, State.pos_goto, State.pos_claim,
      Function.update_of_ne isSide]
    omega

/-- The two loads and the exchange of a loop that meets nobody else. -/
theorem wins_alone
    (isAt : (state.threads thread).pc = .loadPos caller)
    (isTicket : (state.pos caller.side).latest = ticket)
    (entered :
      (state.pos caller.side).newest <
        (state.threads thread).entered + 2 ^ 61)
    (ready :
      (state.slots (ticket % capacity)).sequence.latest =
        (Arithmetic.exact capacity).expected caller.side ticket)
    (masked :
      capacity.isPowerOfTwo ∨ ∀ side, (state.pos side).newest < 2 ^ 64) :
    ∃ labels,
      Run (step? (Arithmetic.exact capacity)) (comparable capacity) state
        labels (state.won thread caller capacity ticket) := by
  let loaded := state.goto thread (.loadSequence caller ticket)
  have loadedAt :
      (loaded.threads thread).pc = .loadSequence caller ticket := by
    simp [loaded]
  have foundAt :
      ((state.found thread caller ticket).threads thread).pc =
        .exchange caller ticket := by
    simp [State.found]
  have loads :
      step? (Arithmetic.exact capacity) state
          ⟨thread, .load (state.pos caller.side).newest⟩ =
        some loaded := by
    simp only [step?, isAt, Atomic.read?_newest, isTicket]
    rfl
  have finds :
      step? (Arithmetic.exact capacity) loaded
          ⟨thread,
            .load (state.slots (ticket % capacity)).sequence.newest⟩ =
        some (state.found thread caller ticket) := by
    simp [step?, loaded, State.found, Arithmetic.exact,
      Atomic.read?_newest, ready, Pc.classify]
  have wins :
      step? (Arithmetic.exact capacity) (state.found thread caller ticket)
          ⟨thread, .exchange none⟩ =
        some (state.won thread caller capacity ticket) := by
    simp [step?, State.found, State.won, isTicket]
  refine ⟨_, ((Run.start.snoc ?_ loads).snoc ?_ finds).snoc ?_ wins⟩
  · apply comparable_of_pc isAt (by simp [sequential, isAt])
    · rintro _ ⟨⟩
      exact Nat.le_of_lt entered
    · simp
    · exact masked
  · apply comparable_of_pc loadedAt
      (by simp [sequential, loaded, Arithmetic.exact])
    · rintro _ ⟨⟩
      simpa [loaded, State.entered_goto_of_not_entry] using
        Nat.le_of_lt entered
    · simp
    · simpa [loaded] using masked
  · apply comparable_of_pc foundAt (by simp [sequential, foundAt])
    · rintro _ ⟨⟩
      simpa [State.found, State.entered_goto_of_not_entry] using
        Nat.le_of_lt entered
    · simp
    · simpa [State.found] using masked

/-- A claim loop that meets nobody else passes in five steps. -/
theorem passes_alone
    (husk : α)
    (isAt : (state.threads thread).pc = .loadPos caller)
    (isTicket : (state.pos caller.side).latest = ticket)
    (entered :
      (state.pos caller.side).newest <
        (state.threads thread).entered + 2 ^ 61)
    (ready :
      (state.slots (ticket % capacity)).sequence.latest =
        (Arithmetic.exact capacity).expected caller.side ticket)
    (masked :
      capacity.isPowerOfTwo ∨
        ∀ side, (state.pos side).newest + 1 < 2 ^ 64) :
    ∃ labels next,
      Run (step? (Arithmetic.exact capacity)) (comparable capacity) state
          labels next ∧
        PassedAlone capacity husk thread caller ticket state next := by
  obtain ⟨labels, run⟩ :=
    wins_alone isAt isTicket entered ready
      (masked.imp_right fun bound side => Nat.lt_of_succ_lt (bound side))
  let won := state.won thread caller capacity ticket
  let assigned := state.assigned thread caller capacity ticket husk
  let moved :=
    caller.transfer (state.slots (ticket % capacity)).value husk
  have wonAt : (won.threads thread).pc = .moveValue caller ticket := by
    simp [won, State.won]
  have assignedAt :
      (assigned.threads thread).pc = .storeSequence moved.1 ticket := by
    simp [assigned, State.assigned, moved]
  have assigns :
      step? (Arithmetic.exact capacity) won ⟨thread, .move husk⟩ =
        some assigned := by
    simp only [step?, wonAt]
    simp [won, assigned, State.assigned, State.won, State.found,
      Arithmetic.exact]
  have stores :
      step? (Arithmetic.exact capacity) assigned ⟨thread, .store⟩ =
        some ((assigned.storeSequence thread (ticket % capacity)
          ((Arithmetic.exact capacity).published caller.side ticket)).goto
            thread moved.1.afterSuccess) := by
    simp [step?, assignedAt, moved, Arithmetic.exact]
  have samePos : ∀ side, assigned.pos side = won.pos side := by
    intro side
    simp [assigned, State.assigned, won]
  refine ⟨_, _, (run.snoc ?_ assigns).snoc ?_ stores, ?_⟩
  · apply comparable_of_pc wonAt (by simp [sequential, wonAt])
    · rintro _ ⟨⟩
      simpa [won, State.won, State.found,
        State.entered_goto_of_not_entry] using Nat.succ_le_of_lt entered
    · simp
    · exact masked_won masked
  · apply comparable_of_pc assignedAt (by simp [sequential, assignedAt])
    · rintro _ ⟨⟩
      simpa [assigned, State.assigned, moved, State.won, State.found,
        State.entered_goto_of_not_entry] using Nat.succ_le_of_lt entered
    · simp
    · simp only [samePos]
      exact masked_won masked
  · constructor
    · simp [moved]
    · intro index
      simp only [State.slots_goto, State.sequence_storeSequence]
      split <;> simp [assigned, State.assigned, State.won, State.found]
    · simp [assigned, State.assigned]
    · simp [assigned, State.assigned, State.won, State.found,
        Arithmetic.exact]
    · intro side different
      simp [assigned, State.assigned, State.won, State.found, different]
    · simp [assigned, State.assigned, State.won, State.found]
    · simp [assigned, State.assigned, State.won, State.found]

/-- The masks stay valid until the loop has passed. -/
theorem PassedAlone.masked
    {husk : α}
    {next : State α}
    (passed : PassedAlone capacity husk thread caller ticket state next)
    (masked :
      capacity.isPowerOfTwo ∨
        ∀ side, (state.pos side).newest + 1 < 2 ^ 64) :
    capacity.isPowerOfTwo ∨ ∀ side, (next.pos side).newest < 2 ^ 64 := by
  refine masked.imp_right fun bound side => ?_
  by_cases isSide : side = caller.side
  · subst isSide
    rw [passed.counter.2]
    exact bound caller.side
  · rw [passed.other side isSide]
    exact Nat.lt_of_succ_lt (bound side)

/-- A push called on an open queue enters its claim loop. -/
theorem push_enters
    (idle : (state.threads thread).pc = .idle)
    (isOpen : state.closed = { initial := false })
    (masked :
      capacity.isPowerOfTwo ∨ ∀ side, (state.pos side).newest < 2 ^ 64)
    (value : α) :
    ∃ labels,
      Run (step? (Arithmetic.exact capacity)) (comparable capacity) state
        labels (state.pushing thread value) := by
  let called :=
    (state.invoke thread (.push value)).goto thread
      (.checkClosed (.push value))
  have calledAt :
      (called.threads thread).pc = .checkClosed (.push value) := by
    simp [called]
  have invokes :
      step? (Arithmetic.exact capacity) state
          ⟨thread, .invoke (.push value)⟩ =
        some called := by
    simp [step?, idle, Pc.start?, called]
  have checks :
      step? (Arithmetic.exact capacity) called ⟨thread, .load 0⟩ =
        some (state.pushing thread value) := by
    simp [step?, called, State.pushing, isOpen, Atomic.read?,
      State.noteClose, Atomic.author?, Caller.afterClosedLoad]
  refine ⟨_, (Run.start.snoc ?_ invokes).snoc ?_ checks⟩
  · apply comparable_of_pc idle (by simp [sequential, idle])
    · rintro _ ⟨⟩
    · simp
    · exact masked
  · apply comparable_of_pc calledAt (by simp [sequential, called, isOpen])
    · rintro _ ⟨⟩
    · simp
    · simpa [called] using masked

/-- A pop enters its claim loop when it is called. -/
theorem pop_enters
    (idle : (state.threads thread).pc = .idle)
    (masked :
      capacity.isPowerOfTwo ∨ ∀ side, (state.pos side).newest < 2 ^ 64)
    (out : α) :
    ∃ labels,
      Run (step? (Arithmetic.exact capacity)) (comparable capacity) state
        labels (state.popping thread out) := by
  have invokes :
      step? (Arithmetic.exact capacity) state ⟨thread, .invoke (.pop out)⟩ =
        some (state.popping thread out) := by
    simp [step?, idle, Pc.start?, State.popping]
  refine ⟨_, Run.start.snoc ?_ invokes⟩
  apply comparable_of_pc idle (by simp [sequential, idle])
  · rintro _ ⟨⟩
  · simp
  · exact masked

/-- A call that has its result returns it. -/
theorem responds_alone
    {result : Result α}
    (returns : (state.threads thread).pc = .returning result)
    (masked :
      capacity.isPowerOfTwo ∨ ∀ side, (state.pos side).newest < 2 ^ 64) :
    Run (step? (Arithmetic.exact capacity)) (comparable capacity) state
      [⟨thread, .respond⟩]
      ((state.respond thread result).goto thread .idle) := by
  have responds :
      step? (Arithmetic.exact capacity) state ⟨thread, .respond⟩ =
        some ((state.respond thread result).goto thread .idle) := by
    simp [step?, returns]
  refine Run.start.snoc ?_ responds
  apply comparable_of_pc returns (by simp [sequential, returns])
  · rintro _ ⟨⟩
  · simp
  · exact masked

end Alone

/-- Every element pushed has been popped again, `rounds` of them so far. -/
structure AtRest
    (capacity rounds : Nat)
    (state : State α) : Prop where
  idle : (state.threads 0).pc = .idle
  isOpen : state.closed = { initial := false }
  counter : ∀ side, (state.pos side).latest = rounds
  drawn : ∀ side, (state.pos side).newest = rounds
  free :
    ∀ offset < capacity,
      (state.slots ((rounds + offset) % capacity)).sequence.latest =
        2 * (rounds + offset)

/-- The constructor leaves a queue at rest. -/
theorem AtRest.initial [Inhabited α] :
    AtRest capacity 0
      (Mpmc.initial (Arithmetic.exact capacity) : State α) where
  idle := rfl
  isOpen := rfl
  counter side := by cases side <;> rfl
  drawn side := by cases side <;> rfl
  free := by
    intro offset inside
    rw [Nat.zero_add, Nat.mod_eq_of_lt inside]
    rfl

/-- One more element has been pushed than popped. -/
structure Loaded
    (capacity rounds : Nat)
    (value : α)
    (state : State α) : Prop where
  idle : (state.threads 0).pc = .idle
  isOpen : state.closed = { initial := false }
  tail :
    (state.pos .producer).latest = rounds + 1 ∧
      (state.pos .producer).newest = rounds + 1
  head :
    (state.pos .consumer).latest = rounds ∧
      (state.pos .consumer).newest = rounds
  filled :
    (state.slots (rounds % capacity)).sequence.latest = 2 * rounds + 1 ∧
      (state.slots (rounds % capacity)).value = value
  free :
    ∀ offset < capacity,
      0 < offset →
        (state.slots ((rounds + offset) % capacity)).sequence.latest =
          2 * (rounds + offset)

/-- A push by one thread, with nobody else about. -/
theorem AtRest.push
    (rest : AtRest capacity rounds state)
    (positive : 0 < capacity)
    (masked : capacity.isPowerOfTwo ∨ rounds + 1 < 2 ^ 64)
    (value husk : α) :
    ∃ labels next,
      Run (step? (Arithmetic.exact capacity)) (comparable capacity) state
          labels next ∧
        Loaded capacity rounds value next := by
  let pushing := state.pushing 0 value
  have pushingAt : (pushing.threads 0).pc = .loadPos (.push value) := by
    simp [pushing, State.pushing]
  have maskedNow :
      capacity.isPowerOfTwo ∨
        ∀ side, (state.pos side).newest + 1 < 2 ^ 64 := by
    refine masked.imp_right fun bound side => ?_
    rw [rest.drawn]
    exact bound
  have maskedPushing :
      capacity.isPowerOfTwo ∨
        ∀ side, (pushing.pos side).newest + 1 < 2 ^ 64 := by
    simpa [pushing, State.pushing] using maskedNow
  have ready :
      (pushing.slots (rounds % capacity)).sequence.latest =
        (Arithmetic.exact capacity).expected .producer rounds := by
    simpa [pushing, State.pushing, Arithmetic.exact] using
      rest.free 0 positive
  obtain ⟨entering, enters⟩ :=
    push_enters rest.idle rest.isOpen
      (maskedNow.imp_right fun bound side => Nat.lt_of_succ_lt (bound side))
      value
  obtain ⟨passing, pushed, passes, push⟩ :=
    passes_alone husk pushingAt
      (by simp [pushing, State.pushing, rest.counter])
      (by simp [pushing, State.pushing]) ready maskedPushing
  have returns : (pushed.threads 0).pc = .returning (.pushed true) :=
    push.returns
  have responds := responds_alone returns (push.masked maskedPushing)
  have tail :
      (pushed.pos .producer).latest = rounds + 1 ∧
        (pushed.pos .producer).newest = rounds + 1 := by
    rw [← rest.drawn .producer]
    simpa [pushing, State.pushing, rest.drawn, Caller.side] using
      push.counter
  have head : pushed.pos .consumer = state.pos .consumer := by
    simpa [pushing, State.pushing] using
      push.other .consumer (by simp [Caller.side])
  refine ⟨_, _, (enters.append passes).append responds, ?_⟩
  constructor
  · simp
  · simp [push.closed, pushing, State.pushing, rest.isOpen]
  · simpa using tail
  · simp [head, rest.drawn, rest.counter]
  · have stored := push.sequence (rounds % capacity)
    have assigned := push.value
    rw [if_pos rfl] at stored
    exact ⟨stored, assigned⟩
  · intro offset inside ahead
    have different : rounds % capacity ≠ (rounds + offset) % capacity :=
      Ring.mod_ne_of_lt (by omega) (by omega)
    have untouched := push.sequence ((rounds + offset) % capacity)
    rw [if_neg different.symm] at untouched
    simpa [untouched, pushing, State.pushing] using rest.free offset inside

/-- A pop by one thread, with nobody else about. -/
theorem Loaded.pop
    {value : α}
    (loaded : Loaded capacity rounds value state)
    (masked : capacity.isPowerOfTwo ∨ rounds + 2 < 2 ^ 64)
    (out husk : α) :
    ∃ labels next call,
      Run (step? (Arithmetic.exact capacity)) (comparable capacity) state
          labels next ∧
        AtRest capacity (rounds + 1) next ∧
        .respond 0 call (.popped true value) ∈ next.log.history := by
  let popping := state.popping 0 out
  have poppingAt : (popping.threads 0).pc = .loadPos (.pop out false) := by
    simp [popping, State.popping]
  have maskedNow :
      capacity.isPowerOfTwo ∨
        ∀ side, (state.pos side).newest + 1 < 2 ^ 64 := by
    refine masked.imp_right fun bound side => ?_
    cases side with
    | producer =>
        rw [loaded.tail.2]
        exact bound
    | consumer =>
        rw [loaded.head.2]
        exact Nat.lt_of_succ_lt bound
  have maskedPopping :
      capacity.isPowerOfTwo ∨
        ∀ side, (popping.pos side).newest + 1 < 2 ^ 64 := by
    simpa [popping, State.popping] using maskedNow
  have ready :
      (popping.slots (rounds % capacity)).sequence.latest =
        (Arithmetic.exact capacity).expected .consumer rounds := by
    simpa [popping, State.popping, Arithmetic.exact] using loaded.filled.1
  obtain ⟨entering, enters⟩ :=
    pop_enters loaded.idle
      (maskedNow.imp_right fun bound side => Nat.lt_of_succ_lt (bound side))
      out
  obtain ⟨passing, popped, passes, pop⟩ :=
    passes_alone husk poppingAt
      (by simp [popping, State.popping, Caller.side, loaded.head])
      (by simp [popping, State.popping]) ready maskedPopping
  have returns : (popped.threads 0).pc = .returning (.popped true value) := by
    rw [pop.returns]
    simp [popping, State.popping, Caller.transfer, Caller.afterSuccess,
      loaded.filled.2]
  have responds := responds_alone returns (pop.masked maskedPopping)
  have head :
      (popped.pos .consumer).latest = rounds + 1 ∧
        (popped.pos .consumer).newest = rounds + 1 := by
    rw [← loaded.head.2]
    simpa [popping, State.popping, loaded.head, Caller.side] using
      pop.counter
  have tail : popped.pos .producer = state.pos .producer := by
    simpa [popping, State.popping] using
      pop.other .producer (by simp [Caller.side])
  refine ⟨_, _, state.log.nextCall,
    (enters.append passes).append responds, ?_, ?_⟩
  · constructor
    · simp
    · simp [pop.closed, popping, State.popping, loaded.isOpen]
    · intro side
      cases side with
      | producer => simp [tail, loaded.tail]
      | consumer => simp [head]
    · intro side
      cases side with
      | producer => simp [tail, loaded.tail]
      | consumer => simp [head]
    · intro offset inside
      have stored := pop.sequence ((rounds + 1 + offset) % capacity)
      rw [Nat.add_right_comm rounds 1 offset, Nat.add_assoc] at stored ⊢
      by_cases isLast : offset + 1 = capacity
      · rw [isLast, Nat.add_mod_right, if_pos rfl] at stored
        rw [isLast, Nat.add_mod_right]
        exact stored
      · have within : offset + 1 < capacity := by omega
        have different :
            rounds % capacity ≠ (rounds + (offset + 1)) % capacity :=
          Ring.mod_ne_of_lt (by omega) (by omega)
        rw [if_neg different.symm] at stored
        simpa [stored, popping, State.popping] using
          loaded.free (offset + 1) within (Nat.succ_pos offset)
  · simp [pop.log, popping, State.popping, CallLog.mark, CallLog.respond]

/-- A push and a pop by one thread, with nobody else about. -/
theorem AtRest.round
    (rest : AtRest capacity rounds state)
    (positive : 0 < capacity)
    (masked : capacity.isPowerOfTwo ∨ rounds + 2 < 2 ^ 64)
    (value out : α) :
    ∃ labels next call,
      Run (step? (Arithmetic.exact capacity)) (comparable capacity) state
          labels next ∧
        AtRest capacity (rounds + 1) next ∧
        .respond 0 call (.popped true value) ∈ next.log.history := by
  obtain ⟨pushLabels, middle, pushes, loaded⟩ :=
    rest.push positive (masked.imp_right Nat.lt_of_succ_lt) value out
  obtain ⟨popLabels, next, call, pops, restsAgain, answered⟩ :=
    loaded.pop masked out value
  exact ⟨_, next, call, pushes.append pops, restsAgain, answered⟩

/-- There are comparable runs of any number of rounds. -/
theorem exists_rounds
    [Inhabited α]
    (positive : 0 < capacity)
    (rounds : Nat)
    (masked : capacity.isPowerOfTwo ∨ rounds + 1 < 2 ^ 64) :
    ∃ (labels : List (Label α)) (state : State α),
      Run (step? (Arithmetic.exact capacity)) (comparable capacity)
          (initial (Arithmetic.exact capacity)) labels state ∧
        AtRest capacity rounds state := by
  induction rounds with
  | zero =>
      exact ⟨[], _, .start, AtRest.initial⟩
  | succ rounds inductionHypothesis =>
      obtain ⟨labels, state, run, rest⟩ :=
        inductionHypothesis (masked.imp_right Nat.lt_of_succ_lt)
      obtain ⟨later, next, _, continues, restsAgain, _⟩ :=
        rest.round positive masked default default
      exact ⟨labels ++ later, next, run.append continues, restsAgain⟩

/-- After any number of rounds there is one more, in a comparable run. -/
theorem exists_round_after
    [Inhabited α]
    (positive : 0 < capacity)
    (rounds : Nat)
    (masked : capacity.isPowerOfTwo ∨ rounds + 2 < 2 ^ 64)
    (value : α) :
    ∃ (labels : List (Label α)) (state : State α) (call : Nat),
      Run (step? (Arithmetic.exact capacity)) (comparable capacity)
          (initial (Arithmetic.exact capacity)) labels state ∧
        state.enqueuePos.latest = rounds + 1 ∧
        .respond 0 call (.popped true value) ∈ state.log.history := by
  obtain ⟨labels, state, run, rest⟩ :
      ∃ (labels : List (Label α)) (state : State α),
        Run (step? (Arithmetic.exact capacity)) (comparable capacity)
            (initial (Arithmetic.exact capacity)) labels state ∧
          AtRest capacity rounds state :=
    exists_rounds positive rounds (masked.imp_right Nat.lt_of_succ_lt)
  obtain ⟨later, next, call, continues, restsAgain, answered⟩ :=
    rest.round positive masked value default
  exact ⟨labels ++ later, next, call, run.append continues,
    restsAgain.counter .producer, answered⟩

end ConcurrentQueue.Mpmc
