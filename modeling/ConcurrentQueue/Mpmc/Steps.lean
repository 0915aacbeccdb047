import ConcurrentQueue.Mpmc.Machine

namespace ConcurrentQueue.Mpmc

/-!
# What one step can do

`Step` lists the transitions of `step?` with their guards and their exact
effect; every proof about the machine inverts a step through it.  The simp set
says which parts of the state each update leaves alone.
-/

variable {α : Type}

namespace State

variable (state : State α) (thread : Nat)

section Goto

variable (pc : Pc α)

@[simp] theorem slots_goto : (state.goto thread pc).slots = state.slots := by
  rfl

@[simp] theorem pos_goto (side : Side) :
    (state.goto thread pc).pos side = state.pos side := by
  cases side <;> rfl

@[simp] theorem closed_goto :
    (state.goto thread pc).closed = state.closed := by
  rfl

@[simp] theorem log_goto : (state.goto thread pc).log = state.log := by
  rfl

@[simp] theorem pc_goto (other : Nat) :
    ((state.goto thread pc).threads other).pc =
      if other = thread then pc else (state.threads other).pc := by
  by_cases same : other = thread <;> simp [goto, same]

@[simp] theorem closesRead_goto (other : Nat) :
    ((state.goto thread pc).threads other).closesRead =
      (state.threads other).closesRead := by
  by_cases same : other = thread <;> simp [goto, same]

end Goto

section NoteClose

variable (message : Nat)

@[simp] theorem slots_noteClose :
    (state.noteClose thread message).slots = state.slots := by
  unfold noteClose
  split <;> rfl

@[simp] theorem pos_noteClose (side : Side) :
    (state.noteClose thread message).pos side = state.pos side := by
  unfold noteClose
  split <;> cases side <;> rfl

@[simp] theorem closed_noteClose :
    (state.noteClose thread message).closed = state.closed := by
  unfold noteClose
  split <;> rfl

@[simp] theorem log_noteClose :
    (state.noteClose thread message).log = state.log := by
  unfold noteClose
  split <;> rfl

@[simp] theorem pc_noteClose (other : Nat) :
    ((state.noteClose thread message).threads other).pc =
      (state.threads other).pc := by
  unfold noteClose
  split
  · rfl
  · by_cases same : other = thread <;> simp [same]

end NoteClose

section Calls

variable (op : Op α) (result : Result α)

@[simp] theorem slots_invoke :
    (state.invoke thread op).slots = state.slots := by
  rfl

@[simp] theorem pos_invoke (side : Side) :
    (state.invoke thread op).pos side = state.pos side := by
  cases side <;> rfl

@[simp] theorem closed_invoke :
    (state.invoke thread op).closed = state.closed := by
  rfl

@[simp] theorem threads_invoke :
    (state.invoke thread op).threads = state.threads := by
  rfl

@[simp] theorem log_invoke :
    (state.invoke thread op).log = state.log.invoke thread op := by
  rfl

@[simp] theorem slots_respond :
    (state.respond thread result).slots = state.slots := by
  rfl

@[simp] theorem pos_respond (side : Side) :
    (state.respond thread result).pos side = state.pos side := by
  cases side <;> rfl

@[simp] theorem closed_respond :
    (state.respond thread result).closed = state.closed := by
  rfl

@[simp] theorem threads_respond :
    (state.respond thread result).threads = state.threads := by
  rfl

@[simp] theorem log_respond :
    (state.respond thread result).log = state.log.respond thread result := by
  rfl

end Calls

section Claim

variable (arithmetic : Arithmetic) (side : Side) (ticket : Nat)

@[simp] theorem slots_claim :
    (state.claim arithmetic thread side ticket).slots = state.slots := by
  cases side <;> rfl

@[simp] theorem pos_claim :
    (state.claim arithmetic thread side ticket).pos =
      Function.update state.pos side
        ((state.pos side).store (state.callOf thread)
          (arithmetic.next ticket)) := by
  funext other
  cases side <;> cases other <;> rfl

@[simp] theorem closed_claim :
    (state.claim arithmetic thread side ticket).closed = state.closed := by
  cases side <;> rfl

@[simp] theorem threads_claim :
    (state.claim arithmetic thread side ticket).threads =
      state.threads := by
  cases side <;> rfl

@[simp] theorem log_claim :
    (state.claim arithmetic thread side ticket).log =
      state.log.mark thread ⟨side, ticket⟩ := by
  cases side <;> rfl

end Claim

section Slots

variable (index : Nat)

@[simp] theorem sequence_setValue (value : α) (other : Nat) :
    ((state.setValue index value).slots other).sequence =
      (state.slots other).sequence := by
  by_cases same : other = index <;>
    simp [setValue, same]

@[simp] theorem value_setValue (value : α) (other : Nat) :
    ((state.setValue index value).slots other).value =
      if other = index then value else (state.slots other).value := by
  by_cases same : other = index <;>
    simp [setValue, same]

@[simp] theorem pos_setValue (value : α) (side : Side) :
    (state.setValue index value).pos side = state.pos side := by
  cases side <;> rfl

@[simp] theorem closed_setValue (value : α) :
    (state.setValue index value).closed = state.closed := by
  rfl

@[simp] theorem threads_setValue (value : α) :
    (state.setValue index value).threads = state.threads := by
  rfl

@[simp] theorem log_setValue (value : α) :
    (state.setValue index value).log = state.log := by
  rfl

@[simp] theorem sequence_storeSequence (sequence other : Nat) :
    ((state.storeSequence thread index sequence).slots other).sequence =
      if other = index then
        (state.slots index).sequence.store (state.callOf thread) sequence
      else
        (state.slots other).sequence := by
  by_cases same : other = index <;>
    simp [storeSequence, same]

@[simp] theorem value_storeSequence (sequence other : Nat) :
    ((state.storeSequence thread index sequence).slots other).value =
      (state.slots other).value := by
  by_cases same : other = index <;>
    simp [storeSequence, same]

@[simp] theorem pos_storeSequence (sequence : Nat) (side : Side) :
    (state.storeSequence thread index sequence).pos side =
      state.pos side := by
  cases side <;> rfl

@[simp] theorem closed_storeSequence (sequence : Nat) :
    (state.storeSequence thread index sequence).closed = state.closed := by
  rfl

@[simp] theorem threads_storeSequence (sequence : Nat) :
    (state.storeSequence thread index sequence).threads =
      state.threads := by
  rfl

@[simp] theorem log_storeSequence (sequence : Nat) :
    (state.storeSequence thread index sequence).log = state.log := by
  rfl

end Slots

section StoreClosed

@[simp] theorem slots_storeClosed :
    (state.storeClosed thread).slots = state.slots := by
  rfl

@[simp] theorem pos_storeClosed (side : Side) :
    (state.storeClosed thread).pos side = state.pos side := by
  cases side <;> rfl

@[simp] theorem closed_storeClosed :
    (state.storeClosed thread).closed =
      state.closed.store (state.callOf thread) true := by
  rfl

@[simp] theorem threads_storeClosed :
    (state.storeClosed thread).threads = state.threads := by
  rfl

@[simp] theorem log_storeClosed :
    (state.storeClosed thread).log = state.log := by
  rfl

end StoreClosed

end State

namespace Caller

/-- A move assignment does not change which loop the caller runs. -/
@[simp] theorem side_transfer (caller : Caller α) (slotValue husk : α) :
    (caller.transfer slotValue husk).1.side = caller.side := by
  cases caller <;> rfl

@[simp] theorem holding_afterClosedLoad
    (caller : Caller α)
    (flag : Bool) :
    (caller.afterClosedLoad flag).holding = none := by
  cases caller <;> cases flag <;> rfl

@[simp] theorem holding_afterFailure (caller : Caller α) :
    caller.afterFailure.holding = none := by
  rcases caller with _ | _ | ⟨_, _ | _⟩ | _ <;> rfl

@[simp] theorem holding_afterSuccess (caller : Caller α) :
    caller.afterSuccess.holding = none := by
  cases caller <;> rfl

end Caller

namespace Pc

section Holding

variable (caller : Caller α) (ticket : Nat)

@[simp] theorem holding_idle : (idle : Pc α).holding = none := by
  rfl

@[simp] theorem holding_checkClosed :
    (checkClosed caller).holding = none := by
  rfl

@[simp] theorem holding_loadPos : (loadPos caller).holding = none := by
  rfl

@[simp] theorem holding_loadSequence :
    (loadSequence caller ticket).holding = none := by
  rfl

@[simp] theorem holding_exchange :
    (exchange caller ticket).holding = none := by
  rfl

@[simp] theorem holding_reloadPos :
    (reloadPos caller ticket).holding = none := by
  rfl

@[simp] theorem holding_moveValue :
    (moveValue caller ticket).holding = some ⟨caller.side, ticket⟩ := by
  rfl

@[simp] theorem holding_storeSequence :
    (storeSequence caller ticket).holding =
      some ⟨caller.side, ticket⟩ := by
  rfl

@[simp] theorem holding_storeClosed :
    (storeClosed : Pc α).holding = none := by
  rfl

@[simp] theorem holding_loadClosed :
    (loadClosed : Pc α).holding = none := by
  rfl

@[simp] theorem holding_sizeTail : (sizeTail : Pc α).holding = none := by
  rfl

@[simp] theorem holding_sizeHead (tail : Nat) :
    (sizeHead tail : Pc α).holding = none := by
  rfl

@[simp] theorem holding_returning (result : Result α) :
    (returning result).holding = none := by
  rfl

end Holding

/-- No call starts with a ticket in hand. -/
theorem holding_start?
    {slots : Nat}
    {op : Op α}
    {pc : Pc α}
    (starts : start? slots op = some pc) :
    pc.holding = none := by
  cases op <;>
    simp only [start?, Option.some.injEq, reduceCtorEq] at starts <;>
    subst starts <;> rfl

@[simp] theorem holding_classify
    (caller : Caller α)
    (ticket : Nat)
    (dif : Int) :
    (classify caller ticket dif).holding = none := by
  unfold classify
  split
  · rfl
  · split
    · exact caller.holding_afterFailure
    · rfl

end Pc

/-- The transitions of one thread, each with its guard and its effect. -/
inductive Step
    (arithmetic : Arithmetic)
    (state : State α)
    (thread : Nat) :
    Action α → State α → Prop where
  | invoke {op pc}
      (isAt : (state.threads thread).pc = .idle)
      (starts : Pc.start? arithmetic.slots op = some pc) :
      Step arithmetic state thread (.invoke op)
        ((state.invoke thread op).goto thread pc)
  | checkClosed {caller message flag}
      (isAt : (state.threads thread).pc = .checkClosed caller)
      (reads : state.closed.read? message = some flag) :
      Step arithmetic state thread (.load message)
        ((state.noteClose thread message).goto thread
          (caller.afterClosedLoad flag))
  | loadPos {caller message ticket}
      (isAt : (state.threads thread).pc = .loadPos caller)
      (reads : (state.pos caller.side).read? message = some ticket) :
      Step arithmetic state thread (.load message)
        (state.goto thread (.loadSequence caller ticket))
  | reloadPos {caller stale message ticket}
      (isAt : (state.threads thread).pc = .reloadPos caller stale)
      (reads : (state.pos caller.side).read? message = some ticket) :
      Step arithmetic state thread (.load message)
        (state.goto thread (.loadSequence caller ticket))
  | loadSequence {caller ticket message sequence}
      (isAt : (state.threads thread).pc = .loadSequence caller ticket)
      (reads :
        (state.slots (arithmetic.slotIndex ticket)).sequence.read? message =
          some sequence) :
      Step arithmetic state thread (.load message)
        (state.goto thread
          (.classify caller ticket
            (arithmetic.difference sequence
              (arithmetic.expected caller.side ticket))))
  | claim {caller ticket}
      (isAt : (state.threads thread).pc = .exchange caller ticket)
      (current : (state.pos caller.side).latest = ticket) :
      Step arithmetic state thread (.exchange none)
        ((state.claim arithmetic thread caller.side ticket).goto thread
          (.moveValue caller ticket))
  | lost {caller stale message ticket}
      (isAt : (state.threads thread).pc = .exchange caller stale)
      (reads : (state.pos caller.side).read? message = some ticket) :
      Step arithmetic state thread (.exchange (some message))
        (state.goto thread (.loadSequence caller ticket))
  | moveValue {caller ticket husk}
      (isAt : (state.threads thread).pc = .moveValue caller ticket) :
      Step arithmetic state thread (.move husk)
        ((state.setValue (arithmetic.slotIndex ticket)
            (caller.transfer
              (state.slots (arithmetic.slotIndex ticket)).value
              husk).2).goto thread
          (.storeSequence
            (caller.transfer
              (state.slots (arithmetic.slotIndex ticket)).value
              husk).1 ticket))
  | storeSequence {caller ticket}
      (isAt : (state.threads thread).pc = .storeSequence caller ticket) :
      Step arithmetic state thread .store
        ((state.storeSequence thread (arithmetic.slotIndex ticket)
            (arithmetic.published caller.side ticket)).goto thread
          caller.afterSuccess)
  | storeClosed
      (isAt : (state.threads thread).pc = .storeClosed) :
      Step arithmetic state thread .store
        ((state.storeClosed thread).goto thread (.returning .done))
  | loadClosed {message flag}
      (isAt : (state.threads thread).pc = .loadClosed)
      (reads : state.closed.read? message = some flag) :
      Step arithmetic state thread (.load message)
        ((state.noteClose thread message).goto thread
          (.returning (.closed flag)))
  | sizeTail {message tail}
      (isAt : (state.threads thread).pc = .sizeTail)
      (reads : state.enqueuePos.read? message = some tail) :
      Step arithmetic state thread (.load message)
        (state.goto thread (.sizeHead tail))
  | sizeHead {tail message head}
      (isAt : (state.threads thread).pc = .sizeHead tail)
      (reads : state.dequeuePos.read? message = some head) :
      Step arithmetic state thread (.load message)
        (state.goto thread
          (.returning (.size (sizeOf arithmetic tail head))))
  | respond {result}
      (isAt : (state.threads thread).pc = .returning result) :
      Step arithmetic state thread .respond
        ((state.respond thread result).goto thread .idle)

/-- Every step of the machine is one of the listed transitions. -/
theorem Step.of_step?
    {arithmetic : Arithmetic}
    {state next : State α}
    {label : Label α}
    (taken : step? arithmetic state label = some next) :
    Step arithmetic state label.thread label.action next := by
  rcases label with ⟨thread, action⟩
  simp only [step?] at taken
  split at taken
  case h_1 op isAt =>
      obtain ⟨pc, starts, rfl⟩ := Option.map_eq_some_iff.mp taken
      exact .invoke isAt starts
  case h_2 caller message isAt =>
      obtain ⟨flag, reads, rfl⟩ := Option.map_eq_some_iff.mp taken
      exact .checkClosed isAt reads
  case h_3 caller message isAt =>
      obtain ⟨ticket, reads, rfl⟩ := Option.map_eq_some_iff.mp taken
      exact .loadPos isAt reads
  case h_4 caller stale message isAt =>
      obtain ⟨ticket, reads, rfl⟩ := Option.map_eq_some_iff.mp taken
      exact .reloadPos isAt reads
  case h_5 caller ticket message isAt =>
      obtain ⟨sequence, reads, rfl⟩ := Option.map_eq_some_iff.mp taken
      exact .loadSequence isAt reads
  case h_6 caller ticket isAt =>
      split at taken
      · rename_i current
        cases taken
        exact .claim isAt current
      · contradiction
  case h_7 caller stale message isAt =>
      obtain ⟨ticket, reads, rfl⟩ := Option.map_eq_some_iff.mp taken
      exact .lost isAt reads
  case h_8 caller ticket husk isAt =>
      cases taken
      exact .moveValue isAt
  case h_9 caller ticket isAt =>
      cases taken
      exact .storeSequence isAt
  case h_10 isAt =>
      cases taken
      exact .storeClosed isAt
  case h_11 message isAt =>
      obtain ⟨flag, reads, rfl⟩ := Option.map_eq_some_iff.mp taken
      exact .loadClosed isAt reads
  case h_12 message isAt =>
      obtain ⟨tail, reads, rfl⟩ := Option.map_eq_some_iff.mp taken
      exact .sizeTail isAt reads
  case h_13 tail message isAt =>
      obtain ⟨head, reads, rfl⟩ := Option.map_eq_some_iff.mp taken
      exact .sizeHead isAt reads
  case h_14 result isAt =>
      cases taken
      exact .respond isAt
  case h_15 =>
      contradiction

end ConcurrentQueue.Mpmc
