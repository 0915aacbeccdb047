import ConcurrentQueue.Mutex.Machine

namespace ConcurrentQueue.Mutex

/-!
# Steps as a relation

One constructor for each transition of a thread, with everything it may do,
and the effect of the state updates on each part of the state.
-/

variable {α : Type}

/-- The call that a thread locks `mutex_` for, and whether it timed out. -/
def Pc.locks? : Pc α → Option (Op α × Bool)
  | .enter op => some (op, false)
  | .released op timedOut => some (op, timedOut)
  | _ => none

/-- The transitions of one thread. -/
inductive Step (slots : Nat) (state : State α) (thread : Nat) :
    Action α → State α → Prop where
  | invoke {op pc}
      (isAt : state.threads[thread]? = some .idle)
      (starts : Pc.start? slots op = some pc) :
      Step slots state thread (.invoke op)
        ((state.invoke thread op).goto thread pc)
  | lock {pc op timedOut verdict moving}
      (isAt : state.threads[thread]? = some pc)
      (locks : pc.locks? = some (op, timedOut))
      (decides : state.verdict? slots op timedOut = some verdict) :
      Step slots state thread (.lock moving)
        (state.act slots thread op timedOut verdict moving)
  | wake {op}
      (isAt : state.threads[thread]? = some (.blocked op)) :
      Step slots state thread .wake
        (state.goto thread (.released op false))
  | timeout {op}
      (isAt : state.threads[thread]? = some (.blocked op))
      (timed : isTimed op = true) :
      Step slots state thread .timeout
        (state.goto thread (.released op true))
  | lateTimeout {op timedOut}
      (isAt : state.threads[thread]? = some (.released op timedOut))
      (timed : isTimed op = true) :
      Step slots state thread .timeout
        (state.goto thread (.released op true))
  | notifyNobody {condition result}
      (isAt : state.threads[thread]? = some (.notifyOne condition result))
      (nobody :
        state.threads.any (Pc.isBlockedOn condition) = false) :
      Step slots state thread (.notify none)
        (state.goto thread (.returning result))
  | notifyOne {condition result waiter pc}
      (isAt : state.threads[thread]? = some (.notifyOne condition result))
      (waits : state.threads[waiter]? = some pc)
      (isBlocked : pc.isBlockedOn condition = true) :
      Step slots state thread (.notify (some waiter))
        ((state.goto waiter (pc.release condition)).goto thread
          (.returning result))
  | notifyAllNotFull
      (isAt : state.threads[thread]? = some .notifyAllNotFull) :
      Step slots state thread .notifyAll
        ((state.notifyAll .notFull).goto thread .notifyAllNotEmpty)
  | notifyAllNotEmpty
      (isAt : state.threads[thread]? = some .notifyAllNotEmpty) :
      Step slots state thread .notifyAll
        ((state.notifyAll .notEmpty).goto thread (.returning .done))
  | respond {result}
      (isAt : state.threads[thread]? = some (.returning result)) :
      Step slots state thread .respond
        ((state.respond thread result).goto thread .idle)

/-- Every step of the machine is one of the listed transitions. -/
theorem Step.of_step?
    {slots : Nat}
    {state next : State α}
    {label : Label α}
    (taken : step? slots state label = some next) :
    Step slots state label.thread label.action next := by
  rcases label with ⟨thread, action⟩
  simp only [step?] at taken
  split at taken
  case h_1 op isAt =>
      obtain ⟨pc, starts, rfl⟩ := Option.map_eq_some_iff.mp taken
      exact .invoke isAt starts
  case h_2 op moving isAt =>
      obtain ⟨verdict, decides, rfl⟩ := Option.map_eq_some_iff.mp taken
      exact .lock isAt rfl decides
  case h_3 op timedOut moving isAt =>
      obtain ⟨verdict, decides, rfl⟩ := Option.map_eq_some_iff.mp taken
      exact .lock isAt rfl decides
  case h_4 op isAt =>
      cases taken
      exact .wake isAt
  case h_5 op isAt =>
      split at taken
      · rename_i timed
        cases taken
        exact .timeout isAt timed
      · contradiction
  case h_6 op timedOut isAt =>
      split at taken
      · rename_i timed
        cases taken
        exact .lateTimeout isAt timed
      · contradiction
  case h_7 condition result waiter isAt =>
      obtain ⟨middle, notifies, rfl⟩ := Option.map_eq_some_iff.mp taken
      cases waiter with
      | none =>
          simp only [State.notifyOne?] at notifies
          split at notifies
          · contradiction
          · rename_i nobody
            cases notifies
            exact .notifyNobody isAt (by simpa using nobody)
      | some waiter =>
          simp only [State.notifyOne?] at notifies
          split at notifies
          · rename_i pc waits
            split at notifies
            · rename_i isBlocked
              cases notifies
              exact .notifyOne isAt waits isBlocked
            · contradiction
          · contradiction
  case h_8 isAt =>
      cases taken
      exact .notifyAllNotFull isAt
  case h_9 isAt =>
      cases taken
      exact .notifyAllNotEmpty isAt
  case h_10 result isAt =>
      cases taken
      exact .respond isAt
  case h_11 =>
      contradiction

/-- The program point after a critical section. -/
def State.afterLock
    (state : State α)
    (op : Op α) :
    Verdict α → Moving α → Pc α
  | .block, _ => .blocked op
  | .answer result, _ => .returning result
  | .enqueue _, .moves _ => .notifyOne .notEmpty (.pushed true)
  | .enqueue _, .throws _ _ => .returning .pushThrew
  | .dequeue _, .moves _ =>
      .notifyOne .notFull (.popped true (state.buffer state.head))
  | .dequeue _, .throws _ outValue => .returning (.popThrew outValue)
  | .close, _ => .notifyAllNotFull

/-- What a critical section decides, unless it blocks. -/
def State.commit?
    (state : State α)
    (op : Op α)
    (timedOut : Bool) :
    Verdict α → Moving α → Option (Commit α)
  | .block, _ => none
  | .answer result, _ => some (.answered op result timedOut)
  | .enqueue _, .moves _ => some (.answered op (.pushed true) timedOut)
  | .enqueue _, .throws _ _ => some (.pushThrew op)
  | .dequeue _, .moves _ =>
      some (.answered op (.popped true (state.buffer state.head)) timedOut)
  | .dequeue _, .throws slotValue outValue =>
      some (.popThrew op slotValue outValue)
  | .close, _ => some (.answered op .done timedOut)

/-- What is known of the queue where a critical section reaches a verdict. -/
def Verdict.Fits
    (slots : Nat)
    (state : State α)
    (op : Op α)
    (timedOut : Bool) :
    Verdict α → Prop
  | .block =>
      state.closed = false ∧ timedOut = false ∧
        (waitsOn? op = some .notFull ∧ state.size = slots ∨
          waitsOn? op = some .notEmpty ∧ state.size = 0)
  | .answer (.pushed false) =>
      (∃ value, op.argument? = some value) ∧
        (state.closed = true ∨
          state.size = slots ∧ (timedOut = true ∨ waitsOn? op = none))
  | .answer (.popped false out) =>
      op.out? = some out ∧ state.size = 0 ∧
        (state.closed = true ∨ timedOut = true ∨ waitsOn? op = none)
  | .answer .done => op = .close ∧ state.closed = true
  | .answer (.closed flag) => op = .closed ∧ flag = state.closed
  | .answer (.size count) => op = .size ∧ count = state.size
  | .answer _ => False
  | .enqueue value =>
      op.argument? = some value ∧ state.closed = false ∧
        state.size < slots
  | .dequeue out => op.out? = some out ∧ 0 < state.size
  | .close => op = .close ∧ state.closed = false

/-- Every verdict fits the state it was reached in. -/
theorem State.verdict?_fits
    {slots : Nat}
    {state : State α}
    (bounded : state.size ≤ slots)
    {op : Op α}
    {timedOut : Bool}
    {verdict : Verdict α}
    (decides : state.verdict? slots op timedOut = some verdict) :
    verdict.Fits slots state op timedOut := by
  cases op with
  | push value | tryPushFor value =>
      cases isClosed : state.closed with
      | true =>
          simp [State.verdict?, State.notFullOrClosed, isClosed] at decides
          subst decides
          exact ⟨⟨value, rfl⟩, Or.inl isClosed⟩
      | false =>
          by_cases room : state.size < slots
          · simp [State.verdict?, State.notFullOrClosed, isClosed, room]
              at decides
            subst decides
            exact ⟨rfl, isClosed, room⟩
          · have isFull : state.size = slots := by omega
            cases timedOut <;>
              simp [State.verdict?, State.notFullOrClosed, isClosed, isFull]
                at decides <;> subst decides
            · exact ⟨isClosed, rfl, Or.inl ⟨rfl, isFull⟩⟩
            · exact ⟨⟨value, rfl⟩, Or.inr ⟨isFull, Or.inl rfl⟩⟩
  | tryPush value =>
      simp only [State.verdict?] at decides
      split at decides
      · rename_i refuses
        simp only [Bool.or_eq_true, beq_iff_eq] at refuses
        cases decides
        exact ⟨⟨value, rfl⟩, refuses.imp_right fun isFull =>
          ⟨isFull, Or.inr rfl⟩⟩
      · rename_i accepts
        simp only [Bool.or_eq_true, beq_iff_eq, not_or,
          Bool.not_eq_true] at accepts
        cases decides
        exact ⟨rfl, accepts.1, by omega⟩
  | pop out | tryPopFor out =>
      by_cases isEmpty : state.size = 0
      · cases isClosed : state.closed with
        | true =>
            simp [State.verdict?, State.notEmptyOrClosed, isClosed, isEmpty]
              at decides
            subst decides
            exact ⟨rfl, isEmpty, Or.inl isClosed⟩
        | false =>
            cases timedOut <;>
              simp [State.verdict?, State.notEmptyOrClosed, isClosed,
                isEmpty] at decides <;> subst decides
            · exact ⟨isClosed, rfl, Or.inr ⟨rfl, isEmpty⟩⟩
            · exact ⟨rfl, isEmpty, Or.inr (Or.inl rfl)⟩
      · have nonempty : 0 < state.size := Nat.pos_of_ne_zero isEmpty
        simp [State.verdict?, State.notEmptyOrClosed, nonempty, isEmpty]
          at decides
        subst decides
        exact ⟨rfl, nonempty⟩
  | tryPop out =>
      simp only [State.verdict?] at decides
      split at decides
      · rename_i isEmpty
        cases decides
        exact ⟨rfl, isEmpty, Or.inr (Or.inr rfl)⟩
      · rename_i nonempty
        cases decides
        exact ⟨rfl, Nat.pos_of_ne_zero nonempty⟩
  | close =>
      simp only [State.verdict?] at decides
      split at decides
      · rename_i isClosed
        cases decides
        exact ⟨rfl, isClosed⟩
      · rename_i isOpen
        cases decides
        exact ⟨rfl, by simpa using isOpen⟩
  | closed | size =>
      cases decides
      exact ⟨rfl, rfl⟩
  | capacity | tryPushN | tryPopN =>
      cases decides

section Updates

variable {slots : Nat} {state : State α} {thread : Nat}
variable {op : Op α} {timedOut : Bool}
variable {verdict : Verdict α} {moving : Moving α}

/-- A critical section moves its own thread only. -/
@[simp] theorem State.threads_act :
    (state.act slots thread op timedOut verdict moving).threads =
      state.threads.set thread (state.afterLock op verdict moving) := by
  cases verdict <;> cases moving <;> rfl

/-- A critical section notes at most its own decision. -/
@[simp] theorem State.log_act :
    (state.act slots thread op timedOut verdict moving).log =
      match state.commit? op timedOut verdict moving with
      | some made => state.log.mark thread made
      | none => state.log := by
  cases verdict <;> cases moving <;> rfl

end Updates

end ConcurrentQueue.Mutex
