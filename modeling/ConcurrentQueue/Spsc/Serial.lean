import ConcurrentQueue.Library.Serial
import ConcurrentQueue.Spsc.Alone

namespace ConcurrentQueue.Spsc

/-!
# `SpscQueue` serves one thread as a bounded FIFO list does

Each call is made in the role it needs, while the other roles are idle, and
every load reads the newest message, which the thread stored itself.
-/

variable {α : Type} {slots capacity : Nat}

/-- The role in which the thread makes a call. -/
def roleOf : Op α → Agent
  | .push _ | .tryPush _ | .tryPushFor _ | .tryPushN _ => .producer
  | .pop _ | .tryPop _ | .tryPopFor _ | .tryPopN _ => .consumer
  | .close | .closed | .size | .capacity => .observer 0

/-- The steps of the only thread within a call; no move assignment throws. -/
def inCall (op : Op α) : StepGuard (State α) (Label α) :=
  fun state label =>
    label.agent = roleOf op ∧ label.action.isInner = true ∧
      sequential state label

/-- The result of a role that is about to respond. -/
def State.result? (state : State α) : Agent → Option (Result α)
  | .producer => state.producer.result?
  | .consumer => state.consumer.result?
  | .observer thread => (state.observers thread).result?

/-- How many steps at most are left until a role responds. -/
def State.stepsLeft (state : State α) : Agent → Nat
  | .producer => state.producer.stepsLeft
  | .consumer => state.consumer.stepsLeft
  | .observer thread => (state.observers thread).stepsLeft

/-- The queue as it is called by one thread. -/
def serialObject (slots : Nat) :
    SerialObject (State α) (Label α) (Op α) (Result α) where
  step? := step? slots
  inner := inCall
  spurious _ _ := False
  invoke op := ⟨roleOf op, .invoke op⟩
  respond op := ⟨roleOf op, .respond⟩
  result? op state := state.result? (roleOf op)

/-- The thread is in a call that owes a result and leaves a list. -/
def Busy
    (slots : Nat)
    (op : Op α)
    (result : Result α)
    (after : BoundedFifo capacity α)
    (state : State α) : Prop :=
  match roleOf op with
  | .producer =>
      state.producer.Owes slots state op result after ∧
        state.consumer = .idle ∧ state.observers 0 = .idle
  | .consumer =>
      state.consumer.Owes slots state op result after ∧
        state.producer = .idle ∧ state.observers 0 = .idle
  | .observer thread =>
      (state.observers thread).Owes slots state result after ∧
        thread = 0 ∧ state.producer = .idle ∧ state.consumer = .idle

/-- The thread is between calls. -/
structure Idle
    (slots : Nat)
    (fifo : BoundedFifo capacity α)
    (state : State α) : Prop where
  producer : state.producer = .idle
  consumer : state.consumer = .idle
  observer : state.observers 0 = .idle
  holds : Holds slots state fifo

namespace Idle

variable {state : State α} {fifo after : BoundedFifo capacity α}
variable {result : Result α}

/-- An idle queue can be pushed to. -/
theorem push
    (idle : Idle slots fifo state)
    (pusher : Pusher α)
    {value : α}
    (starts : ProducerPc.start? pusher.op = some (.checkClosed pusher))
    (pushes : pusher.op.argument? = some value)
    (answers : fifo.answer? pusher.op = some (result, after)) :
    ∃ entered,
      step? slots state ⟨.producer, .invoke pusher.op⟩ = some entered ∧
        entered.producer.Owes slots entered pusher.op result after ∧
        entered.consumer = .idle ∧ entered.observers 0 = .idle :=
  ⟨_, (ProducerStep.invoke idle.producer starts).taken,
    ⟨rfl, ⟨value, pushes⟩, fifo,
      idle.holds.of_same rfl rfl rfl rfl rfl rfl, answers⟩,
    idle.consumer, idle.observer⟩

/-- An idle queue can be popped from. -/
theorem pop
    (idle : Idle slots fifo state)
    (popper : Popper α)
    {out : α}
    (starts : ConsumerPc.start? popper.op = some (.checkData popper))
    (pops : popper.op.out? = some out)
    (answers : fifo.answer? popper.op = some (result, after)) :
    ∃ entered,
      step? slots state ⟨.consumer, .invoke popper.op⟩ = some entered ∧
        entered.consumer.Owes slots entered popper.op result after ∧
        entered.producer = .idle ∧ entered.observers 0 = .idle :=
  ⟨_, (ConsumerStep.invoke idle.consumer starts).taken,
    ⟨rfl, ⟨out, pops⟩, fifo,
      idle.holds.of_same rfl rfl rfl rfl rfl rfl, answers⟩,
    idle.producer, idle.observer⟩

/-- An idle queue can be observed and closed. -/
theorem observe
    (idle : Idle slots fifo state)
    {op : Op α}
    {pc : ObserverPc α}
    (starts : ObserverPc.start? slots op = some pc)
    (owes :
      pc.Owes slots ((state.invoke (.observer 0) op).atObserver 0 pc)
        result after) :
    ∃ entered,
      step? slots state ⟨.observer 0, .invoke op⟩ = some entered ∧
        (entered.observers 0).Owes slots entered result after ∧
        0 = 0 ∧ entered.producer = .idle ∧ entered.consumer = .idle := by
  refine ⟨(state.invoke (.observer 0) op).atObserver 0 pc, ?_, ?_, rfl,
    idle.producer, idle.consumer⟩
  · simp [step?, observerStep?, idle.observer, starts]
  · simp only [State.atObserver, Function.update_self]
    exact owes

/-- Invoking an answered call makes the queue busy with it. -/
theorem invoke
    (isSlots : slots = capacity + 1)
    (idle : Idle slots fifo state)
    {op : Op α}
    (shared : op.isShared = true)
    (answers : fifo.answer? op = some (result, after)) :
    ∃ entered,
      step? slots state ⟨roleOf op, .invoke op⟩ = some entered ∧
        Busy slots op result after entered := by
  have holds :
      ∀ {op : Op α} {pc : ObserverPc α},
        Holds slots ((state.invoke (.observer 0) op).atObserver 0 pc)
          fifo :=
    idle.holds.of_same rfl rfl rfl rfl rfl rfl
  cases op with
  | push value => exact idle.push (.push value) rfl rfl answers
  | tryPush value => exact idle.push (.tryPush value) rfl rfl answers
  | pop out => exact idle.pop (.pop out false) rfl rfl answers
  | tryPop out => exact idle.pop (.tryPop out) rfl rfl answers
  | close =>
      cases answers
      exact idle.observe rfl ⟨rfl, fifo, holds, rfl⟩
  | closed | size =>
      cases answers
      exact idle.observe rfl ⟨rfl, holds⟩
  | capacity =>
      cases answers
      refine idle.observe rfl ⟨?_, holds⟩
      rw [isSlots, Nat.add_sub_cancel]
  | tryPushFor | tryPushN | tryPopFor | tryPopN => cases shared

end Idle

namespace Busy

variable {state later : State α} {after : BoundedFifo capacity α}
variable {op : Op α} {result : Result α}

/-- A step within the call keeps what it owes and brings it nearer. -/
theorem step
    (wide : 1 < slots)
    (small : slots ≤ SizeT.halfRange)
    (isSlots : slots = capacity + 1)
    (busy : Busy slots op result after state)
    {label : Label α}
    (admitted : inCall op state label)
    (taken : step? slots state label = some later) :
    Busy slots op result after later ∧
      later.stepsLeft (roleOf op) < state.stepsLeft (roleOf op) := by
  obtain ⟨isRole, isInner, current⟩ := admitted
  rcases label with ⟨agent, action⟩
  subst isRole
  have step := Step.of_step? taken
  unfold Busy at busy ⊢
  cases isRole : roleOf op with
  | producer =>
      simp only [isRole, sequential] at busy step current ⊢
      obtain ⟨owes, consumer, observer⟩ := busy
      cases step with
      | producer own =>
          obtain ⟨owesLater, nearer⟩ :=
            own.owes wide small isSlots owes current isInner
          rw [own.consumer_eq, own.observers_eq]
          exact ⟨⟨owesLater, consumer, observer⟩, nearer⟩
  | consumer =>
      simp only [isRole, sequential] at busy step current ⊢
      obtain ⟨owes, producer, observer⟩ := busy
      cases step with
      | consumer own =>
          obtain ⟨owesLater, nearer⟩ :=
            own.owes wide small isSlots owes current isInner
          rw [own.producer_eq, own.observers_eq]
          exact ⟨⟨owesLater, producer, observer⟩, nearer⟩
  | observer thread =>
      simp only [isRole, sequential] at busy step current ⊢
      obtain ⟨owes, isThread, producer, consumer⟩ := busy
      cases step with
      | observer own =>
          obtain ⟨owesLater, nearer⟩ :=
            own.owes wide small isSlots owes current isInner
          rw [own.producer_eq, own.consumer_eq]
          exact ⟨⟨owesLater, isThread, producer, consumer⟩, nearer⟩

/-- A call that has no result yet can go on. -/
theorem enabled
    (busy : Busy slots op result after state)
    (unanswered : state.result? (roleOf op) = none) :
    ∃ label later,
      inCall op state label ∧ step? slots state label = some later := by
  unfold Busy at busy
  cases isRole : roleOf op with
  | producer =>
      simp only [isRole] at busy unanswered
      obtain ⟨action, later, own, current, isInner⟩ :=
        ProducerStep.exists_of_owes busy.1 unanswered
      exact ⟨⟨.producer, action⟩, later, ⟨isRole.symm, isInner, current⟩,
        own.taken⟩
  | consumer =>
      simp only [isRole] at busy unanswered
      obtain ⟨action, later, own, current, isInner⟩ :=
        ConsumerStep.exists_of_owes busy.1 unanswered
      exact ⟨⟨.consumer, action⟩, later, ⟨isRole.symm, isInner, current⟩,
        own.taken⟩
  | observer thread =>
      simp only [isRole] at busy unanswered
      obtain ⟨action, later, taken, current, isInner⟩ :=
        exists_observerStep? busy.1 unanswered
      exact ⟨⟨.observer thread, action⟩, later,
        ⟨isRole.symm, isInner, current⟩, taken⟩

/-- The call hands back what it owes. -/
theorem respond
    (busy : Busy slots op result after state)
    {returned : Result α}
    (isResult : state.result? (roleOf op) = some returned) :
    returned = result ∧
      ∃ later,
        step? slots state ⟨roleOf op, .respond⟩ = some later ∧
          Idle slots after later := by
  unfold Busy at busy
  cases isRole : roleOf op with
  | producer =>
      simp only [isRole] at busy isResult
      obtain ⟨owes, consumer, observer⟩ := busy
      cases isAt : state.producer with
      | returning due =>
          rw [isAt] at owes
          simp only [State.result?, isAt] at isResult
          cases isResult
          exact ⟨owes.1, _, (ProducerStep.respond isAt).taken, rfl,
            consumer, observer,
            owes.2.of_same rfl rfl rfl rfl rfl rfl⟩
      | _ =>
          simp only [State.result?, isAt] at isResult
          cases isResult
  | consumer =>
      simp only [isRole] at busy isResult
      obtain ⟨owes, producer, observer⟩ := busy
      cases isAt : state.consumer with
      | returning due =>
          rw [isAt] at owes
          simp only [State.result?, isAt] at isResult
          cases isResult
          exact ⟨owes.1, _, (ConsumerStep.respond isAt).taken, producer,
            rfl, observer, owes.2.of_same rfl rfl rfl rfl rfl rfl⟩
      | _ =>
          simp only [State.result?, isAt] at isResult
          cases isResult
  | observer thread =>
      simp only [isRole] at busy isResult
      obtain ⟨owes, rfl, producer, consumer⟩ := busy
      cases isAt : state.observers 0 with
      | returning due =>
          rw [isAt] at owes
          simp only [State.result?, isAt] at isResult
          cases isResult
          refine ⟨owes.1,
            (state.respond (.observer 0) returned).atObserver 0 .idle, ?_,
            producer, consumer, ?_,
            owes.2.of_same rfl rfl rfl rfl rfl rfl⟩
          · simp only [step?, observerStep?, isAt]
          · simp
      | _ =>
          simp only [State.result?, isAt] at isResult
          cases isResult

end Busy

/-- One thread sees a bounded FIFO list, however many calls it makes. -/
def serialSimulation
    (wide : 1 < slots)
    (small : slots ≤ SizeT.halfRange)
    (isSlots : slots = capacity + 1)
    (limit : Nat) :
    SerialSimulation (serialObject slots)
      (BoundedFifo.answer? : BoundedFifo capacity α → _)
      (fun op => op.isShared = true) limit where
  Idle _ := Idle slots
  Busy _ := Busy slots
  rank op state := state.stepsLeft (roleOf op)
  invoked _ shared idle answers := idle.invoke isSlots shared answers
  stepped busy admitted taken := by
    obtain ⟨busyLater, nearer⟩ :=
      busy.step wide small isSlots admitted taken
    exact ⟨busyLater, fun _ => nearer⟩
  enabled busy unanswered := by
    obtain ⟨label, later, admitted, taken⟩ := busy.enabled unanswered
    exact ⟨label, later, ⟨admitted, not_false⟩, taken⟩
  responded busy isResult := busy.respond isResult

/-- The constructor leaves the queue idle. -/
theorem idle_initial [Inhabited α] (slots : Nat) :
    Idle slots (BoundedFifo.empty : BoundedFifo capacity α)
      (initial : State α) where
  producer := rfl
  consumer := rfl
  observer := rfl
  holds := ⟨_, Represents.initial slots⟩

end ConcurrentQueue.Spsc
