import ConcurrentQueue.Mpmc.Serial
import ConcurrentQueue.Mutex.Serial
import ConcurrentQueue.Spsc.Serial

namespace ConcurrentQueue

/-!
# The three queues agree

Used by one thread, each queue serves any sequence of shared calls that never
have to wait, with the results of a bounded FIFO list of its capacity.
-/

variable {α : Type}

/-- The answers of the list, call by call. -/
theorem BoundedFifo.script_of_answers?
    {capacity : Nat}
    {fifo final : BoundedFifo capacity α}
    {ops : List (Op α)}
    {results : List (Result α)}
    (answers : fifo.answers? ops = some (results, final)) :
    Script (BoundedFifo.answer? : BoundedFifo capacity α → _) fifo ops
      results final := by
  induction ops generalizing fifo results with
  | nil =>
      cases answers
      exact .nothing
  | cons op rest inductionHypothesis =>
      obtain ⟨⟨result, next⟩, answer, answers⟩ :=
        Option.bind_eq_some_iff.mp answers
      obtain ⟨⟨others, last⟩, answers, same⟩ :=
        Option.bind_eq_some_iff.mp answers
      cases same
      exact .call answer (inductionHypothesis answers)

/--
`MutexQueue`, `SpscQueue` and `MpmcQueue` of one capacity give one thread the
same results, call by call: those of the bounded FIFO list.
-/
theorem queues_agree
    [Inhabited α]
    {elementSize capacity mutexSlots spscSlots mpmcSlots : Nat}
    (mutexBuilt : Mutex.bufferSlots elementSize capacity = .ok mutexSlots)
    (spscBuilt : Spsc.ringSlots elementSize capacity = .ok spscSlots)
    (mpmcBuilt : Mpmc.makeSlots capacity = .ok mpmcSlots)
    {ops : List (Op α)}
    (shared : ∀ op ∈ ops, op.isShared = true)
    (few : ops.length < SizeT.halfRange)
    {results : List (Result α)}
    {final : BoundedFifo capacity α}
    (answers : BoundedFifo.empty.answers? ops = some (results, final)) :
    (Mutex.serialObject mutexSlots).Serves (Mutex.initial 1) ops results ∧
      (Spsc.serialObject spscSlots).Serves Spsc.initial ops results ∧
      (Mpmc.serialObject mpmcSlots).Serves
        (Mpmc.initial (Mpmc.Arithmetic.sizeT mpmcSlots)) ops results := by
  have script := BoundedFifo.script_of_answers? answers
  refine ⟨?_, ?_, ?_⟩
  · obtain ⟨rfl, positive, small⟩ := Mutex.bufferSlots_ok mutexBuilt
    exact (Mutex.serialSimulation small ops.length).serves
      (Mutex.idle_initial positive) (Nat.le_refl _) shared script
  · obtain ⟨isSlots, wide, small⟩ := Spsc.ringSlots_ok spscBuilt
    exact (Spsc.serialSimulation wide small isSlots ops.length).serves
      (Spsc.idle_initial spscSlots) (Nat.le_refl _) shared script
  · obtain ⟨rfl, positive, small⟩ := Mpmc.makeSlots_ok mpmcBuilt
    exact (Mpmc.serialSimulation positive small).serves
      Mpmc.idle_initial (Nat.le_of_lt few) shared script

/-- A full queue, a closed queue and an empty queue of one slot. -/
def sharedCalls : List (Op Nat) :=
  [.tryPush 7, .tryPush 8, .size, .pop 0, .push 9, .close, .push 6,
    .closed, .pop 0, .pop 5, .tryPop 4, .capacity]

theorem queues_agree_one :
    (Mutex.serialObject 1).Serves (Mutex.initial 1) sharedCalls
        [.pushed true, .pushed false, .size 1, .popped true 7,
          .pushed true, .done, .pushed false, .closed true,
          .popped true 9, .popped false 5, .popped false 4,
          .capacity 1] ∧
      (Spsc.serialObject 2).Serves Spsc.initial sharedCalls
        [.pushed true, .pushed false, .size 1, .popped true 7,
          .pushed true, .done, .pushed false, .closed true,
          .popped true 9, .popped false 5, .popped false 4,
          .capacity 1] ∧
      (Mpmc.serialObject 1).Serves
        (Mpmc.initial (Mpmc.Arithmetic.sizeT 1)) sharedCalls
        [.pushed true, .pushed false, .size 1, .popped true 7,
          .pushed true, .done, .pushed false, .closed true,
          .popped true 9, .popped false 5, .popped false 4,
          .capacity 1] := by
  have mutexBuilt : Mutex.bufferSlots 8 1 = .ok 1 := by
    rfl
  have spscBuilt : Spsc.ringSlots 8 1 = .ok 2 := by
    rfl
  have mpmcBuilt : Mpmc.makeSlots 1 = .ok 1 := by
    rfl
  exact queues_agree mutexBuilt spscBuilt mpmcBuilt (by decide)
    (by decide) rfl

end ConcurrentQueue
