import ConcurrentQueue.Agreement
import ConcurrentQueue.Checksum
import ConcurrentQueue.Contract
import ConcurrentQueue.Library.Atomic
import ConcurrentQueue.Library.AtomicObject
import ConcurrentQueue.Library.Awareness
import ConcurrentQueue.Library.BoundedFifo
import ConcurrentQueue.Library.FifoTransfers
import ConcurrentQueue.Library.HappensBefore
import ConcurrentQueue.Library.History
import ConcurrentQueue.Library.Instants
import ConcurrentQueue.Library.Joining
import ConcurrentQueue.Library.Lending
import ConcurrentQueue.Library.Monitor
import ConcurrentQueue.Library.Potential
import ConcurrentQueue.Library.Reconciling
import ConcurrentQueue.Library.Ring
import ConcurrentQueue.Library.RingDelivery
import ConcurrentQueue.Library.Run
import ConcurrentQueue.Library.Serial
import ConcurrentQueue.Library.Simulation
import ConcurrentQueue.Library.SizeT
import ConcurrentQueue.Library.TicketRing
import ConcurrentQueue.Library.Transfers
import ConcurrentQueue.Mpmc.Alone
import ConcurrentQueue.Mpmc.Blocking
import ConcurrentQueue.Mpmc.Calls
import ConcurrentQueue.Mpmc.Checksum
import ConcurrentQueue.Mpmc.Closing
import ConcurrentQueue.Mpmc.Counting
import ConcurrentQueue.Mpmc.Drain
import ConcurrentQueue.Mpmc.Failures
import ConcurrentQueue.Mpmc.Fullness
import ConcurrentQueue.Mpmc.Joined
import ConcurrentQueue.Mpmc.Linearization
import ConcurrentQueue.Mpmc.Lockstep
import ConcurrentQueue.Mpmc.Machine
import ConcurrentQueue.Mpmc.Memory
import ConcurrentQueue.Mpmc.Ownership
import ConcurrentQueue.Mpmc.Progress
import ConcurrentQueue.Mpmc.RaceFreedom
import ConcurrentQueue.Mpmc.Refusals
import ConcurrentQueue.Mpmc.Retries
import ConcurrentQueue.Mpmc.Rounds
import ConcurrentQueue.Mpmc.Sequential
import ConcurrentQueue.Mpmc.Serial
import ConcurrentQueue.Mpmc.Stalls
import ConcurrentQueue.Mpmc.Steps
import ConcurrentQueue.Mpmc.Tickets
import ConcurrentQueue.Mpmc.Values
import ConcurrentQueue.Mpmc.Wrap
import ConcurrentQueue.Mutex.Calls
import ConcurrentQueue.Mutex.Delivery
import ConcurrentQueue.Mutex.Drain
import ConcurrentQueue.Mutex.Exceptions
import ConcurrentQueue.Mutex.Linearization
import ConcurrentQueue.Mutex.Machine
import ConcurrentQueue.Mutex.Serial
import ConcurrentQueue.Mutex.Settling
import ConcurrentQueue.Mutex.Steps
import ConcurrentQueue.Mutex.Wakeups
import ConcurrentQueue.Spsc.Alone
import ConcurrentQueue.Spsc.Batches
import ConcurrentQueue.Spsc.Blocking
import ConcurrentQueue.Spsc.Bulk
import ConcurrentQueue.Spsc.CachedChecks
import ConcurrentQueue.Spsc.Calls
import ConcurrentQueue.Spsc.Checksum
import ConcurrentQueue.Spsc.Closing
import ConcurrentQueue.Spsc.Drain
import ConcurrentQueue.Spsc.Exactness
import ConcurrentQueue.Spsc.HandOff
import ConcurrentQueue.Spsc.Indices
import ConcurrentQueue.Spsc.Joined
import ConcurrentQueue.Spsc.Linearization
import ConcurrentQueue.Spsc.Machine
import ConcurrentQueue.Spsc.Memory
import ConcurrentQueue.Spsc.PlainRing
import ConcurrentQueue.Spsc.RaceFreedom
import ConcurrentQueue.Spsc.Refusals
import ConcurrentQueue.Spsc.Sequential
import ConcurrentQueue.Spsc.Serial
import ConcurrentQueue.Spsc.Snapshot
import ConcurrentQueue.Spsc.Solo
import ConcurrentQueue.Spsc.Steps
import ConcurrentQueue.Spsc.Throws
import ConcurrentQueue.Spsc.WaitFree
import ConcurrentQueue.Throws
