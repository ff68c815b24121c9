import Benet.Semantics.Execution
import Benet.Semantics.Observation
import Benet.Semantics.Blindness
import Benet.Semantics.Continuation
import Benet.Data.Slice
import Benet.Data.Object
import Benet.Data.SlotTable
import Benet.Data.OrderedSet
import Benet.Data.Bytes
import Benet.Buffer.Model
import Benet.Buffer.WellFormed
import Benet.Buffer.Deque
import Benet.Buffer.Typed
import Benet.Buffer.ReadFd
import Benet.Buffer.Storage
import Benet.Buffer.Compaction
import Benet.Buffer.SizeT
import Benet.Poller.Model
import Benet.Poller.Tracking
import Benet.Poller.Bookkeeping
import Benet.EventLoop.Machine
import Benet.EventLoop.Transition
import Benet.EventLoop.Flight
import Benet.EventLoop.Marks
import Benet.EventLoop.Urgent
import Benet.EventLoop.Functors
import Benet.EventLoop.Stacks
import Benet.EventLoop.FunctorQueue
import Benet.EventLoop.ProgramOrder
import Benet.EventLoop.Confinement
import Benet.EventLoop.Latency
import Benet.EventLoop.Liveness
import Benet.EventLoop.Delivery
import Benet.EventLoop.Wakeup
import Benet.EventLoop.FirstPoll
import Benet.EventLoop.Stop
import Benet.EventLoop.LoopThread
import Benet.EventLoop.ThreadPool
import Benet.Socket.Address
import Benet.Socket.Acceptor
import Benet.Connection.Model
import Benet.Connection.Functions
import Benet.Connection.Effect
import Benet.Connection.Fields
import Benet.Connection.Emitted
import Benet.Server.Model
import Benet.Server.Executes
import Benet.Server.Tokens
import Benet.Server.Step
import Benet.Server.Lifecycle
import Benet.Server.Notification
import Benet.Server.Progress
import Benet.Server.Registration
import Benet.Server.Closing
import Benet.Server.Stream
import Benet.Server.Shutdown
import Benet.Server.HalfClose
import Benet.Server.PendingOutput
import Benet.Server.OutputNotices
import Benet.Server.Interest
import Benet.Server.Removal
import Benet.Server.Destruction
import Benet.Server.ActiveChannels
import Benet.Server.Registry
import Benet.Server.References
import Benet.Server.Lifetime
import Benet.Server.RawFunctors
import Benet.Server.Reclamation
import Benet.Server.Senders
import Benet.Server.Confinement
import Benet.Server.Settling
import Benet.Server.Departures
import Benet.Server.InputStream
import Benet.Timer.Model
import Benet.Timer.Expiry
import Benet.Timer.Executes
import Benet.Timer.Places
import Benet.Timer.Entries
import Benet.Timer.Representation
import Benet.Timer.Arming
import Benet.Timer.Moves
import Benet.Timer.Passes
import Benet.Timer.Cancel
import Benet.Timer.Cancelled
import Benet.Timer.LateCancel
import Benet.Timer.Comeback
import Benet.Timer.Punctual
