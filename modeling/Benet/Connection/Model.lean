import Benet.Buffer.WellFormed
import Benet.EventLoop.Machine
import Benet.Poller.Model

/-!
# The TCP connection

The member functions of `TcpConnection`, cut at the accesses to `state_`: a task
is a stretch of one function with at most one such access, and the rest of the
function is among the calls it makes. System calls are answered by the
environment. A failed `assert` is recorded and the function goes on, as in a
build without assertions. User callbacks are the task `Task.user`.
-/

namespace Benet

open EventLoop

/-- `TcpConnection::State`. -/
inductive TcpState where
  | disconnected
  | connecting
  | connected
  | disconnecting
deriving DecidableEq, Repr

/-- The values of `errno` that the code distinguishes; `EWOULDBLOCK` is `EAGAIN`. -/
inductive Errno where
  | eagain
  | eintr
  | epipe
  | econnreset
  | other
deriving DecidableEq, Repr

/-- What `::send` returns. After a success `errno` still has the value of an
earlier call, which `handle_write` reads when nothing was written. -/
inductive SendResult where
  | wrote (count : Nat) (errno : Errno)
  | failed (errno : Errno)
deriving DecidableEq, Repr

/-- What `::readv` returns; no bytes mean end of file. -/
inductive ReadResult where
  | received (bytes : List UInt8)
  | failed (errno : Errno)
deriving DecidableEq, Repr

/-- The environment's answers to the system calls of one task. -/
structure Answers where
  send : SendResult := .failed .eagain
  read : ReadResult := .failed .eagain
deriving DecidableEq, Repr

/-- The stretches of the functions of one connection. The first group is what a
user calls; `...InLoop` are the functors these queue. -/
inductive ConnectionTask where
  | send (message : List UInt8)
  | shutdown
  | forceClose
  | forceCloseLoad
  | startRead
  | stopRead
  | sendInLoop (message : List UInt8)
  | shutdownInLoop
  | forceCloseInLoop
  | startReadInLoop
  | stopReadInLoop
  | connectionEstablished
  | connectionDestroyed
  | removeFromLoop
  | handleEvent (revents : EventMask)
  | afterCloseEvent (revents : EventMask)
  | handleWrite
  | writeDrained
  | shutdownDrained
  | handleClose
  | writeCompleteCallback
  | highWaterMarkCallback (size : Nat)
deriving DecidableEq, Repr

/-- The function calls `AssertInLoopThread` or is part of one that does. -/
def ConnectionTask.inLoop : ConnectionTask → Bool
  | .send _ | .shutdown | .forceClose | .forceCloseLoad | .startRead | .stopRead => false
  | _ => true

/-- The tasks of a server and its connections. -/
inductive Task where
  | user
  | connection (id : Nat) (task : ConnectionTask)
  | newConnection
  | onClose (id : Nat)
  | removeConnection (id : Nat)
  | destroyServer
deriving DecidableEq, Repr

/-- A call of a callback that the user has bound. -/
inductive Notification where
  | connection (state : TcpState)
  | message
deriving DecidableEq, Repr

/-- What can end a connection other than `Shutdown`; a `ForceClose` counts where it
takes effect. `zeroWrite` is a `::send` of `handle_write` that returned zero and
left an old error in `errno`. -/
inductive Disturbance where
  | peerEof
  | socketError
  | zeroWrite
  | forceClose
  | connectionDestroyed
deriving DecidableEq, Repr

/-- The assertions of the modelled functions. -/
inductive Assertion where
  | inLoopThread
  | isConnecting
  | isNoneEvent
  | erasedOne
deriving DecidableEq, Repr

/-- History of a connection; no function reads it. `submitted` are the messages
whose `Send` saw `Connected`, `accepted` and `rejected` those that
`send_in_loop` let through and turned away, `sent` the bytes that `::send` took. -/
structure History where
  submitted : List (List UInt8) := []
  accepted : List (List UInt8) := []
  rejected : List (List UInt8) := []
  sent : List UInt8 := []
  shutdownWrites : Nat := 0
  notifications : List Notification := []
  disturbances : List Disturbance := []
  failedAssertions : List Assertion := []
  established : Nat := 0
  destroyed : Nat := 0
  removed : Nat := 0
  erased : Nat := 0
deriving DecidableEq, Repr

structure TcpConnection (Thread : Type) where
  loop : Thread
  name : String
  channel : Channel
  state : TcpState := .connecting
  reading : Bool := true
  highWaterMark : Nat := 128 * 1024 * 1024
  onHighWaterMark : Bool := false
  onWriteComplete : Bool := false
  inputBuffer : Buffer.Valid := .create Buffer.kInitialSize
  outputBuffer : Buffer.Valid := .create Buffer.kInitialSize
  history : History := {}

/-- A connection and the poller of its loop: all that its functions touch. -/
structure Site (Thread : Type) where
  connection : TcpConnection Thread
  poller : EPoller

namespace Site

variable {Thread : Type}

/-- Change the connection. -/
def modify (change : TcpConnection Thread → TcpConnection Thread) (site : Site Thread) :
    Site Thread :=
  { site with connection := change site.connection }

/-- Record something in the history. -/
def record (change : History → History) (site : Site Thread) : Site Thread :=
  site.modify fun connection => { connection with history := change connection.history }

def assert (which : Assertion) (holds : Bool) (site : Site Thread) : Site Thread :=
  site.record fun history => { history with
    failedAssertions := history.failedAssertions ++ if holds then [] else [which] }

/-- `loop_->AssertInLoopThread()`. -/
def assertInLoopThread [DecidableEq Thread] (thread : Thread) (site : Site Thread) : Site Thread :=
  site.assert .inLoopThread (thread = site.connection.loop)

def disturb (cause : Disturbance) (site : Site Thread) : Site Thread :=
  site.record fun history => { history with disturbances := history.disturbances ++ [cause] }

/-- Call `on_connection_` or `on_message_`. -/
def notify (notification : Notification) (site : Site Thread) : Site Thread :=
  site.record fun history =>
    { history with notifications := history.notifications ++ [notification] }

def setState (state : TcpState) (site : Site Thread) : Site Thread :=
  site.modify fun connection => { connection with state }

/-- Change `events_` and call `update_events`. -/
def setEvents (id : Nat) (events : EventMask) (site : Site Thread) : Site Thread :=
  let updated := site.poller.updateChannel id { site.connection.channel with events }
  ⟨{ site.connection with channel := updated.1 }, updated.2⟩

def enableReadEvent (id : Nat) (site : Site Thread) : Site Thread :=
  site.setEvents id (site.connection.channel.events ||| kReadEvent)

def disableReadEvent (id : Nat) (site : Site Thread) : Site Thread :=
  site.setEvents id (site.connection.channel.events &&& ~~~kReadEvent)

def enableWriteEvent (id : Nat) (site : Site Thread) : Site Thread :=
  site.setEvents id (site.connection.channel.events ||| kWriteEvent)

def disableWriteEvent (id : Nat) (site : Site Thread) : Site Thread :=
  site.setEvents id (site.connection.channel.events &&& ~~~kWriteEvent)

def disableAllEvent (id : Nat) (site : Site Thread) : Site Thread :=
  site.setEvents id kNoneEvent

end Site

end Benet
