import Benet.Connection.Functions
import Mathlib.Algebra.Group.Nat.Defs

/-!
# The server, its connections and the user

`TcpServer` with any number of connections on any loops, as a client of the event
loop machine. User code is a task that makes one public call after the other,
chosen by the environment, on any thread: before and after `Start`, in callbacks,
in functors of its own, in timers and in destructors. Objects are not reclaimed:
a connection keeps its number and its descriptor for the whole run. Of its buffers user
code only retrieves from `input_buffer_`.

The kernel gives a descriptor out again when `~TcpConnection` has closed it, and the model
names every descriptor anew. Nothing depends on the number itself, only on whether two channels
share an entry of a poller. A connection that is out of its loop when it is destroyed leaves no
entry behind, and a later one with its descriptor behaves like one with a new descriptor.
Not followed are the runs in which a descriptor is closed while a poller has an entry for it,
from the point on where the descriptor is given out again.
-/

namespace Benet

open EventLoop

structure TcpServer (Thread : Type) where
  loop : Thread
  name : String
  /-- `listen_addr_.AsString()` -/
  listenAddr : String
  /-- `write_complete_cb_` is bound -/
  writeCompleteCb : Bool := false
  connections : String → Option Nat := fun _ => none
  /-- `~TcpServer` has not begun; the members of the server last until it has ended -/
  alive : Bool := true
  /-- history: entries of `connections_` that were overwritten -/
  overwritten : Nat := 0
  /-- history: functions of the server that ran after its destruction had begun -/
  usedDead : Nat := 0

/-- The process: every connection ever made, by number, the pollers of the
loops, the server, and the static counter of `new_connection`. -/
structure World (Thread : Type) where
  connections : Nat → TcpConnection Thread
  created : Nat := 0
  pollers : Thread → EPoller := fun _ => {}
  server : TcpServer Thread
  nextConnId : Nat := 0

/-- The public functions of a connection that act on it. -/
inductive UserCall where
  | send (message : List UInt8)
  | shutdown
  | forceClose
  | startRead
  | stopRead
deriving DecidableEq, Repr

def UserCall.task : UserCall → ConnectionTask
  | .send message => .send message
  | .shutdown => .shutdown
  | .forceClose => .forceClose
  | .startRead => .startRead
  | .stopRead => .stopRead

/-- One action of user code. A functor that it passes to a loop is user code
again. -/
inductive UserAction (Thread : Type) where
  | leave
  | call (id : Nat) (call : UserCall)
  | runInLoop (loop : Thread)
  | queueInLoop (loop : Thread)
  | stop (loop : Thread)
  | retrieveInput (id len : Nat)
  | bindWriteCompleteCallback (id : Nat) (bound : Bool)
  | bindHighWaterMarkCallback (id mark : Nat) (bound : Bool)
  | destroyServer
deriving DecidableEq, Repr

/-- The environment's answers: the next action of user code, the results of
system calls, the accepted descriptor with the loop that `GetNextLoop` gives it
(the server's own by default) and the connection numbers that other servers of
the process have taken meanwhile, what `Poll` returns, and the iteration order of
`connections_`. -/
structure Choice (Thread : Type) where
  action : UserAction Thread := .leave
  answers : Answers := {}
  fd : Nat := 0
  ioLoop : Option Thread := none
  skipped : Nat := 0
  actives : List (Active Task) := []
  order : List Nat := []

namespace World

variable {Thread : Type} [DecidableEq Thread]

/-- No connection yet; the numbers still to come stand for nothing. -/
def initial (server : TcpServer Thread) : World Thread where
  connections _ := { loop := server.loop, name := "", channel := { fd := 0 } }
  server := server

/-- A connection with the poller of its loop. -/
def site (id : Nat) (world : World Thread) : Site Thread :=
  ⟨world.connections id, world.pollers (world.connections id).loop⟩

def setSite (id : Nat) (site : Site Thread) (world : World Thread) : World Thread :=
  { world with
    connections := Function.update world.connections id site.connection
    pollers := Function.update world.pollers (world.connections id).loop site.poller }

def modifyConnection (id : Nat) (change : TcpConnection Thread → TcpConnection Thread)
    (world : World Thread) : World Thread :=
  { world with connections := Function.update world.connections id (change (world.connections id)) }

def modifyServer (change : TcpServer Thread → TcpServer Thread) (world : World Thread) :
    World Thread :=
  { world with server := change world.server }

/-- A function of the server runs although `~TcpServer` has begun. What it would do with the
members of the server is not followed. -/
def useDead (world : World Thread) : World Thread :=
  world.modifyServer fun server => { server with usedDead := server.usedDead + 1 }

/-- What a step of the program leaves behind and the calls it then makes. -/
abbrev Result (Thread : Type) : Type := World Thread × List (Call Thread Task)

/-- One action of user code on `thread`; after it the user code goes on. -/
def act (thread : Thread) (world : World Thread) : UserAction Thread → Option (Result Thread)
  | .leave => some (world, [])
  | .call id call =>
      if id < world.created then some (world, [.task (.connection id call.task), .task .user])
      else none
  | .runInLoop loop => some (world, [.runInLoop loop .user, .task .user])
  | .queueInLoop loop => some (world, [.queueInLoop loop .user, .task .user])
  | .stop loop => some (world, [.stop loop, .task .user])
  | .retrieveInput id len =>
      -- the input buffer belongs to the connection's loop thread
      if enough : len ≤ (world.connections id).inputBuffer.buffer.readableBytes then
        if thread = (world.connections id).loop then
          some (world.modifyConnection id fun connection => { connection with
            inputBuffer := (world.connections id).inputBuffer.retrieve len enough },
            [.task .user])
        else none
      else none
  | .bindWriteCompleteCallback id bound =>
      some (world.modifyConnection id fun connection => { connection with
        onWriteComplete := bound }, [.task .user])
  | .bindHighWaterMarkCallback id mark bound =>
      some (world.modifyConnection id fun connection => { connection with
        highWaterMark := mark, onHighWaterMark := bound }, [.task .user])
  | .destroyServer =>
      if thread = world.server.loop ∧ world.server.alive then
        some (world, [.task .destroyServer, .task .user])
      else none

/-- `std::format("{}-{}#{}", name_, listen_addr_.AsString(), next_conn_id_)`, with
the counter in 64 bits. -/
def connName (server : TcpServer Thread) (connId : Nat) : String :=
  server.name ++ "-" ++ server.listenAddr ++ "#" ++ (connId % 2 ^ 64).repr

/-- `new_connection` for a descriptor that no connection has or had. -/
def newConnection (choice : Choice Thread) (world : World Thread) : Option (Result Thread) :=
  if world.server.alive ∧ (List.range world.created).all (fun id =>
      (world.connections id).channel.fd != choice.fd) then
    let server := world.server
    let ioLoop := choice.ioLoop.getD server.loop
    let connId := world.nextConnId + choice.skipped
    let name := connName server connId
    let id := world.created
    some ({ world with
      connections := Function.update world.connections id
        { loop := ioLoop, name, channel := { fd := choice.fd },
          onWriteComplete := server.writeCompleteCb }
      created := id + 1
      server := { server with
        connections := Function.update server.connections name (some id)
        overwritten := server.overwritten + if (server.connections name).isSome then 1 else 0 }
      nextConnId := connId + 1 },
      [.runInLoop ioLoop (.connection id .connectionEstablished)])
  else none

/-- `on_close_`, which is bound to `remove_connection`. -/
def onClose (id : Nat) (world : World Thread) : Result Thread :=
  if world.server.alive then
    (world, [.runInLoop world.server.loop (.removeConnection id)])
  else (world.useDead, [])

/-- The functor of `remove_connection`. -/
def removeConnection (id : Nat) (world : World Thread) : Result Thread :=
  if world.server.alive then
    let connection := world.connections id
    let erasedOne := (world.server.connections connection.name).isSome
    ((world.modifyServer fun server => { server with
      connections := Function.update server.connections connection.name none }).modifyConnection id
        fun connection => { connection with history := { connection.history with
          erased := connection.history.erased + 1
          failedAssertions := connection.history.failedAssertions ++
            if erasedOne then [] else [.erasedOne] } },
      [.queueInLoop connection.loop (.connection id .connectionDestroyed)])
  else (world.useDead, [])

/-- The numbers of the connections in `connections_`. -/
def registered (world : World Thread) : List Nat :=
  (List.range world.created).filter fun id =>
    world.server.connections (world.connections id).name == some id

/-- The body of `~TcpServer`. -/
def destroyServer (order : List Nat) (world : World Thread) : Option (Result Thread) :=
  if world.server.alive ∧ order.Perm world.registered then
    some (world.modifyServer fun server => { server with
        alive := false, connections := fun _ => none },
      order.map fun id =>
        .runInLoop (world.connections id).loop (.connection id .connectionDestroyed))
  else none

/-- Execute a task. -/
def exec (thread : Thread) (task : Task) (choice : Choice Thread) (world : World Thread) :
    Option (Result Thread) :=
  match task with
  | .user => world.act thread choice.action
  | .connection id task =>
      ((world.site id).exec thread id choice.answers task).map fun (site, calls) =>
        (world.setSite id site, calls)
  | .newConnection => world.newConnection choice
  | .onClose id => some (world.onClose id)
  | .removeConnection id => some (world.removeConnection id)
  | .destroyServer => world.destroyServer choice.order

/-- Whether `Poll` on `thread` may return this channel: a connection whose
descriptor is in the interest set, the acceptor, or a channel of the user. -/
def pollable (thread : Thread) (world : World Thread) : Active Task → Bool
  | .wakeup | .channel .user => true
  | .channel .newConnection => thread = world.server.loop && world.server.alive
  | .channel (.connection id (.handleEvent _)) =>
      let connection := world.connections id
      id < world.created && connection.loop = thread &&
        ((world.pollers thread).interest connection.channel.fd).any (·.owner == id)
  | .channel _ => false

/-- The program as a client of the event loop machine. -/
def client : Client (World Thread) Thread Task (Choice Thread) where
  user := .user
  exec := exec
  poll thread choice world :=
    if choice.actives.all (world.pollable thread) then some choice.actives else none

/-- A server that has just been made, with any configuration. -/
def Initial (world : World Thread) : Prop :=
  ∃ loop name listenAddr writeCompleteCb,
    world = initial { loop, name, listenAddr, writeCompleteCb }

/-- All runs of the program. -/
abbrev system : Semantics.LabelledSystem (Machine (World Thread) Thread Task)
    (Label Thread (Choice Thread)) :=
  Machine.system client Initial

section Schedules

/-- A server on loop `0`, before anything has run; thread `1` is another thread. -/
def serverOnZero : Machine (World TwoThreads) TwoThreads Task where
  client := initial { loop := 0, name := "server", listenAddr := "addr" }

/-- The run starts with a new server. -/
theorem serverOnZero_initial : system.Initial serverOnZero :=
  ⟨_, ⟨0, "server", "addr", false, rfl⟩, rfl⟩

/-- The next step of a thread. -/
def turn (thread : TwoThreads) (choice : Choice TwoThreads) : Label TwoThreads (Choice TwoThreads) :=
  ⟨thread, .proceed choice⟩

/-- Steps of a thread that need no answer. -/
def turns (thread : TwoThreads) (count : Nat) : List (Label TwoThreads (Choice TwoThreads)) :=
  List.replicate count (turn thread {})

/-- Loop `0` has handled its events, runs no functors and polls again. -/
def nextPoll (actives : List (Active Task)) : List (Label TwoThreads (Choice TwoThreads)) :=
  turns 0 6 ++ [turn 0 { actives }] ++ turns 0 1

/-- The acceptor's handler with this descriptor, for a connection on loop `0`. -/
def accepting (fd : Nat) : List (Label TwoThreads (Choice TwoThreads)) :=
  [turn 0 { fd }] ++ turns 0 3

/-- `Start`, and one connection on loop `0` is established. -/
def establishOne : List (Label TwoThreads (Choice TwoThreads)) :=
  [⟨0, .start⟩] ++ turns 0 1 ++ [turn 0 { actives := [.channel .newConnection] }] ++ turns 0 1 ++
    accepting 10

/-- In the next iteration user code runs on loop `0`. -/
def userTurn : List (Label TwoThreads (Choice TwoThreads)) :=
  establishOne ++ nextPoll [.channel .user]

end Schedules

end World

end Benet
