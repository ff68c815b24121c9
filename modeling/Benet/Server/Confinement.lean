import Benet.EventLoop.Confinement
import Benet.Server.Lifecycle

/-!
# The data of a loop's thread

The buffers and the channel of a connection, its callbacks and the poller belong to the thread
of the connection's loop, `connections_` to the thread of the server's loop. No lock protects
them. `LoopData.install` replaces all of it for one loop, and every step of another thread is
blind for the replacement: what `Send`, `Shutdown`, `ForceClose`, `StartRead`, `StopRead`,
`on_close_` and whole other connections do elsewhere neither reads nor writes it
(`World.loop_data_is_confined`). The counter of `new_connection` has no lock either, but it is
no data of a loop: it is one static variable for all servers of the process, on whatever loops
they are.
-/

namespace Benet

open EventLoop Semantics

variable {Thread : Type}

/-- The fields of a connection that belong to the thread of its loop. The state is atomic, and
what is left does not change. -/
structure TcpConnection.Own where
  events : EventMask
  index : ChannelIndex
  reading : Bool
  highWaterMark : Nat
  onHighWaterMark : Bool
  onWriteComplete : Bool
  inputBuffer : Buffer.Valid
  outputBuffer : Buffer.Valid

def TcpConnection.own (connection : TcpConnection Thread) : TcpConnection.Own where
  events := connection.channel.events
  index := connection.channel.index
  reading := connection.reading
  highWaterMark := connection.highWaterMark
  onHighWaterMark := connection.onHighWaterMark
  onWriteComplete := connection.onWriteComplete
  inputBuffer := connection.inputBuffer
  outputBuffer := connection.outputBuffer

def TcpConnection.withOwn (own : TcpConnection.Own) (connection : TcpConnection Thread) :
    TcpConnection Thread :=
  { connection with
    channel := { connection.channel with events := own.events, index := own.index }
    reading := own.reading
    highWaterMark := own.highWaterMark
    onHighWaterMark := own.onHighWaterMark
    onWriteComplete := own.onWriteComplete
    inputBuffer := own.inputBuffer
    outputBuffer := own.outputBuffer }

/-- Values for the data of a loop's thread: the fields of the loop, its poller, the own fields
of the first `count` connections, and `connections_`. -/
structure LoopData (Thread : Type) where
  loop : Loop.Own Thread Task
  poller : EPoller
  count : Nat
  connections : Nat → TcpConnection.Own
  registry : String → Option Nat

/-- The tasks that belong to the thread of the server's loop. -/
def Task.onBase : Task → Bool
  | .newConnection | .removeConnection _ | .destroyServer => true
  | _ => false

namespace Site

/-- A connection and a poller with other values in the fields of the loop's thread. -/
def withOwn (own : TcpConnection.Own) (poller : EPoller) (site : Site Thread) : Site Thread :=
  ⟨site.connection.withOwn own, poller⟩

variable [DecidableEq Thread]

/-- The public functions are blind for the fields of the loop's thread. -/
theorem exec_withOwn {task : ConnectionTask} (outside : task.inLoop = false)
    (own : TcpConnection.Own) (poller : EPoller) (thread : Thread) (id : Nat) (answers : Answers)
    (site : Site Thread) :
    (site.withOwn own poller).exec thread id answers task =
      (site.exec thread id answers task).map fun outcome =>
        (outcome.1.withOwn own poller, outcome.2) := by
  cases task with
  | send message =>
      by_cases connected : site.connection.state = .connected
      all_goals simp [exec, send, withOwn, TcpConnection.withOwn, connected, record, modify]
  | shutdown =>
      by_cases connected : site.connection.state = .connected
      all_goals simp [exec, shutdown, withOwn, TcpConnection.withOwn, connected, setState, modify]
  | forceClose =>
      by_cases connected : site.connection.state = .connected
      all_goals simp [exec, forceClose, withOwn, TcpConnection.withOwn, connected, setState,
        disturb, record, modify]
  | forceCloseLoad =>
      by_cases disconnecting : site.connection.state = .disconnecting
      all_goals simp [exec, forceCloseLoad, withOwn, TcpConnection.withOwn, disconnecting,
        disturb, record, modify]
  | startRead | stopRead => rfl
  | _ => cases outside

/-- So they do not write them. -/
theorem own_of_exec {task : ConnectionTask} (outside : task.inLoop = false) {thread : Thread}
    {id : Nat} {answers : Answers} {site next : Site Thread} {calls : List (Call Thread Task)}
    (executed : site.exec thread id answers task = some (next, calls)) :
    next.connection.own = site.connection.own ∧ next.poller = site.poller := by
  have blind := exec_withOwn outside site.connection.own site.poller thread id answers site
  have same : site.withOwn site.connection.own site.poller = site := rfl
  rw [same, executed] at blind
  have kept : next = next.withOwn site.connection.own site.poller :=
    congrArg Prod.fst (Option.some.inj blind)
  rw [kept]
  exact ⟨rfl, rfl⟩

end Site

namespace LoopData

variable [DecidableEq Thread]

/-- Put the values into the fields of a connection, unless it is newer. -/
def connection (data : LoopData Thread) (owner : Thread) (id : Nat)
    (connection : TcpConnection Thread) : TcpConnection Thread :=
  if id < data.count ∧ connection.loop = owner then connection.withOwn (data.connections id)
  else connection

/-- Put the values into the data of the thread `owner`. -/
def install (owner : Thread) (data : LoopData Thread) (world : World Thread) : World Thread where
  connections id := data.connection owner id (world.connections id)
  created := world.created
  pollers := Function.update world.pollers owner data.poller
  server := if world.server.loop = owner then { world.server with connections := data.registry }
    else world.server
  nextConnId := world.nextConnId

variable {data : LoopData Thread} {owner : Thread} {id : Nat} {world : World Thread}
  {connection : TcpConnection Thread}

/-- The values replace nothing but the own fields. -/
theorem connection_frame {Value : Type} (field : TcpConnection Thread → Value)
    (kept : ∀ own connection, field (TcpConnection.withOwn own connection) = field connection) :
    field (data.connection owner id connection) = field connection := by
  unfold LoopData.connection
  split
  · exact kept _ _
  · rfl

@[simp] theorem connection_loop : (data.connection owner id connection).loop = connection.loop :=
  connection_frame (·.loop) fun _ _ => rfl

@[simp] theorem connection_name : (data.connection owner id connection).name = connection.name :=
  connection_frame (·.name) fun _ _ => rfl

@[simp] theorem connection_state :
    (data.connection owner id connection).state = connection.state :=
  connection_frame (·.state) fun _ _ => rfl

@[simp] theorem connection_fd :
    (data.connection owner id connection).channel.fd = connection.channel.fd :=
  connection_frame (·.channel.fd) fun _ _ => rfl

private theorem connection_elsewhere (elsewhere : connection.loop ≠ owner) :
    data.connection owner id connection = connection :=
  if_neg fun both => elsewhere both.2

private theorem connection_newer (newer : data.count ≤ id) :
    data.connection owner id connection = connection :=
  if_neg fun both => absurd both.1 (Nat.not_lt.mpr newer)

@[simp] theorem install_connections :
    (data.install owner world).connections id = data.connection owner id (world.connections id) :=
  rfl

@[simp] theorem install_created : (data.install owner world).created = world.created := rfl

@[simp] theorem install_server_loop :
    (data.install owner world).server.loop = world.server.loop := by
  simp only [install]
  split <;> rfl

@[simp] theorem install_server_alive :
    (data.install owner world).server.alive = world.server.alive := by
  simp only [install]
  split <;> rfl

private theorem install_server (elsewhere : world.server.loop ≠ owner) :
    (data.install owner world).server = world.server :=
  if_neg elsewhere

@[simp] theorem install_nextConnId : (data.install owner world).nextConnId = world.nextConnId :=
  rfl

private theorem install_pollers {loop : Thread} (elsewhere : loop ≠ owner) :
    (data.install owner world).pollers loop = world.pollers loop :=
  Function.update_of_ne elsewhere _ _

/-- A change of a connection that is not among the own fields. -/
private theorem install_modifyConnection {change : TcpConnection Thread → TcpConnection Thread}
    (blind : data.connection owner id (change (world.connections id)) =
      change (data.connection owner id (world.connections id))) :
    (data.install owner world).modifyConnection id change =
      data.install owner (world.modifyConnection id change) := by
  have connections : ((data.install owner world).modifyConnection id change).connections =
      (data.install owner (world.modifyConnection id change)).connections := by
    funext other
    by_cases same : other = id
    · subst same
      simp [World.modifyConnection, blind]
    · simp [World.modifyConnection, Function.update_of_ne same]
  simp only [World.modifyConnection, install] at connections ⊢
  rw [connections]
  rfl

private theorem install_useDead :
    (data.install owner world).useDead = data.install owner world.useDead := by
  by_cases base : world.server.loop = owner <;>
    simp [World.useDead, World.modifyServer, install, base]

/-- A connection of another loop has its own fields. -/
private theorem install_site_elsewhere (elsewhere : (world.connections id).loop ≠ owner) :
    (data.install owner world).site id = world.site id := by
  simp only [World.site, install_connections, connection_elsewhere elsewhere,
    install_pollers elsewhere]

private theorem install_setSite_elsewhere {site : Site Thread}
    (elsewhere : (world.connections id).loop ≠ owner)
    (loop : site.connection.loop = (world.connections id).loop) :
    (data.install owner world).setSite id site = data.install owner (world.setSite id site) := by
  have connections : ((data.install owner world).setSite id site).connections =
      (data.install owner (world.setSite id site)).connections := by
    funext other
    by_cases same : other = id
    · subst same
      have unchanged : data.connection owner other site.connection = site.connection :=
        connection_elsewhere (loop ▸ elsewhere)
      simp [World.setSite, unchanged]
    · simp [World.setSite, Function.update_of_ne same]
  have pollers : ((data.install owner world).setSite id site).pollers =
      (data.install owner (world.setSite id site)).pollers := by
    simp [World.setSite, install, Function.update_comm elsewhere]
  simp only [World.setSite, install] at connections pollers ⊢
  rw [connections, pollers]
  rfl

/-- The own fields of a connection of the thread itself, with the values in them. -/
theorem connection_eq_withOwn :
    data.connection owner id connection =
      connection.withOwn (data.connection owner id connection).own := by
  unfold LoopData.connection
  split <;> rfl

private theorem install_site_own (here : (world.connections id).loop = owner) :
    (data.install owner world).site id =
      (world.site id).withOwn (data.connection owner id (world.connections id)).own
        data.poller := by
  have connection : data.connection owner id (world.connections id) =
      (world.connections id).withOwn (data.connection owner id (world.connections id)).own :=
    connection_eq_withOwn
  simp only [World.site, Site.withOwn, install_connections, connection_loop, ← connection]
  simp [install, here]

private theorem install_setSite_own {site : Site Thread}
    (here : (world.connections id).loop = owner)
    (loop : site.connection.loop = owner)
    (unwritten : site.connection.own = (world.connections id).own) :
    (data.install owner world).setSite id
        (site.withOwn (data.connection owner id (world.connections id)).own data.poller) =
      data.install owner (world.setSite id site) := by
  have own : (data.connection owner id (world.connections id)).own =
      (data.connection owner id site.connection).own := by
    unfold LoopData.connection
    simp only [here, loop]
    split
    · rfl
    · exact unwritten.symm
  have connections : ((data.install owner world).setSite id
        (site.withOwn (data.connection owner id (world.connections id)).own
          data.poller)).connections = (data.install owner (world.setSite id site)).connections := by
    funext other
    by_cases same : other = id
    · subst same
      simp only [World.setSite, Site.withOwn, install_connections, Function.update_self, own]
      exact connection_eq_withOwn.symm
    · simp [World.setSite, Function.update_of_ne same]
  have pollers : ((data.install owner world).setSite id
        (site.withOwn (data.connection owner id (world.connections id)).own
          data.poller)).pollers = (data.install owner (world.setSite id site)).pollers := by
    simp [World.setSite, install, here, Site.withOwn]
  simp only [World.setSite, install] at connections pollers ⊢
  rw [connections, pollers]
  rfl

end LoopData

/-- The connection whose callbacks user code binds. -/
def UserAction.binds : UserAction Thread → Option Nat
  | .bindWriteCompleteCallback id _ | .bindHighWaterMarkCallback id _ _ => some id
  | _ => none

namespace World

/-- User code binds the callbacks of a connection in the thread of its loop. -/
def bindsInLoop (thread : Thread) (task : Task) (choice : Choice Thread) (world : World Thread) :
    Prop :=
  task = .user → ∀ id ∈ choice.action.binds, thread = (world.connections id).loop

instance [DecidableEq Thread] (thread : Thread) (task : Task) (choice : Choice Thread)
    (world : World Thread) : Decidable (bindsInLoop thread task choice world) :=
  inferInstanceAs (Decidable (_ → ∀ id ∈ choice.action.binds, _))

section Exec

variable [DecidableEq Thread] {data : LoopData Thread} {owner thread : Thread}
  {world : World Thread} {choice : Choice Thread}

/-- An action of user code in another thread. -/
theorem act_install (other : thread ≠ owner)
    (binds : bindsInLoop thread .user choice world) :
    (data.install owner world).act thread choice.action =
      (world.act thread choice.action).map fun result =>
        (data.install owner result.1, result.2) := by
  have tune (id : Nat) (change : TcpConnection Thread → TcpConnection Thread)
      (here : thread = (world.connections id).loop)
      (loop : ∀ connection, (change connection).loop = connection.loop) :
      (data.install owner world).modifyConnection id change =
        data.install owner (world.modifyConnection id change) := by
    have elsewhere : (world.connections id).loop ≠ owner := here ▸ other
    have changed : (change (world.connections id)).loop ≠ owner := by rwa [loop]
    apply LoopData.install_modifyConnection
    rw [LoopData.connection_elsewhere elsewhere, LoopData.connection_elsewhere changed]
  cases action : choice.action with
  | leave | runInLoop | queueInLoop | stop => rfl
  | call id call =>
      simp only [act, LoopData.install_created]
      by_cases exists' : id < world.created <;> simp [exists']
  | retrieveInput id len =>
      by_cases here : thread = (world.connections id).loop
      · have same : (data.install owner world).connections id = world.connections id :=
          LoopData.connection_elsewhere (here ▸ other)
        simp only [act, same, here, if_true]
        split
        case isTrue enough => exact congrArg (fun next => some (next, _)) (tune id _ here fun _ => rfl)
        case isFalse => rfl
      · simp [act, here]
  | bindWriteCompleteCallback id bound =>
      have here : thread = (world.connections id).loop :=
        binds rfl id (by rw [action]; rfl)
      exact congrArg (fun next => some (next, _)) (tune id _ here fun _ => rfl)
  | bindHighWaterMarkCallback id mark bound =>
      have here : thread = (world.connections id).loop :=
        binds rfl id (by rw [action]; rfl)
      exact congrArg (fun next => some (next, _)) (tune id _ here fun _ => rfl)
  | destroyServer =>
      simp only [act, LoopData.install_server_loop, LoopData.install_server_alive]
      by_cases allowed : thread = world.server.loop ∧ world.server.alive = true <;> simp [allowed]

/-- A function of a connection, in a thread that may execute it. -/
theorem exec_connection_install {id : Nat} {task : ConnectionTask} (other : thread ≠ owner)
    (here : task.inLoop = true → thread = (world.connections id).loop) :
    (data.install owner world).exec thread (.connection id task) choice =
      (world.exec thread (.connection id task) choice).map fun result =>
        (data.install owner result.1, result.2) := by
  by_cases own : (world.connections id).loop = owner
  · have outside : task.inLoop = false :=
      Bool.eq_false_iff.mpr fun inLoop => other ((here inLoop).trans own)
    simp only [exec, LoopData.install_site_own own, Site.exec_withOwn outside]
    cases executed : (world.site id).exec thread id choice.answers task with
    | none => rfl
    | some outcome =>
        obtain ⟨site, calls⟩ := outcome
        have loop : site.connection.loop = owner :=
          (Site.exec_effect executed).identity.loop.trans own
        have unwritten := (Site.own_of_exec outside executed).1
        simpa using LoopData.install_setSite_own own loop unwritten
  · simp only [exec, LoopData.install_site_elsewhere own]
    cases executed : (world.site id).exec thread id choice.answers task with
    | none => rfl
    | some outcome =>
        obtain ⟨site, calls⟩ := outcome
        have loop := (Site.exec_effect executed).identity.loop
        simpa using LoopData.install_setSite_elsewhere own loop

/-- A new connection of a server on another loop commutes with replacing the data. -/
theorem install_withNewConnection (elsewhere : world.server.loop ≠ owner)
    (bounded : data.count ≤ world.created) :
    (data.install owner world).withNewConnection choice =
      data.install owner (world.withNewConnection choice) := by
  have connections : ((data.install owner world).withNewConnection choice).connections =
      (data.install owner (world.withNewConnection choice)).connections := by
    funext id
    simp only [withNewConnection, LoopData.install_server elsewhere,
      LoopData.install_nextConnId, LoopData.install_connections,
      LoopData.install_created]
    by_cases new : id = world.created
    · subst new
      rw [Function.update_self, Function.update_self, LoopData.connection_newer bounded]
    · rw [Function.update_of_ne new, Function.update_of_ne new, LoopData.install_connections]
  have server : ((data.install owner world).withNewConnection choice).server =
      (data.install owner (world.withNewConnection choice)).server := by
    simp [withNewConnection, LoopData.install, elsewhere]
  calc (data.install owner world).withNewConnection choice
      = { connections := ((data.install owner world).withNewConnection choice).connections
          created := world.created + 1
          pollers := Function.update world.pollers owner data.poller
          server := ((data.install owner world).withNewConnection choice).server
          nextConnId := world.nextConnId + choice.skipped + 1 } := rfl
    _ = data.install owner (world.withNewConnection choice) := by
        rw [connections, server]
        rfl

/-- A removal by a server on another loop commutes with replacing the data. -/
theorem install_withoutConnection {id : Nat} (elsewhere : world.server.loop ≠ owner) :
    (data.install owner world).withoutConnection id =
      data.install owner (world.withoutConnection id) := by
  have server (registry : String → Option Nat) :
      (data.install owner world).modifyServer (fun server =>
          { server with connections := registry }) =
        data.install owner (world.modifyServer fun server =>
          { server with connections := registry }) := by
    simp [modifyServer, LoopData.install, elsewhere]
  let name := (world.connections id).name
  let registry := Function.update world.server.connections name none
  let record (connection : TcpConnection Thread) : TcpConnection Thread :=
    { connection with history := { connection.history with
      erased := connection.history.erased + 1
      failedAssertions := connection.history.failedAssertions ++
        if (world.server.connections name).isSome then [] else [.erasedOne] } }
  have blind (connection : TcpConnection Thread) :
      data.connection owner id (record connection) =
        record (data.connection owner id connection) := by
    unfold LoopData.connection
    split <;> rfl
  calc (data.install owner world).withoutConnection id
      = ((data.install owner world).modifyServer fun server =>
          { server with connections := registry }).modifyConnection id record := by
        simp only [withoutConnection, modifyServer, LoopData.install_server elsewhere,
          LoopData.install_connections, LoopData.connection_name]
        rfl
    _ = data.install owner (world.withoutConnection id) := by
        rw [server]
        exact LoopData.install_modifyConnection (blind _)

/-- The registry of a server on another loop is not touched. -/
theorem registered_install (elsewhere : world.server.loop ≠ owner) :
    (data.install owner world).registered = world.registered := by
  simp [registered, LoopData.install_server elsewhere]

/-- The tasks of the server, in the thread of its loop. -/
theorem exec_base_install {task : Task} (onBase : task.onBase = true)
    (elsewhere : world.server.loop ≠ owner) (bounded : data.count ≤ world.created) :
    (data.install owner world).exec thread task choice =
      (world.exec thread task choice).map fun result =>
        (data.install owner result.1, result.2) := by
  cases task with
  | newConnection =>
      have result (world : World Thread) : world.newConnection choice =
          if world.server.alive ∧ (List.range world.created).all (fun id =>
              (world.connections id).channel.fd != choice.fd) then
            some (world.withNewConnection choice,
              [.runInLoop (choice.ioLoop.getD world.server.loop)
                (.connection world.created .connectionEstablished)])
          else none := rfl
      simp only [exec, result, install_withNewConnection elsewhere bounded,
        LoopData.install_server_alive, LoopData.install_server_loop, LoopData.install_created,
        LoopData.install_connections, LoopData.connection_fd]
      split <;> rfl
  | removeConnection id =>
      have result (world : World Thread) : world.removeConnection id =
          if world.server.alive then (world.withoutConnection id,
            [.queueInLoop (world.connections id).loop (.connection id .connectionDestroyed)])
          else (world.useDead, []) := rfl
      simp only [exec, result, install_withoutConnection elsewhere, LoopData.install_useDead,
        LoopData.install_server_alive, LoopData.install_connections, LoopData.connection_loop]
      split <;> rfl
  | destroyServer =>
      simp only [exec, destroyServer, registered_install elsewhere, LoopData.install_server_alive,
        LoopData.install_connections, LoopData.connection_loop]
      split
      · simp [modifyServer, LoopData.install, elsewhere]
      · rfl
  | _ => cases onBase

/-- Every task, in a thread that may execute it. -/
theorem exec_install {task : Task} (other : thread ≠ owner) (bounded : data.count ≤ world.created)
    (binds : bindsInLoop thread task choice world)
    (here : ∀ id function, task = .connection id function → function.inLoop = true →
      thread = (world.connections id).loop)
    (base : task.onBase = true → thread = world.server.loop) :
    (data.install owner world).exec thread task choice =
      (world.exec thread task choice).map fun result =>
        (data.install owner result.1, result.2) := by
  cases task with
  | user => exact act_install other binds
  | connection id function => exact exec_connection_install other (here id function rfl)
  | onClose id =>
      simp only [exec, onClose, LoopData.install_server_alive, LoopData.install_server_loop,
        LoopData.install_useDead]
      split <;> rfl
  | newConnection | removeConnection | destroyServer =>
      exact exec_base_install rfl (base rfl ▸ other) bounded

/-- `Poll` looks at the poller of its own loop and at the connections in it. -/
theorem pollable_install (other : thread ≠ owner) (active : Active Task) :
    (data.install owner world).pollable thread active = world.pollable thread active := by
  unfold pollable
  split
  case h_3 => rw [LoopData.install_server_loop, LoopData.install_server_alive]
  case h_4 id revents =>
    simp only [LoopData.install_connections, LoopData.install_created, LoopData.connection_loop,
      LoopData.connection_fd, LoopData.install_pollers other]
    rfl
  all_goals rfl

/-- What another loop can poll does not depend on the data. -/
theorem poll_install (other : thread ≠ owner) (choice : Choice Thread) :
    client.poll thread choice (data.install owner world) = client.poll thread choice world := by
  have same : (data.install owner world).pollable thread = world.pollable thread :=
    funext (pollable_install other)
  simp only [client, same]

/-- The tasks of the server are in flight in the thread of its loop. -/
def OnBase (world : World Thread) (flight : Multiset (Located Thread Task)) : Prop :=
  ∀ located ∈ flight, located.2.onBase = true → located.1 = world.server.loop

/-- An executed task posts functions of the server to its loop. -/
theorem OnBase.executes {next : World Thread} {task : Task} {calls : List (Call Thread Task)}
    (executes : Executes thread choice world task next calls) :
    OnBase world (Call.flights thread calls) := by
  intro located member onBase
  obtain ⟨call, made, carried⟩ := (Call.mem_flights thread).mp member
  cases executes with
  | leaves | onCloseDead | removeDead => cases made
  | calls =>
      rcases List.mem_pair.mp made with rfl | rfl <;>
        obtain rfl := Multiset.mem_singleton.mp carried <;> cases onBase
  | posts posted =>
      rcases List.mem_pair.mp made with rfl | rfl
      · obtain ⟨loop, rfl | rfl | rfl⟩ := posted
        · obtain rfl := Multiset.mem_singleton.mp carried
          cases onBase
        · obtain rfl := Multiset.mem_singleton.mp carried
          cases onBase
        · cases Multiset.notMem_zero located carried
      · obtain rfl := Multiset.mem_singleton.mp carried
        cases onBase
  | tunes | newConnection | removeConnection =>
      obtain rfl := List.mem_singleton.mp made
      obtain rfl := Multiset.mem_singleton.mp carried
      cases onBase
  | destroys _ base =>
      rcases List.mem_pair.mp made with rfl | rfl
      · obtain rfl := Multiset.mem_singleton.mp carried
        exact base
      · obtain rfl := Multiset.mem_singleton.mp carried
        cases onBase
  | connection effect =>
      cases effect.emitted located member <;> cases onBase
  | onClose =>
      obtain rfl := List.mem_singleton.mp made
      obtain rfl := Multiset.mem_singleton.mp carried
      rfl
  | destroyServer =>
      obtain ⟨id, -, rfl⟩ := List.mem_map.mp made
      obtain rfl := Multiset.mem_singleton.mp carried
      cases onBase

/-- What arrives for the server is in the thread of its loop. -/
theorem OnBase.arrives {arrived : Multiset (Located Thread Task)}
    (brought : client.Arrives world arrived) : OnBase world arrived := by
  intro located member onBase
  cases brought with
  | none => cases Multiset.notMem_zero located member
  | user =>
      obtain rfl := Multiset.mem_singleton.mp member
      cases onBase
  | polled returned =>
      obtain ⟨handler, inActives, rfl⟩ := Active.mem_flights.mp member
      have pollable := poll_pollable returned _ inActives
      cases handler with
      | newConnection =>
          simp only [World.pollable, Bool.and_eq_true, decide_eq_true_eq] at pollable
          exact pollable.1
      | removeConnection | destroyServer => cases pollable
      | _ => cases onBase

end Exec

section Runs

variable [DecidableEq Thread] [Fintype Thread] {machine : Machine (World Thread) Thread Task}
  {guard : Thread → Task → Choice Thread → World Thread → Prop}

/-- Functions of the server run in the thread of its loop in every run. -/
theorem reachable_onBase (reachable : system.Reachable (Machine.onExec guard) machine) :
    OnBase machine.client machine.flight := by
  refine Machine.reachable_flight client_prompt OnBase ?_ ?_ reachable
  · rintro _ _ located member
    cases Multiset.notMem_zero located member
  · intro machine next _ step onBase
    cases step with
    | @executes thread task choice rest calls before _ _ executed after =>
        have effect := exec_executes executed
        rw [after]
        intro located member isBase
        rw [effect.server_loop]
        rcases Multiset.mem_add.mp member with new | old
        · exact OnBase.executes effect located new isBase
        · exact onBase located (before ▸ Multiset.mem_add.mpr (.inr old)) isBase
    | arrives same brought after =>
        rw [same, after]
        intro located member isBase
        rcases Multiset.mem_add.mp member with new | old
        · exact OnBase.arrives brought located new isBase
        · exact onBase located old isBase

/-- Put values into the data of a loop's thread. -/
def install (owner : Thread) (data : LoopData Thread) (machine : Machine (World Thread) Thread Task) :
    Machine (World Thread) Thread Task :=
  machine.withOwn owner data.loop (data.install owner)

/-- Steps of other threads than `owner`. -/
def elsewhere (owner : Thread) (machine : Machine (World Thread) Thread Task)
    (label : Label Thread (Choice Thread)) : Prop :=
  label.thread ≠ owner ∧ machine.onExec bindsInLoop label

instance (owner : Thread) (machine : Machine (World Thread) Thread Task)
    (label : Label Thread (Choice Thread)) : Decidable (elsewhere owner machine label) :=
  inferInstanceAs (Decidable (_ ∧ _))

omit [Fintype Thread] in
/-- Whether user code binds in the right thread does not depend on the data. -/
theorem elsewhere_install {owner : Thread} {data : LoopData Thread}
    {label : Label Thread (Choice Thread)} :
    elsewhere owner (install owner data machine) label ↔ elsewhere owner machine label := by
  have executing : (install owner data machine).executing label = machine.executing label := rfl
  simp only [elsewhere, Machine.onExec, executing, bindsInLoop]
  simp only [install, Machine.withOwn, LoopData.install_connections, LoopData.connection_loop]

/-- Data of a loop's thread, in every run in which user code binds the callbacks of a
connection in the thread of its loop. Whatever values the data is given in between, any
schedule of the other threads can be followed as before, and leads to the same state with the
same values in it. So the other threads neither read nor write it. -/
theorem loop_data_is_confined
    (reachable : system.Reachable (Machine.onExec bindsInLoop) machine) (owner : Thread)
    (data : LoopData Thread) (bounded : data.count ≤ machine.client.created)
    (labels : List (Label Thread (Choice Thread))) :
    system.run (elsewhere owner) (install owner data machine) labels =
      (system.run (elsewhere owner) machine labels).map (install owner data) := by
  refine LabelledSystem.run_blind (fun machine =>
    system.Reachable (Machine.onExec bindsInLoop) machine ∧ data.count ≤ machine.client.created)
    ?_ ?_ ?_ ⟨reachable, bounded⟩ labels
  · exact fun _ _ => elsewhere_install
  · rintro machine label ⟨reached, bounded⟩ ⟨other, binds⟩
    apply Machine.step_withOwn other
    · intro task choice executed
      refine exec_install other bounded (binds _ executed) ?_ fun onBase => ?_
      · rintro id function rfl inLoop
        exact executing_here reached executed inLoop
      · exact reachable_onBase reached _ (Machine.executing_mem_flight executed) onBase
    · exact poll_install other
  · rintro machine label next ⟨reached, bounded⟩ ⟨-, binds⟩ stepped
    refine ⟨reached.step binds stepped, bounded.trans ?_⟩
    exact guardedStep_created (Machine.guardedStep client_prompt reached binds stepped)

end Runs

/-- The data of loop `0` as it could be seen in the middle of `handle_write`. -/
def writingData : LoopData TwoThreads where
  loop := { phase := .events [], running := true, eventHanding := true, callingPendings := false }
  poller := {}
  count := 1
  connections _ :=
    { events := kWriteEvent, index := .kAddedChannel, reading := false, highWaterMark := 0
      onHighWaterMark := true, onWriteComplete := true
      inputBuffer := .create 0, outputBuffer := .create 0 }
  registry _ := some 7

/-- Thread `1` sends a message and shuts the connection down. -/
def sendsAndShutsDown : List (Label TwoThreads (Choice TwoThreads)) :=
  turns 1 1 ++ [turn 1 { action := .call 0 (.send [1]) }] ++ turns 1 4 ++
    [turn 1 { action := .call 0 .shutdown }] ++ turns 1 4

/-- `Send` and `Shutdown` on thread `1` go the same way with other data of loop `0`. -/
theorem loop_data_is_confined_writingData :
    ∃ machine final : Machine (World TwoThreads) TwoThreads Task,
      system.run (elsewhere 0) machine sendsAndShutsDown = some final ∧
      (final.loops 0).pendings.length = 2 ∧
      (final.client.connections 0).state = .disconnecting ∧
      system.run (elsewhere 0) (install 0 writingData machine) sendsAndShutsDown =
        some (install 0 writingData final) := by
  let machine := (system.run (Machine.onExec bindsInLoop) serverOnZero establishOne).get
    (by decide +kernel)
  have reachable : system.Reachable (Machine.onExec bindsInLoop) machine :=
    LabelledSystem.run_reachable serverOnZero_initial (Option.some_get _).symm
  let final := (system.run (elsewhere 0) machine sendsAndShutsDown).get (by decide +kernel)
  have followed : system.run (elsewhere 0) machine sendsAndShutsDown = some final :=
    (Option.some_get _).symm
  refine ⟨machine, final, followed, by decide +kernel, by decide +kernel, ?_⟩
  rw [loop_data_is_confined reachable 0 writingData (by decide +kernel), followed]
  rfl

end World

end Benet
