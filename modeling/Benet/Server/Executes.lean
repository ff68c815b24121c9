import Benet.Connection.Effect
import Benet.EventLoop.Urgent
import Benet.Server.Model

/-!
# What a step of the program can do

`World.Executes` lists by constructors every way in which a task of the program
can go. A call of `handle_close` is urgent: it follows at once in the thread that
has found the connection closed.
-/

namespace Benet

open EventLoop Semantics

variable {Thread : Type}

/-- User code has changed nothing but the input it has consumed and the callbacks
it has bound. -/
def TcpConnection.Tuned (before after : TcpConnection Thread) : Prop :=
  ∃ inputBuffer onWriteComplete highWaterMark onHighWaterMark,
    after = { before with inputBuffer, onWriteComplete, highWaterMark, onHighWaterMark }

/-- The rest of a function that has found its connection closed. -/
def Task.Urgent : Task → Prop
  | .connection _ .handleClose => True
  | _ => False

/-- A connection as `new_connection` makes it. -/
def TcpConnection.Fresh (connection : TcpConnection Thread) : Prop :=
  ∃ loop name fd onWriteComplete,
    connection = { loop, name, channel := { fd }, onWriteComplete }

namespace Site

variable {id : Nat}

/-- The last branch of `HandleEvent` calls nothing urgent. -/
theorem plain_writeBranch (revents : EventMask) :
    ∀ call ∈ (writeBranch id revents : List (Call Thread Task)), call.Plain Task.Urgent := by
  unfold writeBranch
  split <;> simp [Call.Plain, Task.Urgent]

/-- The functor for `on_write_complete_` is not urgent. -/
theorem plain_queueWriteComplete (site : Site Thread) :
    ∀ call ∈ queueWriteComplete id site, call.Plain Task.Urgent := by
  unfold queueWriteComplete
  split <;> simp [Call.Plain, Task.Urgent]

/-- The functor for `on_high_water_mark_` is not urgent. -/
theorem plain_appendRemaining (remaining : List UInt8) (site : Site Thread) :
    ∀ call ∈ (site.appendRemaining id remaining).2, call.Plain Task.Urgent := by
  unfold appendRemaining
  split
  · simp
  · dsimp only
    split <;> simp [Call.Plain, Task.Urgent]

variable [DecidableEq Thread] {thread : Thread} {answers : Answers} {site next : Site Thread}
  {calls : List (Call Thread Task)} {task : ConnectionTask}

/-- The read branch calls `handle_close` at once or nothing urgent. -/
theorem ReadEffect.prompt {revents : EventMask}
    (effect : ReadEffect thread id revents site next calls) : Call.Prompt Task.Urgent calls := by
  cases effect with
  | skipped | again => exact .of_plain (plain_writeBranch revents)
  | message | endOfFile | error => exact plain_writeBranch revents

/-- `handle_close` is called first or not at all. -/
theorem Effect.prompt (effect : Effect thread id answers site task next calls) :
    Call.Prompt Task.Urgent calls := by
  cases effect with
  | eventReads _ reads | afterCloseEvent reads => exact reads.prompt
  | sendPartly | sendBuffered => exact .of_plain (plain_appendRemaining _ _)
  | sendCompleted => exact .of_plain (plain_queueWriteComplete _)
  | writeDrains =>
      apply Call.Prompt.append (.of_plain (plain_queueWriteComplete _))
      simp [Call.Plain, Task.Urgent]
  | sendSubmitted | forceCloseInLoop | writeDrained =>
      split <;> simp [Call.Prompt, Call.Plain, Task.Urgent]
  | _ => simp [Call.Prompt, Call.Plain, Task.Urgent]

end Site

variable [DecidableEq Thread]

namespace World

/-- The process after `new_connection` with the given answers. -/
def withNewConnection (choice : Choice Thread) (world : World Thread) : World Thread :=
  let name := connName world.server (world.nextConnId + choice.skipped)
  { world with
    connections := Function.update world.connections world.created
      { loop := choice.ioLoop.getD world.server.loop, name, channel := { fd := choice.fd },
        onWriteComplete := world.server.writeCompleteCb }
    created := world.created + 1
    server := { world.server with
      connections := Function.update world.server.connections name (some world.created)
      overwritten := world.server.overwritten +
        if (world.server.connections name).isSome then 1 else 0 }
    nextConnId := world.nextConnId + choice.skipped + 1 }

/-- The process after the functor of `remove_connection` has erased `id`. -/
def withoutConnection (id : Nat) (world : World Thread) : World Thread :=
  let name := (world.connections id).name
  (world.modifyServer fun server => { server with
    connections := Function.update server.connections name none }).modifyConnection id
      fun connection => { connection with history := { connection.history with
        erased := connection.history.erased + 1
        failedAssertions := connection.history.failedAssertions ++
          if (world.server.connections name).isSome then [] else [.erasedOne] } }

/-- The effects of the tasks of the program. -/
inductive Executes (thread : Thread) (choice : Choice Thread) (world : World Thread) :
    Task → World Thread → List (Call Thread Task) → Prop where
  | leaves : Executes thread choice world .user world []
  | calls {id call} (action : choice.action = .call id call) (exists' : id < world.created) :
      Executes thread choice world .user world [.task (.connection id call.task), .task .user]
  | posts {call} (posted : ∃ loop, call = .runInLoop loop .user ∨ call = .queueInLoop loop .user ∨
      call = .stop loop) :
      Executes thread choice world .user world [call, .task .user]
  | tunes {id change} (tuned : ∀ connection, connection = world.connections id →
      connection.Tuned (change connection)) :
      Executes thread choice world .user (world.modifyConnection id change) [.task .user]
  | destroys (action : choice.action = .destroyServer) (base : thread = world.server.loop)
      (alive : world.server.alive = true) :
      Executes thread choice world .user world [.task .destroyServer, .task .user]
  | connection {id task site calls}
      (effect : (world.site id).Effect thread id choice.answers task site calls) :
      Executes thread choice world (.connection id task) (world.setSite id site) calls
  | newConnection (alive : world.server.alive = true)
      (fresh : ∀ id, id < world.created → (world.connections id).channel.fd ≠ choice.fd) :
      Executes thread choice world .newConnection (world.withNewConnection choice)
        [.runInLoop (choice.ioLoop.getD world.server.loop)
          (.connection world.created .connectionEstablished)]
  | onClose {id} (alive : world.server.alive = true) :
      Executes thread choice world (.onClose id) world
        [.runInLoop world.server.loop (.removeConnection id)]
  | onCloseDead {id} (dead : world.server.alive = false) :
      Executes thread choice world (.onClose id) world.useDead []
  | removeConnection {id} (alive : world.server.alive = true) :
      Executes thread choice world (.removeConnection id) (world.withoutConnection id)
        [.queueInLoop (world.connections id).loop (.connection id .connectionDestroyed)]
  | removeDead {id} (dead : world.server.alive = false) :
      Executes thread choice world (.removeConnection id) world.useDead []
  | destroyServer (alive : world.server.alive = true)
      (order : choice.order.Perm world.registered) :
      Executes thread choice world .destroyServer
        (world.modifyServer fun server => { server with
          alive := false, connections := fun _ => none })
        (choice.order.map fun id =>
          .runInLoop (world.connections id).loop (.connection id .connectionDestroyed))

variable {world next : World Thread} {thread : Thread} {choice : Choice Thread} {task : Task}
  {calls : List (Call Thread Task)}

/-- An action of user code is an executed task. -/
theorem act_executes (acted : world.act thread choice.action = some (next, calls)) :
    Executes thread choice world .user next calls := by
  cases action : choice.action with
  | leave => rw [action] at acted; cases acted; exact .leaves
  | call id call =>
      simp only [action, act] at acted
      split at acted
      case isTrue known => cases acted; exact .calls action known
      case isFalse => cases acted
  | runInLoop loop => rw [action] at acted; cases acted; exact .posts ⟨loop, .inl rfl⟩
  | queueInLoop loop => rw [action] at acted; cases acted; exact .posts ⟨loop, .inr (.inl rfl)⟩
  | stop loop => rw [action] at acted; cases acted; exact .posts ⟨loop, .inr (.inr rfl)⟩
  | retrieveInput id len =>
      simp only [action, act] at acted
      split at acted
      case isTrue enough =>
        split at acted
        case isTrue =>
          cases acted
          exact .tunes fun connection _ => ⟨_, _, _, _, rfl⟩
        case isFalse => cases acted
      case isFalse => cases acted
  | bindWriteCompleteCallback id bound =>
      rw [action] at acted
      cases acted
      exact .tunes fun connection _ => ⟨_, _, _, _, rfl⟩
  | bindHighWaterMarkCallback id mark bound =>
      rw [action] at acted
      cases acted
      exact .tunes fun connection _ => ⟨_, _, _, _, rfl⟩
  | destroyServer =>
      simp only [action, act] at acted
      split at acted
      case isTrue allowed => cases acted; exact .destroys action allowed.1 allowed.2
      case isFalse => cases acted

/-- Every executed task has one of the listed effects. -/
theorem exec_executes (executed : world.exec thread task choice = some (next, calls)) :
    Executes thread choice world task next calls := by
  cases task with
  | user => exact act_executes executed
  | connection id task =>
      obtain ⟨⟨site, made⟩, ran, result⟩ := Option.map_eq_some_iff.mp executed
      cases result
      exact .connection (Site.exec_effect ran)
  | newConnection =>
      simp only [exec, newConnection] at executed
      split at executed
      case isTrue allowed =>
        cases executed
        refine .newConnection allowed.1 fun id exists' => ?_
        have different := List.all_eq_true.mp allowed.2 id (List.mem_range.mpr exists')
        simpa using different
      case isFalse => cases executed
  | onClose id =>
      simp only [exec, onClose] at executed
      split at executed
      case isTrue alive => cases executed; exact .onClose alive
      case isFalse dead => cases executed; exact .onCloseDead (Bool.eq_false_iff.mpr dead)
  | removeConnection id =>
      simp only [exec, removeConnection] at executed
      split at executed
      case isTrue alive => cases executed; exact .removeConnection alive
      case isFalse dead => cases executed; exact .removeDead (Bool.eq_false_iff.mpr dead)
  | destroyServer =>
      simp only [exec, destroyServer] at executed
      split at executed
      case isTrue allowed => cases executed; exact .destroyServer allowed.1 allowed.2
      case isFalse => cases executed

/-- Every executed task calls what is urgent at once. -/
theorem Executes.prompt (executes : Executes thread choice world task next calls) :
    Call.Prompt Task.Urgent calls := by
  cases executes with
  | connection effect => exact effect.prompt
  | posts posted =>
      obtain ⟨loop, rfl | rfl | rfl⟩ := posted <;> simp [Call.Prompt, Call.Plain, Task.Urgent]
  | destroyServer =>
      apply Call.Prompt.of_plain
      simp [Call.Plain, Task.Urgent]
  | _ => simp [Call.Prompt, Call.Plain, Task.Urgent]

/-- The handlers that `Poll` returns are those of pollable channels. -/
theorem poll_pollable {actives : List (Active Task)}
    (polled : client.poll thread choice world = some actives) :
    ∀ active ∈ actives, world.pollable thread active = true := by
  simp only [client] at polled
  split at polled
  case isTrue allowed =>
    cases polled
    exact List.all_eq_true.mp allowed
  case isFalse => cases polled

/-- The program calls what is urgent at once. -/
theorem client_prompt :
    (client : Client (World Thread) Thread Task (Choice Thread)).Prompt Task.Urgent where
  user := by simp [client, Task.Urgent]
  poll polled handler member := by
    have pollable := poll_pollable polled _ member
    unfold World.pollable at pollable
    split at pollable <;> simp_all [Task.Urgent]
  exec executed := (exec_executes executed).prompt

end World

end Benet
