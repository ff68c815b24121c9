import Benet.Server.Stream

/-!
# Graceful shutdown

`Shutdown` changes the state at once, while a message that another thread has
sent is tested again when its functor runs. A message is sent completely before
`ShutdownWrite` if `send_in_loop` has tested it by the time `Shutdown` changes the
state (`World.shutdown_loses_nothing`); one that still waits then is turned away
(`World.shutdown_loses_message`).
-/

namespace Benet

open EventLoop Semantics

variable {Thread : Type}

/-- `::send` returned zero, and `errno` holds an old value that `handle_write` takes
for a fatal error. -/
def SendResult.staleZero : SendResult → Bool
  | .wrote 0 .eagain | .wrote 0 .eintr => false
  | .wrote 0 _ => true
  | _ => false

namespace TcpConnection

variable (task : ConnectionTask) (connection : TcpConnection Thread)

/-- The message that the task puts on record as submitted. -/
def submits : List (List UInt8) :=
  match task with
  | .send message => if connection.state = .connected then [message] else []
  | _ => []

/-- The message that the task lets through. -/
def accepts : List (List UInt8) :=
  match task with
  | .sendInLoop message => if connection.state = .connected then [message] else []
  | _ => []

/-- The message that the task turns away. -/
def rejects : List (List UInt8) :=
  match task with
  | .sendInLoop message => if connection.state = .connected then [] else [message]
  | _ => []

variable {task connection}

/-- Only `Send` on a connected connection submits a message. -/
theorem submits_eq_nil (state : connection.state ≠ .connected) : connection.submits task = [] := by
  cases task <;> simp [submits, state]

private theorem rejects_eq_nil (state : connection.state = .connected) :
    connection.rejects task = [] := by
  cases task <;> simp [rejects, state]

end TcpConnection

namespace Site

variable [DecidableEq Thread] {thread : Thread} {id : Nat} {answers : Answers}
  {site next : Site Thread} {calls : List (Call Thread Task)} {task : ConnectionTask}

/-- What a task does to the records of messages. -/
structure Posts (task : ConnectionTask) (before after : TcpConnection Thread) : Prop where
  submitted : after.history.submitted = before.history.submitted ++ before.submits task
  accepted : after.history.accepted = before.history.accepted ++ before.accepts task
  rejected : after.history.rejected = before.history.rejected ++ before.rejects task

/-- Every task changes the records of messages as listed. -/
theorem Effect.posts (effect : Effect thread id answers site task next calls) :
    Posts task site.connection next.connection := by
  cases effect with
  | sendIgnored state | sendSubmitted state | sendRejected state | sendFatal state
  | sendCompleted state | sendPartly state | sendBuffered state =>
      constructor <;>
        simp [TcpConnection.submits, TcpConnection.accepts, TcpConnection.rejects, state]
  | connectionEstablished =>
      constructor <;> simp [Site.connectionEstablished, TcpConnection.submits,
        TcpConnection.accepts, TcpConnection.rejects]
  | removeFromLoop =>
      constructor <;> simp [Site.removeFromLoop, TcpConnection.submits, TcpConnection.accepts,
        TcpConnection.rejects]
  | eventReads _ reads | afterCloseEvent reads =>
      cases reads <;> constructor <;>
        simp [TcpConnection.submits, TcpConnection.accepts, TcpConnection.rejects]
  | _ =>
      constructor <;> simp [TcpConnection.submits, TcpConnection.accepts, TcpConnection.rejects]

/-- A submitted message is in flight until `send_in_loop` tests it. -/
theorem Effect.sends (effect : Effect thread id answers site task next calls)
    (message : List UInt8) :
    inFlight (.connection id (.sendInLoop message)) (tokens id (Call.flights thread calls)) =
      (site.connection.submits task).count message := by
  rw [inFlight_tokens _ (by simp [Task.about])]
  by_cases sender : ∃ other, task = .send other
  · obtain ⟨other, rfl⟩ := sender
    cases effect with
    | sendIgnored state => simp [TcpConnection.submits, state]
    | sendSubmitted state =>
        split <;> simp [Call.flight, TcpConnection.submits, state, List.count_singleton]
  · have none : site.connection.submits task = [] := by
      cases task <;> first | rfl | exact absurd ⟨_, rfl⟩ sender
    rw [none, List.count_nil, inFlight_eq_zero]
    rintro ⟨other, _⟩ member rfl
    cases effect.emitted _ member with
    | sendInLoop => exact sender ⟨_, rfl⟩

/-- What is true of a task that leaves the connection without a disturbance on
record. -/
structure Calm (task : ConnectionTask) (before after : TcpConnection Thread)
    (calls : List (Call Thread Task)) : Prop where
  undisturbed : before.history.disturbances = []
  plain : task ≠ .forceCloseInLoop → ∀ call ∈ calls, call.Plain Task.Urgent
  isOpen : after.state = .disconnected → before.state = .disconnected ∨ task = .handleClose

/-- A read branch without a disturbance on record closes nothing. -/
theorem ReadEffect.calm {revents : EventMask}
    (effect : ReadEffect thread id revents site next calls)
    (undisturbed : next.connection.history.disturbances = []) :
    site.connection.history.disturbances = [] ∧
      (∀ call ∈ calls, call.Plain Task.Urgent) ∧
      next.connection.state = site.connection.state := by
  cases effect with
  | skipped | again => exact ⟨undisturbed, plain_writeBranch revents, rfl⟩
  | message =>
      refine ⟨undisturbed, ?_, rfl⟩
      simpa [Call.Plain, Task.Urgent] using plain_writeBranch revents
  | endOfFile | error => simp at undisturbed

/-- A task without a disturbance on record closes nothing. -/
theorem Effect.calm (effect : Effect thread id answers site task next calls)
    (undisturbed : next.connection.history.disturbances = []) :
    Calm task site.connection next.connection calls := by
  cases effect with
  | forceCloseBegun | forceCloseLoaded | sendFatal | destroyedConnected | destroyedOtherwise
  | eventCloses | writeFailed | writeZero => simp at undisturbed
  | shutdownBegun => exact ⟨undisturbed, by simp [Call.Plain, Task.Urgent], by simp⟩
  | sendSubmitted =>
      refine ⟨undisturbed, fun _ => ?_, .inl⟩
      split <;> simp [Call.Plain, Task.Urgent]
  | sendCompleted => exact ⟨undisturbed, fun _ => plain_queueWriteComplete _, .inl⟩
  | sendPartly | sendBuffered =>
      rw [appendRemaining_history] at undisturbed
      refine ⟨undisturbed, fun _ => plain_appendRemaining _ _, ?_⟩
      rw [appendRemaining_state]
      exact .inl
  | forceCloseInLoop => exact ⟨undisturbed, fun other => absurd rfl other, .inl⟩
  | shutdownInLoop | shutdownDrained =>
      rw [shutdownWriteIfDrained_connection] at undisturbed ⊢
      exact ⟨undisturbed, by simp, .inl⟩
  | connectionEstablished =>
      simp only [Site.connectionEstablished] at undisturbed
      exact ⟨undisturbed, by simp [Call.Plain, Task.Urgent], by simp [Site.connectionEstablished]⟩
  | eventReads _ reads | afterCloseEvent reads =>
      obtain ⟨before, plain, state⟩ := reads.calm undisturbed
      exact ⟨before, fun _ => plain, fun closed => .inl (state ▸ closed)⟩
  | writeDrains =>
      refine ⟨undisturbed, fun _ call member => ?_, .inl⟩
      rcases List.mem_append.mp member with queued | last
      · exact plain_queueWriteComplete _ call queued
      · simp [List.mem_singleton.mp last, Call.Plain, Task.Urgent]
  | writeDrained =>
      refine ⟨undisturbed, fun _ => ?_, .inl⟩
      split <;> simp [Call.Plain, Task.Urgent]
  | closes => exact ⟨undisturbed, by simp [Call.Plain, Task.Urgent], fun _ => .inr rfl⟩
  | _ => exact ⟨undisturbed, by simp [Call.Plain, Task.Urgent], .inl⟩

/-- Without a disturbance nobody forces the connection to close. -/
theorem Effect.unforced (effect : Effect thread id answers site task next calls)
    (undisturbed : next.connection.history.disturbances = []) (waiting : Thread) :
    (waiting, .connection id .forceCloseInLoop) ∉ Call.flights thread calls := by
  intro member
  cases effect.emitted _ member with
  | forceCloseInLoop caller =>
      rcases caller with rfl | rfl
      · cases effect with
        | forceCloseBegun => simp at undisturbed
        | forceCloseFailed => simp [Call.flight] at member
      · cases effect with
        | forceCloseLoaded => simp at undisturbed
        | forceCloseIgnored => simp at member

/-- The functors of a shutdown are posted in `Disconnecting`. -/
theorem Effect.shutting (effect : Effect thread id answers site task next calls) {waiting : Thread}
    (member : (waiting, .connection id .shutdownInLoop) ∈ Call.flights thread calls ∨
      (waiting, .connection id .shutdownDrained) ∈ Call.flights thread calls) :
    next.connection.state = .disconnecting := by
  rcases member with begun | drained
  · cases effect.emitted _ begun with
    | shutdownInLoop =>
        cases effect with
        | shutdownIgnored => simp at begun
        | shutdownBegun => rfl
  · cases effect.emitted _ drained with
    | shutdownDrained =>
        cases effect with
        | writeDrained =>
            split at drained
            case isTrue state => exact state
            case isFalse => simp at drained

/-- `ShutdownWrite` is executed by these functors, when the write event is off. -/
theorem Effect.shutdownWrites (effect : Effect thread id answers site task next calls) :
    next.connection.history.shutdownWrites = site.connection.history.shutdownWrites ∨
      (task = .shutdownInLoop ∨ task = .shutdownDrained) ∧
        site.connection.channel.isWriteEvent = false := by
  cases effect with
  | shutdownInLoop =>
      unfold shutdownWriteIfDrained
      split
      · exact .inl rfl
      case isFalse idle => exact .inr ⟨.inl rfl, Bool.eq_false_iff.mpr idle⟩
  | shutdownDrained =>
      unfold shutdownWriteIfDrained
      split
      · exact .inl rfl
      case isFalse idle => exact .inr ⟨.inr rfl, Bool.eq_false_iff.mpr idle⟩
  | connectionEstablished => exact .inl (by simp [Site.connectionEstablished])
  | removeFromLoop => exact .inl rfl
  | eventReads _ reads | afterCloseEvent reads => cases reads <;> exact .inl (by simp)
  | _ => exact .inl (by simp)

/-- What a task does to the write event and the output buffer. -/
inductive Writes (before after : TcpConnection Thread) : Prop where
  | kept (event : after.channel.isWriteEvent = before.channel.isWriteEvent)
      (content : after.outputBuffer.content = before.outputBuffer.content)
  | appended (state : before.state = .connected)
      (idle : after.channel.isWriteEvent = false → before.channel.isWriteEvent = false ∧
        after.outputBuffer.content = before.outputBuffer.content)
  | written (event : before.channel.isWriteEvent = true)
      (left : after.channel.isWriteEvent = true ∨ after.outputBuffer.content = [])
  | closed (state : after.state = .disconnected) (idle : after.channel.isWriteEvent = false)

omit [DecidableEq Thread] in
private theorem appendRemaining_writes {remaining : List UInt8}
    (state : site.connection.state = .connected)
    (channel : next.connection.channel = site.connection.channel)
    (buffer : next.connection.outputBuffer = site.connection.outputBuffer) :
    Writes site.connection (next.appendRemaining id remaining).1.connection := by
  refine .appended state fun idle => ?_
  rw [appendRemaining_isWriteEvent, channel] at idle
  rw [appendRemaining_content, buffer]
  simp only [Bool.or_eq_false_iff, Bool.not_eq_eq_eq_not, Bool.not_false, List.isEmpty_iff] at idle
  exact ⟨idle.1, by rw [idle.2, List.append_nil]⟩

/-- Every task changes the write event and the output buffer in one of these ways. -/
theorem Effect.writes (effect : Effect thread id answers site task next calls) :
    Writes site.connection next.connection := by
  cases effect with
  | sendPartly state | sendBuffered state => exact appendRemaining_writes state (by simp) (by simp)
  | writePartly writing => exact .written writing (.inl (by simpa using writing))
  | writeDrains writing _ empty => exact .written writing (.inr (by simpa using empty))
  | destroyedConnected | closes => exact .closed rfl (by simp [Channel.isWriteEvent])
  | startReadEnabled | stopReadDisabled =>
      exact .kept (by simp [Channel.isWriteEvent]) (by simp)
  | connectionEstablished =>
      refine .kept ?_ ?_ <;> simp [Channel.isWriteEvent, Site.connectionEstablished]
  | removeFromLoop =>
      refine .kept ?_ ?_ <;>
        simp [Channel.isWriteEvent, Site.removeFromLoop, EPoller.removeChannel]
  | shutdownInLoop | shutdownDrained =>
      rw [shutdownWriteIfDrained_connection]
      exact .kept rfl rfl
  | eventReads _ reads | afterCloseEvent reads => cases reads <;> exact .kept (by simp) (by simp)
  | _ => exact .kept (by simp) (by simp)

/-- The other end of `handle_write` that closes a connection. -/
theorem Effect.zeroWrite (effect : Effect thread id answers site task next calls)
    (member : .zeroWrite ∈ next.connection.history.disturbances) :
    .zeroWrite ∈ site.connection.history.disturbances ∨
      task = .handleWrite ∧ answers.send.staleZero = true := by
  cases effect with
  | @writeZero errno _ result stale =>
      refine .inr ⟨rfl, ?_⟩
      rw [result]
      cases errno <;> simp_all [SendResult.staleZero]
  | connectionEstablished => exact .inl (by simpa [Site.connectionEstablished] using member)
  | removeFromLoop => exact .inl member
  | eventReads _ reads | afterCloseEvent reads =>
      cases reads <;> exact .inl (by simpa using member)
  | _ => exact .inl (by simpa using member)

end Site

/-- The fate of one message and of the connection, as long as nothing but
`Shutdown` ends it. -/
structure Undisturbed (id : Nat) (message : List UInt8) (connection : TcpConnection Thread)
    (flight : Multiset (Located Thread Task)) : Prop where
  isOpen : connection.state ≠ .disconnected
  unhurried : ∀ thread, (thread, .connection id .handleClose) ∉ flight
  unforced : ∀ thread, (thread, .connection id .forceCloseInLoop) ∉ flight
  kept : connection.history.rejected.count message = 0
  settled : connection.state ≠ .connected →
    inFlight (.connection id (.sendInLoop message)) flight = 0
  shutting : ∀ thread, (thread, .connection id .shutdownInLoop) ∈ flight ∨
    (thread, .connection id .shutdownDrained) ∈ flight → connection.state = .disconnecting
  drained : connection.channel.isWriteEvent = false → connection.outputBuffer.content = []
  finished : 0 < connection.history.shutdownWrites →
    connection.state = .disconnecting ∧ connection.channel.isWriteEvent = false

/-- Every submitted message is let through, turned away or in flight; without a
disturbance it is not turned away. -/
structure Graceful (id : Nat) (message : List UInt8) (connection : TcpConnection Thread)
    (flight : Multiset (Located Thread Task)) : Prop where
  balance : connection.history.submitted.count message =
    connection.history.accepted.count message + connection.history.rejected.count message +
      inFlight (.connection id (.sendInLoop message)) flight
  nonzero : .zeroWrite ∉ connection.history.disturbances
  calm : connection.history.disturbances = [] → Undisturbed id message connection flight

/-- A new connection has submitted nothing and is undisturbed. -/
theorem Graceful.fresh {id : Nat} {message : List UInt8} {connection : TcpConnection Thread}
    (isFresh : connection.Fresh) : Graceful id message connection
      {(connection.loop, .connection id .connectionEstablished)} := by
  obtain ⟨loop, name, fd, onWriteComplete, rfl⟩ := isFresh
  refine ⟨by simp, by simp, fun _ => ?_⟩
  constructor <;> simp

/-- The conditions on a run: when `Shutdown` changes the state, `send_in_loop` has
tested every copy of the message that was submitted; and `::send` does not return
zero to `handle_write` while `errno` holds an old fatal error. -/
structure TcpConnection.ShutsDownSettled (message : List UInt8) (task : ConnectionTask)
    (answers : Answers) (connection : TcpConnection Thread) : Prop where
  settled : task = .shutdown → connection.state = .connected →
    connection.history.submitted.count message = connection.history.accepted.count message
  nonzero : task = .handleWrite → answers.send.staleZero = false

instance (message : List UInt8) (task : ConnectionTask) (answers : Answers)
    (connection : TcpConnection Thread) :
    Decidable (connection.ShutsDownSettled message task answers) :=
  decidable_of_iff
    ((task = .shutdown → connection.state = .connected →
        connection.history.submitted.count message = connection.history.accepted.count message) ∧
      (task = .handleWrite → answers.send.staleZero = false))
    ⟨fun both => ⟨both.1, both.2⟩, fun settled => ⟨settled.settled, settled.nonzero⟩⟩

section Effect

variable [DecidableEq Thread] {base thread : Thread} {id : Nat} {message : List UInt8}
  {answers : Answers} {site next : Site Thread} {task : ConnectionTask}
  {calls : List (Call Thread Task)} {rest : Multiset (Located Thread Task)}

omit [DecidableEq Thread] in
/-- `send_in_loop` lets its message through or turns it away. -/
theorem TcpConnection.accepts_rejects (connection : TcpConnection Thread) :
    (connection.accepts task).count message + (connection.rejects task).count message =
      inFlight (.connection id (.sendInLoop message)) {(thread, .connection id task)} := by
  cases task with
  | sendInLoop other =>
      simp only [TcpConnection.accepts, TcpConnection.rejects]
      split <;> simp [List.count_singleton]
  | _ => simp [TcpConnection.accepts, TcpConnection.rejects]

/-- Submitted messages stay accounted for: let through, turned away or in flight. -/
theorem Site.Effect.balance (effect : site.Effect thread id answers task next calls)
    (balance : site.connection.history.submitted.count message =
      site.connection.history.accepted.count message +
        site.connection.history.rejected.count message +
          inFlight (.connection id (.sendInLoop message)) ({(thread, .connection id task)} + rest)) :
    next.connection.history.submitted.count message =
      next.connection.history.accepted.count message +
        next.connection.history.rejected.count message +
          inFlight (.connection id (.sendInLoop message))
            (tokens id (Call.flights thread calls) + rest) := by
  obtain ⟨submitted, accepted, rejected⟩ := effect.posts
  rw [inFlight_add, ← TcpConnection.accepts_rejects site.connection] at balance
  rw [submitted, accepted, rejected, inFlight_add, effect.sends, List.count_append,
    List.count_append, List.count_append]
  omega

/-- A task keeps the balance of submitted messages. -/
theorem Graceful.balance_effect
    (graceful : Graceful id message site.connection ({(thread, .connection id task)} + rest))
    (effect : site.Effect thread id answers task next calls) :
    next.connection.history.submitted.count message =
      next.connection.history.accepted.count message +
        next.connection.history.rejected.count message +
          inFlight (.connection id (.sendInLoop message))
            (tokens id (Call.flights thread calls) + rest) :=
  effect.balance graceful.balance

namespace Undisturbed

omit [DecidableEq Thread] in
private theorem isOpen_effect
    (undisturbed : Undisturbed id message site.connection ({(thread, .connection id task)} + rest))
    (step : Site.Calm task site.connection next.connection calls) :
    next.connection.state ≠ .disconnected := by
  intro closed
  rcases step.isOpen closed with before | closing
  · exact undisturbed.isOpen before
  · exact undisturbed.unhurried thread (closing ▸ mem_first _ _)

/-- In `Disconnecting` the connection stays, unless it closes. -/
theorem stays
    (lifecycle : Lifecycle id base site.connection ({(thread, .connection id task)} + rest))
    (effect : site.Effect thread id answers task next calls)
    (isOpen : next.connection.state ≠ .disconnected)
    (state : site.connection.state = .disconnecting) : next.connection.state = .disconnecting := by
  refine effect.state_moves.disconnecting ?_ state isOpen
  rintro rfl
  rw [lifecycle.connecting.1] at state
  cases state

/-- Outside `Connected` no copy of the message is left to turn away. -/
private theorem kept_effect
    (undisturbed : Undisturbed id message site.connection ({(thread, .connection id task)} + rest))
    (effect : site.Effect thread id answers task next calls) :
    next.connection.history.rejected.count message = 0 := by
  rw [effect.posts.rejected, List.count_append, undisturbed.kept, zero_add]
  by_cases state : site.connection.state = .connected
  · rw [TcpConnection.rejects_eq_nil state, List.count_nil]
  · have none := undisturbed.settled state
    rw [inFlight_add, ← TcpConnection.accepts_rejects site.connection] at none
    omega

/-- `Shutdown` leaves `Connected` when all copies are tested, and no later `Send`
submits one. -/
private theorem settled_effect
    (undisturbed : Undisturbed id message site.connection ({(thread, .connection id task)} + rest))
    (balance : site.connection.history.submitted.count message =
      site.connection.history.accepted.count message +
        site.connection.history.rejected.count message +
          inFlight (.connection id (.sendInLoop message)) ({(thread, .connection id task)} + rest))
    (settled : site.connection.ShutsDownSettled message task answers)
    (effect : site.Effect thread id answers task next calls)
    (calm : next.connection.history.disturbances = [])
    (isOpen : next.connection.state ≠ .disconnected) (left : next.connection.state ≠ .connected) :
    inFlight (.connection id (.sendInLoop message))
      (tokens id (Call.flights thread calls) + rest) = 0 := by
  rw [inFlight_add, effect.sends]
  by_cases state : site.connection.state = .connected
  · rcases effect.state_moves.leaves_connected state left with rfl | rfl | closed
    · have tested := settled.settled rfl state
      rw [inFlight_add] at balance
      simp only [TcpConnection.submits, List.count_nil]
      omega
    · cases effect with
      | forceCloseBegun => simp at calm
      | forceCloseFailed other => exact absurd state other
    · exact absurd closed isOpen
  · have none := undisturbed.settled state
    rw [inFlight_add] at none
    rw [TcpConnection.submits_eq_nil state, List.count_nil]
    omega

private theorem shutting_effect {waiting : Thread} {own : ConnectionTask}
    (undisturbed : Undisturbed id message site.connection ({(thread, .connection id task)} + rest))
    (lifecycle : Lifecycle id base site.connection ({(thread, .connection id task)} + rest))
    (effect : site.Effect thread id answers task next calls)
    (isOpen : next.connection.state ≠ .disconnected)
    (closing : own = .shutdownInLoop ∨ own = .shutdownDrained)
    (member : (waiting, .connection id own) ∈ tokens id (Call.flights thread calls) + rest) :
    next.connection.state = .disconnecting := by
  rcases Multiset.mem_add.mp member with new | old
  · have brought := ((mem_tokens id).mp new).1
    rcases closing with rfl | rfl
    · exact effect.shutting (.inl brought)
    · exact effect.shutting (.inr brought)
  · refine stays lifecycle effect isOpen (undisturbed.shutting waiting ?_)
    rcases closing with rfl | rfl
    · exact .inl (Multiset.mem_add.mpr (.inr old))
    · exact .inr (Multiset.mem_add.mpr (.inr old))

private theorem drained_effect
    (undisturbed : Undisturbed id message site.connection ({(thread, .connection id task)} + rest))
    (effect : site.Effect thread id answers task next calls)
    (isOpen : next.connection.state ≠ .disconnected)
    (idle : next.connection.channel.isWriteEvent = false) :
    next.connection.outputBuffer.content = [] := by
  cases effect.writes with
  | kept event content =>
      rw [content]
      exact undisturbed.drained (event ▸ idle)
  | appended _ unchanged =>
      obtain ⟨wasIdle, content⟩ := unchanged idle
      rw [content]
      exact undisturbed.drained wasIdle
  | written _ left => exact left.resolve_left (by simp [idle])
  | closed closed => exact absurd closed isOpen

/-- `ShutdownWrite` is executed in `Disconnecting` with the write event off, and
nothing turns it on again. -/
private theorem finished_effect
    (undisturbed : Undisturbed id message site.connection ({(thread, .connection id task)} + rest))
    (lifecycle : Lifecycle id base site.connection ({(thread, .connection id task)} + rest))
    (effect : site.Effect thread id answers task next calls)
    (isOpen : next.connection.state ≠ .disconnected)
    (positive : 0 < next.connection.history.shutdownWrites) :
    next.connection.state = .disconnecting ∧
      next.connection.channel.isWriteEvent = false := by
  have before : site.connection.state = .disconnecting ∧
      site.connection.channel.isWriteEvent = false := by
    rcases effect.shutdownWrites with same | ⟨caller, idle⟩
    · exact undisturbed.finished (same ▸ positive)
    · refine ⟨undisturbed.shutting thread ?_, idle⟩
      rcases caller with rfl | rfl
      · exact .inl (mem_first _ _)
      · exact .inr (mem_first _ _)
  refine ⟨stays lifecycle effect isOpen before.1, ?_⟩
  cases effect.writes with
  | kept event => rw [event, before.2]
  | appended state => simp [before.1] at state
  | written event => simp [before.2] at event
  | closed _ idle => exact idle

/-- A task keeps what is known of an undisturbed connection. -/
theorem effect
    (undisturbed : Undisturbed id message site.connection ({(thread, .connection id task)} + rest))
    (balance : site.connection.history.submitted.count message =
      site.connection.history.accepted.count message +
        site.connection.history.rejected.count message +
          inFlight (.connection id (.sendInLoop message)) ({(thread, .connection id task)} + rest))
    (lifecycle : Lifecycle id base site.connection ({(thread, .connection id task)} + rest))
    (settled : site.connection.ShutsDownSettled message task answers)
    (effect : site.Effect thread id answers task next calls)
    (calm : next.connection.history.disturbances = []) :
    Undisturbed id message next.connection (tokens id (Call.flights thread calls) + rest) := by
  have step := effect.calm calm
  have isOpen := undisturbed.isOpen_effect step
  constructor
  case isOpen => exact isOpen
  case unhurried =>
    intro waiting member
    rcases Multiset.mem_add.mp member with new | old
    · have plain := step.plain fun forced => undisturbed.unforced thread (forced ▸ mem_first _ _)
      exact Call.plain_flight plain ((mem_tokens id).mp new).1 trivial
    · exact undisturbed.unhurried waiting (Multiset.mem_add.mpr (.inr old))
  case unforced =>
    intro waiting member
    rcases Multiset.mem_add.mp member with new | old
    · exact effect.unforced calm waiting ((mem_tokens id).mp new).1
    · exact undisturbed.unforced waiting (Multiset.mem_add.mpr (.inr old))
  case kept => exact undisturbed.kept_effect effect
  case settled => exact undisturbed.settled_effect balance settled effect calm isOpen
  case shutting =>
    intro waiting member
    rcases member with begun | drained
    · exact undisturbed.shutting_effect lifecycle effect isOpen (.inl rfl) begun
    · exact undisturbed.shutting_effect lifecycle effect isOpen (.inr rfl) drained
  case drained => exact undisturbed.drained_effect effect isOpen
  case finished => exact undisturbed.finished_effect lifecycle effect isOpen

end Undisturbed

/-- A task keeps the promise of `Shutdown`. -/
theorem Graceful.effect
    (graceful : Graceful id message site.connection ({(thread, .connection id task)} + rest))
    (lifecycle : Lifecycle id base site.connection ({(thread, .connection id task)} + rest))
    (settled : site.connection.ShutsDownSettled message task answers)
    (effect : site.Effect thread id answers task next calls) :
    Graceful id message next.connection (tokens id (Call.flights thread calls) + rest) := by
  refine ⟨graceful.balance_effect effect, fun member => ?_, fun calm => ?_⟩
  · rcases effect.zeroWrite member with before | ⟨caller, stale⟩
    · exact graceful.nonzero before
    · rw [settled.nonzero caller] at stale
      cases stale
  · exact (graceful.calm (effect.calm calm).undisturbed).effect graceful.balance lifecycle settled
      effect calm

end Effect

namespace World

/-- `ShutsDownSettled` as a guard. -/
abbrev shutsDownSettled (message : List UInt8) :
    Thread → Task → Choice Thread → World Thread → Prop :=
  onConnection fun task answers connection => connection.ShutsDownSettled message task answers

variable [DecidableEq Thread] [Fintype Thread] {machine : Machine (World Thread) Thread Task}
  {id : Nat} {message : List UInt8}

/-- The promise of `Shutdown` holds in every run that shuts down settled connections. -/
theorem reachable_graceful
    (reachable : system.Reachable (Machine.onExec (shutsDownSettled message)) machine)
    (created : id < machine.client.created) :
    Graceful id message (machine.client.connections id) (tokens id machine.flight) := by
  refine (reachable_lifecycle id (fun _ => Graceful id message) ?_ ?_ reachable created).2
  · exact fun _ _ isFresh => .fresh isFresh
  · intro machine before connection after _ _ lifecycle step graceful
    cases step.view with
    | own admitted _ effect =>
        refine graceful.effect lifecycle ?_ effect
        exact admitted
    | @beside gone new rest _ untouched closing external =>
        obtain ⟨_, _, _, _, _, _, -, rfl⟩ := untouched
        have waiting : inFlight (.connection id (.sendInLoop message)) (new + rest) =
            inFlight (.connection id (.sendInLoop message)) (gone + rest) :=
          inFlight_beside closing external rfl
        refine ⟨?_, graceful.nonzero, fun calm => ?_⟩
        · rw [waiting]
          exact graceful.balance
        · obtain ⟨isOpen, unhurried, unforced, kept, settled, shutting, drained, finished⟩ :=
            graceful.calm calm
          refine ⟨isOpen, fun thread member => ?_, fun thread member => ?_, kept, fun state => ?_,
            fun thread member => ?_, drained, finished⟩
          · exact unhurried thread (mem_of_mem_beside external rfl member)
          · exact unforced thread (mem_of_mem_beside external rfl member)
          · rw [waiting]
            exact settled state
          · exact shutting thread (member.imp (mem_of_mem_beside external rfl)
              (mem_of_mem_beside external rfl))

/-- Graceful shutdown loses no message, in runs under `shutsDownSettled`. When
`ShutdownWrite` has been executed and there was no peer EOF, socket error,
effective `ForceClose` or `ConnectionDestroyed`, every copy of the message that a
`Send` in `Connected` has submitted was let through by `send_in_loop`, and the
bytes taken by `::send` are those of the messages let through, one message after
the other. -/
theorem shutdown_loses_nothing
    (reachable : system.Reachable (Machine.onExec (shutsDownSettled message)) machine)
    (created : id < machine.client.created)
    (executed : 0 < (machine.client.connections id).history.shutdownWrites)
    (undisturbed : ∀ cause ∈ (machine.client.connections id).history.disturbances,
      cause = .zeroWrite) :
    (machine.client.connections id).history.accepted.count message =
        (machine.client.connections id).history.submitted.count message ∧
      (machine.client.connections id).history.sent =
        (machine.client.connections id).history.accepted.flatten ∧
      (message ∈ (machine.client.connections id).history.submitted →
        message <:+: (machine.client.connections id).history.sent) := by
  have graceful := reachable_graceful reachable created
  have calm : (machine.client.connections id).history.disturbances = [] := by
    refine List.eq_nil_iff_forall_not_mem.mpr fun cause member => graceful.nonzero ?_
    rwa [← undisturbed cause member]
  obtain ⟨isOpen, unhurried, -, kept, settled, -, drained, finished⟩ := graceful.calm calm
  obtain ⟨state, idle⟩ := finished executed
  have counts : (machine.client.connections id).history.accepted.count message =
      (machine.client.connections id).history.submitted.count message := by
    rw [graceful.balance, kept, settled (by simp [state])]
    rfl
  have sent : (machine.client.connections id).history.sent =
      (machine.client.connections id).history.accepted.flatten := by
    have whole := (reachable_streaming reachable created).whole isOpen unhurried
    rwa [TcpConnection.stream, drained idle, List.append_nil] at whole
  refine ⟨counts, sent, fun submitted => ?_⟩
  rw [sent]
  refine List.infix_of_mem_flatten (List.count_pos_iff.mp ?_)
  rw [counts]
  exact List.count_pos_iff.mpr submitted

/-- User code on loop `0` sends two bytes and shuts the connection down. The kernel
takes the first byte at once and the second when it is writable again. -/
def sendThenShutdownInLoop : List (Label TwoThreads (Choice TwoThreads)) :=
  userTurn ++ [turn 0 { action := .call 0 (.send [1, 2]) }] ++ turns 0 1 ++
    [turn 0 { answers := { send := .wrote 1 .other } }, turn 0 { action := .call 0 .shutdown }] ++
    turns 0 4 ++ nextPoll [.channel (.connection 0 (.handleEvent epollOut))] ++ turns 0 1 ++
    [turn 0 { answers := { send := .wrote 1 .other } }] ++ turns 0 3

/-- `Send` and then `Shutdown` in the loop's thread: both bytes are sent before the end of the
stream. -/
theorem shutdown_loses_nothing_in_loop :
    ∃ machine : Machine (World TwoThreads) TwoThreads Task,
      (machine.client.connections 0).history.submitted = [[1, 2]] ∧
      (machine.client.connections 0).history.shutdownWrites = 1 ∧
      [1, 2] <:+: (machine.client.connections 0).history.sent := by
  let machine := (system.run (Machine.onExec (shutsDownSettled [1, 2])) serverOnZero
    sendThenShutdownInLoop).get (by decide +kernel)
  have reachable : system.Reachable (Machine.onExec (shutsDownSettled [1, 2])) machine :=
    LabelledSystem.run_reachable serverOnZero_initial (Option.some_get _).symm
  have created : 0 < machine.client.created := by decide +kernel
  have submitted : (machine.client.connections 0).history.submitted = [[1, 2]] := by
    decide +kernel
  have executed : (machine.client.connections 0).history.shutdownWrites = 1 := by decide +kernel
  have undisturbed : ∀ cause ∈ (machine.client.connections 0).history.disturbances,
      cause = .zeroWrite := by decide +kernel
  obtain ⟨-, -, sent⟩ := shutdown_loses_nothing reachable created (by omega) undisturbed
  exact ⟨machine, submitted, executed, sent (by simp [submitted])⟩

/-- Thread `1` sends a byte and then shuts the connection down, before loop `0` has
run the functor of the `Send`. -/
def sendThenShutdown : List (Label TwoThreads (Choice TwoThreads)) :=
  establishOne ++ turns 1 1 ++ [turn 1 { action := .call 0 (.send [1]) }] ++ turns 1 4 ++
    [turn 1 { action := .call 0 .shutdown }] ++ turns 1 4 ++ turns 0 6

/-- The functor finds `Disconnecting` and turns the message away; then
`ShutdownWrite` is executed. -/
theorem shutdown_loses_message :
    ∃ machine : Machine (World TwoThreads) TwoThreads Task,
      system.Initial serverOnZero ∧
      system.Steps LabelledSystem.unguarded serverOnZero sendThenShutdown machine ∧
      (machine.client.connections 0).history.submitted = [[1]] ∧
      (machine.client.connections 0).history.rejected = [[1]] ∧
      (machine.client.connections 0).history.disturbances = [] ∧
      (machine.client.connections 0).history.shutdownWrites = 1 ∧
      (machine.client.connections 0).history.sent = [] := by
  let machine := (system.run LabelledSystem.unguarded serverOnZero sendThenShutdown).get
    (by decide +kernel)
  exact ⟨machine, serverOnZero_initial, LabelledSystem.run_steps (Option.some_get _).symm,
    by decide +kernel, by decide +kernel, by decide +kernel, by decide +kernel, by decide +kernel⟩

end World

end Benet
