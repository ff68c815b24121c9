import Benet.Connection.Effect

/-!
# Fields after the steps of a connection

The building blocks of the connection's functions are record updates; here they
become part of the simp set, so that a field of a result is computed by simp.
-/

namespace Benet

open EventLoop

namespace Site

attribute [simp] modify record assert assertInLoopThread disturb notify setState setEvents
  enableReadEvent disableReadEvent enableWriteEvent disableWriteEvent disableAllEvent accept sent
  close drain

variable {Thread : Type} (id : Nat) (site : Site Thread)

section AppendRemaining

variable (remaining : List UInt8)

/-- Only the output buffer and the events change. -/
theorem appendRemaining_connection : ∃ outputBuffer channel,
    channel.fd = site.connection.channel.fd ∧
      (site.appendRemaining id remaining).1.connection =
        { site.connection with outputBuffer, channel } := by
  unfold appendRemaining
  split
  · exact ⟨_, _, rfl, rfl⟩
  · dsimp only
    split
    · exact ⟨_, _, rfl, rfl⟩
    · refine ⟨_, _, ?_, rfl⟩
      exact EPoller.updateChannel_fd _ _ _

@[simp] theorem appendRemaining_state :
    (site.appendRemaining id remaining).1.connection.state = site.connection.state := by
  obtain ⟨_, _, -, same⟩ := site.appendRemaining_connection id remaining
  rw [same]

@[simp] theorem appendRemaining_history :
    (site.appendRemaining id remaining).1.connection.history = site.connection.history := by
  obtain ⟨_, _, -, same⟩ := site.appendRemaining_connection id remaining
  rw [same]

@[simp] theorem appendRemaining_content :
    (site.appendRemaining id remaining).1.connection.outputBuffer.content =
      site.connection.outputBuffer.content ++ remaining := by
  unfold appendRemaining
  split
  case isTrue none => simp [List.length_eq_zero_iff.mp none]
  case isFalse =>
    dsimp only
    split <;> exact Buffer.Valid.content_append _ _

/-- Unless nothing remains, the write event is enabled afterwards. -/
theorem appendRemaining_isWriteEvent :
    (site.appendRemaining id remaining).1.connection.channel.isWriteEvent =
      (site.connection.channel.isWriteEvent || !remaining.isEmpty) := by
  unfold appendRemaining
  split
  case isTrue none => simp [List.length_eq_zero_iff.mp none]
  case isFalse some =>
    have nonempty : remaining.isEmpty = false := by
      cases remaining with
      | nil => simp at some
      | cons => rfl
    dsimp only
    split
    case isTrue writing => simpa [nonempty] using writing
    case isFalse => simp [nonempty, enableWriteEvent, Channel.isWriteEvent]

end AppendRemaining

/-- What identifies a connection never changes. -/
structure SameIdentity (before after : TcpConnection Thread) : Prop where
  loop : after.loop = before.loop
  name : after.name = before.name
  fd : after.channel.fd = before.channel.fd

@[simp] theorem shutdownWriteIfDrained_connection :
    site.shutdownWriteIfDrained.connection = { site.connection with
      history := { site.connection.history with
        shutdownWrites := site.connection.history.shutdownWrites +
          if site.connection.channel.isWriteEvent then 0 else 1 } } := by
  unfold shutdownWriteIfDrained
  split <;> rfl

/-- Which assertions a task can fail, and when. -/
inductive Fails (thread : Thread) (site : Site Thread) : ConnectionTask → Assertion → Prop where
  | inLoopThread {task : ConnectionTask} (inLoop : task.inLoop = true)
      (elsewhere : thread ≠ site.connection.loop) :
      Fails thread site task .inLoopThread
  | isConnecting (state : site.connection.state ≠ .connecting) :
      Fails thread site .connectionEstablished .isConnecting
  | isNoneEvent (events : site.connection.channel.isNoneEvent = false) :
      Fails thread site .removeFromLoop .isNoneEvent

variable [DecidableEq Thread] {site id} {thread : Thread} {answers : Answers}
  {next : Site Thread} {calls : List (Call Thread Task)} {task : ConnectionTask}

/-- No task changes what a connection is made with. -/
theorem Effect.identity (effect : Effect thread id answers site task next calls) :
    SameIdentity site.connection next.connection := by
  cases effect with
  | @sendPartly message count =>
      obtain ⟨_, _, fd, same⟩ := appendRemaining_connection id
        (((site.assertInLoopThread thread).accept message).sent (message.take count))
        (message.drop count)
      rw [same]
      constructor <;> simp [fd]
  | @sendBuffered message =>
      obtain ⟨_, _, fd, same⟩ := appendRemaining_connection id
        ((site.assertInLoopThread thread).accept message) message
      rw [same]
      constructor <;> simp [fd]
  | eventReads _ reads | afterCloseEvent reads => cases reads <;> constructor <;> simp
  | connectionEstablished => constructor <;> simp [Site.connectionEstablished]
  | removeFromLoop => constructor <;> simp [Site.removeFromLoop, EPoller.removeChannel]
  | _ => constructor <;> simp

private theorem mem_assertInLoopThread {assertion : Assertion} (inLoop : task.inLoop = true)
    (same : next.connection.history.failedAssertions =
      (site.assertInLoopThread thread).connection.history.failedAssertions)
    (member : assertion ∈ next.connection.history.failedAssertions) :
    assertion ∈ site.connection.history.failedAssertions ∨ Fails thread site task assertion := by
  rw [same] at member
  rcases List.mem_append.mp member with old | new
  · exact .inl old
  · split at new
    · cases new
    case isFalse elsewhere =>
      obtain rfl := List.mem_singleton.mp new
      exact .inr (.inLoopThread inLoop (by simpa using elsewhere))

/-- A task fails no other assertions. -/
theorem Effect.failed (effect : Effect thread id answers site task next calls) {assertion : Assertion}
    (member : assertion ∈ next.connection.history.failedAssertions) :
    assertion ∈ site.connection.history.failedAssertions ∨ Fails thread site task assertion := by
  cases effect with
  | sendRejected | sendFatal | sendCompleted | forceCloseInLoop | startReadSkipped
  | startReadEnabled | stopReadSkipped | stopReadDisabled | destroyedConnected
  | destroyedOtherwise | writeSkipped | writeFailed | writeZero | writePartly | writeDrains
  | closeSkipped | closes | sendPartly | sendBuffered | shutdownInLoop =>
      exact mem_assertInLoopThread rfl (by simp) member
  | shutdownDrained => exact .inl (by simpa using member)
  | connectionEstablished =>
      have added : (site.connectionEstablished thread id).1.connection.history.failedAssertions =
          (site.assertInLoopThread thread).connection.history.failedAssertions ++
            if site.connection.state = .connecting then [] else [.isConnecting] := by
        simp [Site.connectionEstablished]
      rw [added] at member
      rcases List.mem_append.mp member with before | new
      · exact mem_assertInLoopThread rfl rfl before
      · split at new
        · cases new
        case isFalse state =>
          obtain rfl := List.mem_singleton.mp new
          exact .inr (.isConnecting state)
  | removeFromLoop =>
      rcases List.mem_append.mp member with before | new
      · exact .inl before
      · split at new
        · cases new
        case isFalse events =>
          obtain rfl := List.mem_singleton.mp new
          exact .inr (.isNoneEvent (by simpa using events))
  | eventReads _ reads | afterCloseEvent reads =>
      cases reads with
      | skipped => exact .inl member
      | again | message | endOfFile | error => exact mem_assertInLoopThread rfl (by simp) member
  | _ => exact .inl member

end Site

end Benet
