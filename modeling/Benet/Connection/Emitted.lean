import Benet.Connection.Fields
import Benet.EventLoop.Flight

/-!
# The calls that a task of a connection makes

`Emitted` lists, for each task, the tasks it can call or post and the thread that
will execute them. Most results about tasks in flight need nothing else from the
functions of a connection.
-/

namespace Benet

open EventLoop

variable {Thread : Type}

/-- A task of the connection `id`, executed by `thread`, brings this task into
flight; `loop` is the connection's loop. -/
inductive Emitted (thread loop : Thread) (id : Nat) :
    ConnectionTask → Located Thread Task → Prop where
  | user {task} : Emitted thread loop id task (thread, .user)
  | sendInLoop {message} :
      Emitted thread loop id (.send message) (loop, .connection id (.sendInLoop message))
  | shutdownInLoop : Emitted thread loop id .shutdown (loop, .connection id .shutdownInLoop)
  | forceCloseInLoop {task} (caller : task = .forceClose ∨ task = .forceCloseLoad) :
      Emitted thread loop id task (loop, .connection id .forceCloseInLoop)
  | forceCloseLoad : Emitted thread loop id .forceClose (thread, .connection id .forceCloseLoad)
  | startReadInLoop : Emitted thread loop id .startRead (loop, .connection id .startReadInLoop)
  | stopReadInLoop : Emitted thread loop id .stopRead (loop, .connection id .stopReadInLoop)
  | handleClose {task} (inLoop : task.inLoop = true) :
      Emitted thread loop id task (thread, .connection id .handleClose)
  | writeCompleteCallback {task} :
      Emitted thread loop id task (loop, .connection id .writeCompleteCallback)
  | highWaterMarkCallback {message size} :
      Emitted thread loop id (.sendInLoop message)
        (loop, .connection id (.highWaterMarkCallback size))
  | removeFromLoop :
      Emitted thread loop id .connectionDestroyed (thread, .connection id .removeFromLoop)
  | afterCloseEvent {revents} (closes : Site.closesOn revents = true) :
      Emitted thread loop id (.handleEvent revents)
        (thread, .connection id (.afterCloseEvent revents))
  | handleWrite {task} (inLoop : task.inLoop = true) :
      Emitted thread loop id task (thread, .connection id .handleWrite)
  | writeDrained : Emitted thread loop id .handleWrite (thread, .connection id .writeDrained)
  | shutdownDrained :
      Emitted thread loop id .writeDrained (loop, .connection id .shutdownDrained)
  | onClose : Emitted thread loop id .handleClose (thread, .onClose id)

namespace Site

variable {thread : Thread} {id : Nat} {task : ConnectionTask}

/-- All calls are listed. -/
def AllEmitted (thread loop : Thread) (id : Nat) (task : ConnectionTask)
    (calls : List (Call Thread Task)) : Prop :=
  ∀ located ∈ Call.flights thread calls, Emitted thread loop id task located

/-- No calls put nothing into flight. -/
theorem AllEmitted.nil {loop : Thread} :
    AllEmitted thread loop id task ([] : List (Call Thread Task)) := by
  simp [AllEmitted]

/-- The calls of a list, one after the other. -/
theorem AllEmitted.cons {loop : Thread} {call : Call Thread Task} {rest : List (Call Thread Task)}
    (first : ∀ located ∈ call.flight thread, Emitted thread loop id task located)
    (others : AllEmitted thread loop id task rest) :
    AllEmitted thread loop id task (call :: rest) := by
  intro located member
  rw [Call.flights_cons, Multiset.mem_add] at member
  exact member.elim (first located) (others located)

/-- A function that is called at once. -/
theorem AllEmitted.calling {loop : Thread} {body : Task} {rest : List (Call Thread Task)}
    (first : Emitted thread loop id task (thread, body))
    (others : AllEmitted thread loop id task rest) :
    AllEmitted thread loop id task (.task body :: rest) :=
  .cons (by simpa [Call.flight] using first) others

/-- A functor that is passed to `RunInLoop`. -/
theorem AllEmitted.runInLoop {loop : Thread} {body : Task}
    (posted : Emitted thread loop id task (loop, body)) :
    AllEmitted thread loop id task [.runInLoop loop body] :=
  .cons (by simpa [Call.flight] using posted) .nil

/-- A functor that is passed to `QueueInLoop`. -/
theorem AllEmitted.queueInLoop {loop : Thread} {body : Task}
    (posted : Emitted thread loop id task (loop, body)) :
    AllEmitted thread loop id task [.queueInLoop loop body] :=
  .cons (by simpa [Call.flight] using posted) .nil

/-- The calls of two lists. -/
theorem AllEmitted.append {loop : Thread} {front back : List (Call Thread Task)}
    (first : AllEmitted thread loop id task front) (second : AllEmitted thread loop id task back) :
    AllEmitted thread loop id task (front ++ back) := by
  intro located member
  rw [Call.flights_append, Multiset.mem_add] at member
  exact member.elim (first located) (second located)

private theorem allEmitted_writeBranch (loop : Thread) (inLoop : task.inLoop = true)
    (revents : EventMask) :
    AllEmitted thread loop id task (writeBranch id revents : List (Call Thread Task)) := by
  unfold writeBranch
  split
  · exact .calling (.handleWrite inLoop) .nil
  · exact .nil

private theorem allEmitted_queueWriteComplete (site : Site Thread) :
    AllEmitted thread site.connection.loop id task (queueWriteComplete id site) := by
  unfold queueWriteComplete
  split
  · exact .queueInLoop .writeCompleteCallback
  · exact .nil

private theorem allEmitted_appendRemaining {message : List UInt8} (remaining : List UInt8)
    (site : Site Thread) :
    AllEmitted thread site.connection.loop id (.sendInLoop message)
      (site.appendRemaining id remaining).2 := by
  unfold appendRemaining
  split
  · exact .nil
  · dsimp only
    split
    · exact .queueInLoop .highWaterMarkCallback
    · exact .nil

variable [DecidableEq Thread] {answers : Answers} {site next : Site Thread}
  {calls : List (Call Thread Task)}

/-- What the read branch and the write branch of `HandleEvent` call is listed. -/
theorem ReadEffect.emitted {revents : EventMask} (inLoop : task.inLoop = true)
    (effect : ReadEffect thread id revents site next calls) :
    AllEmitted thread site.connection.loop id task calls := by
  have branch : AllEmitted thread site.connection.loop id task
      (writeBranch id revents : List (Call Thread Task)) :=
    allEmitted_writeBranch site.connection.loop inLoop revents
  cases effect with
  | skipped | again => exact branch
  | message => exact .calling .user branch
  | endOfFile | error => exact .calling (.handleClose inLoop) branch

/-- Every function that a connection calls or posts is one that the executed task emits. -/
theorem Effect.emitted (effect : Effect thread id answers site task next calls) :
    AllEmitted thread site.connection.loop id task calls := by
  cases effect with
  | sendIgnored | shutdownIgnored | sendRejected | shutdownInLoop | startReadSkipped
  | startReadEnabled | stopReadSkipped | stopReadDisabled | removeFromLoop | writeSkipped
  | writePartly | shutdownDrained | closeSkipped | forceCloseIgnored => exact .nil
  | sendSubmitted =>
      split
      case isTrue here =>
        refine .calling ?_ .nil
        rw [here]
        exact .sendInLoop
      case isFalse => exact .runInLoop .sendInLoop
  | shutdownBegun => exact .runInLoop .shutdownInLoop
  | forceCloseBegun => exact .queueInLoop (.forceCloseInLoop (.inl rfl))
  | forceCloseFailed => exact .calling .forceCloseLoad .nil
  | forceCloseLoaded => exact .queueInLoop (.forceCloseInLoop (.inr rfl))
  | startRead => exact .runInLoop .startReadInLoop
  | stopRead => exact .runInLoop .stopReadInLoop
  | sendFatal | writeFailed | writeZero => exact .calling (.handleClose rfl) .nil
  | sendCompleted => exact allEmitted_queueWriteComplete site
  | @sendPartly message count =>
      exact allEmitted_appendRemaining (message.drop count)
        (((site.assertInLoopThread thread).accept message).sent (message.take count))
  | @sendBuffered message =>
      exact allEmitted_appendRemaining message ((site.assertInLoopThread thread).accept message)
  | forceCloseInLoop =>
      split
      · exact .calling (.handleClose rfl) .nil
      · exact .nil
  | connectionEstablished | writeCompleteCallback | highWaterMarkCallback => exact .calling .user .nil
  | destroyedConnected => exact .calling .user (.calling .removeFromLoop .nil)
  | destroyedOtherwise => exact .calling .removeFromLoop .nil
  | eventCloses closes =>
      exact .calling (.handleClose rfl) (.calling (.afterCloseEvent closes) .nil)
  | eventReads _ reads | afterCloseEvent reads => exact reads.emitted rfl
  | writeDrains =>
      exact (allEmitted_queueWriteComplete site).append (.calling .writeDrained .nil)
  | writeDrained =>
      split
      · exact .runInLoop .shutdownDrained
      · exact .nil
  | closes => exact .calling .user (.calling .onClose .nil)

end Site

end Benet
