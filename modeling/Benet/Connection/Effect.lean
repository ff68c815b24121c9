import Benet.Connection.Functions
import Benet.Poller.Tracking

/-!
# What a task of a connection can do

`Site.Effect` lists by constructors every way in which a task of a connection can
go, with the conditions, the resulting site and the calls; `Site.exec_effect`
shows that `exec` does nothing else. Results about connections split on this
relation and do not unfold the functions again.
-/

namespace Benet

open EventLoop

namespace Site

variable {Thread : Type}

variable [DecidableEq Thread]

/-- The read branch of `HandleEvent`; the write branch follows. -/
inductive ReadEffect (thread : Thread) (id : Nat) (revents : EventMask) (site : Site Thread) :
    Site Thread → List (Call Thread Task) → Prop where
  | skipped (reads : readsOn revents = false) :
      ReadEffect thread id revents site site (writeBranch id revents)
  | again (reads : readsOn revents = true) :
      ReadEffect thread id revents site (site.assertInLoopThread thread) (writeBranch id revents)
  | message {bytes} (reads : readsOn revents = true) :
      ReadEffect thread id revents site
        ((((site.assertInLoopThread thread).modify fun connection =>
          { connection with inputBuffer := connection.inputBuffer.readFd bytes })).notify .message)
        (.task .user :: writeBranch id revents)
  | endOfFile (reads : readsOn revents = true) :
      ReadEffect thread id revents site
        ((((site.assertInLoopThread thread).modify fun connection =>
          { connection with inputBuffer := connection.inputBuffer.readFd [] })).disturb .peerEof)
        (.task (.connection id .handleClose) :: writeBranch id revents)
  | error (reads : readsOn revents = true) :
      ReadEffect thread id revents site ((site.assertInLoopThread thread).disturb .socketError)
        (.task (.connection id .handleClose) :: writeBranch id revents)

/-- The effects of the tasks of a connection. -/
inductive Effect (thread : Thread) (id : Nat) (answers : Answers) (site : Site Thread) :
    ConnectionTask → Site Thread → List (Call Thread Task) → Prop where
  | sendIgnored {message} (state : site.connection.state ≠ .connected) :
      Effect thread id answers site (.send message) site []
  | sendSubmitted {message} (state : site.connection.state = .connected) :
      Effect thread id answers site (.send message)
        (site.record fun history => { history with submitted := history.submitted ++ [message] })
        (if thread = site.connection.loop then [.task (.connection id (.sendInLoop message))]
          else [.runInLoop site.connection.loop (.connection id (.sendInLoop message))])
  | shutdownIgnored (state : site.connection.state ≠ .connected) :
      Effect thread id answers site .shutdown site []
  | shutdownBegun (state : site.connection.state = .connected) :
      Effect thread id answers site .shutdown (site.setState .disconnecting)
        [.runInLoop site.connection.loop (.connection id .shutdownInLoop)]
  | forceCloseBegun (state : site.connection.state = .connected) :
      Effect thread id answers site .forceClose
        ((site.disturb .forceClose).setState .disconnecting)
        [.queueInLoop site.connection.loop (.connection id .forceCloseInLoop)]
  | forceCloseFailed (state : site.connection.state ≠ .connected) :
      Effect thread id answers site .forceClose site [.task (.connection id .forceCloseLoad)]
  | forceCloseLoaded (state : site.connection.state = .disconnecting) :
      Effect thread id answers site .forceCloseLoad (site.disturb .forceClose)
        [.queueInLoop site.connection.loop (.connection id .forceCloseInLoop)]
  | forceCloseIgnored : Effect thread id answers site .forceCloseLoad site []
  | startRead :
      Effect thread id answers site .startRead site
        [.runInLoop site.connection.loop (.connection id .startReadInLoop)]
  | stopRead :
      Effect thread id answers site .stopRead site
        [.runInLoop site.connection.loop (.connection id .stopReadInLoop)]
  | sendRejected {message} (state : site.connection.state ≠ .connected) :
      Effect thread id answers site (.sendInLoop message)
        ((site.assertInLoopThread thread).record fun history =>
          { history with rejected := history.rejected ++ [message] }) []
  | sendFatal {message} (state : site.connection.state = .connected)
      (idle : site.connection.channel.isWriteEvent = false)
      (empty : site.connection.outputBuffer.content = []) :
      Effect thread id answers site (.sendInLoop message)
        (((site.assertInLoopThread thread).accept message).disturb .socketError)
        [.task (.connection id .handleClose)]
  | sendCompleted {message} (state : site.connection.state = .connected)
      (idle : site.connection.channel.isWriteEvent = false)
      (empty : site.connection.outputBuffer.content = []) :
      Effect thread id answers site (.sendInLoop message)
        (((site.assertInLoopThread thread).accept message).sent message)
        (queueWriteComplete id site)
  | sendPartly {message count} (state : site.connection.state = .connected)
      (idle : site.connection.channel.isWriteEvent = false)
      (empty : site.connection.outputBuffer.content = []) (bound : count < message.length) :
      Effect thread id answers site (.sendInLoop message)
        ((((site.assertInLoopThread thread).accept message).sent (message.take count)).appendRemaining
          id (message.drop count)).1
        ((((site.assertInLoopThread thread).accept message).sent (message.take count)).appendRemaining
          id (message.drop count)).2
  | sendBuffered {message} (state : site.connection.state = .connected) :
      Effect thread id answers site (.sendInLoop message)
        (((site.assertInLoopThread thread).accept message).appendRemaining id message).1
        (((site.assertInLoopThread thread).accept message).appendRemaining id message).2
  | shutdownInLoop :
      Effect thread id answers site .shutdownInLoop
        (site.assertInLoopThread thread).shutdownWriteIfDrained []
  | forceCloseInLoop :
      Effect thread id answers site .forceCloseInLoop (site.assertInLoopThread thread)
        (if site.connection.state = .connected ∨ site.connection.state = .disconnecting then
          [.task (.connection id .handleClose)] else [])
  | startReadSkipped :
      Effect thread id answers site .startReadInLoop (site.assertInLoopThread thread) []
  | startReadEnabled (wanted : site.connection.reading = false ∨
      site.connection.channel.isReadEvent = false) :
      Effect thread id answers site .startReadInLoop
        (((site.assertInLoopThread thread).enableReadEvent id).modify fun connection =>
          { connection with reading := true }) []
  | stopReadSkipped :
      Effect thread id answers site .stopReadInLoop (site.assertInLoopThread thread) []
  | stopReadDisabled (wanted : site.connection.reading = true ∨
      site.connection.channel.isReadEvent = true) :
      Effect thread id answers site .stopReadInLoop
        (((site.assertInLoopThread thread).disableReadEvent id).modify fun connection =>
          { connection with reading := false }) []
  | connectionEstablished :
      Effect thread id answers site .connectionEstablished (site.connectionEstablished thread id).1
        [.task .user]
  | destroyedConnected (state : site.connection.state = .connected) :
      Effect thread id answers site .connectionDestroyed
        ((((site.assertInLoopThread thread).disturb .connectionDestroyed).record fun history =>
          { history with destroyed := history.destroyed + 1 }).close id)
        [.task .user, .task (.connection id .removeFromLoop)]
  | destroyedOtherwise (state : site.connection.state ≠ .connected) :
      Effect thread id answers site .connectionDestroyed
        (((site.assertInLoopThread thread).disturb .connectionDestroyed).record fun history =>
          { history with destroyed := history.destroyed + 1 })
        [.task (.connection id .removeFromLoop)]
  | removeFromLoop :
      Effect thread id answers site .removeFromLoop (site.removeFromLoop id).1 []
  | eventCloses {revents} (closes : closesOn revents = true) :
      Effect thread id answers site (.handleEvent revents) (site.disturb .peerEof)
        [.task (.connection id .handleClose), .task (.connection id (.afterCloseEvent revents))]
  | eventReads {revents next calls} (closes : closesOn revents = false)
      (reads : ReadEffect thread id revents site next calls) :
      Effect thread id answers site (.handleEvent revents) next calls
  | afterCloseEvent {revents next calls} (reads : ReadEffect thread id revents site next calls) :
      Effect thread id answers site (.afterCloseEvent revents) next calls
  | writeSkipped :
      Effect thread id answers site .handleWrite (site.assertInLoopThread thread) []
  | writeFailed (writing : site.connection.channel.isWriteEvent = true) :
      Effect thread id answers site .handleWrite
        ((site.assertInLoopThread thread).disturb .socketError)
        [.task (.connection id .handleClose)]
  | writeZero {errno} (writing : site.connection.channel.isWriteEvent = true)
      (result : answers.send = .wrote 0 errno) (stale : errno ≠ .eagain ∧ errno ≠ .eintr) :
      Effect thread id answers site .handleWrite
        ((site.assertInLoopThread thread).disturb .zeroWrite)
        [.task (.connection id .handleClose)]
  | writePartly {count} (writing : site.connection.channel.isWriteEvent = true)
      (enough : count ≤ (site.assertInLoopThread thread).connection.outputBuffer.buffer.readableBytes)
      (left : site.connection.outputBuffer.content.drop count ≠ []) :
      Effect thread id answers site .handleWrite
        ((site.assertInLoopThread thread).drain count enough) []
  | writeDrains {count} (writing : site.connection.channel.isWriteEvent = true)
      (enough : count ≤ (site.assertInLoopThread thread).connection.outputBuffer.buffer.readableBytes)
      (empty : site.connection.outputBuffer.content.drop count = []) :
      Effect thread id answers site .handleWrite
        (((site.assertInLoopThread thread).drain count enough).disableWriteEvent id)
        (queueWriteComplete id site ++ [.task (.connection id .writeDrained)])
  | writeDrained :
      Effect thread id answers site .writeDrained site
        (if site.connection.state = .disconnecting then
          [.runInLoop site.connection.loop (.connection id .shutdownDrained)] else [])
  | shutdownDrained :
      Effect thread id answers site .shutdownDrained site.shutdownWriteIfDrained []
  | closeSkipped (state : site.connection.state ≠ .connected)
      (notDisconnecting : site.connection.state ≠ .disconnecting) :
      Effect thread id answers site .handleClose (site.assertInLoopThread thread) []
  | closes (state : site.connection.state = .connected ∨ site.connection.state = .disconnecting) :
      Effect thread id answers site .handleClose ((site.assertInLoopThread thread).close id)
        [.task .user, .task (.onClose id)]
  | writeCompleteCallback :
      Effect thread id answers site .writeCompleteCallback site [.task .user]
  | highWaterMarkCallback {size} :
      Effect thread id answers site (.highWaterMarkCallback size) site [.task .user]

variable {thread : Thread} {id : Nat} {answers : Answers} {site next : Site Thread}
  {calls : List (Call Thread Task)}

private theorem afterCloseEvent_effect {revents : EventMask} {result : ReadResult}
    (executed : site.afterCloseEvent thread id revents result = some (next, calls)) :
    ReadEffect thread id revents site next calls := by
  unfold afterCloseEvent at executed
  split at executed
  case isFalse reads =>
    cases executed
    exact .skipped (Bool.eq_false_iff.mpr reads)
  case isTrue reads =>
    obtain ⟨⟨read, made⟩, handled, result⟩ := Option.map_eq_some_iff.mp executed
    cases result
    unfold handleRead at handled
    dsimp only at handled
    split at handled
    case h_1 bytes =>
      split at handled
      case isTrue => cases handled
      case isFalse =>
        split at handled
        case isTrue => cases handled; exact .message reads
        case isFalse empty =>
          have none : bytes = [] := by simpa using empty
          subst none
          cases handled
          exact .endOfFile reads
    case h_2 | h_3 => cases handled; exact .again reads
    case h_4 => cases handled; exact .error reads

/-- An effect, read off from the outcome of the function. -/
theorem Effect.of_outcome {task : ConnectionTask} {outcome : Outcome Thread}
    (result : some outcome = some (next, calls))
    (effect : Effect thread id answers site task outcome.1 outcome.2) :
    Effect thread id answers site task next calls := by
  cases result
  exact effect

private theorem sendInLoop_effect {message : List UInt8}
    (executed : site.sendInLoop thread id message answers.send = some (next, calls)) :
    Effect thread id answers site (.sendInLoop message) next calls := by
  unfold sendInLoop at executed
  dsimp only at executed
  split at executed
  case isTrue state => cases executed; exact .sendRejected state
  case isFalse connected =>
    have state : site.connection.state = .connected := not_not.mp connected
    split at executed
    case isFalse => exact .of_outcome executed (.sendBuffered state)
    case isTrue direct =>
      rw [Bool.and_eq_true, Bool.not_eq_true', beq_iff_eq] at direct
      have idle : site.connection.channel.isWriteEvent = false := direct.1
      have empty : site.connection.outputBuffer.content = [] := by
        rw [← List.length_eq_zero_iff, ← Buffer.Valid.readableBytes_eq]
        exact direct.2
      unfold sendDirectly at executed
      split at executed
      case h_1 count errno =>
        split at executed
        case isTrue => cases executed
        case isFalse bound =>
          split at executed
          case isTrue whole =>
            rw [whole, List.take_length] at executed
            exact .of_outcome executed (.sendCompleted state idle empty)
          case isFalse part =>
            exact .of_outcome executed (.sendPartly state idle empty (by omega))
      case h_2 | h_3 => cases executed; exact .sendFatal state idle empty
      case h_4 => exact .of_outcome executed (.sendBuffered state)

private theorem handleWrite_effect
    (executed : site.handleWrite thread id answers.send = some (next, calls)) :
    Effect thread id answers site .handleWrite next calls := by
  unfold handleWrite at executed
  dsimp only at executed
  split at executed
  case isTrue => cases executed; exact .writeSkipped
  case isFalse writes =>
    rw [Bool.not_eq_true', Bool.not_eq_false] at writes
    have writing : site.connection.channel.isWriteEvent = true := writes
    split at executed
    case h_1 | h_2 | h_3 | h_4 => cases executed; exact .writeSkipped
    case h_5 errno notAgain notInterrupted result =>
      cases executed
      exact .writeZero writing result ⟨fun same => notAgain (same ▸ rfl),
        fun same => notInterrupted (same ▸ rfl)⟩
    case h_6 => cases executed; exact .writeFailed writing
    case h_7 count errno _ _ _ result =>
      split at executed
      case isFalse => cases executed
      case isTrue enough =>
        have rest : ((site.assertInLoopThread thread).drain count
            enough).connection.outputBuffer.buffer.readableBytes =
              (site.connection.outputBuffer.content.drop count).length := by
          rw [Buffer.Valid.readableBytes_eq]
          exact congrArg List.length (Buffer.Valid.content_retrieve _ count enough)
        split at executed
        case isTrue left =>
          rw [rest, List.length_pos_iff] at left
          exact .of_outcome executed (.writePartly writing enough left)
        case isFalse none =>
          rw [rest, List.length_pos_iff, not_not] at none
          exact .of_outcome executed (.writeDrains writing enough none)

/-- Every executed task has one of the listed effects. -/
theorem exec_effect {task : ConnectionTask}
    (executed : site.exec thread id answers task = some (next, calls)) :
    Effect thread id answers site task next calls := by
  cases task with
  | send message =>
      simp only [exec, send] at executed
      split at executed
      case isTrue state => cases executed; exact .sendIgnored state
      case isFalse state => cases executed; exact .sendSubmitted (not_not.mp state)
  | shutdown =>
      simp only [exec, shutdown] at executed
      split at executed
      case isTrue state => cases executed; exact .shutdownBegun state
      case isFalse state => cases executed; exact .shutdownIgnored state
  | forceClose =>
      simp only [exec, forceClose] at executed
      split at executed
      case isTrue state => cases executed; exact .forceCloseBegun state
      case isFalse state => cases executed; exact .forceCloseFailed state
  | forceCloseLoad =>
      simp only [exec, forceCloseLoad] at executed
      split at executed
      case isTrue state => cases executed; exact .forceCloseLoaded state
      case isFalse => cases executed; exact .forceCloseIgnored
  | startRead => cases executed; exact .startRead
  | stopRead => cases executed; exact .stopRead
  | sendInLoop message => exact sendInLoop_effect executed
  | shutdownInLoop => cases executed; exact .shutdownInLoop
  | forceCloseInLoop => cases executed; exact .forceCloseInLoop
  | startReadInLoop =>
      simp only [exec, startReadInLoop] at executed
      split at executed
      case isTrue wanted =>
        cases executed
        simp only [Bool.or_eq_true, Bool.not_eq_true'] at wanted
        exact .startReadEnabled wanted
      case isFalse => cases executed; exact .startReadSkipped
  | stopReadInLoop =>
      simp only [exec, stopReadInLoop] at executed
      split at executed
      case isTrue wanted =>
        cases executed
        exact .stopReadDisabled (Bool.or_eq_true _ _ ▸ wanted)
      case isFalse => cases executed; exact .stopReadSkipped
  | connectionEstablished => cases executed; exact .connectionEstablished
  | connectionDestroyed =>
      simp only [exec, connectionDestroyed] at executed
      split at executed
      case isTrue state => cases executed; exact .destroyedConnected state
      case isFalse state => cases executed; exact .destroyedOtherwise state
  | removeFromLoop => cases executed; exact .removeFromLoop
  | handleEvent revents =>
      simp only [exec, handleEvent] at executed
      split at executed
      case isTrue closes => cases executed; exact .eventCloses closes
      case isFalse closes =>
        exact .eventReads (Bool.eq_false_iff.mpr closes) (afterCloseEvent_effect executed)
  | afterCloseEvent revents => exact .afterCloseEvent (afterCloseEvent_effect executed)
  | handleWrite => exact handleWrite_effect executed
  | writeDrained => cases executed; exact .writeDrained
  | shutdownDrained => cases executed; exact .shutdownDrained
  | handleClose =>
      simp only [exec, handleClose] at executed
      split at executed
      case isTrue state => cases executed; exact .closeSkipped state.1 state.2
      case isFalse state =>
        cases executed
        refine .closes ?_
        by_contra neither
        exact state (not_or.mp neither)
  | writeCompleteCallback => cases executed; exact .writeCompleteCallback
  | highWaterMarkCallback size => cases executed; exact .highWaterMarkCallback

end Site

end Benet
