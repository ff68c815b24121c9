import Benet.Connection.Model

/-!
# The functions of a connection

One definition for each task, over the connection and the poller of its loop.
`id` is the number of the connection, which its calls and its channel carry. The
result is `none` where the environment's answer is impossible: `::send` never
takes more bytes than it was given, and `::readv` never fills more than its
buffers.
-/

namespace Benet

open EventLoop

/-- What a task leaves behind and the calls it then makes. -/
abbrev Outcome (Thread : Type) : Type := Site Thread × List (Call Thread Task)

namespace Site

variable {Thread : Type}

/-- The message goes on record as let through by `send_in_loop`. -/
def accept (message : List UInt8) (site : Site Thread) : Site Thread :=
  site.record fun history => { history with accepted := history.accepted ++ [message] }

/-- `::send` has taken these bytes. -/
def sent (bytes : List UInt8) (site : Site Thread) : Site Thread :=
  site.record fun history => { history with sent := history.sent ++ bytes }

/-- The connection is closed: the state, the events, the down notification. -/
def close (id : Nat) (site : Site Thread) : Site Thread :=
  ((site.setState .disconnected).disableAllEvent id).notify (.connection .disconnected)

/-- `handle_write` has passed `count` bytes of the output buffer to `::send`. -/
def drain (site : Site Thread) (count : Nat)
    (enough : count ≤ site.connection.outputBuffer.buffer.readableBytes) : Site Thread :=
  site.modify fun connection => { connection with
    outputBuffer := site.connection.outputBuffer.retrieve count enough
    history := { connection.history with
      sent := connection.history.sent ++ connection.outputBuffer.content.take count } }

variable [DecidableEq Thread] (thread : Thread) (id : Nat)

def send (message : List UInt8) (site : Site Thread) : Outcome Thread :=
  if site.connection.state ≠ .connected then (site, [])
  else
    let functor := Task.connection id (.sendInLoop message)
    (site.record fun history => { history with submitted := history.submitted ++ [message] },
      if thread = site.connection.loop then [.task functor]
      else [.runInLoop site.connection.loop functor])

/-- The end of `send_in_loop`: add what is left of the message to the output
buffer. -/
def appendRemaining (remaining : List UInt8) (site : Site Thread) : Outcome Thread :=
  if remaining.length = 0 then (site, [])
  else
    let loop := site.connection.loop
    let mark := site.connection.highWaterMark
    let oldBufLen := site.connection.outputBuffer.buffer.readableBytes
    let appended := site.modify fun connection =>
      { connection with outputBuffer := connection.outputBuffer.append remaining }
    (if appended.connection.channel.isWriteEvent then appended else appended.enableWriteEvent id,
      if oldBufLen + remaining.length ≥ mark ∧ oldBufLen < mark ∧ site.connection.onHighWaterMark
      then [.queueInLoop loop (.connection id (.highWaterMarkCallback
        (oldBufLen + remaining.length)))]
      else [])

/-- The calls that queue `on_write_complete_`. -/
def queueWriteComplete (site : Site Thread) : List (Call Thread Task) :=
  if site.connection.onWriteComplete then
    [.queueInLoop site.connection.loop (.connection id .writeCompleteCallback)]
  else []

/-- The direct `::send` of `send_in_loop`. A fatal error goes to `handle_close`;
after any other error the whole message remains. -/
def sendDirectly (message : List UInt8) (result : SendResult) (site : Site Thread) :
    Option (Outcome Thread) :=
  match result with
  | .wrote count _ =>
      if message.length < count then none
      else
        let site := site.sent (message.take count)
        if count = message.length then some (site, queueWriteComplete id site)
        else some (site.appendRemaining id (message.drop count))
  | .failed .epipe | .failed .econnreset =>
      some (site.disturb .socketError, [.task (.connection id .handleClose)])
  | .failed _ => some (site.appendRemaining id message)

def sendInLoop (message : List UInt8) (result : SendResult) (site : Site Thread) :
    Option (Outcome Thread) :=
  let site := site.assertInLoopThread thread
  if site.connection.state ≠ .connected then
    some (site.record fun history => { history with rejected := history.rejected ++ [message] }, [])
  else
    let site := site.accept message
    if !site.connection.channel.isWriteEvent &&
        site.connection.outputBuffer.buffer.readableBytes == 0 then
      site.sendDirectly id message result
    else some (site.appendRemaining id message)

/-- `compare_exchange_strong(Connected, Disconnecting)` and the call it enables. -/
def shutdown (site : Site Thread) : Outcome Thread :=
  if site.connection.state = .connected then
    (site.setState .disconnecting,
      [.runInLoop site.connection.loop (.connection id .shutdownInLoop)])
  else (site, [])

/-- `if (!channel_->IsWriteEvent()) socket_->ShutdownWrite();` -/
def shutdownWriteIfDrained (site : Site Thread) : Site Thread :=
  if site.connection.channel.isWriteEvent then site
  else site.record fun history => { history with shutdownWrites := history.shutdownWrites + 1 }

def shutdownInLoop (site : Site Thread) : Outcome Thread :=
  ((site.assertInLoopThread thread).shutdownWriteIfDrained, [])

/-- The compare-exchange of `ForceClose`. -/
def forceClose (site : Site Thread) : Outcome Thread :=
  if site.connection.state = .connected then
    ((site.disturb .forceClose).setState .disconnecting,
      [.queueInLoop site.connection.loop (.connection id .forceCloseInLoop)])
  else (site, [.task (.connection id .forceCloseLoad)])

/-- The load of `ForceClose` after a failed compare-exchange. -/
def forceCloseLoad (site : Site Thread) : Outcome Thread :=
  if site.connection.state = .disconnecting then
    (site.disturb .forceClose,
      [.queueInLoop site.connection.loop (.connection id .forceCloseInLoop)])
  else (site, [])

def forceCloseInLoop (site : Site Thread) : Outcome Thread :=
  (site.assertInLoopThread thread,
    if site.connection.state = .connected ∨ site.connection.state = .disconnecting then
      [.task (.connection id .handleClose)] else [])

/-- No other thread moves `state_` into or out of the two values that
`handle_close` tests for, so the load and the store are one access. -/
def handleClose (site : Site Thread) : Outcome Thread :=
  let site := site.assertInLoopThread thread
  if site.connection.state ≠ .connected ∧ site.connection.state ≠ .disconnecting then (site, [])
  else
    (site.close id, [.task .user, .task (.onClose id)])

def startReadInLoop (site : Site Thread) : Outcome Thread :=
  let site := site.assertInLoopThread thread
  if !site.connection.reading || !site.connection.channel.isReadEvent then
    ((site.enableReadEvent id).modify fun connection => { connection with reading := true }, [])
  else (site, [])

def stopReadInLoop (site : Site Thread) : Outcome Thread :=
  let site := site.assertInLoopThread thread
  if site.connection.reading || site.connection.channel.isReadEvent then
    ((site.disableReadEvent id).modify fun connection => { connection with reading := false }, [])
  else (site, [])

def connectionEstablished (site : Site Thread) : Outcome Thread :=
  let site := site.assertInLoopThread thread
  let site := site.assert .isConnecting (site.connection.state = .connecting)
  let site := site.record fun history => { history with established := history.established + 1 }
  (((site.setState .connected).enableReadEvent id).notify (.connection .connected), [.task .user])

/-- `ConnectionDestroyed` up to the return of `on_connection_`. -/
def connectionDestroyed (site : Site Thread) : Outcome Thread :=
  let site := (site.assertInLoopThread thread).disturb .connectionDestroyed
  let site := site.record fun history => { history with destroyed := history.destroyed + 1 }
  if site.connection.state = .connected then
    (site.close id, [.task .user, .task (.connection id .removeFromLoop)])
  else (site, [.task (.connection id .removeFromLoop)])

/-- `channel_->RemoveFromLoop()`, the end of `ConnectionDestroyed`. -/
def removeFromLoop (site : Site Thread) : Outcome Thread :=
  let site := site.assert .isNoneEvent site.connection.channel.isNoneEvent
  let site := site.record fun history => { history with removed := history.removed + 1 }
  let updated := site.poller.removeChannel id site.connection.channel
  (⟨{ site.connection with channel := updated.1 }, updated.2⟩, [])

def handleRead (result : ReadResult) (site : Site Thread) : Option (Outcome Thread) :=
  let site := site.assertInLoopThread thread
  match result with
  | .received bytes =>
      if site.connection.inputBuffer.buffer.readCapacity < bytes.length then none
      else
        let filled := site.modify fun connection =>
          { connection with inputBuffer := connection.inputBuffer.readFd bytes }
        if 0 < bytes.length then some (filled.notify .message, [.task .user])
        else some (filled.disturb .peerEof, [.task (.connection id .handleClose)])
  | .failed .eagain | .failed .eintr => some (site, [])
  | .failed _ => some (site.disturb .socketError, [.task (.connection id .handleClose)])

def handleWrite (result : SendResult) (site : Site Thread) : Option (Outcome Thread) :=
  let site := site.assertInLoopThread thread
  if !site.connection.channel.isWriteEvent then some (site, [])
  else
    match result with
    | .wrote 0 .eagain | .wrote 0 .eintr | .failed .eagain | .failed .eintr => some (site, [])
    | .wrote 0 _ => some (site.disturb .zeroWrite, [.task (.connection id .handleClose)])
    | .failed _ => some (site.disturb .socketError, [.task (.connection id .handleClose)])
    | .wrote count _ =>
        if enough : count ≤ site.connection.outputBuffer.buffer.readableBytes then
          let site := site.drain count enough
          if 0 < site.connection.outputBuffer.buffer.readableBytes then some (site, [])
          else some (site.disableWriteEvent id,
            queueWriteComplete id site ++ [.task (.connection id .writeDrained)])
        else none

/-- The end of `handle_write`, whose functor runs at once because this is the
loop thread. -/
def writeDrained (site : Site Thread) : Outcome Thread :=
  (site, if site.connection.state = .disconnecting then
    [.runInLoop site.connection.loop (.connection id .shutdownDrained)] else [])

/-- The write branch of `HandleEvent`. -/
def writeBranch (revents : EventMask) : List (Call Thread Task) :=
  if revents.has epollOut then [.task (.connection id .handleWrite)] else []

/-- Whether `HandleEvent` takes its read branch. -/
def readsOn (revents : EventMask) : Bool := revents.has (epollIn ||| epollPri ||| epollRdhup)

/-- Whether `HandleEvent` takes its close branch. -/
def closesOn (revents : EventMask) : Bool :=
  revents.has (epollHup ||| epollRdhup) && !revents.has epollIn

/-- The read branch and the write branch of `HandleEvent`. -/
def afterCloseEvent (revents : EventMask) (result : ReadResult) (site : Site Thread) :
    Option (Outcome Thread) :=
  if readsOn revents then
    (site.handleRead thread id result).map fun (site, calls) =>
      (site, calls ++ writeBranch id revents)
  else some (site, writeBranch id revents)

/-- `HandleEvent`. Its error branch only logs, and the read branch follows in the
same stretch when there is nothing to close. -/
def handleEvent (revents : EventMask) (result : ReadResult) (site : Site Thread) :
    Option (Outcome Thread) :=
  if closesOn revents then
    some (site.disturb .peerEof,
      [.task (.connection id .handleClose), .task (.connection id (.afterCloseEvent revents))])
  else site.afterCloseEvent thread id revents result

/-- Execute a task of the connection. -/
def exec (answers : Answers) (site : Site Thread) : ConnectionTask → Option (Outcome Thread)
  | .send message => some (site.send thread id message)
  | .shutdown => some (site.shutdown id)
  | .forceClose => some (site.forceClose id)
  | .forceCloseLoad => some (site.forceCloseLoad id)
  | .startRead =>
      some (site, [.runInLoop site.connection.loop (.connection id .startReadInLoop)])
  | .stopRead => some (site, [.runInLoop site.connection.loop (.connection id .stopReadInLoop)])
  | .sendInLoop message => site.sendInLoop thread id message answers.send
  | .shutdownInLoop => some (site.shutdownInLoop thread)
  | .forceCloseInLoop => some (site.forceCloseInLoop thread id)
  | .startReadInLoop => some (site.startReadInLoop thread id)
  | .stopReadInLoop => some (site.stopReadInLoop thread id)
  | .connectionEstablished => some (site.connectionEstablished thread id)
  | .connectionDestroyed => some (site.connectionDestroyed thread id)
  | .removeFromLoop => some (site.removeFromLoop id)
  | .handleEvent revents => site.handleEvent thread id revents answers.read
  | .afterCloseEvent revents => site.afterCloseEvent thread id revents answers.read
  | .handleWrite => site.handleWrite thread id answers.send
  | .writeDrained => some (site.writeDrained id)
  | .shutdownDrained => some (site.shutdownWriteIfDrained, [])
  | .handleClose => some (site.handleClose thread id)
  | .writeCompleteCallback | .highWaterMarkCallback _ => some (site, [.task .user])

end Site

end Benet
