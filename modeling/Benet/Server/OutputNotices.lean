import Benet.Semantics.Observation
import Benet.Server.PendingOutput

/-!
# The notices of the output side

`on_write_complete_` is queued from the direct `::send` of `send_in_loop` and from
`handle_write`, `on_high_water_mark_` from the end of `send_in_loop`. With both
callbacks bound, `World.output_notices_exact_iff` says in which steps: the high water
mark exactly where the output buffer reaches it from below, write complete only when
everything that was let through has been sent, and always with the last byte. For empty
messages alone it depends on what `::send` returned for them, so an observer keeps the steps
that queued write complete and counts those `::send`s.
-/

namespace Benet

open EventLoop Semantics

variable {Thread : Type}

/-- `::send` returned no error. -/
def SendResult.succeeds : SendResult → Bool
  | .wrote _ _ => true
  | .failed _ => false

/-- The message that the task lets through. -/
def ConnectionTask.messages : ConnectionTask → List (List UInt8)
  | .sendInLoop message => [message]
  | _ => []

/-- The functor calls `on_write_complete_` or `on_high_water_mark_`. -/
def Task.isNotice : Task → Bool
  | .connection _ .writeCompleteCallback | .connection _ (.highWaterMarkCallback _) => true
  | _ => false

/-- The calls queue neither notice. -/
def Quiet (calls : List (Call Thread Task)) : Prop :=
  ∀ loop functor, .queueInLoop loop functor ∈ calls → functor.isNotice = false

/-- The transition executes a task that calls `QueueInLoop` with this functor. -/
def EventLoop.Machine.Queues {State Choice : Type} (client : Client State Thread Task Choice)
    (machine : Machine State Thread Task) (label : Label Thread Choice) (functor : Task) : Prop :=
  ∃ body choice state calls loop, machine.executing label = some (body, choice) ∧
    client.exec label.thread body choice machine.client = some (state, calls) ∧
    .queueInLoop loop functor ∈ calls

/-- The call is `QueueInLoop` with this functor. -/
def EventLoop.Call.queues (functor : Task) : Call Thread Task → Bool
  | .queueInLoop _ queued => queued = functor
  | _ => false

instance {State Choice : Type} {client : Client State Thread Task Choice}
    {machine : Machine State Thread Task} {label : Label Thread Choice} {functor : Task} :
    Decidable (machine.Queues client label functor) :=
  decidable_of_iff (((machine.executing label).bind fun executed =>
      client.exec label.thread executed.1 executed.2 machine.client).any
        fun outcome => outcome.2.any (Call.queues functor)) <| by
    simp only [Option.any_eq_true, Option.bind_eq_some_iff, List.any_eq_true]
    constructor
    · rintro ⟨⟨state, calls⟩, ⟨⟨body, choice⟩, executed, ran⟩, call, member, queues⟩
      cases call with
      | queueInLoop loop queued =>
          obtain rfl : queued = functor := by simpa [Call.queues] using queues
          exact ⟨body, choice, state, calls, loop, executed, ran, member⟩
      | task | runInLoop | stop => cases queues
    · rintro ⟨body, choice, state, calls, loop, executed, ran, member⟩
      exact ⟨(state, calls), ⟨(body, choice), executed, ran⟩, _, member, by simp [Call.queues]⟩

/-- What `send_in_loop` queues when the output buffer grows from `before` to `after`. -/
def TcpConnection.crossing (id before after : Nat) (connection : TcpConnection Thread) :
    List (Call Thread Task) :=
  if before < connection.highWaterMark ∧ connection.highWaterMark ≤ after ∧
      connection.onHighWaterMark then
    [.queueInLoop connection.loop (.connection id (.highWaterMarkCallback after))]
  else []

/-- The functor for the high-water mark is queued exactly where the mark is crossed. -/
theorem TcpConnection.mem_crossing {connection : TcpConnection Thread} {id before after : Nat}
    (bound : connection.onHighWaterMark = true) (size : Nat) :
    (∃ loop, .queueInLoop loop (.connection id (.highWaterMarkCallback size)) ∈
        connection.crossing id before after) ↔
      (before < connection.highWaterMark ∧ connection.highWaterMark ≤ after) ∧ size = after := by
  unfold crossing
  split
  case isTrue crosses => simp [crosses.1, crosses.2.1]
  case isFalse stays =>
    refine iff_of_false (by simp) ?_
    rintro ⟨⟨below, reached⟩, -⟩
    exact stays ⟨below, reached, bound⟩

/-- What sends runs in the loop and is not `handle_close`. -/
theorem ConnectionTask.inLoop_of_sends {connection : TcpConnection Thread} {task : ConnectionTask}
    (sends : task.sends connection = true) : task.inLoop = true ∧ task ≠ .handleClose := by
  cases task with
  | sendInLoop | handleWrite => exact ⟨rfl, by simp⟩
  | _ => cases sends

/-- A closed connection calls `::send` no more. -/
theorem TcpConnection.Pending.open_of_sends {connection : TcpConnection Thread}
    {task : ConnectionTask} (pending : connection.Pending)
    (sends : task.sends connection = true) : connection.state ≠ .disconnected := by
  intro closed
  cases task with
  | sendInLoop => simp [ConnectionTask.sends, closed] at sends
  | handleWrite => simp [ConnectionTask.sends, pending.closed closed] at sends
  | _ => cases sends

namespace Site

/-- The output side of a task: what it leaves in the output buffer, what it has passed
to `::send`, and the notices it queues. -/
inductive Outputs (id : Nat) (site : Site Thread) (task : ConnectionTask) (next : Site Thread)
    (calls : List (Call Thread Task)) : Prop where
  | quiet
      (unfinished : next.connection.history.sent = site.connection.history.sent ∨
        next.connection.outputBuffer.content ≠ [])
      (shorter : next.connection.outputBuffer.content.length ≤
        site.connection.outputBuffer.content.length)
      (quiet : Quiet calls)
  | buffers (message : List UInt8) (caller : task = .sendInLoop message)
      (unfinished : next.connection.history.sent = site.connection.history.sent ∨
        next.connection.outputBuffer.content ≠ [])
      (crossing : calls = site.connection.crossing id
        site.connection.outputBuffer.content.length next.connection.outputBuffer.content.length)
  | completes (rest : List (Call Thread Task)) (sends : task.sends site.connection = true)
      (empty : next.connection.outputBuffer.content = [])
      (accepted : next.connection.history.accepted =
        site.connection.history.accepted ++ task.messages)
      (stream : next.connection.stream = site.connection.stream ++ task.messages.flatten)
      (queued : calls = queueWriteComplete id site ++ rest) (quiet : Quiet rest)

private theorem quiet_nil : Quiet ([] : List (Call Thread Task)) := by
  simp [Quiet]

private theorem quiet_writeBranch {id : Nat} (revents : EventMask) :
    Quiet (writeBranch id revents : List (Call Thread Task)) := by
  unfold writeBranch
  split <;> simp [Quiet]

/-- The end of `send_in_loop` in one condition: with nothing left the buffer does not
grow. -/
private theorem appendRemaining_calls (id : Nat) (remaining : List UInt8) (site : Site Thread) :
    (site.appendRemaining id remaining).2 = site.connection.crossing id
      site.connection.outputBuffer.content.length
      (site.appendRemaining id remaining).1.connection.outputBuffer.content.length := by
  rw [appendRemaining_content, List.length_append, TcpConnection.crossing]
  unfold appendRemaining
  rw [Buffer.Valid.readableBytes_eq]
  split
  case isTrue none => rw [if_neg (by omega)]
  case isFalse =>
    dsimp only
    refine if_congr ?_ rfl rfl
    constructor
    · exact fun ⟨reached, below, bound⟩ => ⟨below, reached, bound⟩
    · exact fun ⟨below, reached, bound⟩ => ⟨reached, below, bound⟩

variable [DecidableEq Thread] {thread : Thread} {id : Nat} {answers : Answers}
  {site next : Site Thread} {calls : List (Call Thread Task)} {task : ConnectionTask}

/-- The read branch of `HandleEvent` sends nothing and queues no notice. -/
theorem ReadEffect.outputs {revents : EventMask}
    (effect : ReadEffect thread id revents site next calls) :
    site.Outputs id task next calls := by
  have branch : Quiet (writeBranch id revents : List (Call Thread Task)) :=
    quiet_writeBranch revents
  cases effect with
  | skipped | again => exact .quiet (.inl rfl) le_rfl branch
  | message | endOfFile | error =>
      refine .quiet (.inl rfl) le_rfl ?_
      intro loop functor member
      rcases List.mem_cons.mp member with first | later
      · cases first
      · exact branch loop functor later

/-- Every task has one of these outputs. -/
theorem Effect.outputs (effect : Effect thread id answers site task next calls) :
    site.Outputs id task next calls := by
  cases effect with
  | @sendCompleted message state idle empty =>
      refine .completes [] ?_ (by simpa using empty) (by simp [ConnectionTask.messages]) ?_
        (by simp) quiet_nil
      · simp [ConnectionTask.sends, state, idle, Buffer.Valid.readableBytes_eq, empty]
      · simp [TcpConnection.stream, ConnectionTask.messages, empty]
  | @sendPartly message count state idle empty bound =>
      refine .buffers message rfl (.inr ?_) ?_
      · rw [appendRemaining_content]
        simp [bound]
      · exact appendRemaining_calls id (message.drop count)
          (((site.assertInLoopThread thread).accept message).sent (message.take count))
  | @sendBuffered message =>
      refine .buffers message rfl (.inl (by simp)) ?_
      exact appendRemaining_calls id message ((site.assertInLoopThread thread).accept message)
  | writePartly writing enough left =>
      exact .quiet (.inr (by simpa using left)) (by simp) quiet_nil
  | writeDrains writing enough empty =>
      refine .completes _ writing (by simpa using empty) (by simp [ConnectionTask.messages]) ?_
        rfl (by simp [Quiet])
      simp [TcpConnection.stream, ConnectionTask.messages]
  | sendSubmitted | forceCloseInLoop | writeDrained =>
      refine .quiet (.inl (by simp)) (by simp) ?_
      split <;> simp [Quiet]
  | forceCloseBegun | forceCloseLoaded =>
      exact .quiet (.inl (by simp)) (by simp) (by simp [Quiet, Task.isNotice])
  | eventReads _ reads | afterCloseEvent reads => exact reads.outputs
  | connectionEstablished =>
      exact .quiet (.inl (by simp [Site.connectionEstablished]))
        (by simp [Site.connectionEstablished]) (by simp [Quiet])
  | removeFromLoop => exact .quiet (.inl rfl) le_rfl quiet_nil
  | _ => exact .quiet (.inl (by simp)) (by simp) (by simp [Quiet])

/-- Write complete is queued in a step after which nothing was ever sent: it was the direct
`::send` of an empty message. -/
theorem Effect.sendsEmpty (effect : Effect thread id answers site task next calls) {loop : Thread}
    (queued : .queueInLoop loop (.connection id .writeCompleteCallback) ∈ calls)
    (waiting : site.connection.channel.isWriteEvent = true →
      site.connection.outputBuffer.content ≠ [])
    (none : next.connection.history.sent = []) :
    task = .sendInLoop [] ∧ task.sends site.connection = true := by
  cases effect.outputs with
  | quiet _ _ quiet => cases quiet _ _ queued
  | buffers _ _ _ crossing =>
      rw [crossing, TcpConnection.crossing] at queued
      split at queued <;> simp at queued
  | completes _ sends empty _ stream _ _ =>
      have nothing : site.connection.stream ++ task.messages.flatten = [] := by
        rw [← stream, TcpConnection.stream, none, empty, List.append_nil]
      obtain ⟨before, message⟩ := List.append_eq_nil_iff.mp nothing
      cases task with
      | sendInLoop message' =>
          obtain rfl : message' = [] := by simpa [ConnectionTask.messages] using message
          exact ⟨rfl, sends⟩
      | handleWrite => exact absurd (List.append_eq_nil_iff.mp before).2 (waiting sends)
      | _ => cases sends

/-- The direct `::send` of an empty message queues write complete if it returns no error. -/
theorem queues_of_sendInLoop_nil
    (sends : (ConnectionTask.sendInLoop []).sends site.connection = true)
    (executed : site.exec thread id answers (.sendInLoop []) = some (next, calls))
    (bound : site.connection.onWriteComplete = true) :
    (∃ loop, .queueInLoop loop (.connection id .writeCompleteCallback) ∈ calls) ↔
      answers.send.succeeds = true := by
  obtain ⟨⟨connected, idle⟩, empty⟩ : (site.connection.state = .connected ∧
      site.connection.channel.isWriteEvent = false) ∧
      site.connection.outputBuffer.buffer.readableBytes = 0 := by
    simpa [ConnectionTask.sends] using sends
  have direct : site.exec thread id answers (.sendInLoop []) =
      ((site.assertInLoopThread thread).accept []).sendDirectly id [] answers.send := by
    simp [exec, sendInLoop, connected, idle, empty]
  rw [direct] at executed
  unfold sendDirectly at executed
  split at executed
  case h_1 count errno answer =>
    rw [answer]
    split at executed
    case isTrue => cases executed
    case isFalse enough =>
      rw [if_pos (by simpa using enough)] at executed
      cases executed
      simp [queueWriteComplete, SendResult.succeeds, bound]
  case h_2 answer | h_3 answer =>
    cases executed
    simp [SendResult.succeeds, answer]
  case h_4 answer =>
    cases executed
    simp [SendResult.succeeds, answer]

/-- Bytes are only ever added to what was sent. -/
theorem Effect.sent_prefix (effect : Effect thread id answers site task next calls) :
    site.connection.history.sent <+: next.connection.history.sent := by
  cases effect with
  | sendCompleted | sendPartly | writePartly | writeDrains => simp
  | connectionEstablished => simp [Site.connectionEstablished]
  | removeFromLoop => exact List.prefix_refl _
  | eventReads _ reads | afterCloseEvent reads => cases reads <;> exact List.prefix_refl _
  | _ => simp

end Site

namespace World

section Guard

/-- The task is `send_in_loop` or `handle_write` of the connection. -/
def sendsFor (id : Nat) : Task → Bool
  | .connection other (.sendInLoop _) | .connection other .handleWrite => other == id
  | _ => false

/-- Where `send_in_loop` and `handle_write` run, both callbacks are bound and the mark is
this one. -/
def bothBound (id mark : Nat) (_ : Thread) (task : Task) (_ : Choice Thread)
    (world : World Thread) : Prop :=
  sendsFor id task = true → (world.connections id).onWriteComplete = true ∧
    (world.connections id).onHighWaterMark = true ∧ (world.connections id).highWaterMark = mark

instance (id mark : Nat) (thread : Thread) (task : Task) (choice : Choice Thread)
    (world : World Thread) : Decidable (bothBound id mark thread task choice world) :=
  inferInstanceAs (Decidable (_ → _))

end Guard

/-- What is kept of the output side of one connection: for every step that queued
`on_write_complete_` the number of bytes sent before and after it, and the number of empty
messages for which the direct `::send` returned no error. -/
structure Notices where
  completions : List (Nat × Nat) := []
  emptySends : Nat := 0
deriving DecidableEq, Repr

/-- How the record of a connection agrees with what it has sent: while everything that was
let through is sent, the step of the last byte is among those kept, and while nothing was
ever sent, the steps kept are the direct `::send`s of empty messages. -/
structure Notices.Agrees (record : Notices) (connection : TcpConnection Thread) : Prop where
  bound : ∀ step ∈ record.completions, step.2 ≤ connection.history.sent.length
  last : connection.history.accepted.flatten = connection.history.sent →
    connection.history.sent ≠ [] →
      ∃ step ∈ record.completions, step.2 = connection.history.sent.length ∧ step.1 < step.2
  empty : connection.history.sent = [] → (record.completions ≠ [] ↔ 0 < record.emptySends)

/-- A new connection has nothing to be recorded. -/
theorem Notices.Agrees.fresh {connection : TcpConnection Thread} (isFresh : connection.Fresh) :
    Notices.Agrees {} connection := by
  obtain ⟨loop, name, fd, onWriteComplete, rfl⟩ := isFresh
  constructor <;> simp

variable [DecidableEq Thread]

/-- The transition is a direct `::send` of an empty message that returned no error. -/
def sendsEmpty (id : Nat) (machine : Machine (World Thread) Thread Task)
    (label : Label Thread (Choice Thread)) : Bool :=
  match machine.executing label with
  | some (.connection other (.sendInLoop []), choice) => other = id ∧
      (ConnectionTask.sendInLoop []).sends (machine.client.connections id) = true ∧
      choice.answers.send.succeeds = true
  | _ => false

def noticesObserver (id : Nat) :
    Observer (Machine (World Thread) Thread Task) (Label Thread (Choice Thread)) Notices where
  blank := {}
  note machine label next record :=
    { completions :=
        if machine.Queues client label (.connection id .writeCompleteCallback) then
          record.completions ++ [((machine.client.connections id).history.sent.length,
            (next.client.connections id).history.sent.length)]
        else record.completions
      emptySends := record.emptySends + (sendsEmpty id machine label).toNat }

variable {machine next : Machine (World Thread) Thread Task} {id : Nat}
  {label : Label Thread (Choice Thread)}

/-- Only tasks of the connection itself queue its notices. -/
theorem Executes.notices {thread : Thread} {choice : Choice Thread} {world after : World Thread}
    {body : Task} {calls : List (Call Thread Task)} {loop : Thread} {callback : ConnectionTask}
    (executes : Executes thread choice world body after calls)
    (notice : (Task.connection id callback).isNotice = true)
    (queued : .queueInLoop loop (.connection id callback) ∈ calls) :
    ∃ task, body = .connection id task := by
  cases executes with
  | posts posted =>
      obtain ⟨_, rfl | rfl | rfl⟩ := posted <;> simp at queued
  | @connection other task site _ effect =>
      have carried : (loop, .connection id callback) ∈ Call.flights thread calls :=
        (Call.mem_flights thread).mpr ⟨_, queued, Multiset.mem_singleton_self _⟩
      rcases (effect.emitted _ carried).own with user | own
      · cases user
      · obtain rfl : id = other := by simpa [Task.about] using own
        exact ⟨task, rfl⟩
  | removeConnection =>
      obtain ⟨-, rfl, rfl⟩ : _ ∧ _ ∧ _ := by simpa using queued
      cases notice
  | _ => simp at queued

/-- A transition that executes no task of the connection is not kept. -/
theorem noticesObserver_note {record : Notices}
    (beside : ∀ task choice, machine.executing label ≠ some (.connection id task, choice)) :
    (noticesObserver id).note machine label next record = record := by
  have unqueued : ¬ machine.Queues client label (.connection id .writeCompleteCallback) := by
    rintro ⟨body, choice, state, calls, loop, executed, ran, queued⟩
    obtain ⟨task, rfl⟩ := (exec_executes ran).notices rfl queued
    exact beside task choice executed
  have other : sendsEmpty id machine label = false := by
    unfold sendsEmpty
    split
    case h_1 other choice executed =>
      refine decide_eq_false ?_
      rintro ⟨rfl, -⟩
      exact beside _ choice executed
    case h_2 => rfl
  simp [noticesObserver, unqueued, other]

section Step

variable [Fintype Thread] {guard : Thread → Task → Choice Thread → World Thread → Prop}

/-- What a transition can mean for the output side of a connection: it executes a task of
the connection, or it changes nothing there and queues no notice. -/
theorem step_outputs (reachable : system.Reachable (Machine.onExec guard) machine)
    (created : id < machine.client.created) (stepped : system.step machine label = some next) :
    (∃ task choice site calls, machine.executing label = some (.connection id task, choice) ∧
      (machine.client.site id).Effect label.thread id choice.answers task site calls ∧
      next.client.connections id = site.connection ∧
      ∀ functor, machine.Queues client label functor ↔ ∃ loop, .queueInLoop loop functor ∈ calls) ∨
    (machine.client.connections id).Untouched (next.client.connections id) ∧
      ∀ callback, (Task.connection id callback).isNotice = true →
        ¬ machine.Queues client label (.connection id callback) := by
  by_cases own : ∃ task choice, machine.executing label = some (.connection id task, choice)
  · left
    obtain ⟨task, choice, executed⟩ := own
    obtain ⟨stack, state, calls, -, ran, rfl⟩ := Machine.executing_step executed stepped
    obtain ⟨⟨site, made⟩, executes, result⟩ := Option.map_eq_some_iff.mp ran
    cases result
    refine ⟨task, choice, site, calls, executed, Site.exec_effect executes,
      setSite_connections_self site, fun functor => ⟨?_, fun ⟨loop, queued⟩ => ?_⟩⟩
    · rintro ⟨body, other, state, emitted, loop, same, again, queued⟩
      cases executed.symm.trans same
      cases ran.symm.trans again
      exact ⟨loop, queued⟩
    · exact ⟨_, choice, _, calls, loop, executed, ran, queued⟩
  · right
    refine ⟨?_, ?_⟩
    · refine step_lifecycle (machine.client.connections id).Untouched ?_ reachable created stepped
        ⟨_, _, _, _, _, _, fun _ member => .inl member, rfl⟩
      intro before connection after _ view
      cases view with
      | beside untouched => exact untouched
      | own admitted => exact absurd ⟨_, _, admitted.2⟩ own
    · rintro callback notice ⟨body, choice, state, calls, loop, executed, ran, queued⟩
      obtain ⟨task, rfl⟩ := (exec_executes ran).notices notice queued
      exact own ⟨task, choice, executed⟩

/-- `on_write_complete_` is queued when everything that was let through has been sent. -/
theorem sent_of_writeComplete (reachable : system.Reachable (Machine.onExec guard) machine)
    (created : id < machine.client.created) (stepped : system.step machine label = some next)
    (queues : machine.Queues client label (.connection id .writeCompleteCallback)) :
    (next.client.connections id).history.accepted.flatten =
      (next.client.connections id).history.sent := by
  rcases step_outputs reachable created stepped with
    ⟨task, choice, site, calls, executed, effect, result, queued⟩ | ⟨-, unqueued⟩
  · obtain ⟨loop, member⟩ := (queued _).mp queues
    rw [result]
    cases effect.outputs with
    | quiet _ _ quiet => cases quiet _ _ member
    | buffers _ _ _ crossing =>
        rw [crossing, TcpConnection.crossing] at member
        split at member <;> simp at member
    | completes rest sends empty accepted stream _ _ =>
        have inLoop := ConnectionTask.inLoop_of_sends sends
        have whole := (reachable_streaming reachable created).whole
          ((reachable_pending reachable created).open_of_sends sends)
          (executing_alone reachable created executed inLoop.1 inLoop.2)
        have after : site.connection.stream = site.connection.history.accepted.flatten := by
          rw [stream, accepted, List.flatten_append]
          exact congrArg (· ++ task.messages.flatten) whole
        rw [← after, TcpConnection.stream, empty, List.append_nil]
  · exact absurd queues (unqueued _ rfl)

/-- `on_high_water_mark_` is queued exactly where the output buffer reaches the mark. -/
theorem queues_highWaterMark_iff {mark : Nat}
    (reachable : system.Reachable (Machine.onExec guard) machine)
    (created : id < machine.client.created) (admitted : machine.onExec (bothBound id mark) label)
    (stepped : system.step machine label = some next) (size : Nat) :
    machine.Queues client label (.connection id (.highWaterMarkCallback size)) ↔
      ((machine.client.connections id).outputBuffer.content.length < mark ∧
        mark ≤ (next.client.connections id).outputBuffer.content.length) ∧
      size = (next.client.connections id).outputBuffer.content.length := by
  rcases step_outputs reachable created stepped with
    ⟨task, choice, site, calls, executed, effect, result, queued⟩ | ⟨untouched, unqueued⟩
  · rw [queued, result]
    cases effect.outputs with
    | quiet _ shorter quiet =>
        refine iff_of_false ?_ ?_
        · rintro ⟨loop, member⟩
          cases quiet _ _ member
        · rintro ⟨⟨below, reached⟩, -⟩
          have shorter : site.connection.outputBuffer.content.length ≤
            (machine.client.connections id).outputBuffer.content.length := shorter
          omega
    | buffers message caller _ crossing =>
        subst caller
        obtain ⟨-, bound, rfl⟩ := admitted _ executed (by simp [sendsFor])
        rw [crossing]
        exact TcpConnection.mem_crossing bound size
    | completes _ _ empty _ _ calls quiet =>
        refine iff_of_false ?_ ?_
        · rintro ⟨loop, member⟩
          rw [calls, List.mem_append] at member
          rcases member with completing | later
          · unfold Site.queueWriteComplete at completing
            split at completing <;> simp at completing
          · cases quiet _ _ later
        · rintro ⟨⟨below, reached⟩, -⟩
          rw [empty, List.length_nil] at reached
          omega
  · refine iff_of_false (unqueued _ rfl) ?_
    obtain ⟨_, _, _, _, _, _, -, same⟩ := untouched
    rintro ⟨⟨below, reached⟩, -⟩
    rw [same] at reached
    dsimp only at reached
    omega

/-- A transition that sends the last byte of all that was let through queues
`on_write_complete_`. -/
theorem queues_writeComplete {mark : Nat}
    (reachable : system.Reachable (Machine.onExec guard) machine)
    (created : id < machine.client.created) (admitted : machine.onExec (bothBound id mark) label)
    (stepped : system.step machine label = some next)
    (sends : (next.client.connections id).history.sent ≠
      (machine.client.connections id).history.sent)
    (empty : (next.client.connections id).outputBuffer.content = []) :
    machine.Queues client label (.connection id .writeCompleteCallback) := by
  rcases step_outputs reachable created stepped with
    ⟨task, choice, site, calls, executed, effect, result, queued⟩ | ⟨untouched, -⟩
  · rw [result] at sends empty
    cases effect.outputs with
    | quiet unfinished | buffers _ _ unfinished =>
        exact unfinished.elim (absurd · sends) (absurd empty)
    | completes rest calling _ _ _ calls _ =>
        have notifies : sendsFor id (.connection id task) = true := by
          cases task with
          | sendInLoop | handleWrite => simp [sendsFor]
          | _ => cases calling
        obtain ⟨bound, -, -⟩ := admitted _ executed notifies
        have bound : (machine.client.site id).connection.onWriteComplete = true := bound
        refine (queued _).mpr ⟨(machine.client.connections id).loop, ?_⟩
        rw [calls, Site.queueWriteComplete, if_pos bound]
        exact List.mem_append.mpr (.inl (List.mem_singleton_self _))
  · obtain ⟨_, _, _, _, _, _, -, same⟩ := untouched
    rw [same] at sends
    exact absurd rfl sends

/-- What was sent and what was let through only ever grow. -/
theorem step_grows (reachable : system.Reachable (Machine.onExec guard) machine)
    (created : id < machine.client.created) (stepped : system.step machine label = some next) :
    (machine.client.connections id).history.sent <+: (next.client.connections id).history.sent ∧
      (machine.client.connections id).history.accepted <+:
        (next.client.connections id).history.accepted := by
  rcases step_outputs reachable created stepped with
    ⟨task, choice, site, calls, -, effect, result, -⟩ | ⟨untouched, -⟩
  · rw [result]
    refine ⟨effect.sent_prefix, ?_⟩
    cases effect.streams with
    | kept accepted => rw [accepted]; exact List.prefix_refl _
    | extended _ _ _ accepted | dropped _ _ _ accepted =>
        rw [accepted]
        exact List.prefix_append _ _
  · obtain ⟨_, _, _, _, _, _, -, same⟩ := untouched
    rw [same]
    exact ⟨List.prefix_refl _, List.prefix_refl _⟩

/-- A connection comes into being as `new_connection` makes it. -/
theorem step_fresh (reachable : system.Reachable (Machine.onExec guard) machine)
    (missing : ¬ id < machine.client.created) (stepped : system.step machine label = some next)
    (created : id < next.client.created) : (next.client.connections id).Fresh := by
  cases Machine.guardedStep client_prompt reachable (Machine.onExec_executedBy label) stepped with
  | arrives same => exact absurd (same ▸ created) missing
  | executes _ _ _ executed =>
      have executes := exec_executes executed
      generalize next.client = world at executes created
      rcases executes.created with same | ⟨rfl, one⟩
      · omega
      · obtain rfl : id = machine.client.created := by omega
        cases executes with
        | newConnection =>
            rw [withNewConnection_connections_new]
            exact ⟨_, _, _, _, rfl⟩

/-- While nothing was ever sent, write complete is queued exactly by the direct `::send`s of
empty messages. -/
theorem queues_iff_sendsEmpty {mark : Nat}
    (reachable : system.Reachable (Machine.onExec guard) machine)
    (created : id < machine.client.created) (admitted : machine.onExec (bothBound id mark) label)
    (stepped : system.step machine label = some next)
    (none : (next.client.connections id).history.sent = []) :
    machine.Queues client label (.connection id .writeCompleteCallback) ↔
      sendsEmpty id machine label = true := by
  constructor
  · rintro ⟨body, choice, state, calls, loop, executed, ran, queued⟩
    obtain ⟨task, rfl⟩ := (exec_executes ran).notices rfl queued
    obtain ⟨_, state, calls, -, again, rfl⟩ := Machine.executing_step executed stepped
    cases ran.symm.trans again
    obtain ⟨⟨site, made⟩, executes, result⟩ := Option.map_eq_some_iff.mp ran
    cases result
    have effect := Site.exec_effect executes
    have pending := reachable_pending reachable created
    have writing : (machine.client.connections id).channel.isWriteEvent = true →
        (machine.client.connections id).outputBuffer.content ≠ [] := by
      intro event
      refine (pending.waiting fun closed => ?_).mp event
      simp [pending.closed closed] at event
    have none : site.connection.history.sent = [] :=
      (congrArg (·.history.sent) (setSite_connections_self site)).symm.trans none
    obtain ⟨rfl, sends⟩ := effect.sendsEmpty queued writing none
    obtain ⟨bound, -, -⟩ := admitted _ executed (by simp [sendsFor])
    have succeeds := (Site.queues_of_sendInLoop_nil sends executes bound).mp ⟨loop, queued⟩
    have sends : (ConnectionTask.sendInLoop []).sends (machine.client.connections id) = true := sends
    simp [sendsEmpty, executed, sends, succeeds]
  · intro empty
    unfold sendsEmpty at empty
    split at empty
    case h_1 other choice executed =>
      obtain ⟨rfl, sends, succeeds⟩ := of_decide_eq_true empty
      obtain ⟨_, state, calls, -, ran, -⟩ := Machine.executing_step executed stepped
      obtain ⟨⟨site, made⟩, executes, result⟩ := Option.map_eq_some_iff.mp ran
      cases result
      obtain ⟨bound, -, -⟩ := admitted _ executed (by simp [sendsFor])
      obtain ⟨loop, queued⟩ := (Site.queues_of_sendInLoop_nil sends executes bound).mpr succeeds
      exact ⟨_, choice, _, calls, loop, executed, ran, queued⟩
    case h_2 => cases empty

end Step

variable [Fintype Thread] {mark : Nat}

/-- The last byte is announced by the step that sends it, and remains so until there is
another one. -/
theorem last_step {record : Notices}
    (reachable : system.Reachable (Machine.onExec (bothBound id mark)) machine)
    (created : id < machine.client.created)
    (agrees : record.Agrees (machine.client.connections id))
    (admitted : machine.onExec (bothBound id mark) label)
    (stepped : system.step machine label = some next)
    (createdNext : id < next.client.created)
    (complete : (next.client.connections id).history.accepted.flatten =
      (next.client.connections id).history.sent)
    (some : (next.client.connections id).history.sent ≠ []) :
    ∃ step ∈ ((noticesObserver id).note machine label next record).completions,
      step.2 = (next.client.connections id).history.sent.length ∧ step.1 < step.2 := by
  obtain ⟨sentGrows, acceptedGrows⟩ := step_grows reachable created stepped
  by_cases same : (next.client.connections id).history.sent =
      (machine.client.connections id).history.sent
  · -- nothing was sent, so at most empty messages were let through
    obtain ⟨messages, accepted⟩ := acceptedGrows
    have streaming := (reachable_streaming reachable created).initial
    have within := (List.prefix_append _ _).trans streaming
    rw [same, ← accepted, List.flatten_append] at complete
    have lengths := congrArg List.length complete
    rw [List.length_append] at lengths
    have before := within.eq_of_length_le (by omega)
    obtain ⟨step, kept, last, longer⟩ := agrees.last before.symm (same ▸ some)
    refine ⟨step, ?_, same ▸ last, longer⟩
    simp only [noticesObserver]
    split
    · exact List.mem_append.mpr (.inl kept)
    · exact kept
  · have empty : (next.client.connections id).outputBuffer.content = [] := by
      have streaming := (reachable_streaming (reachable.step admitted stepped) createdNext).initial
      rw [complete, TcpConnection.stream] at streaming
      have bound := streaming.length_le
      rw [List.length_append] at bound
      exact List.length_eq_zero_iff.mp (by omega)
    have longer := sentGrows.length_le.lt_of_ne fun lengths => same
      (sentGrows.eq_of_length lengths).symm
    have queues := queues_writeComplete reachable created admitted stepped same empty
    refine ⟨(_, _), ?_, rfl, longer⟩
    simp only [noticesObserver, if_pos queues]
    exact List.mem_append.mpr (.inr (List.mem_singleton_self _))

/-- Every transition keeps the record in agreement with the connection. -/
theorem Notices.Agrees.step {record : Notices}
    (reachable : system.Reachable (Machine.onExec (bothBound id mark)) machine)
    (created : id < machine.client.created)
    (agrees : record.Agrees (machine.client.connections id))
    (admitted : machine.onExec (bothBound id mark) label)
    (stepped : system.step machine label = some next)
    (createdNext : id < next.client.created) :
    ((noticesObserver id).note machine label next record).Agrees
      (next.client.connections id) := by
  have grows := (step_grows reachable created stepped).1
  refine ⟨fun step kept => ?_, last_step reachable created agrees admitted stepped createdNext,
    fun none => ?_⟩
  · have either : step ∈ record.completions ∨
        step.2 = (next.client.connections id).history.sent.length := by
      simp only [noticesObserver] at kept
      split at kept
      · rcases List.mem_append.mp kept with old | new
        · exact .inl old
        · exact .inr (List.mem_singleton.mp new ▸ rfl)
      · exact .inl kept
    rcases either with old | last
    · exact (agrees.bound step old).trans grows.length_le
    · exact last.le
  · have agreed := agrees.empty (List.prefix_nil.mp (none ▸ grows))
    have queues := queues_iff_sendsEmpty reachable created admitted stepped none
    simp only [noticesObserver]
    split
    case isTrue queued => simp [queues.mp queued]
    case isFalse unqueued =>
      rw [Bool.eq_false_iff.mpr (mt queues.mpr unqueued)]
      exact agreed

/-- The record agrees in every run, and is blank until the connection exists. -/
theorem reachable_notices {record : Notices}
    (reachable : (system.observed (noticesObserver id)).Reachable
      (LabelledSystem.beside (Machine.onExec (bothBound id mark))) (machine, record)) :
    system.Reachable (Machine.onExec (bothBound id mark)) machine ∧
      (id < machine.client.created → record.Agrees (machine.client.connections id)) ∧
      (¬ id < machine.client.created → record = {}) := by
  refine LabelledSystem.Reachable.observed_invariant (fun machine (record : Notices) =>
    (id < machine.client.created → record.Agrees (machine.client.connections id)) ∧
      (¬ id < machine.client.created → record = {})) ?_ ?_ reachable
  · rintro _ ⟨_, ⟨loop, name, listenAddr, writeCompleteCb, rfl⟩, rfl⟩
    exact ⟨fun created => absurd created (Nat.not_lt_zero _), fun _ => rfl⟩
  · rintro machine label next record reached ⟨agrees, blank⟩ admitted stepped
    by_cases created : id < machine.client.created
    · have later := guardedStep_created (Machine.guardedStep client_prompt reached
        (Machine.onExec_executedBy label) stepped)
      exact ⟨(agrees created).step reached created admitted stepped,
        fun missing => absurd (created.trans_le later) missing⟩
    · have unkept : (noticesObserver id).note machine label next record = record :=
        noticesObserver_note fun task choice executed => created
          ((reachable_noneBefore reached).exists (Machine.executing_mem_flight executed)
            (by simp [Task.about]))
      rw [unkept, blank created]
      exact ⟨fun createdNext => .fresh (step_fresh reached created stepped createdNext),
        fun _ => rfl⟩

/-- The notices of the output side, in every run in which both callbacks are bound and the
mark is fixed wherever `send_in_loop` and `handle_write` of the connection run, and for
every result of `::send`. A step that queues `on_write_complete_` leaves nothing unsent of
what was let through; a step queues `on_high_water_mark_` if and only if in it the
readable bytes of the output buffer rise from below the mark to the mark or above, with
their new number. When a message was let through and everything that was let through is
sent, a past step has queued `on_write_complete_` with the last byte sent in it (with
nothing to send, if there never was a byte) if and only if there was a byte, or the direct
`::send` of an empty message returned no error. -/
theorem output_notices_exact_iff {record : Notices}
    (reachable : (system.observed (noticesObserver id)).Reachable
      (LabelledSystem.beside (Machine.onExec (bothBound id mark))) (machine, record))
    (created : id < machine.client.created) :
    (∀ label next, machine.onExec (bothBound id mark) label →
      system.step machine label = some next →
      (machine.Queues client label (.connection id .writeCompleteCallback) →
        (next.client.connections id).history.accepted.flatten =
          (next.client.connections id).history.sent) ∧
      ∀ size, machine.Queues client label (.connection id (.highWaterMarkCallback size)) ↔
        ((machine.client.connections id).outputBuffer.buffer.readableBytes < mark ∧
          mark ≤ (next.client.connections id).outputBuffer.buffer.readableBytes) ∧
        size = (next.client.connections id).outputBuffer.buffer.readableBytes) ∧
    ((machine.client.connections id).history.accepted.flatten =
        (machine.client.connections id).history.sent →
      (machine.client.connections id).history.accepted ≠ [] →
      ((∃ step ∈ record.completions,
          step.2 = (machine.client.connections id).history.sent.length ∧
          ((machine.client.connections id).history.sent ≠ [] → step.1 < step.2)) ↔
        (machine.client.connections id).history.accepted.flatten ≠ [] ∨
          0 < record.emptySends)) := by
  obtain ⟨reached, agreement, -⟩ := reachable_notices reachable
  have agrees := agreement created
  refine ⟨fun label next admitted stepped => ⟨?_, fun size => ?_⟩, fun complete _ => ⟨?_, ?_⟩⟩
  · exact sent_of_writeComplete reached created stepped
  · rw [Buffer.Valid.readableBytes_eq, Buffer.Valid.readableBytes_eq]
    exact queues_highWaterMark_iff reached created admitted stepped size
  · rintro ⟨step, kept, -, -⟩
    by_cases none : (machine.client.connections id).history.sent = []
    · exact .inr ((agrees.empty none).mp (List.ne_nil_of_mem kept))
    · exact .inl (complete ▸ none)
  · intro announced
    by_cases none : (machine.client.connections id).history.sent = []
    · have empty := announced.resolve_left (not_not.mpr (complete.trans none))
      obtain ⟨step, kept⟩ := List.exists_mem_of_ne_nil _ ((agrees.empty none).mpr empty)
      have bound := agrees.bound step kept
      rw [none, List.length_nil] at bound
      exact ⟨step, kept, by rw [none]; exact Nat.le_zero.mp bound, fun some => absurd none some⟩
    · obtain ⟨step, kept, last, longer⟩ := agrees.last complete none
      exact ⟨step, kept, last, fun _ => longer⟩

section Schedules

/-- User code on loop `0` binds both callbacks of the connection, with the mark `2`. -/
def bindsBoth : List (Label TwoThreads (Choice TwoThreads)) :=
  userTurn ++ [turn 0 { action := .bindWriteCompleteCallback 0 true },
    turn 0 { action := .bindHighWaterMarkCallback 0 2 true }]

/-- Three bytes are sent: one at once and the other two by `handle_write`. -/
def sendsAll : List (Label TwoThreads (Choice TwoThreads)) :=
  bindsBoth ++ [turn 0 { action := .call 0 (.send [1, 2, 3]) }] ++ turns 0 1 ++
    [turn 0 { answers := { send := .wrote 1 .other } }] ++ turns 0 9 ++
    nextPoll [.channel (.connection 0 (.handleEvent epollOut))] ++ turns 0 1 ++
    [turn 0 { answers := { send := .wrote 2 .other } }]

/-- Three bytes are let through and sent, and the step that sends the last queues write-complete. -/
theorem output_notices_exact_sendsAll :
    ∃ (machine : Machine (World TwoThreads) TwoThreads Task) (record : Notices),
      (machine.client.connections 0).history.accepted = [[1, 2, 3]] ∧
      (machine.client.connections 0).history.sent = [1, 2, 3] ∧
      ∃ step ∈ record.completions, step.2 = 3 ∧ step.1 < step.2 := by
  let observation := ((system.observed (noticesObserver 0)).run
    (LabelledSystem.beside (Machine.onExec (bothBound 0 2))) (serverOnZero, {}) sendsAll).get
    (by decide +kernel)
  have reachable : (system.observed (noticesObserver 0)).Reachable
      (LabelledSystem.beside (Machine.onExec (bothBound 0 2))) observation :=
    LabelledSystem.run_reachable ⟨serverOnZero_initial, rfl⟩ (Option.some_get _).symm
  have created : 0 < observation.1.client.created := by decide +kernel
  have accepted : (observation.1.client.connections 0).history.accepted = [[1, 2, 3]] := by
    decide +kernel
  have sent : (observation.1.client.connections 0).history.sent = [1, 2, 3] := by decide +kernel
  clear_value observation
  obtain ⟨machine, record⟩ := observation
  dsimp only at created accepted sent
  obtain ⟨-, announced⟩ := output_notices_exact_iff reachable created
  obtain ⟨step, kept, last, longer⟩ := (announced (by simp [accepted, sent])
    (by simp [accepted])).mpr (.inl (by simp [accepted]))
  exact ⟨machine, record, accepted, sent, step, kept, by simpa [sent] using last,
    longer (by simp [sent])⟩

/-- An empty message is sent, and the direct `::send` fails with `EAGAIN`. -/
def sendsNothing : List (Label TwoThreads (Choice TwoThreads)) :=
  bindsBoth ++ [turn 0 { action := .call 0 (.send []) }] ++ turns 0 1 ++
    [turn 0 { answers := { send := .failed .eagain } }]

/-- Then the message has been let through, nothing is left to send, the connection is
open, no step has queued write complete, and nothing was ever queued in any loop or is about
to be. -/
theorem write_complete_missed :
    ∃ (machine : Machine (World TwoThreads) TwoThreads Task) (record : Notices),
      (system.observed (noticesObserver 0)).Reachable
        (LabelledSystem.beside (Machine.onExec (bothBound 0 2))) (machine, record) ∧
      0 < machine.client.created ∧
      (machine.client.connections 0).state = .connected ∧
      (machine.client.connections 0).history.accepted = [[]] ∧
      (machine.client.connections 0).history.sent = [] ∧
      record.completions = [] ∧
      (∀ poster loop, machine.posted poster loop = []) ∧
      ∀ thread, machine.calls thread = [] ∨ machine.calls thread = [.task .user] := by
  let observation := ((system.observed (noticesObserver 0)).run
    (LabelledSystem.beside (Machine.onExec (bothBound 0 2))) (serverOnZero, {}) sendsNothing).get
    (by decide +kernel)
  have reachable : (system.observed (noticesObserver 0)).Reachable
      (LabelledSystem.beside (Machine.onExec (bothBound 0 2))) observation :=
    LabelledSystem.run_reachable ⟨serverOnZero_initial, rfl⟩ (Option.some_get _).symm
  exact ⟨observation.1, observation.2, reachable, by decide +kernel, by decide +kernel,
    by decide +kernel, by decide +kernel, by decide +kernel, by decide +kernel, by decide +kernel⟩

end Schedules

end World

end Benet
