import Benet.Semantics.Observation
import Benet.Server.Notification

/-!
# The input stream

Bytes come into a connection by `ReadFd` in `handle_read` and leave it when user code
retrieves them from the input buffer. An observer of the run writes down both. What was
received is what was retrieved followed by what is still in the buffer, whatever the layout of
the buffer, and user code was called once for every time something was received
(`World.input_arrives_in_order`). `on_message_` passes the buffer itself; user code is assumed
to do nothing with it but retrieve.
-/

namespace Benet

open EventLoop Semantics

/-- The bytes that `readv` has put into its blocks. -/
def ReadResult.bytes : ReadResult → List UInt8
  | .received bytes => bytes
  | .failed _ => []

/-- The bytes that `ReadFd` delivers to the task. -/
def ConnectionTask.delivered (task : ConnectionTask) (result : ReadResult) : List UInt8 :=
  if task.reads then result.bytes else []

variable {Thread : Type}

/-- Only an executed task changes the state of the client. -/
theorem EventLoop.Machine.client_of_not_executing {State Task Choice : Type} [DecidableEq Thread]
    {client : Client State Thread Task Choice} {machine next : Machine State Thread Task}
    {label : Label Thread Choice} (stepped : machine.step client label = some next)
    (none : machine.executing label = none) : next.client = machine.client := by
  cases step_transition stepped with
  | exec outside top => simp [executing, outside, top] at none
  | _ => rfl

/-- The calls of `on_message_`. -/
def TcpConnection.messageCalls (connection : TcpConnection Thread) : Nat :=
  connection.history.notifications.count .message

variable [DecidableEq Thread]

namespace Site

variable {thread : Thread} {id : Nat} {answers : Answers} {site next : Site Thread}
  {calls : List (Call Thread Task)} {task : ConnectionTask}

/-- What a task puts into the input buffer, and how often it calls `on_message_`. -/
structure Fills (delivered : List UInt8) (before after : TcpConnection Thread) : Prop where
  content : after.inputBuffer.content = before.inputBuffer.content ++ delivered
  messages : after.messageCalls = before.messageCalls + if delivered = [] then 0 else 1

omit [DecidableEq Thread] in
/-- A task that leaves the input buffer alone delivers nothing. -/
theorem Fills.nothing {before after : TcpConnection Thread}
    (input : after.inputBuffer = before.inputBuffer)
    (messages : after.messageCalls = before.messageCalls) : Fills [] before after := by
  refine ⟨?_, ?_⟩
  · rw [input, List.append_nil]
  · rw [messages, if_pos rfl, Nat.add_zero]

private theorem handleRead_fills {result : ReadResult}
    (executed : site.handleRead thread id result = some (next, calls)) :
    Fills result.bytes site.connection next.connection := by
  unfold handleRead at executed
  dsimp only at executed
  split at executed
  case h_1 bytes =>
    split at executed
    case isTrue => cases executed
    case isFalse =>
      refine ⟨?_, ?_⟩
      · split at executed <;> cases executed <;> exact Buffer.Valid.content_readFd _ _
      · split at executed
        case isTrue some =>
          have received : (ReadResult.received bytes).bytes ≠ [] := List.length_pos_iff.mp some
          cases executed
          rw [if_neg received]
          exact List.count_append
        case isFalse none =>
          have received : (ReadResult.received bytes).bytes = [] := by
            simpa [ReadResult.bytes] using none
          cases executed
          rw [if_pos received]
          rfl
  case h_2 | h_3 | h_4 =>
    cases executed
    exact .nothing rfl rfl

private theorem afterCloseEvent_fills {revents : EventMask} {result : ReadResult}
    (executed : site.afterCloseEvent thread id revents result = some (next, calls)) :
    Fills (if readsOn revents then result.bytes else []) site.connection next.connection := by
  unfold afterCloseEvent at executed
  split at executed
  case isTrue reads =>
    obtain ⟨⟨read, made⟩, handled, result⟩ := Option.map_eq_some_iff.mp executed
    cases result
    rw [if_pos reads]
    exact handleRead_fills handled
  case isFalse skips =>
    cases executed
    rw [if_neg skips]
    exact .nothing rfl rfl

omit [DecidableEq Thread] in
private theorem appendRemaining_inputBuffer (remaining : List UInt8) :
    (site.appendRemaining id remaining).1.connection.inputBuffer = site.connection.inputBuffer := by
  obtain ⟨_, _, -, same⟩ := site.appendRemaining_connection id remaining
  rw [same]

/-- Only `handle_read` touches the input buffer and calls `on_message_`. -/
theorem Effect.fills_nothing (effect : Effect thread id answers site task next calls)
    (event : ∀ revents, task ≠ .handleEvent revents)
    (rest : ∀ revents, task ≠ .afterCloseEvent revents) :
    Fills [] site.connection next.connection := by
  refine .nothing ?_ ?_
  · cases effect with
    | eventReads | eventCloses => exact absurd rfl (event _)
    | afterCloseEvent => exact absurd rfl (rest _)
    | shutdownInLoop | shutdownDrained => simp
    | sendPartly | sendBuffered => simp [appendRemaining_inputBuffer]
    | connectionEstablished => simp [Site.connectionEstablished]
    | removeFromLoop => rfl
    | _ => simp
  · have quiet : task.reads = false := by
      cases task with
      | handleEvent => exact absurd rfl (event _)
      | afterCloseEvent => exact absurd rfl (rest _)
      | _ => rfl
    unfold TcpConnection.messageCalls
    cases effect.reports with
    | nothing _ same => rw [same]
    | up _ _ added | down _ _ added => simp [added]
    | message caller => simp [quiet] at caller

/-- Every task delivers what the record says. -/
theorem exec_fills (executed : site.exec thread id answers task = some (next, calls)) :
    Fills (task.delivered answers.read) site.connection next.connection := by
  cases task with
  | afterCloseEvent revents => exact afterCloseEvent_fills executed
  | handleEvent revents =>
      simp only [exec, handleEvent] at executed
      split at executed
      case isTrue closes =>
        cases executed
        have nothing : (ConnectionTask.handleEvent revents).delivered answers.read = [] := by
          simp [ConnectionTask.delivered, ConnectionTask.reads, closes]
        rw [nothing]
        exact .nothing rfl rfl
      case isFalse reads =>
        have same : (ConnectionTask.handleEvent revents).delivered answers.read =
            if readsOn revents then answers.read.bytes else [] := by
          simp [ConnectionTask.delivered, ConnectionTask.reads, reads]
        rw [same]
        exact afterCloseEvent_fills executed
  | _ => exact (exec_effect executed).fills_nothing (by simp) (by simp)

end Site

namespace World

/-- What an observer writes down for each connection: the bytes of every read that has
delivered some, and those that user code has retrieved. -/
structure InputRecord where
  messages : Nat → List (List UInt8) := fun _ => []
  retrieved : Nat → List UInt8 := fun _ => []

/-- `ReadFd` has delivered bytes, and `on_message_` is called for them. -/
def InputRecord.deliver (id : Nat) (bytes : List UInt8) (record : InputRecord) : InputRecord :=
  if bytes = [] then record
  else { record with messages := Function.update record.messages id (record.messages id ++ [bytes]) }

/-- User code has retrieved bytes. -/
def InputRecord.retrieve (id : Nat) (bytes : List UInt8) (record : InputRecord) : InputRecord :=
  { record with retrieved := Function.update record.retrieved id (record.retrieved id ++ bytes) }

/-- Write down what a step does to the input buffer of a connection. -/
def noteInput (machine : Machine (World Thread) Thread Task) (label : Label Thread (Choice Thread))
    (record : InputRecord) : InputRecord :=
  match machine.executing label with
  | some (.connection id task, choice) => record.deliver id (task.delivered choice.answers.read)
  | some (.user, choice) =>
      match choice.action with
      | .retrieveInput id len =>
          record.retrieve id ((machine.client.connections id).inputBuffer.content.take len)
      | _ => record
  | _ => record

/-- The observer of the input buffers. -/
def inputObserver : Observer (Machine (World Thread) Thread Task) (Label Thread (Choice Thread))
    InputRecord where
  blank := {}
  note machine label _ record := noteInput machine label record

/-- What the record says of a connection. -/
structure InputRecord.Matches (record : InputRecord) (id : Nat) (connection : TcpConnection Thread) :
    Prop where
  stream : (record.messages id).flatten = record.retrieved id ++ connection.inputBuffer.content
  calls : (record.messages id).length = connection.messageCalls
  filled : [] ∉ record.messages id

namespace InputRecord

variable {record : InputRecord} {id other : Nat} {bytes : List UInt8}
  {before after : TcpConnection Thread}

omit [DecidableEq Thread] in
/-- The record depends on the content of the buffer and the calls of `on_message_`. -/
theorem Matches.congr (agrees : record.Matches id before)
    (content : after.inputBuffer.content = before.inputBuffer.content)
    (calls : after.messageCalls = before.messageCalls) : record.Matches id after :=
  ⟨content ▸ agrees.stream, calls ▸ agrees.calls, agrees.filled⟩

omit [DecidableEq Thread] in
/-- A delivery is recorded. -/
theorem Matches.deliver (agrees : record.Matches id before) (fills : Site.Fills bytes before after) :
    (record.deliver id bytes).Matches id after := by
  unfold InputRecord.deliver
  split
  case isTrue none =>
    refine agrees.congr ?_ ?_
    · rw [fills.content, none, List.append_nil]
    · rw [fills.messages, if_pos none, Nat.add_zero]
  case isFalse some =>
    refine ⟨?_, ?_, ?_⟩
    · simp [agrees.stream, fills.content]
    · simp [agrees.calls, fills.messages, some]
    · simpa [agrees.filled] using Ne.symm some

omit [DecidableEq Thread] in
/-- Bytes that user code has retrieved are recorded. -/
theorem Matches.retrieve {len : Nat} (agrees : record.Matches id before)
    (content : after.inputBuffer.content = before.inputBuffer.content.drop len)
    (calls : after.messageCalls = before.messageCalls) :
    (record.retrieve id (before.inputBuffer.content.take len)).Matches id after := by
  refine ⟨?_, calls ▸ agrees.calls, agrees.filled⟩
  simp [InputRecord.retrieve, agrees.stream, content]

omit [DecidableEq Thread] in
/-- The record of other connections is not touched by a delivery. -/
theorem Matches.deliver_other (agrees : record.Matches other before) (different : other ≠ id) :
    (record.deliver id bytes).Matches other before := by
  unfold InputRecord.deliver
  split
  · exact agrees
  · refine ⟨?_, ?_, ?_⟩ <;> simp [different, agrees.stream, agrees.calls, agrees.filled]

omit [DecidableEq Thread] in
/-- The record of other connections is not touched by a retrieval. -/
theorem Matches.retrieve_other (agrees : record.Matches other before) (different : other ≠ id) :
    (record.retrieve id bytes).Matches other before := by
  refine ⟨?_, ?_, ?_⟩ <;>
    simp [InputRecord.retrieve, different, agrees.stream, agrees.calls, agrees.filled]

end InputRecord

section Runs

variable [Fintype Thread] {guard : Thread → Task → Choice Thread → World Thread → Prop}
  {machine next : Machine (World Thread) Thread Task} {record : InputRecord}
  {label : Label Thread (Choice Thread)}

/-- The record agrees with every connection, and there is none of connections still to come. -/
structure InputRecord.Sound (record : InputRecord) (world : World Thread) : Prop where
  agrees : ∀ id, record.Matches id (world.connections id)
  future : ∀ id, world.created ≤ id → record.messages id = [] ∧ record.retrieved id = []

namespace InputRecord.Sound

variable {world after : World Thread} {thread : Thread} {choice : Choice Thread}
  {calls : List (Call Thread Task)}

omit [DecidableEq Thread] [Fintype Thread] in
/-- Steps that leave the input buffers alone. -/
theorem congr (sound : record.Sound world) (created : world.created ≤ after.created)
    (content : ∀ id, (after.connections id).inputBuffer.content =
      (world.connections id).inputBuffer.content)
    (calls : ∀ id, (after.connections id).messageCalls = (world.connections id).messageCalls) :
    record.Sound after :=
  ⟨fun id => (sound.agrees id).congr (content id) (calls id),
    fun id future => sound.future id (created.trans future)⟩

omit [Fintype Thread] in
/-- User code retrieves input, or leaves the input buffers alone. -/
theorem act (sound : record.Sound machine.client)
    (executed : machine.executing label = some (.user, choice))
    (ran : machine.client.act label.thread choice.action = some (after, calls)) :
    (noteInput machine label record).Sound after := by
  cases action : choice.action with
  | retrieveInput id len =>
      simp only [noteInput, executed, action]
      simp only [World.act, action] at ran
      split at ran
      case isTrue enough =>
        split at ran
        case isTrue =>
          cases ran
          refine ⟨fun other => ?_, fun other future => ?_⟩
          · by_cases same : other = id
            · subst same
              rw [modifyConnection_connections_self]
              exact (sound.agrees other).retrieve (Buffer.Valid.content_retrieve _ _ enough) rfl
            · rw [modifyConnection_connections_other same]
              exact (sound.agrees other).retrieve_other same
          · obtain ⟨messages, retrieved⟩ := sound.future other future
            refine ⟨messages, ?_⟩
            by_cases same : other = id
            · subst same
              have empty : (machine.client.connections other).inputBuffer.content = [] := by
                simpa [messages, retrieved] using (sound.agrees other).stream.symm
              simp [InputRecord.retrieve, retrieved, empty]
            · simp [InputRecord.retrieve, same, retrieved]
        case isFalse => cases ran
      case isFalse => cases ran
  | leave | runInLoop | queueInLoop | stop =>
      simp only [noteInput, executed, action]
      rw [action] at ran
      cases ran
      exact sound
  | call | destroyServer =>
      simp only [noteInput, executed, action]
      simp only [World.act, action] at ran
      split at ran <;> cases ran
      exact sound
  | bindWriteCompleteCallback | bindHighWaterMarkCallback =>
      simp only [noteInput, executed, action]
      rw [action] at ran
      cases ran
      exact sound.congr le_rfl (modifyConnection_frame (·.inputBuffer.content) rfl)
        (modifyConnection_frame TcpConnection.messageCalls rfl)

omit [Fintype Thread] in
/-- A function of a connection fills its input buffer, or leaves the input buffers alone. -/
theorem connection {id : Nat} {task : ConnectionTask} {site : Site Thread}
    (sound : record.Sound world) (created : id < world.created)
    (ran : (world.site id).exec thread id choice.answers task = some (site, calls)) :
    (record.deliver id (task.delivered choice.answers.read)).Sound (world.setSite id site) := by
  refine ⟨fun other => ?_, fun other future => ?_⟩
  · by_cases same : other = id
    · subst same
      rw [setSite_connections_self]
      exact (sound.agrees other).deliver (Site.exec_fills ran)
    · rw [setSite_connections_other same]
      exact (sound.agrees other).deliver_other same
  · have different : other ≠ id := by
      have later : world.created ≤ other := future
      omega
    unfold InputRecord.deliver
    split
    · exact sound.future other future
    · simpa [different] using sound.future other future

omit [Fintype Thread] in
/-- The functions of the server leave the input buffers alone, and a new connection has an empty
one. -/
theorem server {task : Task} (sound : record.Sound world)
    (executes : Executes thread choice world task after calls) (notUser : task ≠ .user)
    (notConnection : ∀ id own, task ≠ .connection id own) : record.Sound after := by
  cases executes with
  | leaves | calls | posts | tunes | destroys => exact absurd rfl notUser
  | connection => exact absurd rfl (notConnection _ _)
  | newConnection =>
      refine ⟨fun id => ?_, fun id future => sound.future id (Nat.le_of_succ_le future)⟩
      by_cases new : id = world.created
      · subst new
        obtain ⟨messages, retrieved⟩ := sound.future _ le_rfl
        rw [withNewConnection_connections_new]
        exact ⟨by simp [messages, retrieved], by simp [messages, TcpConnection.messageCalls],
          by simp [messages]⟩
      · simpa [World.withNewConnection, new] using sound.agrees id
  | onClose | onCloseDead | removeDead | destroyServer =>
      exact sound.congr le_rfl (fun _ => rfl) fun _ => rfl
  | removeConnection =>
      exact sound.congr le_rfl
        (withoutConnection_frame (·.inputBuffer.content) fun _ _ _ => rfl)
        (withoutConnection_frame TcpConnection.messageCalls fun _ _ _ => rfl)

end InputRecord.Sound

/-- Executing a task keeps the record sound. -/
theorem InputRecord.Sound.executing (sound : record.Sound machine.client) {body : Task}
    {choice : Choice Thread} (reachable : system.Reachable (Machine.onExec guard) machine)
    (executed : machine.executing label = some (body, choice))
    (stepped : system.step machine label = some next) :
    (noteInput machine label record).Sound next.client := by
  obtain ⟨calls, ran⟩ := Machine.executing_exec executed stepped
  have executes : Executes label.thread choice machine.client body next.client calls :=
    exec_executes ran
  have others : body ≠ .user → (∀ id task, body ≠ .connection id task) →
      noteInput machine label record = record := by
    intro notUser notConnection
    unfold noteInput
    split
    · exact absurd (congrArg Prod.fst (Option.some.inj (executed.symm.trans ‹_›))) (notConnection _ _)
    · exact absurd (congrArg Prod.fst (Option.some.inj (executed.symm.trans ‹_›))) notUser
    · rfl
  cases body with
  | connection id task =>
      have created : id < machine.client.created :=
        (reachable_noneBefore reachable).exists (Machine.executing_mem_flight executed)
          (by simp [Task.about])
      obtain ⟨⟨site, made⟩, inSite, result⟩ := Option.map_eq_some_iff.mp ran
      simp only [noteInput, executed]
      rw [← (Prod.mk.inj result).1]
      exact sound.connection created inSite
  | user => exact sound.act executed ran
  | newConnection | onClose | removeConnection | destroyServer =>
      rw [others (by simp) (by simp)]
      exact sound.server executes (by simp) (by simp)

/-- The input of a connection, in every run of any program: the bytes that `ReadFd` has
delivered, in the order of the reads, are those that user code has retrieved followed by those
that are in the input buffer; and `on_message_` was called once for every read that has
delivered something. -/
theorem input_arrives_in_order
    (reachable : (system.observed inputObserver).Reachable
      (LabelledSystem.beside LabelledSystem.unguarded) (machine, record)) (id : Nat) :
    (record.messages id).flatten =
        record.retrieved id ++ (machine.client.connections id).inputBuffer.content ∧
      (machine.client.connections id).messageCalls = (record.messages id).length ∧
      [] ∉ record.messages id := by
  have sound : record.Sound machine.client := by
    refine (LabelledSystem.Reachable.observed_invariant
      (fun machine (record : InputRecord) => record.Sound machine.client) ?_ ?_ reachable).2
    · rintro _ ⟨world, ⟨loop, name, listenAddr, writeCompleteCb, rfl⟩, rfl⟩
      refine ⟨fun id => ⟨?_, ?_, ?_⟩, fun id _ => ⟨rfl, rfl⟩⟩ <;>
        simp [initial, inputObserver, TcpConnection.messageCalls]
    · intro machine label next record reached sound _ stepped
      cases executed : machine.executing label with
      | none =>
          rw [Machine.client_of_not_executing stepped executed]
          simpa [inputObserver, noteInput, executed] using sound
      | some task =>
          exact sound.executing (reached.weaken Machine.onExec_of_unguarded) executed stepped
  obtain ⟨stream, calls, filled⟩ := sound.agrees id
  exact ⟨stream, calls.symm, filled⟩

end Runs

/-- Three bytes arrive, user code retrieves two of them, and another byte arrives. -/
def readsTwice : List (Label TwoThreads (Choice TwoThreads)) :=
  establishOne ++ nextPoll [.channel (.connection 0 (.handleEvent epollIn))] ++
    [turn 0 { answers := { read := .received [1, 2, 3] } },
      turn 0 { action := .retrieveInput 0 2 }] ++ turns 0 1 ++
    nextPoll [.channel (.connection 0 (.handleEvent epollIn))] ++
    [turn 0 { answers := { read := .received [4] } }]

/-- Two reads, and user code retrieves two of the four bytes. -/
theorem input_arrives_in_order_readsTwice :
    ∃ (machine : Machine (World TwoThreads) TwoThreads Task) (record : InputRecord),
      record.messages 0 = [[1, 2, 3], [4]] ∧ record.retrieved 0 = [1, 2] ∧
      (machine.client.connections 0).inputBuffer.content = [3, 4] ∧
      (machine.client.connections 0).messageCalls = 2 := by
  let observation := ((system.observed inputObserver).run
    (LabelledSystem.beside LabelledSystem.unguarded) (serverOnZero, {}) readsTwice).get
    (by decide +kernel)
  have reachable : (system.observed inputObserver).Reachable
      (LabelledSystem.beside LabelledSystem.unguarded) observation :=
    LabelledSystem.run_reachable ⟨serverOnZero_initial, rfl⟩ (Option.some_get _).symm
  have messages : observation.2.messages 0 = [[1, 2, 3], [4]] := by decide +kernel
  have retrieved : observation.2.retrieved 0 = [1, 2] := by decide +kernel
  clear_value observation
  obtain ⟨machine, record⟩ := observation
  obtain ⟨stream, calls, -⟩ := input_arrives_in_order reachable 0
  refine ⟨machine, record, messages, retrieved, ?_, calls.trans (congrArg List.length messages)⟩
  rw [messages, retrieved] at stream
  simpa using stream.symm

end World

end Benet
