import Benet.Server.Lifecycle

/-!
# The output stream

Bytes leave a connection by the direct `::send` of `send_in_loop` and by
`handle_write` from the output buffer. Together they are one stream: what was sent
followed by what is buffered is the concatenation of the messages that
`send_in_loop` let through, until a fatal error closes the connection
(`World.stream_integrity`).
-/

namespace Benet

open EventLoop Semantics

variable {Thread : Type}

/-- The bytes passed to the kernel, followed by those that wait in the output
buffer. -/
def TcpConnection.stream (connection : TcpConnection Thread) : List UInt8 :=
  connection.history.sent ++ connection.outputBuffer.content

/-- What a task does to the stream and to the messages let through. -/
inductive TcpConnection.Streams (id : Nat) (task : ConnectionTask) (calls : List (Call Thread Task))
    (before after : TcpConnection Thread) : Prop where
  | kept (accepted : after.history.accepted = before.history.accepted)
      (stream : after.stream = before.stream)
  | extended (message : List UInt8) (caller : task = .sendInLoop message)
      (state : before.state = .connected)
      (accepted : after.history.accepted = before.history.accepted ++ [message])
      (stream : after.stream = before.stream ++ message)
  | dropped (message : List UInt8) (caller : task = .sendInLoop message)
      (state : before.state = .connected)
      (accepted : after.history.accepted = before.history.accepted ++ [message])
      (stream : after.stream = before.stream)
      (closes : .task (.connection id .handleClose) ∈ calls)

namespace Site

variable [DecidableEq Thread] {thread : Thread} {id : Nat} {answers : Answers}
  {site next : Site Thread} {calls : List (Call Thread Task)} {task : ConnectionTask}

/-- How a task moves bytes from the messages to the buffer and to the kernel. -/
theorem Effect.streams (effect : Effect thread id answers site task next calls) :
    site.connection.Streams id task calls next.connection := by
  cases effect with
  | @sendFatal message state =>
      exact .dropped message rfl state (by simp) (by simp [TcpConnection.stream]) (by simp)
  | @sendCompleted message state _ empty =>
      exact .extended message rfl state (by simp) (by simp [TcpConnection.stream, empty])
  | @sendPartly message count state _ empty =>
      refine .extended message rfl state (by simp) ?_
      simp [TcpConnection.stream, empty]
  | @sendBuffered message state =>
      refine .extended message rfl state (by simp) ?_
      simp [TcpConnection.stream]
  | writePartly | writeDrains => exact .kept (by simp) (by simp [TcpConnection.stream])
  | shutdownInLoop | shutdownDrained =>
      rw [shutdownWriteIfDrained_connection]
      exact .kept rfl rfl
  | connectionEstablished =>
      refine .kept ?_ ?_ <;> simp [Site.connectionEstablished, TcpConnection.stream]
  | removeFromLoop => exact .kept rfl rfl
  | eventReads _ reads | afterCloseEvent reads => cases reads <;> exact .kept rfl rfl
  | _ => exact .kept (by simp) (by simp [TcpConnection.stream])

end Site

/-- The stream of a connection against the messages let through. -/
structure Streaming (id : Nat) (connection : TcpConnection Thread)
    (flight : Multiset (Located Thread Task)) : Prop where
  unused : connection.state = .connecting →
    connection.history.accepted = [] ∧ connection.stream = []
  initial : connection.stream <+: connection.history.accepted.flatten
  whole : connection.state ≠ .disconnected →
    (∀ thread, (thread, .connection id .handleClose) ∉ flight) →
      connection.stream = connection.history.accepted.flatten

namespace Streaming

variable {id : Nat} {connection : TcpConnection Thread}

/-- A new connection has no bytes. -/
theorem fresh (isFresh : connection.Fresh) :
    Streaming id connection {(connection.loop, .connection id .connectionEstablished)} := by
  obtain ⟨loop, name, fd, onWriteComplete, rfl⟩ := isFresh
  refine ⟨fun _ => ?_, ?_, fun _ _ => ?_⟩ <;> simp [TcpConnection.stream]

variable {base thread : Thread} {site next : Site Thread} {task : ConnectionTask}
  {rest : Multiset (Located Thread Task)}

/-- The stream is whole when `send_in_loop` has let a message through. -/
theorem whole_connected {message : List UInt8}
    (streaming : Streaming id site.connection ({(thread, .connection id task)} + rest))
    (lifecycle : Lifecycle id base site.connection ({(thread, .connection id task)} + rest))
    (unhurried : (thread, .connection id .handleClose) ∉ rest)
    (caller : task = .sendInLoop message) (state : site.connection.state = .connected) :
    site.connection.stream = site.connection.history.accepted.flatten := by
  subst caller
  exact streaming.whole (by simp [state]) (lifecycle.alone unhurried rfl (by simp))

/-- A task of the connection keeps the stream in order. -/
theorem effect [DecidableEq Thread] {answers : Answers} {calls : List (Call Thread Task)}
    (streaming : Streaming id site.connection ({(thread, .connection id task)} + rest))
    (lifecycle : Lifecycle id base site.connection ({(thread, .connection id task)} + rest))
    (unhurried : (thread, .connection id .handleClose) ∉ rest)
    (effect : site.Effect thread id answers task next calls) :
    Streaming id next.connection (tokens id (Call.flights thread calls) + rest) := by
  refine ⟨fun connecting => ?_, ?_, fun isOpen none => ?_⟩
  · have early : site.connection.state = .connecting := by
      refine (effect.state_moves.connecting_iff ?_).mp connecting
      rintro rfl
      cases effect
      cases connecting
    obtain ⟨nothing, empty⟩ := streaming.unused early
    cases effect.streams with
    | kept accepted stream => exact ⟨accepted.trans nothing, stream.trans empty⟩
    | extended _ _ state | dropped _ _ state => simp [early] at state
  · cases effect.streams with
    | kept accepted stream =>
        rw [accepted, stream]
        exact streaming.initial
    | extended message caller state accepted stream =>
        rw [accepted, stream, streaming.whole_connected lifecycle unhurried caller state]
        simp
    | dropped message caller state accepted stream =>
        rw [accepted, stream, streaming.whole_connected lifecycle unhurried caller state]
        simp
  · have wasOpen : site.connection.state ≠ .disconnected :=
      fun closed => isOpen (lifecycle.disconnected effect closed)
    cases effect.streams with
    | kept accepted stream =>
        rw [accepted, stream]
        by_cases closing : task = .handleClose
        · -- `handle_close` does nothing before the connection is established
          subst closing
          cases effect with
          | closes => exact absurd rfl isOpen
          | closeSkipped notConnected notDisconnecting =>
              have early : site.connection.state = .connecting := by
                cases state : site.connection.state <;> simp_all
              obtain ⟨nothing, empty⟩ := streaming.unused early
              simp [nothing, empty]
        · refine streaming.whole wasOpen fun waiting member => ?_
          rcases Multiset.mem_add.mp member with own | elsewhere
          · simp only [Multiset.mem_singleton, Prod.mk.injEq, Task.connection.injEq,
              true_and] at own
            exact closing own.2.symm
          · exact none waiting (Multiset.mem_add.mpr (.inr elsewhere))
    | extended message caller state accepted stream =>
        rw [accepted, stream, streaming.whole_connected lifecycle unhurried caller state]
        simp
    | dropped message _ _ _ _ closes =>
        refine absurd (Multiset.mem_add.mpr (.inl ((mem_tokens id).mpr ⟨?_, ?_⟩))) (none thread)
        · exact (Call.mem_flights thread).mpr ⟨_, closes, Multiset.mem_singleton_self _⟩
        · simp [Task.about]

end Streaming

namespace World

variable [DecidableEq Thread] [Fintype Thread]
  {guard : Thread → Task → Choice Thread → World Thread → Prop}
  {machine : Machine (World Thread) Thread Task} {id : Nat}

/-- The stream is in order in every run. -/
theorem reachable_streaming (reachable : system.Reachable (Machine.onExec guard) machine)
    (created : id < machine.client.created) :
    Streaming id (machine.client.connections id) (tokens id machine.flight) := by
  refine (reachable_lifecycle id (fun _ => Streaming id) ?_ ?_ reachable created).2
  · exact fun _ _ isFresh => .fresh isFresh
  · intro machine before connection after _ _ lifecycle step streaming
    cases step.view with
    | beside untouched closing _ =>
        obtain ⟨_, _, _, _, _, _, -, rfl⟩ := untouched
        refine ⟨streaming.unused, streaming.initial, fun isOpen none => ?_⟩
        refine streaming.whole isOpen fun waiting member => ?_
        rcases Multiset.mem_add.mp member with gone | kept
        · exact absurd (closing _ gone) (by simp)
        · exact none waiting (Multiset.mem_add.mpr (.inr kept))
    | own _ unhurried effect => exact streaming.effect lifecycle unhurried effect

/-- The output stream, in every run. What was sent is a prefix of the messages
that `send_in_loop` let through, in the order in which it did. Unless the
connection is `Disconnected`, or its loop thread is about to enter `handle_close`,
the bytes that are not sent yet are exactly those in the output buffer. -/
theorem stream_integrity (reachable : system.Reachable LabelledSystem.unguarded machine)
    (created : id < machine.client.created) :
    (machine.client.connections id).history.sent <+:
        (machine.client.connections id).history.accepted.flatten ∧
      ((machine.client.connections id).state ≠ .disconnected →
        (machine.calls (machine.client.connections id).loop).head? ≠
          some (.task (.connection id .handleClose)) →
        (machine.client.connections id).history.sent ++
            (machine.client.connections id).outputBuffer.content =
          (machine.client.connections id).history.accepted.flatten) := by
  have reached := reachable.weaken Machine.onExec_of_unguarded
  have streaming := reachable_streaming reached created
  refine ⟨(List.prefix_append _ _).trans streaming.initial, fun isOpen notClosing => ?_⟩
  refine streaming.whole isOpen fun thread member => notClosing ?_
  have placed : thread = (machine.client.connections id).loop :=
    (lifecycle id reached created).placed _ member rfl
  rw [← placed]
  exact (Machine.reachable_urgentOnTop client_prompt reachable).head trivial
    ((mem_tokens id).mp member).1

/-- The kernel takes one byte of the first message and, when it is writable again,
two of the three that wait. -/
def sendsInParts : List (Label TwoThreads (Choice TwoThreads)) :=
  userTurn ++ [turn 0 { action := .call 0 (.send [1, 2, 3]) }] ++ turns 0 1 ++
    [turn 0 { answers := { send := .wrote 1 .other } },
      turn 0 { action := .call 0 (.send [4]) }] ++ turns 0 3 ++
    nextPoll [.channel (.connection 0 (.handleEvent epollOut))] ++ turns 0 1 ++
    [turn 0 { answers := { send := .wrote 2 .other } }]

/-- Two messages, of which the kernel has taken three bytes in parts. -/
theorem stream_integrity_sendsInParts :
    ∃ machine : Machine (World TwoThreads) TwoThreads Task,
      (machine.client.connections 0).history.accepted = [[1, 2, 3], [4]] ∧
      (machine.client.connections 0).history.sent = [1, 2, 3] ∧
      (machine.client.connections 0).history.sent ++
          (machine.client.connections 0).outputBuffer.content =
        (machine.client.connections 0).history.accepted.flatten := by
  let machine := (system.run LabelledSystem.unguarded serverOnZero sendsInParts).get
    (by decide +kernel)
  have reachable : system.Reachable LabelledSystem.unguarded machine :=
    LabelledSystem.run_reachable serverOnZero_initial (Option.some_get _).symm
  have created : 0 < machine.client.created := by decide +kernel
  have isOpen : (machine.client.connections 0).state ≠ .disconnected := by decide +kernel
  have notClosing : (machine.calls (machine.client.connections 0).loop).head? ≠
      some (.task (.connection 0 .handleClose)) := by decide +kernel
  exact ⟨machine, by decide +kernel, by decide +kernel,
    (stream_integrity reachable created).2 isOpen notClosing⟩

end World

end Benet
