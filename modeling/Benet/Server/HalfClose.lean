import Benet.Server.Progress
import Benet.Server.Shutdown

/-!
# Half-close

`ShutdownWrite` is executed by the functor of `Shutdown` and by the drain of
`handle_write`. In every run it comes after all that `send_in_loop` has let through,
unless the connection is closed already, and it is the last thing that happens on
the output side: no `::send` follows and the write event stays off
(`World.half_close_ordered`).
-/

namespace Benet

open EventLoop Semantics

variable {Thread : Type}

/-- The task calls `::send`. -/
def ConnectionTask.sends (task : ConnectionTask) (connection : TcpConnection Thread) : Bool :=
  match task with
  | .sendInLoop _ => connection.state == .connected && !connection.channel.isWriteEvent &&
      connection.outputBuffer.buffer.readableBytes == 0
  | .handleWrite => connection.channel.isWriteEvent
  | _ => false

/-- Nothing leaves the connection any more. -/
structure TcpConnection.Silent (connection : TcpConnection Thread) : Prop where
  state : TcpState.disconnecting.rank ≤ connection.state.rank
  idle : connection.channel.isWriteEvent = false

/-- A silent connection is past `Connected`. -/
theorem TcpConnection.Silent.not_connected {connection : TcpConnection Thread}
    (silent : connection.Silent) : connection.state ≠ .connected := by
  intro connected
  have state := silent.state
  rw [connected] at state
  exact absurd state (by decide)

/-- On a silent connection no task calls `::send`. -/
theorem TcpConnection.Silent.sends {connection : TcpConnection Thread} (silent : connection.Silent)
    (task : ConnectionTask) : task.sends connection = false := by
  cases task <;> simp [ConnectionTask.sends, silent.not_connected, silent.idle]

/-- The output side of a connection in every run. -/
structure HalfClosing (id : Nat) (connection : TcpConnection Thread)
    (flight : Multiset (Located Thread Task)) : Prop where
  shutting : ∀ thread, (thread, .connection id .shutdownInLoop) ∈ flight ∨
    (thread, .connection id .shutdownDrained) ∈ flight →
      TcpState.disconnecting.rank ≤ connection.state.rank
  drained : connection.state ≠ .disconnected → connection.channel.isWriteEvent = false →
    connection.outputBuffer.content = []
  finished : 0 < connection.history.shutdownWrites → connection.Silent

/-- A new connection has not sent the end of its stream. -/
theorem HalfClosing.fresh {id : Nat} {connection : TcpConnection Thread}
    (isFresh : connection.Fresh) :
    HalfClosing id connection {(connection.loop, .connection id .connectionEstablished)} := by
  obtain ⟨loop, name, fd, onWriteComplete, rfl⟩ := isFresh
  refine ⟨?_, ?_, ?_⟩ <;> simp

variable [DecidableEq Thread]

section Effect

variable {id : Nat} {base thread : Thread} {answers : Answers} {site next : Site Thread}
  {task : ConnectionTask} {calls : List (Call Thread Task)}
  {rest : Multiset (Located Thread Task)}

/-- Once silent, always silent: what would enable the write event needs `Connected`. -/
theorem TcpConnection.Silent.effect (silent : site.connection.Silent)
    (lifecycle : Lifecycle id base site.connection ({(thread, .connection id task)} + rest))
    (effect : site.Effect thread id answers task next calls) : next.connection.Silent := by
  refine ⟨silent.state.trans (effect.state_moves.rank_le lifecycle.establishes), ?_⟩
  cases effect.writes with
  | kept event => rw [event, silent.idle]
  | appended connected => exact absurd connected silent.not_connected
  | written writing => simp [silent.idle] at writing
  | closed _ idle => exact idle

/-- A task of the connection keeps the order of the half close. -/
theorem HalfClosing.effect
    (halfClosing : HalfClosing id site.connection ({(thread, .connection id task)} + rest))
    (lifecycle : Lifecycle id base site.connection ({(thread, .connection id task)} + rest))
    (effect : site.Effect thread id answers task next calls) :
    HalfClosing id next.connection (tokens id (Call.flights thread calls) + rest) := by
  have forward := effect.state_moves.rank_le lifecycle.establishes
  refine ⟨fun waiting member => ?_, fun isOpen idle => ?_, fun positive => ?_⟩
  · by_cases new : (waiting, .connection id .shutdownInLoop) ∈ Call.flights thread calls ∨
        (waiting, .connection id .shutdownDrained) ∈ Call.flights thread calls
    · rw [effect.shutting new]
    · refine (halfClosing.shutting waiting ?_).trans forward
      simp only [Multiset.mem_add, mem_tokens] at member ⊢
      tauto
  · cases effect.writes with
    | kept event content =>
        rw [content]
        refine halfClosing.drained (fun closed => isOpen ?_) (event ▸ idle)
        exact lifecycle.disconnected effect closed
    | appended connected kept =>
        obtain ⟨wasIdle, content⟩ := kept idle
        rw [content]
        exact halfClosing.drained (by simp [connected]) wasIdle
    | written _ left => exact left.resolve_left (by simp [idle])
    | closed state => exact absurd state isOpen
  · rcases effect.shutdownWrites with same | ⟨caller, idle⟩
    · rw [same] at positive
      exact (halfClosing.finished positive).effect lifecycle effect
    · have state : TcpState.disconnecting.rank ≤ site.connection.state.rank := by
        refine halfClosing.shutting thread ?_
        rcases caller with rfl | rfl
        · exact .inl (mem_first _ _)
        · exact .inr (mem_first _ _)
      exact TcpConnection.Silent.effect ⟨state, idle⟩ lifecycle effect

end Effect

namespace World

variable {guard : Thread → Task → Choice Thread → World Thread → Prop} [Fintype Thread]
  {machine finish : Machine (World Thread) Thread Task} {id : Nat}
  {labels : List (Label Thread (Choice Thread))}

/-- The half close is in order in every run. -/
theorem reachable_halfClosing (reachable : system.Reachable (Machine.onExec guard) machine)
    (created : id < machine.client.created) :
    HalfClosing id (machine.client.connections id) (tokens id machine.flight) := by
  refine (reachable_lifecycle id (fun _ => HalfClosing id) ?_ ?_ reachable created).2
  · exact fun _ _ isFresh => .fresh isFresh
  · intro machine before connection after _ _ lifecycle step halfClosing
    cases step.view with
    | beside untouched _ external =>
        obtain ⟨_, _, _, _, _, _, -, rfl⟩ := untouched
        refine ⟨fun thread member => ?_, halfClosing.drained, fun positive => ?_⟩
        · exact halfClosing.shutting thread
            (member.imp (mem_of_mem_beside external rfl) (mem_of_mem_beside external rfl))
        · obtain ⟨state, idle⟩ := halfClosing.finished positive
          exact ⟨state, idle⟩
    | own _ _ effect => exact halfClosing.effect lifecycle effect

/-- A silent connection stays silent. -/
theorem steps_silent (reachable : system.Reachable (Machine.onExec guard) machine)
    (created : id < machine.client.created)
    (steps : system.Steps (Machine.onExec guard) machine labels finish)
    (silent : (machine.client.connections id).Silent) : (finish.client.connections id).Silent := by
  refine (steps_lifecycle (fun connection _ => connection.Silent) ?_ reachable created steps
    silent).2
  intro world before connection after lifecycle step silent
  cases step.view with
  | beside untouched =>
      obtain ⟨_, _, _, _, _, _, -, rfl⟩ := untouched
      exact ⟨silent.state, silent.idle⟩
  | own _ _ effect => exact TcpConnection.Silent.effect silent lifecycle effect

/-- While the loop thread executes another function of the connection, it is not about
to enter `handle_close`. -/
theorem executing_alone {label : Label Thread (Choice Thread)} {choice : Choice Thread}
    {task : ConnectionTask} (reachable : system.Reachable (Machine.onExec guard) machine)
    (created : id < machine.client.created)
    (executed : machine.executing label = some (.connection id task, choice))
    (inLoop : task.inLoop = true) (other : task ≠ .handleClose) (waiting : Thread) :
    (waiting, .connection id .handleClose) ∉ tokens id machine.flight := by
  intro member
  have lifecycle := lifecycle id reachable created
  have there : waiting = (machine.client.connections id).loop := lifecycle.placed _ member rfl
  have own : (label.thread, .connection id task) ∈ tokens id machine.flight :=
    (mem_tokens id).mpr ⟨Machine.executing_mem_flight executed, by simp [Task.about]⟩
  have here : label.thread = (machine.client.connections id).loop :=
    lifecycle.placed _ own inLoop
  have top : (machine.calls waiting).head? = some (.task (.connection id .handleClose)) :=
    (Machine.reachable_urgentOnTop client_prompt reachable).head trivial
      ((mem_tokens id).mp member).1
  rw [there, ← here] at top
  obtain ⟨stack, -, calls, -⟩ := Machine.executing_top executed
  rw [calls] at top
  exact other (by simpa using top)

/-- Half-close, in every run. Where `ShutdownWrite` is executed and the connection is
not `Disconnected`, the output buffer is empty and everything that `send_in_loop` let
through was passed to `::send`. Afterwards no task calls `::send` and the write event
stays off. -/
theorem half_close_ordered (reachable : system.Reachable LabelledSystem.unguarded machine)
    (created : id < machine.client.created) :
    (∀ label next, system.step machine label = some next →
      (machine.client.connections id).history.shutdownWrites <
        (next.client.connections id).history.shutdownWrites →
      (machine.client.connections id).state ≠ .disconnected →
        (machine.client.connections id).outputBuffer.content = [] ∧
        (machine.client.connections id).history.sent =
          (machine.client.connections id).history.accepted.flatten) ∧
    (0 < (machine.client.connections id).history.shutdownWrites →
      ∀ labels finish, system.Steps LabelledSystem.unguarded machine labels finish →
        (finish.client.connections id).channel.isWriteEvent = false ∧
        ∀ (label : Label Thread (Choice Thread)) task choice,
          finish.executing label = some (.connection id task, choice) →
            task.sends (finish.client.connections id) = false) := by
  have reached := reachable.weaken Machine.onExec_of_unguarded
  have halfClosing := reachable_halfClosing reached created
  refine ⟨?_, fun shut labels finish steps => ?_⟩
  · intro label next stepped
    refine step_lifecycle (fun connection =>
      (machine.client.connections id).history.shutdownWrites < connection.history.shutdownWrites →
      (machine.client.connections id).state ≠ .disconnected → _) ?_ reached created stepped
      fun grown => absurd grown (lt_irrefl _)
    intro before connection after lifecycle view grown isOpen
    cases view with
    | beside untouched =>
        obtain ⟨_, _, _, _, _, _, -, rfl⟩ := untouched
        exact absurd grown (lt_irrefl _)
    | @own thread choice task site calls rest admitted _ effect =>
        rcases effect.shutdownWrites with same | ⟨caller, idle⟩
        · exact absurd grown (same ▸ lt_irrefl _)
        · have empty : (machine.client.connections id).outputBuffer.content = [] :=
            halfClosing.drained isOpen idle
          have whole := (reachable_streaming reached created).whole isOpen
            (executing_alone reached created admitted.2 (by rcases caller with rfl | rfl <;> rfl)
              (by rcases caller with rfl | rfl <;> simp))
          rw [TcpConnection.stream, empty, List.append_nil] at whole
          exact ⟨empty, whole⟩
  · have silent := steps_silent reached created (steps.weaken Machine.onExec_of_unguarded)
      (halfClosing.finished shut)
    exact ⟨silent.idle, fun label task choice _ => silent.sends task⟩

/-- Three bytes are sent, the kernel takes one, user code calls `Shutdown`, and the
next `handle_write` drains the rest; the functor that it runs then executes
`ShutdownWrite`. -/
def shutdownWhileBuffered : List (Label TwoThreads (Choice TwoThreads)) :=
  userTurn ++ [turn 0 { action := .call 0 (.send [1, 2, 3]) }] ++ turns 0 1 ++
    [turn 0 { answers := { send := .wrote 1 .other } },
      turn 0 { action := .call 0 .shutdown }] ++ turns 0 4 ++
    nextPoll [.channel (.connection 0 (.handleEvent epollOut))] ++ turns 0 1 ++
    [turn 0 { answers := { send := .wrote 2 .other } }] ++ turns 0 2

/-- `Shutdown` with bytes in the buffer: the end of the stream follows the last byte. -/
theorem half_close_ordered_shutdownWhileBuffered :
    ∃ machine next : Machine (World TwoThreads) TwoThreads Task,
      system.step machine (turn 0 {}) = some next ∧
      (machine.client.connections 0).state = .disconnecting ∧
      (machine.client.connections 0).history.shutdownWrites = 0 ∧
      (next.client.connections 0).history.shutdownWrites = 1 ∧
      (machine.client.connections 0).history.sent =
        (machine.client.connections 0).history.accepted.flatten ∧
      ∀ labels finish, system.Steps LabelledSystem.unguarded next labels finish →
        (finish.client.connections 0).channel.isWriteEvent = false := by
  let machine := (system.run LabelledSystem.unguarded serverOnZero shutdownWhileBuffered).get
    (by decide +kernel)
  let next := (system.step machine (turn 0 {})).get (by decide +kernel)
  have reachable : system.Reachable LabelledSystem.unguarded machine :=
    LabelledSystem.run_reachable serverOnZero_initial (Option.some_get _).symm
  have stepped : system.step machine (turn 0 {}) = some next := (Option.some_get _).symm
  have state : (machine.client.connections 0).state = .disconnecting := by decide +kernel
  have before : (machine.client.connections 0).history.shutdownWrites = 0 := by decide +kernel
  have after : (next.client.connections 0).history.shutdownWrites = 1 := by decide +kernel
  have created : 0 < machine.client.created := by decide +kernel
  have nextCreated : 0 < next.client.created := by decide +kernel
  have orders := (half_close_ordered reachable created).1 _ next stepped (by omega)
    (by simp [state])
  have stays := (half_close_ordered (reachable.step trivial stepped) nextCreated).2 (by omega)
  exact ⟨machine, next, stepped, state, before, after, orders.2,
    fun labels finish steps => (stays labels finish steps).1⟩

end World

end Benet
