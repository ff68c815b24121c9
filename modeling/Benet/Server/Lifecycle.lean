import Benet.Server.Step

/-!
# Where tasks run and when a connection is established

Two facts that hold in every run. Tasks about a connection that its loop thread
has to execute are in flight for that thread only. `ConnectionEstablished` is in
flight once while the connection is `Connecting`, and never afterwards.
-/

namespace Benet

open EventLoop Semantics

variable {Thread : Type}

/-- The task may be executed by `thread`, for a server on loop `base` and a
connection on loop `loop`. -/
def Task.Placed (base loop thread : Thread) : Task → Prop
  | .connection _ task => task.inLoop = true → thread = loop
  | .onClose _ => thread = loop
  | .removeConnection _ => thread = base
  | .user | .newConnection | .destroyServer => True

namespace Emitted

variable {thread loop : Thread} {id : Nat} {task : ConnectionTask}
  {located : Located Thread Task}

/-- A task that runs where it may makes calls that run where they may. -/
theorem placed (emitted : Emitted thread loop id task located) (base : Thread)
    (here : task.inLoop = true → thread = loop) : located.2.Placed base loop located.1 := by
  cases emitted <;> simp_all [Task.Placed, ConnectionTask.inLoop]

/-- No task of a connection posts `ConnectionEstablished`. -/
theorem not_established (emitted : Emitted thread loop id task located) :
    located.2 ≠ .connection id .connectionEstablished := by
  cases emitted <;> simp

end Emitted

/-- The moves of `state_`. -/
inductive TcpState.Moves : ConnectionTask → TcpState → TcpState → Prop where
  | stays {task state} : Moves task state state
  | shutdown : Moves .shutdown .connected .disconnecting
  | forceClose : Moves .forceClose .connected .disconnecting
  | establish {state} : Moves .connectionEstablished state .connected
  | destroy : Moves .connectionDestroyed .connected .disconnected
  | close {state} (open' : state = .connected ∨ state = .disconnecting) :
      Moves .handleClose state .disconnected

/-- Nothing but `ConnectionEstablished` leaves `Connecting`, and nothing enters it. -/
theorem TcpState.Moves.connecting_iff {task : ConnectionTask} {before after : TcpState}
    (moves : TcpState.Moves task before after) (other : task ≠ .connectionEstablished) :
    after = .connecting ↔ before = .connecting := by
  cases moves with
  | stays => rfl
  | establish => exact absurd rfl other
  | shutdown | forceClose | destroy => simp
  | close isOpen => rcases isOpen with rfl | rfl <;> simp

/-- Nothing but `ConnectionEstablished` leaves `Disconnected`. -/
theorem TcpState.Moves.disconnected {task : ConnectionTask} {before after : TcpState}
    (moves : TcpState.Moves task before after) (other : task ≠ .connectionEstablished)
    (closed : before = .disconnected) : after = .disconnected := by
  cases moves with
  | stays => exact closed
  | establish => exact absurd rfl other
  | shutdown | forceClose => cases closed
  | destroy | close => rfl

/-- How `Connected` is left. -/
theorem TcpState.Moves.leaves_connected {task : ConnectionTask} {before after : TcpState}
    (moves : TcpState.Moves task before after) (was : before = .connected)
    (left : after ≠ .connected) :
    task = .shutdown ∨ task = .forceClose ∨ after = .disconnected := by
  cases moves with
  | stays => exact absurd was left
  | establish => exact absurd rfl left
  | shutdown => exact .inl rfl
  | forceClose => exact .inr (.inl rfl)
  | destroy | close => exact .inr (.inr rfl)

/-- `Disconnecting` is left for `Disconnected` only. -/
theorem TcpState.Moves.disconnecting {task : ConnectionTask} {before after : TcpState}
    (moves : TcpState.Moves task before after) (other : task ≠ .connectionEstablished)
    (was : before = .disconnecting) (isOpen : after ≠ .disconnected) : after = .disconnecting := by
  cases moves with
  | stays => exact was
  | establish => exact absurd rfl other
  | shutdown | forceClose => rfl
  | destroy | close => exact absurd rfl isOpen

/-- What holds of every connection in every run. -/
structure Lifecycle (id : Nat) (base : Thread) (connection : TcpConnection Thread)
    (flight : Multiset (Located Thread Task)) : Prop where
  placed : ∀ located ∈ flight, located.2.Placed base connection.loop located.1
  establishing : inFlight (.connection id .connectionEstablished) flight =
    if connection.state = .connecting then 1 else 0

namespace Lifecycle

variable {id : Nat} {base : Thread} {connection : TcpConnection Thread}

/-- A new connection waits for `ConnectionEstablished`. -/
theorem fresh (isFresh : connection.Fresh) :
    Lifecycle id base connection {(connection.loop, .connection id .connectionEstablished)} := by
  obtain ⟨loop, name, fd, onWriteComplete, rfl⟩ := isFresh
  constructor
  · simp [Task.Placed]
  · simp

/-- A task in its place may be put into flight. -/
theorem add {thread : Thread} {task : Task} {flight : Multiset (Located Thread Task)}
    (lifecycle : Lifecycle id base connection flight)
    (placed : task.Placed base connection.loop thread)
    (other : task ≠ .connection id .connectionEstablished) :
    Lifecycle id base connection ({(thread, task)} + flight) := by
  constructor
  · intro located member
    rcases Multiset.mem_add.mp member with new | old
    · obtain rfl := Multiset.mem_singleton.mp new
      exact placed
    · exact lifecycle.placed located old
  · rw [inFlight_add, inFlight_singleton, if_neg other, zero_add]
    exact lifecycle.establishing

/-- A task other than `ConnectionEstablished` may leave the flight. -/
theorem remove {thread : Thread} {task : Task} {rest : Multiset (Located Thread Task)}
    (lifecycle : Lifecycle id base connection ({(thread, task)} + rest))
    (other : task ≠ .connection id .connectionEstablished) :
    Lifecycle id base connection rest := by
  constructor
  · exact fun located member => lifecycle.placed located (Multiset.mem_add.mpr (.inr member))
  · have count := lifecycle.establishing
    rwa [inFlight_add, inFlight_singleton, if_neg other, zero_add] at count

/-- The fact is about the loop and the state of the connection only. -/
theorem congr {changed : TcpConnection Thread} {flight : Multiset (Located Thread Task)}
    (lifecycle : Lifecycle id base connection flight) (loop : changed.loop = connection.loop)
    (state : changed.state = connection.state) : Lifecycle id base changed flight := by
  constructor
  · rw [loop]
    exact lifecycle.placed
  · rw [state]
    exact lifecycle.establishing

/-- The thread that executes a task may do so. -/
theorem here {thread : Thread} {task : ConnectionTask} {rest : Multiset (Located Thread Task)}
    (lifecycle : Lifecycle id base connection ({(thread, .connection id task)} + rest)) :
    task.inLoop = true → thread = connection.loop :=
  lifecycle.placed _ (mem_first _ _)

/-- While the loop thread executes another task, no `handle_close` waits. -/
theorem alone {thread : Thread} {task : ConnectionTask} {rest : Multiset (Located Thread Task)}
    (lifecycle : Lifecycle id base connection ({(thread, .connection id task)} + rest))
    (unhurried : (thread, .connection id .handleClose) ∉ rest) (inLoop : task.inLoop = true)
    (other : task ≠ .handleClose) (waiting : Thread) :
    (waiting, .connection id .handleClose) ∉ {(thread, .connection id task)} + rest := by
  intro member
  have placed : waiting = connection.loop := lifecycle.placed _ member rfl
  rcases Multiset.mem_add.mp member with own | elsewhere
  · simp only [Multiset.mem_singleton, Prod.mk.injEq, Task.connection.injEq, true_and] at own
    exact other own.2.symm
  · rw [placed, ← lifecycle.here inLoop] at elsewhere
    exact unhurried elsewhere

/-- `ConnectionEstablished` runs in `Connecting`. -/
theorem connecting {thread : Thread} {rest : Multiset (Located Thread Task)}
    (lifecycle : Lifecycle id base connection
      ({(thread, .connection id .connectionEstablished)} + rest)) :
    connection.state = .connecting ∧ inFlight (.connection id .connectionEstablished) rest = 0 := by
  have count := lifecycle.establishing
  rw [inFlight_add, inFlight_singleton, if_pos rfl] at count
  split at count
  case isTrue state => exact ⟨state, by omega⟩
  case isFalse => omega

end Lifecycle

variable [DecidableEq Thread]

namespace Site

variable {thread : Thread} {id : Nat} {answers : Answers} {site next : Site Thread}
  {calls : List (Call Thread Task)} {task : ConnectionTask}

/-- How a task moves the state. -/
theorem Effect.state_moves (effect : Effect thread id answers site task next calls) :
    TcpState.Moves task site.connection.state next.connection.state := by
  cases effect with
  | shutdownBegun state | forceCloseBegun state =>
      rw [state]
      constructor
  | connectionEstablished => exact .establish
  | destroyedConnected state =>
      rw [state]
      exact .destroy
  | closes state => exact .close state
  | sendPartly | sendBuffered =>
      rw [appendRemaining_state]
      exact .stays
  | shutdownInLoop | shutdownDrained =>
      rw [shutdownWriteIfDrained_connection]
      exact .stays
  | eventReads _ reads | afterCloseEvent reads => cases reads <;> exact .stays
  | _ => exact .stays

end Site

/-- Nothing that the functions of the connection read or write has changed. -/
def TcpConnection.Untouched (before after : TcpConnection Thread) : Prop :=
  ∃ inputBuffer onWriteComplete highWaterMark onHighWaterMark erased failedAssertions,
    (∀ assertion ∈ failedAssertions,
      assertion ∈ before.history.failedAssertions ∨ assertion = .erasedOne) ∧
    after = { before with
      inputBuffer, onWriteComplete, highWaterMark, onHighWaterMark
      history := { before.history with erased, failedAssertions } }

/-- Tasks about a connection that do not come from its own functions alone. -/
def Task.external : Task → Bool
  | .connection _ (.send _) | .connection _ .shutdown | .connection _ .forceClose
  | .connection _ .startRead | .connection _ .stopRead | .connection _ .connectionDestroyed
  | .connection _ (.handleEvent _) | .removeConnection _ => true
  | _ => false

namespace World

omit [DecidableEq Thread] in
/-- The functor of `remove_connection` counts the removal in the history only. -/
theorem withoutConnection_untouched (world : World Thread) (id : Nat) :
    (world.connections id).Untouched ((world.withoutConnection id).connections id) := by
  rw [withoutConnection, modifyConnection_connections_self]
  refine ⟨_, _, _, _, _, _, ?_, rfl⟩
  intro assertion member
  rcases List.mem_append.mp member with old | new
  · exact .inl old
  · split at new
    · cases new
    · exact .inr (List.mem_singleton.mp new)

/-- What an executed task is to the connection `id`. -/
inductive Concerns (thread : Thread) (choice : Choice Thread) (world : World Thread) (id : Nat)
    (task : Task) (calls : List (Call Thread Task)) (next : World Thread) : Prop where
  | own {function site} (called : task = .connection id function)
      (effect : (world.site id).Effect thread id choice.answers function site calls)
      (after : next = world.setSite id site)
  | other (foreign : ∀ function, task ≠ .connection id function)
      (known : id < next.created → id < world.created)
      (untouched : (world.connections id).Untouched (next.connections id))
  | created (called : task = .newConnection) (new : id = world.created)
      (fresh : (next.connections id).Fresh)

/-- What an executed task means for one connection. -/
theorem Executes.concerns {thread : Thread} {choice : Choice Thread} {world next : World Thread}
    {task : Task} {calls : List (Call Thread Task)}
    (executes : Executes thread choice world task next calls) (id : Nat) :
    Concerns thread choice world id task calls next := by
  have same : (world.connections id).Untouched (world.connections id) :=
    ⟨_, _, _, _, _, _, fun _ member => .inl member, rfl⟩
  cases executes with
  | leaves | calls | posts | destroys | onClose | onCloseDead | removeDead | destroyServer =>
      exact .other (by simp) (fun created => created) same
  | @tunes other change tuned =>
      refine .other (by simp) (fun created => created) ?_
      by_cases here : id = other
      · subst here
        obtain ⟨_, _, _, _, changed⟩ := tuned _ rfl
        rw [modifyConnection_connections_self, changed]
        exact ⟨_, _, _, _, _, _, fun _ member => .inl member, rfl⟩
      · rwa [modifyConnection_connections_other here]
  | @connection other function site _ effect =>
      by_cases here : id = other
      · subst here
        exact .own rfl effect rfl
      · refine .other ?_ (fun created => created) ?_
        · rintro _ ⟨⟩
          exact here rfl
        · rwa [setSite_connections_other here]
  | newConnection =>
      by_cases here : id = world.created
      · subst here
        refine .created rfl rfl ?_
        rw [withNewConnection_connections_new]
        exact ⟨_, _, _, _, rfl⟩
      · refine .other (by simp) (fun created => ?_) ?_
        · exact (Nat.lt_succ_iff_lt_or_eq.mp created).resolve_right here
        · simpa [withNewConnection, here] using same
  | @removeConnection other =>
      refine .other (by simp) (fun created => created) ?_
      by_cases here : id = other
      · subst here
        exact withoutConnection_untouched world id
      · rwa [withoutConnection_connections_other here]

/-- A coarser reading of `ConnectionStep`, for results that are about the
connection and the calls of its own functions: apart from these, a step takes
calls of the server away and brings tasks from outside. -/
inductive ConnectionView (guard : Thread → Task → Choice Thread → World Thread → Prop) (id : Nat)
    (world : World Thread) : Multiset (Located Thread Task) → TcpConnection Thread →
      Multiset (Located Thread Task) → Prop where
  | beside {gone new rest connection} (untouched : (world.connections id).Untouched connection)
      (closing : ∀ located ∈ gone, located.2 = .onClose id ∨ located.2 = .removeConnection id)
      (external : ∀ located ∈ new, located.2.external = true) :
      ConnectionView guard id world (gone + rest) connection (new + rest)
  | own {thread choice task site calls rest}
      (admitted : guard thread (.connection id task) choice world)
      (unhurried : (thread, .connection id .handleClose) ∉ rest)
      (effect : (world.site id).Effect thread id choice.answers task site calls) :
      ConnectionView guard id world ({(thread, .connection id task)} + rest) site.connection
        (tokens id (Call.flights thread calls) + rest)

section Beside

variable {id : Nat} {gone new rest : Multiset (Located Thread Task)} {task : ConnectionTask}

omit [DecidableEq Thread] in
/-- Steps beside the connection bring none of the tasks that only its own
functions call. -/
theorem mem_of_mem_beside (external : ∀ located ∈ new, located.2.external = true)
    (internal : (Task.connection id task).external = false) {thread : Thread}
    (member : (thread, .connection id task) ∈ new + rest) :
    (thread, .connection id task) ∈ gone + rest := by
  rcases Multiset.mem_add.mp member with brought | kept
  · rw [external _ brought] at internal
    cases internal
  · exact Multiset.mem_add.mpr (.inr kept)

omit [DecidableEq Thread] in
/-- And they take none of them away. -/
theorem inFlight_gone
    (closing : ∀ located ∈ gone, located.2 = .onClose id ∨ located.2 = .removeConnection id) :
    inFlight (.connection id task) gone = 0 := by
  rw [inFlight_eq_zero]
  intro located member same
  simpa [same] using closing located member

omit [DecidableEq Thread] in
/-- Steps outside the connection do not change how often an internal task of it is in flight. -/
theorem inFlight_beside
    (closing : ∀ located ∈ gone, located.2 = .onClose id ∨ located.2 = .removeConnection id)
    (external : ∀ located ∈ new, located.2.external = true)
    (internal : (Task.connection id task).external = false) :
    inFlight (.connection id task) (new + rest) = inFlight (.connection id task) (gone + rest) := by
  have noneNew : inFlight (.connection id task) new = 0 := by
    rw [inFlight_eq_zero]
    intro located member same
    rw [← same, external _ member] at internal
    cases internal
  rw [inFlight_add, inFlight_add, noneNew, inFlight_gone closing]

end Beside

variable {guard : Thread → Task → Choice Thread → World Thread → Prop} {id : Nat}
  {world : World Thread} {before after : Multiset (Located Thread Task)}
  {connection : TcpConnection Thread}

/-- What a step means for one connection, in the cases that its invariants distinguish. -/
theorem ConnectionStep.view (step : ConnectionStep guard id world before connection after) :
    ConnectionView guard id world before connection after := by
  have same : (world.connections id).Untouched (world.connections id) :=
    ⟨_, _, _, _, _, _, fun _ member => .inl member, rfl⟩
  have adds : ∀ {thread : Thread} {task : Task}, task.external = true →
      ConnectionView guard id world before (world.connections id) ({(thread, task)} + before) := by
    intro thread task external
    have view : ConnectionView guard id world (0 + before) (world.connections id)
        ({(thread, task)} + before) := .beside same (by simp) (by simpa using external)
    rwa [zero_add] at view
  have keeps : ∀ {connection}, (world.connections id).Untouched connection →
      ConnectionView guard id world before connection before := by
    intro connection untouched
    have view : ConnectionView guard id world (0 + before) connection (0 + before) :=
      .beside untouched (by simp) (by simp)
    rwa [zero_add] at view
  cases step with
  | idle => exact keeps same
  | polled => exact adds rfl
  | @called thread choice call => exact adds (by cases call <;> rfl)
  | tuned tuned =>
      obtain ⟨_, _, _, _, rfl⟩ := tuned
      exact keeps ⟨_, _, _, _, _, _, fun _ member => .inl member, rfl⟩
  | own admitted unhurried effect => exact .own admitted unhurried effect
  | onClose => exact .beside same (by simp) (by simp [Task.external])
  | @dropped thread task _ _ closing =>
      have view : ConnectionView guard id world ({(thread, task)} + after) (world.connections id)
          (0 + after) := .beside same (by simpa using closing) (by simp)
      rwa [zero_add] at view
  | erased =>
      exact .beside (withoutConnection_untouched world id) (by simp) (by simp [Task.external])
  | condemned => exact adds rfl

end World

namespace Lifecycle

variable {id : Nat} {base : Thread}

/-- A task of the connection keeps its lifecycle. -/
theorem effect {thread : Thread} {task : ConnectionTask} {answers : Answers}
    {site next : Site Thread} {calls : List (Call Thread Task)}
    {rest : Multiset (Located Thread Task)}
    (lifecycle : Lifecycle id base site.connection ({(thread, .connection id task)} + rest))
    (effect : site.Effect thread id answers task next calls) :
    Lifecycle id base next.connection (tokens id (Call.flights thread calls) + rest) := by
  constructor
  · intro located member
    rw [effect.identity.loop]
    rcases Multiset.mem_add.mp member with new | old
    · exact (effect.emitted located ((mem_tokens id).mp new).1).placed base lifecycle.here
    · exact lifecycle.placed located (Multiset.mem_add.mpr (.inr old))
  · have none : inFlight (.connection id .connectionEstablished)
        (tokens id (Call.flights thread calls)) = 0 := by
      rw [inFlight_tokens _ (by simp [Task.about]), inFlight_eq_zero]
      exact fun located member => (effect.emitted located member).not_established
    rw [inFlight_add, none, zero_add]
    by_cases established : task = .connectionEstablished
    · subst established
      obtain ⟨-, rest⟩ := lifecycle.connecting
      rw [rest]
      cases effect with
      | connectionEstablished => rfl
    · have count := (lifecycle.remove (by simpa using established)).establishing
      rw [count]
      simp only [effect.state_moves.connecting_iff established]

/-- A connection that is `Disconnected` remains so. -/
theorem disconnected {thread : Thread} {task : ConnectionTask} {answers : Answers}
    {site next : Site Thread} {calls : List (Call Thread Task)}
    {rest : Multiset (Located Thread Task)}
    (lifecycle : Lifecycle id base site.connection ({(thread, .connection id task)} + rest))
    (effect : site.Effect thread id answers task next calls)
    (closed : site.connection.state = .disconnected) :
    next.connection.state = .disconnected := by
  refine effect.state_moves.disconnected ?_ closed
  rintro rfl
  rw [lifecycle.connecting.1] at closed
  cases closed

variable {guard : Thread → Task → Choice Thread → World Thread → Prop} {world : World Thread}
  {before after : Multiset (Located Thread Task)} {connection : TcpConnection Thread}

/-- Any step keeps the lifecycle of a connection. -/
theorem step (step : World.ConnectionStep guard id world before connection after)
    (lifecycle : Lifecycle id world.server.loop (world.connections id) before) :
    Lifecycle id world.server.loop connection after := by
  cases step with
  | idle => exact lifecycle
  | polled => exact lifecycle.add (fun _ => rfl) (by simp)
  | @called thread choice call _ _ action =>
      refine lifecycle.add (fun inLoop => ?_) ?_
      · cases call <;> cases inLoop
      · cases call <;> simp [UserCall.task]
  | tuned tuned =>
      obtain ⟨_, _, _, _, rfl⟩ := tuned
      exact lifecycle.congr rfl rfl
  | own _ _ effect => exact lifecycle.effect effect
  | onClose => exact (lifecycle.remove (by simp)).add rfl (by simp)
  | dropped _ closing => exact lifecycle.remove (by rcases closing with rfl | rfl <;> simp)
  | @erased thread rest =>
      have moved : Lifecycle id world.server.loop (world.connections id)
          ({((world.connections id).loop, .connection id .connectionDestroyed)} + rest) :=
        (lifecycle.remove (by simp)).add (fun _ => rfl) (by simp)
      refine moved.congr ?_ ?_ <;>
        simp [World.withoutConnection, World.modifyConnection, World.modifyServer]
  | condemned => exact lifecycle.add (fun _ => rfl) (by simp)

end Lifecycle

namespace World

variable {guard : Thread → Task → Choice Thread → World Thread → Prop} [Fintype Thread]

/-- The induction for one connection, with its `Lifecycle` at hand. -/
theorem reachable_lifecycle (id : Nat)
    (Holds : Thread → TcpConnection Thread → Multiset (Located Thread Task) → Prop)
    (fresh : ∀ base connection, connection.Fresh →
      Holds base connection {(connection.loop, .connection id .connectionEstablished)})
    (preserved : ∀ machine before connection after,
      system.Reachable (Machine.onExec guard) machine → id < machine.client.created →
      Lifecycle id machine.client.server.loop (machine.client.connections id) before →
      ConnectionStep guard id machine.client before connection after →
      Holds machine.client.server.loop (machine.client.connections id) before →
      Holds machine.client.server.loop connection after)
    {machine : Machine (World Thread) Thread Task}
    (reachable : system.Reachable (Machine.onExec guard) machine)
    (created : id < machine.client.created) :
    Lifecycle id machine.client.server.loop (machine.client.connections id)
        (tokens id machine.flight) ∧
      Holds machine.client.server.loop (machine.client.connections id)
        (tokens id machine.flight) := by
  refine reachable_connection id (fun base connection flight =>
    Lifecycle id base connection flight ∧ Holds base connection flight) ?_ ?_ reachable created
  · exact fun base connection isFresh => ⟨.fresh isFresh, fresh base connection isFresh⟩
  · rintro machine before connection after reached exists' step ⟨lifecycle, holds⟩
    exact ⟨lifecycle.step step,
      preserved machine before connection after reached exists' lifecycle step holds⟩

variable {machine finish : Machine (World Thread) Thread Task}

/-- Every connection has its lifecycle in every run. -/
theorem lifecycle (id : Nat) (reachable : system.Reachable (Machine.onExec guard) machine)
    (created : id < machine.client.created) :
    Lifecycle id machine.client.server.loop (machine.client.connections id)
      (tokens id machine.flight) :=
  (reachable_lifecycle id (fun _ _ _ => True) (fun _ _ _ => trivial)
    (fun _ _ _ _ _ _ _ _ _ => trivial) reachable created).1

section Executing

variable {guard : Machine (World Thread) Thread Task → Label Thread (Choice Thread) → Prop}

/-- A connection exists when a task about it is executed. -/
theorem executing_created (reachable : system.Reachable guard machine)
    {label : Label Thread (Choice Thread)} {id : Nat} {task : Task} {choice : Choice Thread}
    (executed : machine.executing label = some (task, choice)) (about : task.about id = true) :
    id < machine.client.created := by
  have reached : system.Reachable (Machine.onExec fun _ _ _ _ => True) machine :=
    reachable.weaken fun _ _ _ => Machine.onExec_of_unguarded _ _ trivial
  exact (reachable_noneBefore reached).exists (Machine.executing_mem_flight executed) about

/-- Every function that has to run in the thread of its connection's loop does. -/
theorem executing_here (reachable : system.Reachable guard machine)
    {label : Label Thread (Choice Thread)} {id : Nat} {own : ConnectionTask}
    {choice : Choice Thread}
    (executed : machine.executing label = some (.connection id own, choice))
    (inLoop : own.inLoop = true) : label.thread = (machine.client.connections id).loop := by
  have reached : system.Reachable (Machine.onExec fun _ _ _ _ => True) machine :=
    reachable.weaken fun _ _ _ => Machine.onExec_of_unguarded _ _ trivial
  have about : (Task.connection id own).about id = true := by simp [Task.about]
  have token := (mem_tokens id).mpr ⟨Machine.executing_mem_flight executed, about⟩
  exact (lifecycle id reached (executing_created reachable executed about)).placed _ token inLoop

end Executing

/-- `AssertInLoopThread` and the assertion of `ConnectionEstablished` never fail. -/
theorem reachable_asserted {id : Nat} (reachable : system.Reachable (Machine.onExec guard) machine)
    (created : id < machine.client.created) :
    ∀ assertion ∈ (machine.client.connections id).history.failedAssertions,
      assertion = .isNoneEvent ∨ assertion = .erasedOne := by
  refine (reachable_lifecycle id (fun _ connection _ =>
    ∀ assertion ∈ connection.history.failedAssertions,
      assertion = .isNoneEvent ∨ assertion = .erasedOne) ?_ ?_ reachable created).2
  · rintro base _ ⟨loop, name, fd, onWriteComplete, rfl⟩
    simp
  · intro machine before connection after _ _ lifecycle step asserted assertion member
    cases step.view with
    | beside untouched =>
        obtain ⟨_, _, _, _, _, _, failed, rfl⟩ := untouched
        exact (failed assertion member).elim (asserted assertion) .inr
    | own _ _ effect =>
        rcases effect.failed member with before | fails
        · exact asserted assertion before
        · cases fails with
          | inLoopThread inLoop elsewhere => exact absurd (lifecycle.here inLoop) elsewhere
          | isConnecting state => exact absurd lifecycle.connecting.1 state
          | isNoneEvent => exact .inl rfl

/-- The induction along a run that goes on from a reachable state; the run before it
may have been under another guard. -/
theorem steps_lifecycle {earlier : Thread → Task → Choice Thread → World Thread → Prop}
    {id : Nat} {labels : List (Label Thread (Choice Thread))}
    (Holds : TcpConnection Thread → Multiset (Located Thread Task) → Prop)
    (preserved : ∀ (world : World Thread) before connection after,
      Lifecycle id world.server.loop (world.connections id) before →
      ConnectionStep guard id world before connection after →
      Holds (world.connections id) before → Holds connection after)
    (reachable : system.Reachable (Machine.onExec earlier) machine)
    (created : id < machine.client.created)
    (steps : system.Steps (Machine.onExec guard) machine labels finish)
    (holds : Holds (machine.client.connections id) (tokens id machine.flight)) :
    id < finish.client.created ∧
      Holds (finish.client.connections id) (tokens id finish.flight) := by
  have start : system.Reachable (Machine.onExec fun _ _ _ _ => True) machine :=
    reachable.weaken fun machine label _ => machine.onExec_of_unguarded label trivial
  induction steps with
  | refl => exact ⟨created, holds⟩
  | @step _ middle label next prior admitted stepped kept =>
      have reached := start.steps
        (prior.weaken fun machine label _ => machine.onExec_of_unguarded label trivial)
      obtain ⟨exists', holds⟩ := kept
      have step := Machine.guardedStep client_prompt reached admitted stepped
      refine ⟨Nat.lt_of_lt_of_le exists' (guardedStep_created step), ?_⟩
      refine (guardedStep_preserves (fun connection flight =>
        Lifecycle id middle.client.server.loop connection flight ∧ Holds connection flight) ?_
        exists' step ⟨lifecycle id reached exists', holds⟩).2
      rintro before connection after step ⟨lifecycle, holds⟩
      exact ⟨lifecycle.step step, preserved middle.client before connection after lifecycle step holds⟩

/-- What one transition can make of a connection, with the task that it executes. -/
theorem step_lifecycle {id : Nat} {label : Label Thread (Choice Thread)}
    {next : Machine (World Thread) Thread Task}
    (Becomes : TcpConnection Thread → Prop)
    (becomes : ∀ before connection after,
      Lifecycle id machine.client.server.loop (machine.client.connections id) before →
      ConnectionView (machine.executedBy label) id machine.client before connection after →
      Becomes connection)
    (reachable : system.Reachable (Machine.onExec guard) machine)
    (created : id < machine.client.created) (stepped : system.step machine label = some next)
    (same : Becomes (machine.client.connections id)) : Becomes (next.client.connections id) := by
  have step := Machine.guardedStep client_prompt reachable (Machine.onExec_executedBy label) stepped
  refine (guardedStep_preserves (fun connection flight =>
    Lifecycle id machine.client.server.loop connection flight ∧ Becomes connection) ?_ created step
    ⟨lifecycle id reachable created, same⟩).2
  rintro before connection after step ⟨lifecycle, -⟩
  exact ⟨lifecycle.step step, becomes before connection after lifecycle step.view⟩

/-- Whatever follows, a closed connection remains closed. -/
theorem steps_disconnected {id : Nat} {labels : List (Label Thread (Choice Thread))}
    (reachable : system.Reachable (Machine.onExec guard) machine)
    (created : id < machine.client.created)
    (closed : (machine.client.connections id).state = .disconnected)
    (steps : system.Steps (Machine.onExec guard) machine labels finish) :
    id < finish.client.created ∧ (finish.client.connections id).state = .disconnected := by
  refine steps_lifecycle (fun connection _ => connection.state = .disconnected) ?_ reachable created
    steps closed
  intro world before connection after lifecycle step isClosed
  cases step.view with
  | beside untouched =>
      obtain ⟨_, _, _, _, _, _, -, rfl⟩ := untouched
      exact isClosed
  | own _ _ effect => exact lifecycle.disconnected effect isClosed

end World

end Benet
