import Benet.EventLoop.Delivery
import Benet.Server.Settling

/-!
# Connections are established and removed in the end

A connection passes its stages in functors of two loops: `ConnectionEstablished` after
`new_connection`, and `handle_close`, `remove_connection` and `ConnectionDestroyed` one after
the other when it is closed. In a run that goes on for ever, where all threads keep moving and
the two loops are not stopped, no stage is the last before the end: every connection is
established, and when its closing has begun, it is removed for good
(`World.connections_come_and_go`).
-/

namespace Benet

open EventLoop Semantics

variable {Thread : Type} [DecidableEq Thread]

/-- `ForceClose` posts its functor in `Disconnecting`. -/
theorem Site.Effect.forcing {thread waiting : Thread} {id : Nat} {answers : Answers}
    {site next : Site Thread} {task : ConnectionTask} {calls : List (Call Thread Task)}
    (effect : site.Effect thread id answers task next calls)
    (member : (waiting, .connection id .forceCloseInLoop) ∈ Call.flights thread calls) :
    next.connection.state = .disconnecting := by
  cases effect.emitted _ member with
  | forceCloseInLoop caller =>
      rcases caller with rfl | rfl
      · cases effect with
        | forceCloseBegun => rfl
        | forceCloseFailed => simp [Call.flight] at member
      · cases effect with
        | forceCloseLoaded state => exact state
        | forceCloseIgnored => simp at member

namespace World

section Loops

variable [Fintype Thread] {guard : Thread → Task → Choice Thread → World Thread → Prop}
  {machine finish : Machine (World Thread) Thread Task} {id : Nat}
  {labels : List (Label Thread (Choice Thread))}

/-- The server and the connection stay on their loops, and removals are not taken back. -/
theorem steps_homes (reachable : system.Reachable (Machine.onExec guard) machine)
    (created : id < machine.client.created)
    (steps : system.Steps (Machine.onExec guard) machine labels finish) :
    id < finish.client.created ∧
      (finish.client.connections id).loop = (machine.client.connections id).loop ∧
      (machine.client.connections id).history.removed ≤
        (finish.client.connections id).history.removed := by
  refine steps_lifecycle (fun connection _ =>
    connection.loop = (machine.client.connections id).loop ∧
      (machine.client.connections id).history.removed ≤ connection.history.removed) ?_ reachable
    created steps ⟨rfl, le_rfl⟩
  rintro world before connection after _ step ⟨loop, removed⟩
  cases step.view with
  | beside untouched =>
      obtain ⟨_, _, _, _, _, _, -, rfl⟩ := untouched
      exact ⟨loop, removed⟩
  | @own _ _ task _ _ _ _ _ effect =>
      refine ⟨effect.identity.loop.trans loop, ?_⟩
      by_cases removes : task = .removeFromLoop
      · subst removes
        cases effect with
        | removeFromLoop => exact Nat.le_succ_of_le removed
      · rwa [effect.removed_eq removes]

/-- The server stays on its loop. -/
theorem steps_server_loop (reachable : system.Reachable (Machine.onExec guard) machine)
    (steps : system.Steps (Machine.onExec guard) machine labels finish) :
    finish.client.server.loop = machine.client.server.loop := by
  induction steps with
  | refl => rfl
  | step prior admitted stepped inductionHypothesis =>
      have reached := reachable.steps prior
      rw [← inductionHypothesis]
      cases Machine.guardedStep client_prompt reached admitted stepped with
      | executes _ _ _ executed => exact (exec_executes executed).server_loop
      | arrives same => rw [same]

end Loops

/-- `ForceClose` has left `Connected` by the time its functor is posted. -/
theorem reachable_forced [Fintype Thread]
    {guard : Thread → Task → Choice Thread → World Thread → Prop}
    {machine : Machine (World Thread) Thread Task} {id : Nat}
    (reachable : system.Reachable (Machine.onExec guard) machine)
    (created : id < machine.client.created) {thread : Thread}
    (waits : (thread, .connection id .forceCloseInLoop) ∈ tokens id machine.flight) :
    TcpState.disconnecting.rank ≤ (machine.client.connections id).state.rank := by
  refine (reachable_lifecycle id (fun _ connection flight => ∀ thread,
    (thread, .connection id .forceCloseInLoop) ∈ flight →
      TcpState.disconnecting.rank ≤ connection.state.rank) ?_ ?_ reachable created).2 thread waits
  · intro _ connection _ thread member
    simp at member
  · intro machine before connection after _ _ lifecycle step forced thread member
    cases step.view with
    | beside untouched _ external =>
        obtain ⟨_, _, _, _, _, _, -, rfl⟩ := untouched
        exact forced thread (mem_of_mem_beside external rfl member)
    | own _ _ effect =>
        rcases Multiset.mem_add.mp member with called | waits
        · rw [effect.forcing ((mem_tokens id).mp called).1]
        · exact (forced thread (Multiset.mem_add.mpr (.inr waits))).trans
            (effect.state_moves.rank_le lifecycle.establishes)

/-- Runs of the server that go on for ever. The server is kept, users call neither
`StartRead` nor `StopRead`, and the 64-bit counter of connections does not wrap around. -/
abbrev EndlessRun (Thread : Type) [DecidableEq Thread] [Fintype Thread] :=
  Continuation (system : LabelledSystem (Machine (World Thread) Thread Task)
    (Label Thread (Choice Thread))) (Machine.onExec serves)

section Continuation

variable [Fintype Thread] {continuation : EndlessRun Thread} {first later : Nat} {id : Nat}
  {loop : Thread}

/-- From this point of the run on the loop is in `Start`, and it is never stopped. -/
structure RunsFrom (continuation : EndlessRun Thread) (first : Nat) (loop : Thread) : Prop where
  inStart : ((continuation.state first).loops loop).phase.InStart
  running : ∀ index, first ≤ index → ((continuation.state index).loops loop).quitting = false

/-- A loop that runs from some point on runs from any later point on. -/
theorem RunsFrom.mono (runs : RunsFrom continuation first loop) (order : first ≤ later) :
    RunsFrom continuation later loop :=
  ⟨Machine.stays_inStart runs.inStart runs.running order,
    fun index after => runs.running index (order.trans after)⟩

/-- From this point of the run on the connection exists, and the loops that look after it,
the server's and its own, are running. -/
structure Attended (continuation : EndlessRun Thread) (id first : Nat) : Prop where
  created : id < (continuation.state first).client.created
  base : RunsFrom continuation first (continuation.state first).client.server.loop
  home : RunsFrom continuation first ((continuation.state first).client.connections id).loop

/-- The closing of the connection has begun: it is closed, or `handle_close` is about to run,
or the functor of `ForceClose` is. -/
inductive Closes (id : Nat) (machine : Machine (World Thread) Thread Task) : Prop where
  | closed (state : (machine.client.connections id).state = .disconnected)
  | closing {thread} (established : (machine.client.connections id).state ≠ .connecting)
      (waits : (thread, .connection id .handleClose) ∈ machine.flight)
  | forced {thread} (waits : (thread, .connection id .forceCloseInLoop) ∈ machine.flight)

section Fair

variable (reachable : system.Reachable (Machine.onExec serves) (continuation.state 0))
  (moving : ∀ thread, Machine.KeepsMoving continuation thread)

include reachable

/-- A connection that is looked after from some point on is so from any later point on. -/
theorem Attended.mono (attended : Attended continuation id first) (order : first ≤ later) :
    Attended continuation id later := by
  obtain ⟨labels, steps⟩ := continuation.steps order
  have reached := continuation.reachable reachable first
  obtain ⟨created, loop, -⟩ := steps_homes reached attended.created steps
  have base := steps_server_loop reached steps
  exact ⟨created, base ▸ attended.base.mono order, loop ▸ attended.home.mono order⟩

/-- An established connection is never `Connecting` again. -/
theorem Attended.past_connecting (attended : Attended continuation id first) {later : Nat}
    (order : first ≤ later)
    (established : ((continuation.state first).client.connections id).state ≠ .connecting) :
    ((continuation.state later).client.connections id).state ≠ .connecting := by
  obtain ⟨labels, steps⟩ := continuation.steps order
  have forward := steps_rank_le (continuation.reachable reachable first) attended.created steps
  intro connecting
  rw [connecting] at forward
  cases state : ((continuation.state first).client.connections id).state with
  | connecting => exact established state
  | connected | disconnecting | disconnected => simp [state, TcpState.rank] at forward

include moving

/-- What waits for one of the two loops is executed. -/
theorem Attended.executes (attended : Attended continuation id first) (task : Task)
    (placed : ∀ base home thread : Thread, task.Placed base home thread →
      thread = base ∨ thread = home)
    (about : task.about id = true)
    (waits : 0 < inFlight task (tokens id (continuation.state first).flight)) :
    ∃ index thread choice calls, first ≤ index ∧
      Executes thread choice (continuation.state index).client task
        (continuation.state (index + 1)).client calls ∧
      ∀ called, called.about id = true → 0 < inFlight called (Call.flights thread calls) →
        0 < inFlight called (tokens id (continuation.state (index + 1)).flight) := by
  obtain ⟨⟨thread, _⟩, member, rfl⟩ := Multiset.countP_pos.mp waits
  have reached := continuation.reachable reachable first
  have runs : RunsFrom continuation first thread := by
    rcases placed _ _ _ ((lifecycle id reached attended.created).placed _ member) with rfl | rfl
    · exact attended.base
    · exact attended.home
  obtain ⟨index, since, rfl, choice, executed⟩ := Machine.executed_eventually reachable moving
    runs.inStart runs.running ((mem_tokens id).mp member).1
  obtain ⟨calls, rest, ran, -, flown⟩ :=
    Machine.executing_flight executed (continuation.transition index)
  refine ⟨index, _, choice, calls, since, exec_executes ran, fun called own waits => ?_⟩
  rw [inFlight_tokens _ own, flown, inFlight_add]
  omega

/-- Every connection is established. -/
theorem Attended.established (attended : Attended continuation id first) :
    ∃ index, first ≤ index ∧
      ((continuation.state index).client.connections id).state ≠ .connecting := by
  by_cases connecting : ((continuation.state first).client.connections id).state = .connecting
  · have cycle := lifecycle id (continuation.reachable reachable first) attended.created
    have waits := cycle.establishing
    rw [if_pos connecting] at waits
    obtain ⟨index, thread, choice, calls, since, executes, -⟩ :=
      attended.executes reachable moving (.connection id .connectionEstablished)
        (fun _ _ _ placed => .inr (placed rfl)) (by simp [Task.about]) (by omega)
    refine ⟨index + 1, by omega, ?_⟩
    generalize (continuation.state (index + 1)).client = next at executes
    cases executes with
    | connection effect =>
        rw [setSite_connections_self]
        cases effect with
        | connectionEstablished =>
            intro same
            cases same
  · exact ⟨first, le_rfl, connecting⟩

/-- After `ConnectionDestroyed` the channel is taken out of the loop. -/
theorem Attended.removed (attended : Attended continuation id first)
    (destroyed : 0 < ((continuation.state first).client.connections id).history.destroyed) :
    ∃ index, first ≤ index ∧
      0 < ((continuation.state index).client.connections id).history.removed := by
  by_cases removed : 0 < ((continuation.state first).client.connections id).history.removed
  · exact ⟨first, le_rfl, removed⟩
  · have removing := (reachable_removal (continuation.reachable reachable first)
      attended.created).1.removing
    obtain ⟨index, thread, choice, calls, since, executes, -⟩ :=
      attended.executes reachable moving (.connection id .removeFromLoop)
        (fun _ _ _ placed => .inr (placed rfl)) (by simp [Task.about]) (by omega)
    refine ⟨index + 1, by omega, ?_⟩
    generalize (continuation.state (index + 1)).client = next at executes
    cases executes with
    | connection effect =>
        rw [setSite_connections_self]
        cases effect with
        | removeFromLoop => exact Nat.succ_pos _

/-- After its entry was erased the connection is destroyed. -/
theorem Attended.destroyed (attended : Attended continuation id first)
    (erased : 0 < ((continuation.state first).client.connections id).history.erased) :
    ∃ index, first ≤ index ∧
      0 < ((continuation.state index).client.connections id).history.destroyed := by
  by_cases destroyed : 0 < ((continuation.state first).client.connections id).history.destroyed
  · exact ⟨first, le_rfl, destroyed⟩
  · have destroying := (reachable_removal (continuation.reachable reachable first)
      attended.created).1.destroying
    obtain ⟨index, thread, choice, calls, since, executes, -⟩ :=
      attended.executes reachable moving (.connection id .connectionDestroyed)
        (fun _ _ _ placed => .inr (placed rfl)) (by simp [Task.about]) (by omega)
    refine ⟨index + 1, by omega, ?_⟩
    generalize (continuation.state (index + 1)).client = next at executes
    cases executes with
    | connection effect =>
        rw [setSite_connections_self, effect.counts.destroyed, if_pos rfl]
        exact Nat.succ_pos _

/-- The functor of `remove_connection` erases the entry. -/
theorem Attended.erased (attended : Attended continuation id first)
    (waits : 0 < inFlight (.removeConnection id) (tokens id (continuation.state first).flight)) :
    ∃ index, first ≤ index ∧
      0 < ((continuation.state index).client.connections id).history.erased := by
  obtain ⟨index, thread, choice, calls, since, executes, flown⟩ :=
    attended.executes reachable moving (.removeConnection id) (fun _ _ _ placed => .inl placed)
      (by simp [Task.about]) waits
  have after := attended.mono reachable (Nat.le_succ_of_le since)
  have destroying := (reachable_removal (continuation.reachable reachable (index + 1))
    after.created).1.destroying
  -- it has posted `ConnectionDestroyed`, which comes after the removal only
  have posted := flown (.connection id .connectionDestroyed) (by simp [Task.about]) ?_
  · exact ⟨index + 1, by omega, by omega⟩
  · have alive := reachable_alive (continuation.reachable reachable index)
    generalize (continuation.state (index + 1)).client = next at executes
    cases executes with
    | removeConnection => simp [Call.flight]
    | removeDead dead => simp [alive] at dead

/-- A closed connection is removed. -/
theorem Attended.leaves (attended : Attended continuation id first)
    (closed : ((continuation.state first).client.connections id).state = .disconnected) :
    ∃ index, first ≤ index ∧
      0 < ((continuation.state index).client.connections id).history.removed := by
  have leaving := (reachable_removal (continuation.reachable reachable first)
    attended.created).1.leaving
  rw [if_pos closed] at leaving
  have erases : ∃ index, first ≤ index ∧
      0 < ((continuation.state index).client.connections id).history.erased := by
    by_cases erased : 0 < ((continuation.state first).client.connections id).history.erased
    · exact ⟨first, le_rfl, erased⟩
    by_cases posted : 0 < inFlight (.removeConnection id)
        (tokens id (continuation.state first).flight)
    · exact attended.erased reachable moving posted
    · obtain ⟨index, thread, choice, calls, since, executes, flown⟩ :=
        attended.executes reachable moving (.onClose id) (fun _ _ _ placed => .inr placed)
          (by simp [Task.about]) (by omega)
      have posts := flown (.removeConnection id) (by simp [Task.about]) ?_
      · obtain ⟨final, after, erased⟩ :=
          (attended.mono reachable (Nat.le_succ_of_le since)).erased reachable moving posts
        exact ⟨final, by omega, erased⟩
      · have alive := reachable_alive (continuation.reachable reachable index)
        generalize (continuation.state (index + 1)).client = next at executes
        cases executes with
        | onClose => simp [Call.flight]
        | onCloseDead dead => simp [alive] at dead
  obtain ⟨afterErase, since, erased⟩ := erases
  obtain ⟨afterDestroy, sinceErase, destroyed⟩ :=
    (attended.mono reachable since).destroyed reachable moving erased
  obtain ⟨index, sinceDestroy, removed⟩ :=
    (attended.mono reachable (since.trans sinceErase)).removed reachable moving destroyed
  exact ⟨index, by omega, removed⟩

/-- When `handle_close` is about to run, the connection will be closed. -/
theorem Attended.closes (attended : Attended continuation id first)
    (established : ((continuation.state first).client.connections id).state ≠ .connecting)
    (waits : 0 < inFlight (.connection id .handleClose)
      (tokens id (continuation.state first).flight)) :
    ∃ index, first ≤ index ∧
      ((continuation.state index).client.connections id).state = .disconnected := by
  obtain ⟨index, thread, choice, calls, since, executes, -⟩ :=
    attended.executes reachable moving (.connection id .handleClose)
      (fun _ _ _ placed => .inr (placed rfl)) (by simp [Task.about]) waits
  have established := attended.past_connecting reachable since established
  refine ⟨index + 1, by omega, ?_⟩
  generalize (continuation.state (index + 1)).client = next at executes
  cases executes with
  | connection effect =>
      rw [setSite_connections_self]
      cases effect with
      | closes => rfl
      | closeSkipped notConnected notDisconnecting =>
          by_contra notClosed
          exact (TcpState.isOpen_of_ne established notClosed).elim notConnected notDisconnecting

/-- The functor of `ForceClose` closes a connection that is still open. -/
theorem Attended.forceCloses (attended : Attended continuation id first)
    (waits : 0 < inFlight (.connection id .forceCloseInLoop)
      (tokens id (continuation.state first).flight)) :
    ∃ index, first ≤ index ∧
      ((continuation.state index).client.connections id).state = .disconnected := by
  have reached := continuation.reachable reachable first
  have established : ((continuation.state first).client.connections id).state ≠ .connecting := by
    obtain ⟨⟨thread, _⟩, member, rfl⟩ := Multiset.countP_pos.mp waits
    have forced := reachable_forced reached attended.created member
    intro connecting
    simp [connecting, TcpState.rank] at forced
  obtain ⟨index, thread, choice, calls, since, executes, flown⟩ :=
    attended.executes reachable moving (.connection id .forceCloseInLoop)
      (fun _ _ _ placed => .inr (placed rfl)) (by simp [Task.about]) waits
  have after := attended.mono reachable (Nat.le_succ_of_le since)
  by_cases closed : ((continuation.state index).client.connections id).state = .disconnected
  · exact ⟨index, since, closed⟩
  have called := flown (.connection id .handleClose) (by simp [Task.about]) ?_
  · obtain ⟨final, later, closes⟩ := after.closes reachable moving
      (attended.past_connecting reachable (Nat.le_succ_of_le since) established) called
    exact ⟨final, by omega, closes⟩
  · have established := attended.past_connecting reachable since established
    have isOpen := TcpState.isOpen_of_ne established closed
    generalize (continuation.state (index + 1)).client = next at executes
    cases executes with
    | connection effect =>
        cases effect with
        | forceCloseInLoop =>
            rw [if_pos (by exact isOpen)]
            simp [Call.flight]

/-- In a run that goes on for ever, of a server that is kept and whose users call neither
`StartRead` nor `StopRead`, when all threads keep moving and neither the server's loop nor the
connection's is stopped: the connection is established, and if its closing begins, whether by
its peer, by an error or by `ForceClose`, it is removed from the registry, destroyed and taken
out of its loop, and it stays away. -/
theorem connections_come_and_go (attended : Attended continuation id first) :
    (∃ index, first ≤ index ∧
      ((continuation.state index).client.connections id).state ≠ .connecting) ∧
    (Closes id (continuation.state first) →
      ∃ index, first ≤ index ∧
        ∀ later, index ≤ later → (continuation.state later).client.Gone id) := by
  refine ⟨attended.established reachable moving, fun closing => ?_⟩
  have closes : ∃ index, first ≤ index ∧
      ((continuation.state index).client.connections id).state = .disconnected := by
    have counted : ∀ {thread : Thread} {task : ConnectionTask},
        (thread, .connection id task) ∈ (continuation.state first).flight →
        0 < inFlight (.connection id task) (tokens id (continuation.state first).flight) := by
      intro thread task member
      exact Multiset.countP_pos.mpr ⟨_, (mem_tokens id).mpr ⟨member, by simp [Task.about]⟩, rfl⟩
    cases closing with
    | closed state => exact ⟨first, le_rfl, state⟩
    | closing established waits =>
        exact attended.closes reachable moving established (counted waits)
    | forced waits => exact attended.forceCloses reachable moving (counted waits)
  obtain ⟨afterClose, since, closed⟩ := closes
  obtain ⟨index, sinceClose, removed⟩ :=
    (attended.mono reachable since).leaves reachable moving closed
  refine ⟨index, since.trans sinceClose, fun later after => ?_⟩
  obtain ⟨labels, steps⟩ := continuation.steps after
  have present := attended.mono reachable (since.trans sinceClose)
  obtain ⟨created, -, kept⟩ :=
    steps_homes (continuation.reachable reachable index) present.created steps
  exact gone_of_removed (continuation.reachable reachable later) created (by omega)

end Fair

end Continuation

section Lone

/-- A server on the only loop of its program. -/
def loneServer : Machine (World Unit) Unit Task where
  client := initial { loop := (), name := "server", listenAddr := "addr" }

/-- The run starts with a new server. -/
theorem loneServer_initial : system.Initial loneServer :=
  ⟨_, ⟨(), "server", "addr", false, rfl⟩, rfl⟩

/-- The next step. -/
def goes (choice : Choice Unit) : Label Unit (Choice Unit) := ⟨(), .proceed choice⟩

/-- A connection is established, its peer closes it, and `handle_close` is called. -/
def acceptsAndCloses : List (Label Unit (Choice Unit)) :=
  [⟨(), .start⟩, goes {}, goes { actives := [.channel .newConnection] }, goes {}, goes { fd := 10 }] ++
    List.replicate 9 (goes {}) ++
    [goes { actives := [.channel (.connection 0 (.handleEvent epollHup))] }] ++
    List.replicate 2 (goes {})

/-- Then it goes on by itself until everything is done. -/
def comesToRest : List (Label Unit (Choice Unit)) := List.replicate 40 (goes {})

/-- The peer hangs up, and in a run that goes on for ever the connection is gone at some point. -/
theorem connections_come_and_go_acceptsAndCloses :
    ∃ continuation : EndlessRun Unit, Closes 0 (continuation.state 0) ∧
      ∃ index, (continuation.state index).client.Gone 0 := by
  let start := (system.run (Machine.onExec serves) loneServer acceptsAndCloses).get
    (by decide +kernel)
  let finish := (system.run (Machine.onExec serves) start comesToRest).get (by decide +kernel)
  have reachable : system.Reachable (Machine.onExec serves) start :=
    LabelledSystem.run_reachable loneServer_initial (Option.some_get _).symm
  have steps : system.Steps (Machine.onExec serves) start comesToRest finish :=
    LabelledSystem.run_steps (Option.some_get _).symm
  have resting : finish.Resting :=
    ⟨⟨by decide +kernel, by decide +kernel⟩, by decide +kernel, by decide +kernel,
      by decide +kernel⟩
  obtain ⟨continuation, begins, moving, running⟩ :=
    resting.continues {} steps rfl fun machine label none executed found => by simp [none] at found
  have runs : RunsFrom continuation 0 () := by
    refine ⟨?_, fun index _ => running index⟩
    rw [begins]
    exact ⟨by decide +kernel, by decide +kernel⟩
  have attended : Attended continuation 0 0 := by
    refine ⟨?_, runs, runs⟩
    rw [begins]
    decide +kernel
  have closing : Closes 0 (continuation.state 0) := by
    rw [begins]
    have waits : ((), .connection 0 .handleClose) ∈ start.flight := by decide +kernel
    exact .closing (by decide +kernel) waits
  obtain ⟨index, -, gone⟩ :=
    (connections_come_and_go (begins ▸ reachable) moving attended).2 closing
  exact ⟨continuation, closing, index, gone index le_rfl⟩

end Lone

end World

end Benet
