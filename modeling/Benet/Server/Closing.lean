import Benet.Server.Notification
import Benet.Server.Registration

/-!
# The end of a connection

What `Disconnected` means for the channel, and what `ConnectionDestroyed` leaves
behind. `StartRead` and `StopRead` look at no state, and `ConnectionDestroyed`
treats `Disconnecting` as if the connection were closed already; in runs that
avoid these, the events of a closed connection stay empty, its removed channel
stays out of the poller (`World.closed_stays_unregistered`), and
`ConnectionDestroyed` finishes it (`World.destroyed_is_finished`).
-/

namespace Benet

open EventLoop Semantics

variable {Thread : Type}

/-- `start_read_in_loop` does not run in `Disconnected`, and `ConnectionDestroyed`
runs in `Connected` or `Disconnected` only. -/
structure TcpConnection.ClosesCleanly (task : ConnectionTask) (connection : TcpConnection Thread) :
    Prop where
  startRead : task = .startReadInLoop → connection.state ≠ .disconnected
  destroyed : task = .connectionDestroyed →
    connection.state = .connected ∨ connection.state = .disconnected

instance (task : ConnectionTask) (connection : TcpConnection Thread) :
    Decidable (connection.ClosesCleanly task) :=
  decidable_of_iff
    ((task = .startReadInLoop → connection.state ≠ .disconnected) ∧
      (task = .connectionDestroyed →
        connection.state = .connected ∨ connection.state = .disconnected))
    ⟨fun both => ⟨both.1, both.2⟩, fun clean => ⟨clean.startRead, clean.destroyed⟩⟩

/-- Executing the task can call `UpdateChannel` for the channel of the connection. -/
def TcpConnection.Updates (task : ConnectionTask) (connection : TcpConnection Thread) : Prop :=
  match task with
  | .connectionEstablished => True
  | .startReadInLoop => connection.reading = false ∨ connection.channel.isReadEvent = false
  | .stopReadInLoop => connection.reading = true ∨ connection.channel.isReadEvent = true
  | .sendInLoop _ | .connectionDestroyed => connection.state = .connected
  | .handleWrite => connection.channel.isWriteEvent = true
  | .handleClose => connection.state = .connected ∨ connection.state = .disconnecting
  | _ => False

instance (task : ConnectionTask) (connection : TcpConnection Thread) :
    Decidable (connection.Updates task) := by
  unfold TcpConnection.Updates
  split <;> infer_instance

/-- The events of a closed connection stay empty until its channel is removed. -/
structure Closing (id : Nat) (connection : TcpConnection Thread)
    (flight : Multiset (Located Thread Task)) : Prop where
  events : connection.state = .disconnected → connection.channel.events = kNoneEvent
  removing : ∀ thread, (thread, .connection id .removeFromLoop) ∈ flight →
    connection.state = .disconnected
  removed : 0 < connection.history.removed → connection.state = .disconnected
  asserted : .isNoneEvent ∉ connection.history.failedAssertions

/-- A new connection is not closed. -/
theorem Closing.fresh {id : Nat} {connection : TcpConnection Thread} (isFresh : connection.Fresh) :
    Closing id connection {(connection.loop, .connection id .connectionEstablished)} := by
  obtain ⟨loop, name, fd, onWriteComplete, rfl⟩ := isFresh
  refine ⟨fun _ => rfl, ?_, ?_, ?_⟩ <;> simp

variable [DecidableEq Thread]

namespace Site

variable {thread : Thread} {id : Nat} {answers : Answers} {site next : Site Thread}
  {calls : List (Call Thread Task)} {task : ConnectionTask}

/-- While a connection is `Disconnected`, every task but `start_read_in_loop` keeps
its events empty, and so does the step that makes it `Disconnected`. -/
theorem Effect.events_closed (effect : Effect thread id answers site task next calls)
    (stopped : task = .startReadInLoop → site.connection.state ≠ .disconnected)
    (none : site.connection.state = .disconnected → site.connection.channel.events = kNoneEvent)
    (closed : next.connection.state = .disconnected) :
    next.connection.channel.events = kNoneEvent := by
  cases effect with
  | startReadEnabled => exact absurd closed (stopped rfl)
  | stopReadDisabled => simp [none closed, kNoneEvent]
  | connectionEstablished => cases closed
  | shutdownBegun | forceCloseBegun => cases closed
  | sendPartly state | sendBuffered state =>
      rw [appendRemaining_state] at closed
      exact absurd (state.symm.trans closed) (by simp)
  | writeDrains writing =>
      rw [Channel.isWriteEvent, none closed] at writing
      simp at writing
  | destroyedConnected | closes => simp
  | removeFromLoop => exact none closed
  | shutdownInLoop | shutdownDrained =>
      rw [shutdownWriteIfDrained_connection] at closed ⊢
      exact none closed
  | eventReads _ reads | afterCloseEvent reads => cases reads <;> exact none closed
  | _ => exact none closed

/-- Only `RemoveFromLoop` counts as a removal. -/
theorem Effect.removed_eq (effect : Effect thread id answers site task next calls)
    (other : task ≠ .removeFromLoop) :
    next.connection.history.removed = site.connection.history.removed := by
  cases effect with
  | connectionEstablished => simp [Site.connectionEstablished]
  | removeFromLoop => exact absurd rfl other
  | eventReads _ reads | afterCloseEvent reads => cases reads <;> simp
  | _ => simp

/-- Apart from `RemoveFromLoop`, the channel changes only by `UpdateChannel`. -/
theorem Effect.channel_kept (effect : Effect thread id answers site task next calls)
    (quiet : ¬ site.connection.Updates task) (kept : task ≠ .removeFromLoop) :
    next.connection.channel = site.connection.channel := by
  cases effect with
  | startReadEnabled updates | stopReadDisabled updates | sendPartly updates | sendBuffered updates
  | destroyedConnected updates | closes updates | writeDrains updates =>
      exact absurd updates quiet
  | connectionEstablished => exact absurd trivial quiet
  | removeFromLoop => exact absurd rfl kept
  | eventReads _ reads | afterCloseEvent reads => cases reads <;> simp
  | _ => simp

/-- What can still change the channel of a closed connection. -/
theorem Effect.channel_closed (effect : Effect thread id answers site task next calls)
    (closed : site.connection.state = .disconnected)
    (events : site.connection.channel.events = kNoneEvent)
    (noStart : task ≠ .startReadInLoop)
    (noStop : task = .stopReadInLoop → site.connection.reading = false)
    (established : task ≠ .connectionEstablished) (kept : task ≠ .removeFromLoop) :
    next.connection.channel = site.connection.channel := by
  refine effect.channel_kept (fun updates => ?_) kept
  cases task with
  | startReadInLoop => exact noStart rfl
  | connectionEstablished => exact established rfl
  | stopReadInLoop => simp [TcpConnection.Updates, Channel.isReadEvent, events, noStop rfl] at updates
  | handleWrite => simp [TcpConnection.Updates, Channel.isWriteEvent, events] at updates
  | sendInLoop | connectionDestroyed | handleClose => simp [TcpConnection.Updates, closed] at updates
  | _ => exact updates

end Site

/-- A task that closes cleanly keeps the events of a closed connection empty. -/
theorem Closing.effect {id : Nat} {base thread : Thread} {answers : Answers}
    {site next : Site Thread} {task : ConnectionTask} {calls : List (Call Thread Task)}
    {rest : Multiset (Located Thread Task)}
    (closing : Closing id site.connection ({(thread, .connection id task)} + rest))
    (lifecycle : Lifecycle id base site.connection ({(thread, .connection id task)} + rest))
    (clean : site.connection.ClosesCleanly task)
    (effect : site.Effect thread id answers task next calls) :
    Closing id next.connection (tokens id (Call.flights thread calls) + rest) := by
  have removes : task = .removeFromLoop → site.connection.state = .disconnected := by
    rintro rfl
    exact closing.removing thread (mem_first _ _)
  refine ⟨effect.events_closed clean.startRead closing.events, ?_, ?_, ?_⟩
  · intro other member
    rcases Multiset.mem_add.mp member with new | old
    · cases effect.emitted _ ((mem_tokens id).mp new).1 with
      | removeFromLoop =>
          cases effect with
          | destroyedConnected => rfl
          | destroyedOtherwise state => exact (clean.destroyed rfl).resolve_left state
    · exact lifecycle.disconnected effect
        (closing.removing other (Multiset.mem_add.mpr (.inr old)))
  · intro positive
    by_cases isRemoval : task = .removeFromLoop
    · exact lifecycle.disconnected effect (removes isRemoval)
    · rw [effect.removed_eq isRemoval] at positive
      exact lifecycle.disconnected effect (closing.removed positive)
  · intro member
    rcases effect.failed member with before | fails
    · exact closing.asserted before
    · cases fails with
      | isNoneEvent events =>
          rw [Channel.isNoneEvent, closing.events (removes rfl)] at events
          simp at events

/-- The guard admits tasks of connections only under `ClosesCleanly`. -/
def World.Clean (guard : Thread → Task → Choice Thread → World Thread → Prop) : Prop :=
  ∀ {thread id task choice world}, guard thread (.connection id task) choice world →
    (world.connections id).ClosesCleanly task

variable {guard : Thread → Task → Choice Thread → World Thread → Prop}

/-- Any step of a run that closes cleanly keeps the events of a closed connection empty. -/
theorem Closing.step {id : Nat} {world : World Thread} {connection : TcpConnection Thread}
    {before after : Multiset (Located Thread Task)}
    (closing : Closing id (world.connections id) before)
    (clean : ∀ {thread choice task rest}, before = {(thread, .connection id task)} + rest →
      guard thread (.connection id task) choice world → (world.connections id).ClosesCleanly task)
    (lifecycle : Lifecycle id world.server.loop (world.connections id) before)
    (step : World.ConnectionStep guard id world before connection after) :
    Closing id connection after := by
  cases step.view with
  | beside untouched _ external =>
      obtain ⟨_, _, _, _, _, _, failed, rfl⟩ := untouched
      refine ⟨closing.events, fun thread member => ?_, closing.removed, fun member => ?_⟩
      · exact closing.removing thread (World.mem_of_mem_beside external rfl member)
      · exact closing.asserted ((failed _ member).resolve_right (by simp))
  | own admitted _ effect => exact closing.effect lifecycle (clean rfl admitted) effect

namespace World

variable [Fintype Thread] {machine : Machine (World Thread) Thread Task} {id : Nat}

/-- The events of a closed connection are empty in every run that closes cleanly. -/
theorem reachable_closing (clean : Clean guard)
    (reachable : system.Reachable (Machine.onExec guard) machine)
    (created : id < machine.client.created) :
    Closing id (machine.client.connections id) (tokens id machine.flight) := by
  refine (reachable_lifecycle id (fun _ => Closing id) ?_ ?_ reachable created).2
  · exact fun _ _ isFresh => .fresh isFresh
  · exact fun _ _ _ _ _ _ lifecycle step closing =>
      closing.step (fun _ admitted => clean admitted) lifecycle step

/-- A connection whose channel the poller does not know is in no poller. -/
theorem absent_of_new (reachable : system.Reachable (Machine.onExec guard) machine)
    (created : id < machine.client.created)
    (index : (machine.client.connections id).channel.index = .kNewChannel) (loop : Thread) :
    (machine.client.pollers loop).Absent id := by
  have registered := reachable_registered reachable
  by_cases home : loop = (machine.client.connections id).loop
  · rw [home]
    exact (registered.tracks id created).absent index
  · exact registered.elsewhere id loop fun _ => home

/-- `ClosesCleanly` as a guard. -/
abbrev closesCleanly : Thread → Task → Choice Thread → World Thread → Prop :=
  onConnection fun task _ connection => connection.ClosesCleanly task

/-- Besides `ClosesCleanly`, `stop_read_in_loop` does not switch off the reading of
a channel that was removed. -/
abbrev leavesRemovedAlone : Thread → Task → Choice Thread → World Thread → Prop :=
  onConnection fun task _ connection => connection.ClosesCleanly task ∧
    (task = .stopReadInLoop → connection.history.removed = 0 ∨ connection.reading = false)

/-- A removed channel is new to the poller again, and remains so. -/
theorem reachable_removed
    (reachable : system.Reachable (Machine.onExec leavesRemovedAlone) machine)
    (created : id < machine.client.created)
    (removed : 0 < (machine.client.connections id).history.removed) :
    (machine.client.connections id).channel.index = .kNewChannel := by
  refine (reachable_lifecycle id (fun _ connection flight => Closing id connection flight ∧
    (0 < connection.history.removed → connection.channel.index = .kNewChannel)) ?_ ?_
      reachable created).2.2 removed
  · rintro base connection isFresh
    refine ⟨.fresh isFresh, fun removed => ?_⟩
    obtain ⟨loop, name, fd, onWriteComplete, rfl⟩ := isFresh
    rfl
  · rintro machine before connection after _ _ lifecycle step ⟨closing, index⟩
    refine ⟨closing.step (fun _ admitted => admitted.1) lifecycle step, fun removed => ?_⟩
    cases step.view with
    | beside untouched =>
        obtain ⟨_, _, _, _, _, _, -, rfl⟩ := untouched
        exact index removed
    | @own thread choice task site calls rest admitted unhurried effect =>
        by_cases isRemoval : task = .removeFromLoop
        · subst isRemoval
          cases effect with
          | removeFromLoop => rfl
        · rw [effect.removed_eq isRemoval] at removed
          have closed : (machine.client.connections id).state = .disconnected :=
            closing.removed removed
          rw [effect.channel_closed closed (closing.events closed) ?_ ?_ ?_ isRemoval]
          · exact index removed
          · exact fun isStart => admitted.1.startRead isStart closed
          · exact fun isStop => (admitted.2 isStop).resolve_left (Nat.ne_of_gt removed)
          · rintro rfl
            rw [lifecycle.connecting.1] at closed
            cases closed

/-- A closed connection is never registered again, in runs under
`leavesRemovedAlone`: from `Disconnected` on the events are empty, the assertion
of `RemoveFromLoop` never fails, and once `RemoveFromLoop` has run no poller knows
the channel. -/
theorem closed_stays_unregistered
    (reachable : system.Reachable (Machine.onExec leavesRemovedAlone) machine)
    (created : id < machine.client.created) :
    (∀ labels finish, system.Steps (Machine.onExec leavesRemovedAlone) machine labels finish →
      (machine.client.connections id).state = .disconnected →
        (finish.client.connections id).channel.events = kNoneEvent) ∧
    .isNoneEvent ∉ (machine.client.connections id).history.failedAssertions ∧
    (0 < (machine.client.connections id).history.removed →
      ∀ loop, (machine.client.pollers loop).Absent id) := by
  have clean : Clean (leavesRemovedAlone : Thread → _) := fun admitted => admitted.1
  refine ⟨?_, (reachable_closing clean reachable created).asserted, ?_⟩
  · intro labels finish steps closed
    obtain ⟨exists', isClosed⟩ := steps_disconnected reachable created closed steps
    exact (reachable_closing clean (reachable.steps steps) exists').events isClosed
  · intro removed loop
    exact absent_of_new reachable created (reachable_removed reachable created removed) loop

/-- The peer of connection `0` closes; `handle_close` runs and is about to call the
user. -/
def peerCloses : List (Label TwoThreads (Choice TwoThreads)) :=
  establishOne ++ nextPoll [.channel (.connection 0 (.handleEvent epollIn))] ++
    [turn 0 { answers := { read := .received [] } }] ++ turns 0 1

/-- The user leaves, and the connection is removed from the server and destroyed. -/
def removeAndDestroy : List (Label TwoThreads (Choice TwoThreads)) := turns 0 12

/-- The peer closes the connection, which is removed from its loop and is in no poller. -/
theorem closed_stays_unregistered_peerCloses :
    ∃ machine : Machine (World TwoThreads) TwoThreads Task,
      (machine.client.connections 0).history.removed = 1 ∧
      .isNoneEvent ∉ (machine.client.connections 0).history.failedAssertions ∧
      ∀ loop, (machine.client.pollers loop).Absent 0 := by
  let machine := (system.run (Machine.onExec leavesRemovedAlone) serverOnZero
    (peerCloses ++ removeAndDestroy)).get (by decide +kernel)
  have reachable : system.Reachable (Machine.onExec leavesRemovedAlone) machine :=
    LabelledSystem.run_reachable serverOnZero_initial (Option.some_get _).symm
  have created : 0 < machine.client.created := by decide +kernel
  have removed : (machine.client.connections 0).history.removed = 1 := by decide +kernel
  obtain ⟨-, asserted, absent⟩ := closed_stays_unregistered reachable created
  exact ⟨machine, removed, asserted, absent (by omega)⟩

/-- The user resumes reading in the down notification. -/
def startReadInCallback : List (Label TwoThreads (Choice TwoThreads)) :=
  peerCloses ++ [turn 0 { action := .call 0 .startRead }] ++ turns 0 3

/-- Then the connection is removed and destroyed, and another piece of user code
stops reading. -/
def stopReadAfterDestroy : List (Label TwoThreads (Choice TwoThreads)) :=
  removeAndDestroy ++ turns 0 2 ++ [turn 0 { action := .call 0 .stopRead }] ++ turns 0 3

/-- `StartRead` enables the events of a closed connection, so the assertion of
`RemoveFromLoop` fails; `StopRead` afterwards adds the removed channel to the
poller again. -/
theorem closed_registered_again :
    ∃ closed finish : Machine (World TwoThreads) TwoThreads Task,
      system.Reachable LabelledSystem.unguarded closed ∧
      system.Steps LabelledSystem.unguarded closed stopReadAfterDestroy finish ∧
      (closed.client.connections 0).state = .disconnected ∧
      (closed.client.connections 0).channel.events = kReadEvent ∧
      (finish.client.connections 0).history.failedAssertions = [.isNoneEvent] ∧
      (finish.client.connections 0).history.removed = 1 ∧
      ¬ (finish.client.pollers 0).Absent 0 := by
  let closed := (system.run LabelledSystem.unguarded serverOnZero startReadInCallback).get
    (by decide +kernel)
  let finish := (system.run LabelledSystem.unguarded closed stopReadAfterDestroy).get
    (by decide +kernel)
  have again : (finish.client.pollers 0).channels 10 = some 0 := by decide +kernel
  refine ⟨closed, finish, LabelledSystem.run_reachable serverOnZero_initial (Option.some_get _).symm,
    LabelledSystem.run_steps (Option.some_get _).symm, by decide +kernel, by decide +kernel,
    by decide +kernel, by decide +kernel, ?_⟩
  exact fun absent => (absent 10).1 again

/-- `ConnectionDestroyed` finishes every connection, in runs under
`closesCleanly`: the assertion of `RemoveFromLoop` never fails; once it has run,
the connection is `Disconnected` and was reported down exactly once; and right
after it no poller knows the channel. -/
theorem destroyed_is_finished
    (reachable : system.Reachable (Machine.onExec closesCleanly) machine)
    (created : id < machine.client.created) :
    .isNoneEvent ∉ (machine.client.connections id).history.failedAssertions ∧
    (0 < (machine.client.connections id).history.removed →
      (machine.client.connections id).state = .disconnected ∧
        (machine.client.connections id).downs = 1) ∧
    (∀ label choice next, machine.executing label = some (.connection id .removeFromLoop, choice) →
      system.step machine label = some next → ∀ loop, (next.client.pollers loop).Absent id) := by
  have closing := reachable_closing (fun admitted => admitted) reachable created
  refine ⟨closing.asserted, ?_, ?_⟩
  · intro removed
    have closed := closing.removed removed
    refine ⟨closed, ?_⟩
    rw [reachable_downs reachable created, if_pos closed]
  · intro label choice next executed stepped loop
    obtain ⟨site, calls, effect, after⟩ := executing_effect executed stepped
    have admitted : machine.onExec closesCleanly label := by
      intro other found
      obtain rfl : (_, choice) = other := Option.some.inj (executed.symm.trans found)
      exact ⟨by simp, by simp⟩
    refine absent_of_new (reachable.step admitted stepped) ?_ ?_ loop
    · rw [after]
      exact created
    · rw [after, setSite_connections_self]
      cases effect with
      | removeFromLoop => rfl

/-- The user destroys the server, whose only connection is connection `0`. -/
def destroysServer : List (Label TwoThreads (Choice TwoThreads)) :=
  [turn 0 { action := .destroyServer }, turn 0 { order := [0] }]

/-- The server is destroyed with an open connection, which is finished and removed. -/
theorem destroyed_is_finished_destroysServer :
    ∃ machine : Machine (World TwoThreads) TwoThreads Task,
      (machine.client.connections 0).history.removed = 1 ∧
      (machine.client.connections 0).state = .disconnected ∧
      (machine.client.connections 0).downs = 1 := by
  let machine := (system.run (Machine.onExec closesCleanly) serverOnZero
    (userTurn ++ destroysServer ++ turns 0 4)).get (by decide +kernel)
  have reachable : system.Reachable (Machine.onExec closesCleanly) machine :=
    LabelledSystem.run_reachable serverOnZero_initial (Option.some_get _).symm
  have created : 0 < machine.client.created := by decide +kernel
  have removed : (machine.client.connections 0).history.removed = 1 := by decide +kernel
  obtain ⟨-, finished, -⟩ := destroyed_is_finished reachable created
  exact ⟨machine, removed, finished (by omega)⟩

/-- The user shuts connection `0` down before destroying the server. -/
def shutdownThenDestroy : List (Label TwoThreads (Choice TwoThreads)) :=
  userTurn ++ [turn 0 { action := .call 0 .shutdown }] ++ turns 0 3 ++ destroysServer ++ turns 0 3

/-- `ConnectionDestroyed` in `Disconnecting` disables no events, stores no state
and reports nothing: the assertion of `RemoveFromLoop` fails, the state stays
`Disconnecting`, and there is no down notification. -/
theorem destroyed_unfinished :
    ∃ machine : Machine (World TwoThreads) TwoThreads Task,
      system.Reachable LabelledSystem.unguarded machine ∧
      (machine.client.connections 0).history.established = 1 ∧
      (machine.client.connections 0).history.removed = 1 ∧
      (machine.client.connections 0).history.failedAssertions = [.isNoneEvent] ∧
      (machine.client.connections 0).state = .disconnecting ∧
      (machine.client.connections 0).downs = 0 := by
  let machine := (system.run LabelledSystem.unguarded serverOnZero shutdownThenDestroy).get
    (by decide +kernel)
  exact ⟨machine, LabelledSystem.run_reachable serverOnZero_initial (Option.some_get _).symm,
    by decide +kernel, by decide +kernel, by decide +kernel, by decide +kernel, by decide +kernel⟩

end World

end Benet
