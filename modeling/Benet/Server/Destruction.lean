import Benet.Server.Removal

/-!
# The destruction of the server

`~TcpServer` in the server's loop, with connections on any loops that are being
closed meanwhile. `on_close_` and the functor of `remove_connection` hold the
server by a plain pointer: they are safe when every closed connection has left the
registry before the destructor begins and no connection is closed after it
(`World.destruction_is_safe`). In such runs `ConnectionDestroyed` runs at most once.

The server counts as destroyed from the beginning of its destructor on. Until the destructor
has ended the members of the server exist, so that a function of the server that runs in
between, on another thread, is a race with the destructor, and the functor that it posts runs
after the end. The model counts such a function as a use of the dead server and lets it do
nothing, and with the functor a second `ConnectionDestroyed` is lost: outside the condition
the model says nothing about how often it runs.
-/

namespace Benet

open EventLoop Semantics

variable {Thread : Type}

/-- A connection of a server that lives or has been destroyed. -/
structure Departing (id : Nat) (alive : Bool) (connection : TcpConnection Thread)
    (flight : Multiset (Located Thread Task)) : Prop where
  departure : alive = true → Departure id connection flight
  once : connection.history.destroyed +
    inFlight (.connection id .connectionDestroyed) flight ≤ 1

namespace Departing

variable {id : Nat} {alive : Bool} {connection : TcpConnection Thread}
  {before after : Multiset (Located Thread Task)}

/-- What is known while the server lives is enough for either case. -/
theorem of_departure (departure : Departure id connection after) :
    Departing id alive connection after := by
  refine ⟨fun _ => departure, ?_⟩
  rw [departure.destroying]
  exact departure.erased_le

variable [DecidableEq Thread]
  {guard : Thread → Task → Choice Thread → World Thread → Prop} {world : World Thread}

/-- Without a server nothing brings another `ConnectionDestroyed`. -/
theorem once_step (dead : world.server.alive = false)
    (survives : ∀ {thread choice}, ¬ guard thread .destroyServer choice world)
    (once : (world.connections id).history.destroyed +
      inFlight (.connection id .connectionDestroyed) before ≤ 1)
    (step : World.ConnectionStep guard id world before connection after) :
    connection.history.destroyed + inFlight (.connection id .connectionDestroyed) after ≤ 1 := by
  cases step with
  | idle => exact once
  | polled => simpa using once
  | @called _ _ call => cases call <;> simpa [UserCall.task] using once
  | tuned tuned =>
      obtain ⟨_, _, _, _, rfl⟩ := tuned
      exact once
  | own _ _ effect =>
      have kept : (world.site id).connection = world.connections id := rfl
      simp only [inFlight_add, inFlight_singleton, Task.connection.injEq, true_and] at once
      rw [inFlight_add, effect.counts.destroyed, effect.inFlight_connectionDestroyed, kept]
      omega
  | dropped _ closing => rcases closing with rfl | rfl <;> simpa using once
  | onClose alive | erased alive => simp [dead] at alive
  | condemned admitted => exact absurd admitted survives

/-- Any step that spares the server keeps the account of the departure. -/
theorem step (departing : Departing id world.server.alive (world.connections id) before)
    (survives : ∀ {thread choice}, ¬ guard thread .destroyServer choice world)
    (lifecycle : Lifecycle id world.server.loop (world.connections id) before)
    (step : World.ConnectionStep guard id world before connection after) :
    Departing id world.server.alive connection after := by
  cases alive : world.server.alive with
  | true => exact of_departure ((departing.departure alive).step alive survives lifecycle step)
  | false => exact ⟨by simp, once_step alive survives departing.once step⟩

end Departing

namespace World

/-- The guard, and no destruction of the server. -/
def sparing (guard : Thread → Task → Choice Thread → World Thread → Prop) (thread : Thread)
    (task : Task) (choice : Choice Thread) (world : World Thread) : Prop :=
  guard thread task choice world ∧ task ≠ .destroyServer

section Registered

variable {world : World Thread} {order : List Nat}

/-- `~TcpServer` visits each registered connection once. -/
private theorem count_order (visits : order.Perm world.registered) {id : Nat}
    (created : id < world.created) :
    order.count id =
      if world.server.connections (world.connections id).name = some id then 1 else 0 := by
  have nodup : world.registered.Nodup := List.nodup_range.filter _
  rw [visits.count_eq]
  split
  case isTrue present =>
    refine List.count_eq_one_of_mem nodup ?_
    simp [registered, created, present]
  case isFalse absent =>
    refine List.count_eq_zero_of_not_mem ?_
    simp [registered, absent]

/-- The calls of `~TcpServer`, in the iteration order of `connections_`. -/
def condemned (order : List Nat) (world : World Thread) : List (Call Thread Task) :=
  order.map fun id => .runInLoop (world.connections id).loop (.connection id .connectionDestroyed)

private theorem inFlight_condemned (thread : Thread) (id : Nat) :
    inFlight (.connection id .connectionDestroyed)
      (Call.flights thread (world.condemned order)) = order.count id := by
  unfold condemned
  induction order with
  | nil => rfl
  | cons first others inductionHypothesis =>
      rw [List.map_cons, Call.flights_cons, inFlight_add, inductionHypothesis, Call.flight,
        inFlight_singleton, List.count_cons, Nat.add_comm]
      simp

private theorem inFlight_condemned_other (task : Task)
    (other : ∀ id, task ≠ .connection id .connectionDestroyed) (thread : Thread) :
    inFlight task (Call.flights thread (world.condemned order)) = 0 := by
  rw [inFlight_eq_zero]
  intro located member
  obtain ⟨call, made, carried⟩ := (Call.mem_flights thread).mp member
  obtain ⟨id, -, rfl⟩ := List.mem_map.mp made
  obtain rfl := Multiset.mem_singleton.mp carried
  exact (other id).symm

/-- The destructor brings one `ConnectionDestroyed` for each registered connection. -/
theorem inFlight_destroyServer {id : Nat} (created : id < world.created)
    (visits : order.Perm world.registered) (thread : Thread)
    (rest : Multiset (Located Thread Task)) :
    inFlight (.connection id .connectionDestroyed)
        (tokens id (Call.flights thread (world.condemned order) + rest)) =
      (if world.server.connections (world.connections id).name = some id then 1 else 0) +
        inFlight (.connection id .connectionDestroyed)
          (tokens id ({(thread, .destroyServer)} + rest)) := by
  rw [inFlight_tokens _ (by simp [Task.about]), inFlight_tokens _ (by simp [Task.about]),
    inFlight_add, inFlight_condemned, count_order visits created]
  simp

end Registered

variable [DecidableEq Thread] {machine next : Machine (World Thread) Thread Task}
  {guard : Thread → Task → Choice Thread → World Thread → Prop}

/-- A step of the program spares the server, or it is the body of `~TcpServer`. -/
inductive ServerStep (guard : Thread → Task → Choice Thread → World Thread → Prop) [Fintype Thread]
    (machine next : Machine (World Thread) Thread Task) : Prop where
  | spares (alive : next.client.server.alive = machine.client.server.alive)
      (step : Machine.GuardedStep client Task.Urgent (sparing guard) machine next)
  | destroys {thread choice rest} (admitted : guard thread .destroyServer choice machine.client)
      (alive : machine.client.server.alive = true)
      (order : choice.order.Perm machine.client.registered)
      (before : machine.flight = {(thread, .destroyServer)} + rest)
      (after : next.client = machine.client.modifyServer fun server => { server with
        alive := false, connections := fun _ => none })
      (flown : next.flight = Call.flights thread (machine.client.condemned choice.order) + rest)

variable [Fintype Thread]

/-- A step spares the server or is its destructor. -/
theorem guardedStep_server (step : Machine.GuardedStep client Task.Urgent guard machine next) :
    ServerStep guard machine next := by
  cases step with
  | arrives same brought flown => exact .spares (by rw [same]) (.arrives same brought flown)
  | @executes thread task choice calls rest before admitted unhurried executed flown =>
      by_cases destroys : task = .destroyServer
      · subst destroys
        have executes : Executes thread choice machine.client .destroyServer next.client calls :=
          exec_executes executed
        generalize reached : next.client = world at executes
        cases executes with
        | destroyServer alive order => exact .destroys admitted alive order before reached flown
      · refine .spares ?_ (.executes before ⟨admitted, destroys⟩ unhurried executed flown)
        have executes : Executes thread choice machine.client task next.client calls :=
          exec_executes executed
        generalize next.client = world at executes
        cases executes with
        | destroyServer => exact absurd rfl destroys
        | _ => rfl

omit [Fintype Thread] in
/-- A connection that is in the registry after a step was there before and has not been
erased. -/
theorem Executes.registered {world next : World Thread} {thread : Thread}
    {choice : Choice Thread} {task : Task} {calls : List (Call Thread Task)} {id : Nat}
    (created : id < world.created)
    (executes : Executes thread choice world task next calls)
    (entry : next.server.connections (next.connections id).name = some id) :
    world.server.connections (world.connections id).name = some id ∧
      (next.connections id).history.erased = (world.connections id).history.erased := by
  cases executes with
  | leaves | calls | posts | destroys | onClose | onCloseDead | removeDead => exact ⟨entry, rfl⟩
  | tunes tuned =>
      obtain ⟨_, _, _, _, changed⟩ := tuned _ rfl
      rw [modifyConnection_frame (·.name) (by rw [changed])] at entry
      exact ⟨entry, modifyConnection_frame (·.history.erased) (by rw [changed]) id⟩
  | connection effect =>
      rw [setSite_frame (·.name) effect.identity.name] at entry
      exact ⟨entry, setSite_frame (·.history.erased) effect.counts.erased id⟩
  | newConnection =>
      rw [withNewConnection_connections_old created] at entry ⊢
      by_cases taken : (world.connections id).name =
          connName world.server (world.nextConnId + choice.skipped)
      · have same : world.created = id := by simpa [withNewConnection, taken] using entry
        omega
      · exact ⟨by simpa [withNewConnection, taken] using entry, rfl⟩
  | @removeConnection other _ =>
      rw [withoutConnection_frame (·.name) fun _ _ _ => rfl,
        withoutConnection_server_connections] at entry
      by_cases named : (world.connections id).name = (world.connections other).name
      · simp [named] at entry
      · have different : id ≠ other := fun same => named (by rw [same])
        rw [Function.update_of_ne named] at entry
        exact ⟨entry, by rw [withoutConnection_connections_other different]⟩
  | destroyServer => cases entry

omit [Fintype Thread] in
/-- A connection that was erased from the registry does not come back. -/
theorem Executes.unregistered {world next : World Thread} {thread : Thread}
    {choice : Choice Thread} {task : Task} {calls : List (Call Thread Task)} {id : Nat}
    (created : id < world.created)
    (gone : 0 < (world.connections id).history.erased →
      world.server.connections (world.connections id).name ≠ some id)
    (executes : Executes thread choice world task next calls) :
    0 < (next.connections id).history.erased →
      next.server.connections (next.connections id).name ≠ some id := by
  intro erased entry
  obtain ⟨before, same⟩ := executes.registered created entry
  exact gone (same ▸ erased) before

/-- A connection that has been erased is not in the registry, in every run. -/
theorem reachable_unregistered {id : Nat}
    (reachable : system.Reachable (Machine.onExec guard) machine)
    (created : id < machine.client.created) :
    0 < (machine.client.connections id).history.erased →
      machine.client.server.connections (machine.client.connections id).name ≠ some id := by
  refine reachable_created id (fun world _ => 0 < (world.connections id).history.erased →
    world.server.connections (world.connections id).name ≠ some id) ?_ ?_ reachable created
  · rintro world - ⟨loop, name, fd, onWriteComplete, isFresh⟩ - erased
    simp [isFresh] at erased
  · intro machine next _ exists' step gone
    cases step with
    | arrives same => rwa [same]
    | executes _ _ _ executed => exact (exec_executes executed).unregistered exists' gone

/-- In every run, the connections of a server that lives leave it in order, and
`ConnectionDestroyed` is called at most once, by the removal or by `~TcpServer`. -/
theorem reachable_departing {id : Nat}
    (reachable : system.Reachable (Machine.onExec guard) machine)
    (created : id < machine.client.created) :
    Departing id machine.client.server.alive (machine.client.connections id)
      (tokens id machine.flight) := by
  refine reachable_created id (fun world flight =>
    Departing id world.server.alive (world.connections id) flight) ?_ ?_ reachable created
  · exact fun world _ isFresh _ => .of_departure (.fresh isFresh)
  · intro machine next reached exists' step departing
    cases guardedStep_server step with
    | spares alive step =>
        rw [alive]
        have kept := guardedStep_preserves (fun connection flight =>
          Lifecycle id machine.client.server.loop connection flight ∧
            Departing id machine.client.server.alive connection flight) ?_ exists' step
          ⟨lifecycle id reached exists', departing⟩
        · exact kept.2
        · rintro before connection after step ⟨cycle, departing⟩
          exact ⟨cycle.step step, departing.step (fun admitted => admitted.2 rfl) cycle step⟩
    | @destroys thread choice rest _ alive order before after flown =>
        rw [after, flown]
        refine ⟨by simp [modifyServer], ?_⟩
        obtain ⟨leaving, destroying⟩ := departing.departure alive
        have atMost := (departing.departure alive).erased_le
        have gone := reachable_unregistered reached exists'
        rw [inFlight_destroyServer exists' order, ← before]
        simp only [modifyServer]
        split
        case isTrue present =>
          have notErased : (machine.client.connections id).history.erased = 0 := by
            by_contra erased
            exact gone (Nat.pos_of_ne_zero erased) present
          omega
        case isFalse => omega

/-- While the server lives, the functor of `remove_connection` finds its connection
in the registry. -/
theorem reachable_not_erased {id : Nat} {thread : Thread} {rest : Multiset (Located Thread Task)}
    (reachable : system.Reachable (Machine.onExec guard) machine)
    (alive : machine.client.server.alive = true)
    (before : machine.flight = {(thread, .removeConnection id)} + rest) :
    id < machine.client.created ∧ (machine.client.connections id).history.erased = 0 := by
  have member : (thread, .removeConnection id) ∈ machine.flight := before ▸ mem_first _ _
  have created : id < machine.client.created :=
    (reachable_noneBefore reachable).exists member (by simp [Task.about])
  have departure := (reachable_departing reachable created).departure alive
  rw [before, tokens_add, tokens_own id thread (by simp [Task.about])] at departure
  exact ⟨created, departure.not_erased⟩

/-- `~TcpServer` begins when every closed connection has been erased, and no
connection that was still open then is closed by `handle_close` after it. -/
def destroysSettled (_ : Thread) (task : Task) (_ : Choice Thread) (world : World Thread) : Prop :=
  match task with
  | .destroyServer => ∀ id, id < world.created → (world.connections id).state = .disconnected →
      0 < (world.connections id).history.erased
  | .connection id .handleClose => world.server.alive = true ∨
      ¬ ((world.connections id).state = .connected ∨ (world.connections id).state = .disconnecting)
  | _ => True

instance (thread : Thread) (task : Task) (choice : Choice Thread) (world : World Thread) :
    Decidable (destroysSettled thread task choice world) := by
  unfold destroysSettled
  split <;> infer_instance

omit [Fintype Thread] in
/-- A connection that is not closed makes no use of the server. -/
theorem ConnectionStep.silent {world : World Thread} {id : Nat}
    {connection : TcpConnection Thread} {before after : Multiset (Located Thread Task)}
    (dead : world.server.alive = false)
    (silent : inFlight (.onClose id) before + inFlight (.removeConnection id) before = 0)
    (step : ConnectionStep (sparing destroysSettled) id world before connection after) :
    inFlight (.onClose id) after + inFlight (.removeConnection id) after = 0 := by
  cases step with
  | idle | tuned => exact silent
  | polled | called => simpa using silent
  | @own thread choice task site calls rest admitted _ effect =>
      have quiet : ¬ (task = .handleClose ∧ ((world.site id).connection.state = .connected ∨
          (world.site id).connection.state = .disconnecting)) := by
        rintro ⟨rfl, isOpen⟩
        rcases admitted.1 with alive | notOpen
        · rw [dead] at alive
          cases alive
        · exact notOpen isOpen
      simp only [inFlight_add, inFlight_singleton, reduceCtorEq, if_false, zero_add] at silent
      rw [inFlight_add, inFlight_add, effect.inFlight_onClose, if_neg quiet,
        effect.inFlight_removeConnection]
      omega
  | onClose alive | erased alive => simp [dead] at alive
  | dropped _ closing =>
      simp only [inFlight_add] at silent
      omega
  | condemned admitted => exact absurd rfl admitted.2

/-- When the destructor begins no connection is on its way out, and afterwards none
starts. -/
theorem reachable_silent {id : Nat}
    (reachable : system.Reachable (Machine.onExec destroysSettled) machine)
    (created : id < machine.client.created) (dead : machine.client.server.alive = false) :
    inFlight (.onClose id) (tokens id machine.flight) +
      inFlight (.removeConnection id) (tokens id machine.flight) = 0 := by
  refine reachable_created id (fun world flight => world.server.alive = false →
    inFlight (.onClose id) flight + inFlight (.removeConnection id) flight = 0) ?_ ?_ reachable
    created dead
  · intro world alive _ _ dead
    simp [dead] at alive
  · intro machine next reached exists' step silent dead
    cases guardedStep_server step with
    | spares alive step =>
        rw [alive] at dead
        exact guardedStep_preserves (fun _ flight =>
          inFlight (.onClose id) flight + inFlight (.removeConnection id) flight = 0)
          (fun _ _ _ step silent => step.silent dead silent) exists' step (silent dead)
    | @destroys thread choice rest settled alive order before after flown =>
        have leaving := ((reachable_departing reached exists').departure alive).leaving
        have erased := settled id exists'
        rw [inFlight_tokens _ (by simp [Task.about]), inFlight_tokens _ (by simp [Task.about])]
          at leaving ⊢
        rw [before] at leaving
        rw [flown]
        simp only [inFlight_add, inFlight_singleton, reduceCtorEq, if_false, zero_add] at leaving
        rw [inFlight_add, inFlight_add, inFlight_condemned_other (.onClose id) (by simp),
          inFlight_condemned_other (.removeConnection id) (by simp)]
        split at leaving
        case isTrue closed =>
          have settledId := erased closed
          omega
        case isFalse => omega

/-- No function of the server is about to run once it is destroyed. -/
theorem settled_alive (reachable : system.Reachable (Machine.onExec destroysSettled) machine)
    {thread : Thread} {task : Task} {id : Nat}
    (uses : task = .onClose id ∨ task = .removeConnection id)
    (member : (thread, task) ∈ machine.flight) : machine.client.server.alive = true := by
  have about : task.about id = true := by rcases uses with rfl | rfl <;> simp [Task.about]
  have created : id < machine.client.created := (reachable_noneBefore reachable).exists member about
  by_contra dead
  have silent := reachable_silent reachable created (Bool.eq_false_iff.mpr dead)
  obtain ⟨noOnClose, noRemoval⟩ := Nat.add_eq_zero_iff.mp silent
  have token := (mem_tokens id).mpr ⟨member, about⟩
  rcases uses with rfl | rfl
  · exact (inFlight_eq_zero _).mp noOnClose _ token rfl
  · exact (inFlight_eq_zero _).mp noRemoval _ token rfl

/-- The destroyed server is never used in a run that destroys it settled. -/
theorem reachable_usedDead (reachable : system.Reachable (Machine.onExec destroysSettled) machine) :
    machine.client.server.usedDead = 0 := by
  refine reachable_world (fun world => world.server.usedDead = 0) ?_ ?_ reachable
  · rintro world ⟨loop, name, listenAddr, writeCompleteCb, rfl⟩
    rfl
  · intro machine thread task choice rest next calls reached before _ executes unused
    have member : (thread, task) ∈ machine.flight := before ▸ mem_first _ _
    cases executes with
    | onCloseDead dead =>
        have alive := settled_alive reached (.inl rfl) member
        simp [dead] at alive
    | removeDead dead =>
        have alive := settled_alive reached (.inr rfl) member
        simp [dead] at alive
    | _ => exact unused

/-- The destruction of the server and the closes of its connections, on any loops
and in any order. In every run in which the destructor begins when every closed connection
has been erased, and open connections are not closed after it, neither `on_close_` nor the
functor of `remove_connection` runs, or is about to run, once the destructor has begun; and
`ConnectionDestroyed` runs at most once for each connection. -/
theorem destruction_is_safe
    (reachable : system.Reachable (Machine.onExec destroysSettled) machine) :
    machine.client.server.usedDead = 0 ∧
    (∀ (label : Label Thread (Choice Thread)) task choice id,
      machine.executing label = some (task, choice) →
        task = .onClose id ∨ task = .removeConnection id → machine.client.server.alive = true) ∧
    ∀ id, id < machine.client.created →
      (machine.client.connections id).history.destroyed ≤ 1 := by
  refine ⟨reachable_usedDead reachable, ?_, ?_⟩
  · intro label task choice id executed uses
    exact settled_alive reachable uses (Machine.executing_mem_flight executed)
  · intro id created
    have once := (reachable_departing reachable created).once
    omega

/-- The server is destroyed while its only connection is open. -/
theorem destruction_is_safe_destroysServer :
    ∃ machine : Machine (World TwoThreads) TwoThreads Task,
      machine.client.server.alive = false ∧ machine.client.server.usedDead = 0 ∧
      (machine.client.connections 0).history.removed = 1 ∧
      (machine.client.connections 0).history.destroyed ≤ 1 := by
  let machine := (system.run (Machine.onExec destroysSettled) serverOnZero
    (userTurn ++ destroysServer ++ turns 0 4)).get (by decide +kernel)
  have reachable : system.Reachable (Machine.onExec destroysSettled) machine :=
    LabelledSystem.run_reachable serverOnZero_initial (Option.some_get _).symm
  have created : 0 < machine.client.created := by decide +kernel
  obtain ⟨unused, -, once⟩ := destruction_is_safe reachable
  exact ⟨machine, by decide +kernel, unused, by decide +kernel, once 0 created⟩

/-- Loop `0` accepts a connection for loop `1`, which establishes it and then polls
it. -/
def establishOnOne : List (Label TwoThreads (Choice TwoThreads)) :=
  [⟨0, .start⟩] ++ turns 0 1 ++ [turn 0 { actives := [.channel .newConnection] }] ++ turns 0 1 ++
    [turn 0 { fd := 10, ioLoop := some 1 }] ++ turns 0 3 ++
    [⟨1, .start⟩] ++ turns 1 1 ++ [turn 1 { actives := [.wakeup] }] ++ turns 1 12 ++
    [turn 1 { actives := [.channel (.connection 0 (.handleEvent epollIn))] }]

/-- The user destroys the server on loop `0`; loop `1` then reads the end of the
stream, and `handle_close` calls `on_close_`. -/
def destroyThenClose : List (Label TwoThreads (Choice TwoThreads)) :=
  nextPoll [.channel .user] ++ destroysServer ++ turns 1 1 ++
    [turn 1 { answers := { read := .received [] } }] ++ turns 1 3

/-- `~TcpServer` does not unbind `on_close_`, and `ConnectionDestroyed` only waits
in the queue of loop `1`: a connection that is closed there in the meantime calls
`remove_connection` of the destroyed server. -/
theorem destroyed_server_used :
    ∃ machine : Machine (World TwoThreads) TwoThreads Task,
      system.Reachable LabelledSystem.unguarded machine ∧
      machine.client.server.alive = false ∧ machine.client.server.usedDead = 1 := by
  let machine := (system.run LabelledSystem.unguarded serverOnZero
    (establishOnOne ++ destroyThenClose)).get (by decide +kernel)
  exact ⟨machine, LabelledSystem.run_reachable serverOnZero_initial (Option.some_get _).symm,
    by decide +kernel, by decide +kernel⟩

end World

end Benet
