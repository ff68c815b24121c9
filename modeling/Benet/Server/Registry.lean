import Mathlib
import Benet.Server.Destruction

/-!
# The registry of connections

`connections_` of a server that lives, over any number of connections on any
loops: names are never given twice, an entry stands from `new_connection` until
the functor of `remove_connection`, and `ConnectionDestroyed` comes last
(`World.registry_and_lifecycle`).
-/

namespace Benet

open EventLoop Semantics

variable {Thread : Type}

/-- The action is a call of `StartRead` or `StopRead`. -/
def UserAction.reads : UserAction Thread → Bool
  | .call _ made => made.task.aboutReading
  | _ => false

namespace World

/-- The server is not destroyed, the 64-bit counter of connections does not wrap
around, and users call `Send`, `Shutdown` and `ForceClose` but neither `StartRead`
nor `StopRead`. -/
def serves (_ : Thread) (task : Task) (choice : Choice Thread) (world : World Thread) : Prop :=
  match task with
  | .user => choice.action.reads = false
  | .newConnection => world.nextConnId + choice.skipped < 2 ^ 64
  | .destroyServer => False
  | .connection _ _ | .onClose _ | .removeConnection _ => True

instance (thread : Thread) (task : Task) (choice : Choice Thread) (world : World Thread) :
    Decidable (serves thread task choice world) :=
  match task with
  | .user => inferInstanceAs (Decidable (choice.action.reads = false))
  | .newConnection => inferInstanceAs (Decidable (world.nextConnId + choice.skipped < 2 ^ 64))
  | .destroyServer => .isFalse id
  | .connection _ _ | .onClose _ | .removeConnection _ => .isTrue trivial

end World

/-- Different numbers below `2 ^ 64` give different names. -/
theorem World.connName_injective {server : TcpServer Thread}
    {first second : Nat} (firstBound : first < 2 ^ 64) (secondBound : second < 2 ^ 64)
    (same : connName server first = connName server second) : first = second := by
  have digits := Nat.repr_inj.mp ((String.append_right_inj _).mp same)
  rwa [Nat.mod_eq_of_lt firstBound, Nat.mod_eq_of_lt secondBound] at digits

namespace World

/-- The entries of `connections_` are the connections that were not erased, under
their names, which are all different. -/
structure Registry (world : World Thread) : Prop where
  numbered : ∀ id, id < world.created → ∃ connId, connId < world.nextConnId ∧ connId < 2 ^ 64 ∧
    (world.connections id).name = connName world.server connId
  distinct : ∀ first second, first < world.created → second < world.created →
    (world.connections first).name = (world.connections second).name → first = second
  entries : ∀ id, id < world.created → world.server.connections (world.connections id).name =
    if (world.connections id).history.erased = 0 then some id else none
  known : ∀ name id, world.server.connections name = some id →
    id < world.created ∧ (world.connections id).name = name
  kept : world.server.overwritten = 0
  asserted : ∀ id, id < world.created →
    .erasedOne ∉ (world.connections id).history.failedAssertions

namespace Registry

variable {world next : World Thread}

/-- Changes of connections that touch neither names nor removals. -/
theorem congr (registry : world.Registry) (created : next.created = world.created)
    (nextConnId : next.nextConnId = world.nextConnId)
    (naming : connName next.server = connName world.server)
    (connections : next.server.connections = world.server.connections)
    (overwritten : next.server.overwritten = world.server.overwritten)
    (name : ∀ id, (next.connections id).name = (world.connections id).name)
    (erased : ∀ id, (next.connections id).history.erased = (world.connections id).history.erased)
    (asserted : ∀ id, .erasedOne ∈ (next.connections id).history.failedAssertions →
      .erasedOne ∈ (world.connections id).history.failedAssertions) : next.Registry := by
  constructor
  · simpa only [created, nextConnId, naming, name] using registry.numbered
  · simpa only [created, name] using registry.distinct
  · simpa only [created, connections, name, erased] using registry.entries
  · simpa only [created, connections, name] using registry.known
  · rw [overwritten]
    exact registry.kept
  · rw [created]
    exact fun id exists' member => registry.asserted id exists' (asserted id member)

/-- A new connection gets a name that no connection has had. -/
theorem withNewConnection {choice : Choice Thread} (registry : world.Registry)
    (bounded : world.nextConnId + choice.skipped < 2 ^ 64) :
    (world.withNewConnection choice).Registry := by
  have unused : ∀ id, id < world.created →
      (world.connections id).name ≠ connName world.server (world.nextConnId + choice.skipped) := by
    intro id exists' same
    obtain ⟨connId, earlier, small, name⟩ := registry.numbered id exists'
    have equal := connName_injective small bounded (name.symm.trans same)
    omega
  have vacant : world.server.connections
      (connName world.server (world.nextConnId + choice.skipped)) = none := by
    refine Option.eq_none_iff_forall_ne_some.mpr fun id found => ?_
    obtain ⟨exists', name⟩ := registry.known _ id found
    exact unused id exists' name
  constructor
  · intro id created
    rcases Nat.lt_succ_iff_lt_or_eq.mp created with exists' | rfl
    · obtain ⟨connId, earlier, small, name⟩ := registry.numbered id exists'
      rw [withNewConnection_connections_old exists']
      exact ⟨connId, by simp only [World.withNewConnection]; omega, small, name⟩
    · rw [withNewConnection_connections_new]
      exact ⟨_, Nat.lt_succ_self _, bounded, rfl⟩
  · refine withNewConnection_distinct (·.name) registry.distinct fun id exists' => ?_
    rw [withNewConnection_connections_new]
    exact unused id exists'
  · intro id created
    rcases Nat.lt_succ_iff_lt_or_eq.mp created with exists' | rfl
    · rw [withNewConnection_connections_old exists', ← registry.entries id exists']
      exact Function.update_of_ne (unused id exists') _ _
    · rw [withNewConnection_connections_new]
      exact Function.update_self _ _ _
  · intro name id found
    by_cases isNew : name = connName world.server (world.nextConnId + choice.skipped)
    · subst isNew
      obtain rfl : world.created = id := by
        simpa [World.withNewConnection] using found
      rw [withNewConnection_connections_new]
      exact ⟨Nat.lt_succ_self _, rfl⟩
    · have before : world.server.connections name = some id := by
        simpa [World.withNewConnection, isNew] using found
      obtain ⟨exists', named⟩ := registry.known name id before
      rw [withNewConnection_connections_old exists']
      exact ⟨Nat.lt_succ_of_lt exists', named⟩
  · simp [World.withNewConnection, vacant, registry.kept]
  · intro id created
    rcases Nat.lt_succ_iff_lt_or_eq.mp created with exists' | rfl
    · rw [withNewConnection_connections_old exists']
      exact registry.asserted id exists'
    · simp [withNewConnection_connections_new]

/-- The functor of `remove_connection` finds its entry and erases no other. -/
theorem withoutConnection {id : Nat} (registry : world.Registry) (exists' : id < world.created)
    (present : (world.connections id).history.erased = 0) :
    (world.withoutConnection id).Registry := by
  have found : world.server.connections (world.connections id).name = some id := by
    rw [registry.entries id exists', if_pos present]
  have name : ∀ other, ((world.withoutConnection id).connections other).name =
      (world.connections other).name := withoutConnection_frame (·.name) fun _ _ _ => rfl
  have self : (world.withoutConnection id).connections id =
      { world.connections id with history := { (world.connections id).history with
        erased := (world.connections id).history.erased + 1 } } := by
    rw [World.withoutConnection, modifyConnection_connections_self]
    simp [found, modifyServer]
  constructor
  · intro other created
    rw [name]
    exact registry.numbered other created
  · intro first second firstCreated secondCreated same
    rw [name, name] at same
    exact registry.distinct first second firstCreated secondCreated same
  · intro other created
    rw [name, withoutConnection_server_connections]
    by_cases here : other = id
    · rw [here, self, Function.update_self]
      rfl
    · rw [withoutConnection_connections_other here, Function.update_of_ne]
      · exact registry.entries other created
      · exact fun same => here (registry.distinct other id created exists' same)
  · intro key other present
    rw [name]
    rw [withoutConnection_server_connections] at present
    by_cases here : key = (world.connections id).name
    · rw [here, Function.update_self] at present
      cases present
    · rw [Function.update_of_ne here] at present
      exact registry.known key other present
  · exact registry.kept
  · intro other created
    by_cases here : other = id
    · rw [here, self]
      exact registry.asserted id exists'
    · rw [withoutConnection_connections_other here]
      exact registry.asserted other created

variable [DecidableEq Thread]

/-- A task of a connection does not touch the registry. -/
theorem setSite {id : Nat} {site : Site Thread} {thread : Thread} {answers : Answers}
    {task : ConnectionTask} {calls : List (Call Thread Task)} (registry : world.Registry)
    (effect : (world.site id).Effect thread id answers task site calls) :
    (world.setSite id site).Registry := by
  refine registry.congr rfl rfl rfl rfl rfl (setSite_frame (·.name) effect.identity.name)
    (setSite_frame (·.history.erased) effect.counts.erased) fun other member => ?_
  by_cases here : other = id
  · rw [here, setSite_connections_self] at member
    rw [here]
    exact (effect.failed member).resolve_right fun fails => by cases fails
  · rwa [setSite_connections_other here] at member

/-- An executed task keeps the registry right. -/
theorem executes {thread : Thread} {choice : Choice Thread} {task : Task}
    {calls : List (Call Thread Task)} (registry : world.Registry)
    (admitted : serves thread task choice world)
    (present : ∀ id, task = .removeConnection id →
      id < world.created ∧ (world.connections id).history.erased = 0)
    (executes : Executes thread choice world task next calls) : next.Registry := by
  cases executes with
  | leaves | calls | posts | destroys | onClose => exact registry
  | tunes tuned =>
      obtain ⟨_, _, _, _, changed⟩ := tuned _ rfl
      refine registry.congr rfl rfl rfl rfl rfl
        (modifyConnection_frame (·.name) (by rw [changed]))
        (modifyConnection_frame (·.history.erased) (by rw [changed])) fun other member => ?_
      rwa [modifyConnection_frame (·.history.failedAssertions) (by rw [changed])] at member
  | connection effect => exact registry.setSite effect
  | newConnection => exact registry.withNewConnection admitted
  | onCloseDead | removeDead =>
      exact registry.congr rfl rfl rfl rfl rfl (fun _ => rfl) (fun _ => rfl) fun _ member => member
  | removeConnection =>
      obtain ⟨exists', notErased⟩ := present _ rfl
      exact registry.withoutConnection exists' notErased
  | destroyServer => exact absurd admitted id

end Registry

variable [DecidableEq Thread] [Fintype Thread] {machine : Machine (World Thread) Thread Task}

/-- A server that serves lives. -/
theorem reachable_alive (reachable : system.Reachable (Machine.onExec serves) machine) :
    machine.client.server.alive = true := by
  refine reachable_world (fun world => world.server.alive = true) ?_ ?_ reachable
  · rintro world ⟨loop, name, listenAddr, writeCompleteCb, rfl⟩
    rfl
  · intro machine thread task choice rest next calls _ _ admitted executes alive
    cases executes with
    | destroyServer => exact absurd admitted id
    | _ => exact alive

/-- While the server lives, connections pass the stages of their removal in order,
and no events are enabled after the close. -/
theorem reachable_removal {id : Nat} (reachable : system.Reachable (Machine.onExec serves) machine)
    (created : id < machine.client.created) :
    Removal id (machine.client.connections id) (tokens id machine.flight) ∧
      Closing id (machine.client.connections id) (tokens id machine.flight) := by
  refine (reachable_lifecycle id (fun _ connection flight =>
    Removal id connection flight ∧ Closing id connection flight) ?_ ?_ reachable created).2
  · exact fun _ _ isFresh => ⟨.fresh isFresh, .fresh isFresh⟩
  · rintro machine before connection after reached _ lifecycle step ⟨removal, closing⟩
    refine ⟨removal.step (reachable_alive reached) ?_ (fun admitted => admitted) lifecycle step,
      closing.step ?_ lifecycle step⟩
    · intro thread choice call admitted action
      simpa [serves, UserAction.reads, action] using admitted
    · rintro thread choice task rest rfl -
      constructor
      · rintro rfl
        have quiet := removal.unread thread _
          (mem_first _ _)
        cases quiet
      · rintro rfl
        exact .inr removal.destroyed.1

/-- The registry is right in every run in which the server serves. -/
theorem reachable_registry (reachable : system.Reachable (Machine.onExec serves) machine) :
    machine.client.Registry := by
  refine reachable_world Registry ?_ ?_ reachable
  · rintro world ⟨loop, name, listenAddr, writeCompleteCb, rfl⟩
    constructor <;> simp [initial]
  · intro machine thread task choice rest next calls reached before admitted executes registry
    refine registry.executes admitted (fun id isRemoval => ?_) executes
    subst isRemoval
    exact reachable_not_erased reached (reachable_alive reached) before

/-- `ConnectionDestroyed` is the next task of the thread: what is known then. -/
structure ReadyToDestroy (id : Nat) (thread : Thread) (world : World Thread) : Prop where
  inLoop : thread = (world.connections id).loop
  first : (world.connections id).history.destroyed = 0
  established : (world.connections id).history.established = 1
  unregistered : world.server.connections (world.connections id).name = none
  state : (world.connections id).state = .disconnected
  events : (world.connections id).channel.isNoneEvent = true

/-- The registry and the connections of a server that is not destroyed, in every
run with fewer than `2 ^ 64` connections. No entry is overwritten and no two
connections share a name; a connection is registered exactly until the functor
that removes it has run, and this is in the server's loop; no assertion fails;
`ConnectionDestroyed` runs at most once, in the connection's loop, after
`ConnectionEstablished` and the removal, in `Disconnected` and without events. -/
theorem registry_and_lifecycle (reachable : system.Reachable (Machine.onExec serves) machine) :
    machine.client.server.overwritten = 0 ∧
    (∀ first second, first < machine.client.created → second < machine.client.created →
      (machine.client.connections first).name = (machine.client.connections second).name →
        first = second) ∧
    ∀ id, id < machine.client.created →
      (machine.client.server.connections (machine.client.connections id).name = some id ↔
        (machine.client.connections id).history.erased = 0) ∧
      (∀ (label : Label Thread (Choice Thread)) choice,
        machine.executing label = some (.removeConnection id, choice) →
          label.thread = machine.client.server.loop) ∧
      (machine.client.connections id).history.failedAssertions = [] ∧
      (machine.client.connections id).history.destroyed ≤ 1 ∧
      (∀ (label : Label Thread (Choice Thread)) choice,
        machine.executing label = some (.connection id .connectionDestroyed, choice) →
          ReadyToDestroy id label.thread machine.client) := by
  have registry := reachable_registry reachable
  refine ⟨registry.kept, registry.distinct, fun id created => ?_⟩
  obtain ⟨removal, closing⟩ := reachable_removal reachable created
  have cycle := lifecycle id reachable created
  refine ⟨?_, ?_, ?_, ?_, ?_⟩
  · rw [registry.entries id created]
    split <;> simp [*]
  · intro label choice executed
    have member := Machine.executing_mem_flight executed
    exact cycle.placed _ ((mem_tokens id).mpr ⟨member, by simp [Task.about]⟩)
  · refine List.eq_nil_iff_forall_not_mem.mpr fun assertion failed => ?_
    rcases reachable_asserted reachable created assertion failed with rfl | rfl
    · exact closing.asserted failed
    · exact registry.asserted id created failed
  · have leaving := removal.leaving
    have destroying := removal.destroying
    split at leaving <;> omega
  · intro label choice executed
    have member : (label.thread, .connection id .connectionDestroyed) ∈
        tokens id machine.flight :=
      (mem_tokens id).mpr ⟨Machine.executing_mem_flight executed, by simp [Task.about]⟩
    obtain ⟨rest, split⟩ := Multiset.exists_cons_of_mem member
    rw [← Multiset.singleton_add] at split
    obtain ⟨state, erased, first, established⟩ := (split ▸ removal).destroyed
    refine ⟨cycle.placed _ member rfl, first, established, ?_, state, ?_⟩
    · rw [registry.entries id created, erased]
      rfl
    · rw [Channel.isNoneEvent, closing.events state]
      rfl

/-- The peer closes the only connection: it is removed and destroyed, and its
name is free. -/
theorem registry_and_lifecycle_peerCloses :
    ∃ machine : Machine (World TwoThreads) TwoThreads Task,
      0 < machine.client.created ∧
      machine.client.server.overwritten = 0 ∧
      (machine.client.connections 0).history.erased = 1 ∧
      machine.client.server.connections (machine.client.connections 0).name ≠ some 0 ∧
      (machine.client.connections 0).history.failedAssertions = [] ∧
      (machine.client.connections 0).history.destroyed = 1 := by
  let machine := (system.run (Machine.onExec serves) serverOnZero
    (peerCloses ++ removeAndDestroy)).get (by decide +kernel)
  have reachable : system.Reachable (Machine.onExec serves) machine :=
    LabelledSystem.run_reachable serverOnZero_initial (Option.some_get _).symm
  have created : 0 < machine.client.created := by decide +kernel
  have erased : (machine.client.connections 0).history.erased = 1 := by decide +kernel
  obtain ⟨kept, _, each⟩ := registry_and_lifecycle reachable
  obtain ⟨registered, _, asserted, _, _⟩ := each 0 created
  refine ⟨machine, created, kept, erased, fun member => ?_, asserted, by decide +kernel⟩
  have present := registered.mp member
  omega

end World

end Benet
