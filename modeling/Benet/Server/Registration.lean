import Benet.Server.Lifecycle

/-!
# Connections in the pollers

Every connection is registered with the poller of its loop as its channel's
`index_` says, and with no other (`World.reachable_registered`).
-/

namespace Benet

open EventLoop Semantics

variable {Thread : Type}

namespace Site

/-- How a task of a connection changes its channel and the poller. -/
inductive Rewires (id : Nat) (site next : Site Thread) : Prop where
  | kept (channel : next.connection.channel = site.connection.channel)
      (poller : next.poller = site.poller)
  | updated (events : EventMask)
      (channel : next.connection.channel =
        (site.poller.updateChannel id { site.connection.channel with events }).1)
      (poller : next.poller =
        (site.poller.updateChannel id { site.connection.channel with events }).2)
  | removed
      (channel : next.connection.channel =
        (site.poller.removeChannel id site.connection.channel).1)
      (poller : next.poller = (site.poller.removeChannel id site.connection.channel).2)

variable {id : Nat} {site next : Site Thread}

/-- A connection that rewires its channel keeps the poller's record of it right. -/
theorem Rewires.tracks (rewires : Rewires id site next)
    (tracks : site.poller.Tracks id site.connection.channel) :
    next.poller.Tracks id next.connection.channel := by
  cases rewires with
  | kept channel poller => rwa [channel, poller]
  | updated events channel poller =>
      rw [channel, poller]
      exact tracks.updateChannel events
  | removed channel poller =>
      rw [channel, poller]
      exact tracks.removeChannel

/-- A connection that rewires its channel touches no other entry of the poller. -/
theorem Rewires.touches (rewires : Rewires id site next) :
    EPoller.Touches id site.connection.channel.fd site.poller next.poller := by
  cases rewires with
  | kept _ poller =>
      rw [poller]
      exact .refl _
  | updated events _ poller =>
      rw [poller]
      exact EPoller.touches_updateChannel id { site.connection.channel with events } site.poller
  | removed _ poller =>
      rw [poller]
      exact EPoller.touches_removeChannel id site.connection.channel site.poller

/-- The channel and the poller are left alone or passed to `UpdateChannel`. -/
inductive Updates (id : Nat) (site next : Site Thread) : Prop where
  | kept (channel : next.connection.channel = site.connection.channel)
      (poller : next.poller = site.poller)
  | updated (events : EventMask)
      (channel : next.connection.channel =
        (site.poller.updateChannel id { site.connection.channel with events }).1)
      (poller : next.poller =
        (site.poller.updateChannel id { site.connection.channel with events }).2)

/-- An update of the channel rewires it. -/
theorem Updates.rewires (updates : Updates id site next) : Rewires id site next := by
  cases updates with
  | kept channel poller => exact .kept channel poller
  | updated events channel poller => exact .updated events channel poller

/-- What was changed before does not count unless it is the channel or the poller. -/
theorem Updates.after {start : Site Thread} (updates : Updates id site next)
    (channel : site.connection.channel = start.connection.channel)
    (poller : site.poller = start.poller) : Updates id start next := by
  cases updates with
  | kept sameChannel samePoller => exact .kept (sameChannel.trans channel) (samePoller.trans poller)
  | updated events =>
      rw [channel, poller] at *
      exact .updated events ‹_› ‹_›

private theorem appendRemaining_updates (remaining : List UInt8) :
    Updates id site (site.appendRemaining id remaining).1 := by
  unfold appendRemaining
  split
  · exact .kept rfl rfl
  · dsimp only
    split
    · exact .kept rfl rfl
    · exact .updated _ rfl rfl

private theorem shutdownWriteIfDrained_updates : Updates id site site.shutdownWriteIfDrained := by
  unfold shutdownWriteIfDrained
  split <;> exact .kept rfl rfl

variable [DecidableEq Thread] {thread : Thread} {answers : Answers}
  {calls : List (Call Thread Task)} {task : ConnectionTask}

/-- Only `RemoveFromLoop` takes the channel out of the poller. -/
theorem Effect.updates (effect : Effect thread id answers site task next calls)
    (other : task ≠ .removeFromLoop) : Updates id site next := by
  cases effect with
  | sendPartly | sendBuffered => exact (appendRemaining_updates _).after rfl rfl
  | shutdownInLoop | shutdownDrained => exact shutdownWriteIfDrained_updates.after rfl rfl
  | startReadEnabled =>
      exact .updated (site.connection.channel.events ||| kReadEvent) (by simp) (by simp)
  | stopReadDisabled =>
      exact .updated (site.connection.channel.events &&& ~~~kReadEvent) (by simp) (by simp)
  | connectionEstablished =>
      refine .updated (site.connection.channel.events ||| kReadEvent) ?_ ?_ <;>
        simp [Site.connectionEstablished]
  | writeDrains =>
      exact .updated (site.connection.channel.events &&& ~~~kWriteEvent) (by simp) (by simp)
  | destroyedConnected | closes => exact .updated kNoneEvent (by simp) (by simp)
  | removeFromLoop => exact absurd rfl other
  | eventReads _ reads | afterCloseEvent reads => cases reads <;> exact .kept rfl rfl
  | _ => exact .kept rfl rfl

/-- A task changes the poller only through its own channel. -/
theorem Effect.rewires (effect : Effect thread id answers site task next calls) :
    Rewires id site next := by
  by_cases removes : task = .removeFromLoop
  · subst removes
    cases effect with
    | removeFromLoop => refine .removed ?_ ?_ <;> simp [Site.removeFromLoop]
  · exact (effect.updates removes).rewires

end Site

namespace World

/-- Every connection is known to the poller of its own loop as its channel says,
to no other poller, and connections do not share descriptors. -/
structure Registered (world : World Thread) : Prop where
  tracks : ∀ id, id < world.created →
    (world.pollers (world.connections id).loop).Tracks id (world.connections id).channel
  elsewhere : ∀ id loop, (id < world.created → loop ≠ (world.connections id).loop) →
    (world.pollers loop).Absent id
  distinct : ∀ first second, first < world.created → second < world.created →
    (world.connections first).channel.fd = (world.connections second).channel.fd → first = second

variable {world next : World Thread}

/-- No poller knows a descriptor that no connection has. -/
theorem Registered.unknown (registered : world.Registered) {fd : Nat}
    (unused : ∀ id, id < world.created → (world.connections id).channel.fd ≠ fd) (loop : Thread) :
    (world.pollers loop).channels fd = none ∧ (world.pollers loop).interest fd = none := by
  -- an owner found under `fd` would be absent from this poller
  have stranger : ∀ id, (world.pollers loop).channels fd ≠ some id ∧
      ∀ entry, (world.pollers loop).interest fd = some entry → entry.owner ≠ id := by
    intro id
    by_cases home : id < world.created ∧ loop = (world.connections id).loop
    · obtain ⟨exists', rfl⟩ := home
      exact (registered.tracks id exists').elsewhere fd (unused id exists').symm
    · exact registered.elsewhere id loop (fun exists' same => home ⟨exists', same⟩) fd
  constructor
  · exact Option.eq_none_iff_forall_ne_some.mpr fun id => (stranger id).1
  · refine Option.eq_none_iff_forall_ne_some.mpr fun entry found => ?_
    exact (stranger entry.owner).2 entry found rfl

/-- Changes that leave channels, loops and pollers alone. -/
theorem Registered.congr (registered : world.Registered) (created : next.created = world.created)
    (pollers : next.pollers = world.pollers)
    (channel : ∀ id, (next.connections id).channel = (world.connections id).channel)
    (loop : ∀ id, (next.connections id).loop = (world.connections id).loop) : next.Registered := by
  obtain ⟨tracks, elsewhere, distinct⟩ := registered
  constructor
  · simpa only [created, pollers, channel, loop] using tracks
  · simpa only [created, pollers, loop] using elsewhere
  · simpa only [created, channel] using distinct

/-- A new connection with a descriptor of its own is not registered. -/
theorem Registered.withNewConnection {choice : Choice Thread} (registered : world.Registered)
    (fresh : ∀ id, id < world.created → (world.connections id).channel.fd ≠ choice.fd) :
    (world.withNewConnection choice).Registered := by
  refine ⟨?_, ?_, ?_⟩
  · intro id created
    rcases Nat.lt_succ_iff_lt_or_eq.mp created with exists' | rfl
    · rw [withNewConnection_connections_old exists']
      exact registered.tracks id exists'
    · -- the descriptor is not in use, and no poller knows the number
      rw [withNewConnection_connections_new]
      obtain ⟨channels, interest⟩ := registered.unknown fresh
        (choice.ioLoop.getD world.server.loop)
      refine ⟨channels, interest, fun fd _ => ?_⟩
      exact registered.elsewhere world.created _ (absurd · (Nat.lt_irrefl _)) fd
  · intro id loop outside
    refine registered.elsewhere id loop fun exists' => ?_
    rw [← withNewConnection_connections_old exists']
    exact outside (Nat.lt_succ_of_lt exists')
  · refine withNewConnection_distinct (·.channel.fd) registered.distinct fun id exists' => ?_
    rw [withNewConnection_connections_new]
    exact fresh id exists'

variable [DecidableEq Thread] {thread : Thread} {choice : Choice Thread} {task : Task}
  {calls : List (Call Thread Task)}

/-- A task of one connection keeps the record of every channel right. -/
theorem Registered.setSite {id : Nat} {site : Site Thread} (registered : world.Registered)
    (exists' : id < world.created) (rewires : Site.Rewires id (world.site id) site)
    (identity : Site.SameIdentity (world.connections id) site.connection) :
    (world.setSite id site).Registered := by
  have loop : ∀ other, ((world.setSite id site).connections other).loop =
      (world.connections other).loop := setSite_frame (·.loop) identity.loop
  have fd : ∀ other, ((world.setSite id site).connections other).channel.fd =
      (world.connections other).channel.fd := setSite_frame (·.channel.fd) identity.fd
  have home : (world.setSite id site).pollers (world.connections id).loop = site.poller := by
    simp [World.setSite]
  have away : ∀ key, key ≠ (world.connections id).loop →
      (world.setSite id site).pollers key = world.pollers key := by
    intro key different
    simp [World.setSite, different]
  refine ⟨?_, ?_, ?_⟩
  · intro other created
    rw [loop]
    by_cases same : other = id
    · rw [same, home, setSite_connections_self]
      exact rewires.tracks (registered.tracks id exists')
    · rw [setSite_connections_other same]
      have tracks := registered.tracks other created
      by_cases shared : (world.connections other).loop = (world.connections id).loop
      · rw [shared] at tracks ⊢
        rw [home]
        exact tracks.frame rewires.touches same
          fun sameFd => same (registered.distinct other id created exists' sameFd)
      · rwa [away _ shared]
  · intro other key outside
    simp only [loop, setSite_created] at outside
    have absent := registered.elsewhere other key outside
    by_cases shared : key = (world.connections id).loop
    · subst shared
      rw [home]
      refine absent.frame rewires.touches ?_
      rintro rfl
      exact outside exists' rfl
    · rwa [away _ shared]
  · simpa only [fd, setSite_created] using registered.distinct

/-- An executed task keeps the record of every channel right. -/
theorem Registered.executes {rest : Multiset (Located Thread Task)}
    (registered : world.Registered) (none : NoneBefore world ({(thread, task)} + rest))
    (executes : Executes thread choice world task next calls) : next.Registered := by
  cases executes with
  | leaves | calls | posts | destroys | onClose => exact registered
  | tunes tuned =>
      obtain ⟨_, _, _, _, changed⟩ := tuned _ rfl
      exact registered.congr rfl rfl (modifyConnection_frame (·.channel) (by rw [changed]))
        (modifyConnection_frame (·.loop) (by rw [changed]))
  | @connection id task site calls effect =>
      refine registered.setSite ?_ effect.rewires effect.identity
      exact none.exists (mem_first _ _)
        (by simp [Task.about])
  | newConnection _ fresh => exact registered.withNewConnection fresh
  | onCloseDead | removeDead | destroyServer =>
      exact registered.congr rfl rfl (fun _ => rfl) fun _ => rfl
  | removeConnection =>
      exact registered.congr rfl rfl (withoutConnection_frame (·.channel) fun _ _ _ => rfl)
        (withoutConnection_frame (·.loop) fun _ _ _ => rfl)

variable {guard : Thread → Task → Choice Thread → World Thread → Prop} [Fintype Thread]
  {machine : Machine (World Thread) Thread Task}

/-- In every run the pollers know the connections as the channels say. -/
theorem reachable_registered (reachable : system.Reachable (Machine.onExec guard) machine) :
    machine.client.Registered := by
  refine reachable_world Registered ?_ ?_ reachable
  · rintro world ⟨loop, name, listenAddr, writeCompleteCb, rfl⟩
    refine ⟨fun _ created => ?_, fun _ _ _ _ => ?_, fun _ _ created => ?_⟩
    · cases created
    · simp [initial]
    · cases created
  · intro machine thread task choice rest next calls reached before _ executes registered
    exact registered.executes (before ▸ reachable_noneBefore reached) executes

end World

end Benet
