import Benet.Server.Closing

/-!
# The way of a closed connection out of the server

`handle_close` calls `on_close_` in the connection's loop, this posts the functor
of `remove_connection` to the server's loop, and that one posts
`ConnectionDestroyed` back. `Removal` counts the tasks under way: while the server
lives, each of these stages is passed once, in this order.
-/

namespace Benet

open EventLoop Semantics

variable {Thread : Type}

/-- `StartRead`, `StopRead` and their functors. -/
def ConnectionTask.aboutReading : ConnectionTask → Bool
  | .startRead | .stopRead | .startReadInLoop | .stopReadInLoop => true
  | _ => false

/-- `Disconnected` is entered by `handle_close` and by `ConnectionDestroyed` in
`Connected`. -/
theorem TcpState.Moves.disconnected_iff {task : ConnectionTask} {before after : TcpState}
    (moves : TcpState.Moves task before after) (notClose : task ≠ .handleClose)
    (destroyed : task = .connectionDestroyed → before = .disconnected)
    (established : task = .connectionEstablished → before = .connecting) :
    after = .disconnected ↔ before = .disconnected := by
  cases moves with
  | stays => rfl
  | shutdown | forceClose => simp
  | establish => simp [established rfl]
  | destroy => cases destroyed rfl
  | close => exact absurd rfl notClose

namespace Site

variable [DecidableEq Thread] {thread : Thread} {id : Nat} {answers : Answers}
  {site next : Site Thread} {calls : List (Call Thread Task)} {task : ConnectionTask}

/-- What a task of the connection does to the counters of its history. -/
structure Counts (task : ConnectionTask) (before after : History) : Prop where
  established : after.established =
    before.established + if task = .connectionEstablished then 1 else 0
  destroyed : after.destroyed = before.destroyed + if task = .connectionDestroyed then 1 else 0
  removed : after.removed = before.removed + if task = .removeFromLoop then 1 else 0
  erased : after.erased = before.erased

/-- How a task counts its destructions and removals. -/
theorem Effect.counts (effect : Effect thread id answers site task next calls) :
    Counts task site.connection.history next.connection.history := by
  cases effect with
  | connectionEstablished => constructor <;> simp [Site.connectionEstablished]
  | removeFromLoop => constructor <;> simp [Site.removeFromLoop]
  | eventReads _ reads | afterCloseEvent reads => cases reads <;> constructor <;> simp
  | _ => constructor <;> simp

/-- `ConnectionDestroyed` ends with `RemoveFromLoop`, and nothing else calls it. -/
theorem Effect.inFlight_removeFromLoop (effect : Effect thread id answers site task next calls) :
    inFlight (.connection id .removeFromLoop) (tokens id (Call.flights thread calls)) =
      if task = .connectionDestroyed then 1 else 0 := by
  by_cases destroys : task = .connectionDestroyed
  · subst destroys
    rw [inFlight_tokens _ (by simp [Task.about])]
    cases effect <;> simp [Call.flight]
  · rw [if_neg destroys]
    refine effect.inFlight_foreign (by simp [Task.about]) fun waiting emitted => ?_
    cases emitted
    exact destroys rfl

/-- So the calls of `RemoveFromLoop` under way are those that `ConnectionDestroyed`
still owes. -/
theorem Effect.removing {rest : Multiset (Located Thread Task)}
    (effect : Effect thread id answers site task next calls)
    (removing : site.connection.history.removed + inFlight (.connection id .removeFromLoop)
      ({(thread, .connection id task)} + rest) = site.connection.history.destroyed) :
    next.connection.history.removed + inFlight (.connection id .removeFromLoop)
      (tokens id (Call.flights thread calls) + rest) = next.connection.history.destroyed := by
  obtain ⟨-, destroyed, removed, -⟩ := effect.counts
  simp only [inFlight_add, inFlight_singleton, Task.connection.injEq, true_and] at removing
  rw [inFlight_add, removed, destroyed, effect.inFlight_removeFromLoop]
  omega

/-- No function of the connection calls those of the server. -/
theorem Effect.inFlight_removeConnection (effect : Effect thread id answers site task next calls) :
    inFlight (.removeConnection id) (tokens id (Call.flights thread calls)) = 0 :=
  effect.inFlight_foreign (by simp [Task.about]) fun waiting emitted => by cases emitted

/-- No task of a connection posts `ConnectionDestroyed`. -/
theorem Effect.inFlight_connectionDestroyed
    (effect : Effect thread id answers site task next calls) :
    inFlight (.connection id .connectionDestroyed) (tokens id (Call.flights thread calls)) = 0 :=
  effect.inFlight_foreign (by simp [Task.about]) fun waiting emitted => by cases emitted

/-- `on_close_` is called when `handle_close` makes the connection `Disconnected`. -/
theorem Effect.onClose_entered (effect : Effect thread id answers site task next calls)
    (destroyed : task = .connectionDestroyed → site.connection.state = .disconnected)
    (established : task = .connectionEstablished → site.connection.state = .connecting) :
    inFlight (.onClose id) (tokens id (Call.flights thread calls)) +
        (if site.connection.state = .disconnected then 1 else 0) =
      if next.connection.state = .disconnected then 1 else 0 := by
  rw [effect.inFlight_onClose]
  by_cases closing : task = .handleClose
  · subst closing
    cases effect with
    | closeSkipped notConnected notDisconnecting => simp [notConnected, notDisconnecting]
    | closes state => rcases state with state | state <;> simp [state]
  · have same := effect.state_moves.disconnected_iff closing destroyed established
    simp [closing, same]

end Site

/-- The way of a closed connection out of a server that lives: `on_close_`, the
functor of `remove_connection` and `ConnectionDestroyed` are under way or have run,
each once. -/
structure Departure (id : Nat) (connection : TcpConnection Thread)
    (flight : Multiset (Located Thread Task)) : Prop where
  leaving : inFlight (.onClose id) flight + inFlight (.removeConnection id) flight +
    connection.history.erased = if connection.state = .disconnected then 1 else 0
  destroying : connection.history.destroyed +
    inFlight (.connection id .connectionDestroyed) flight = connection.history.erased

namespace Departure

variable {id : Nat} {connection : TcpConnection Thread}

/-- A new connection is not on its way out. -/
theorem fresh (isFresh : connection.Fresh) :
    Departure id connection {(connection.loop, .connection id .connectionEstablished)} := by
  obtain ⟨loop, name, fd, onWriteComplete, rfl⟩ := isFresh
  constructor <;> simp

/-- A connection is erased at most once. -/
theorem erased_le {flight : Multiset (Located Thread Task)}
    (departure : Departure id connection flight) : connection.history.erased ≤ 1 := by
  have leaving := departure.leaving
  split at leaving <;> omega

/-- A connection whose removal is under way is still in the registry. -/
theorem not_erased {thread : Thread} {rest : Multiset (Located Thread Task)}
    (departure : Departure id connection ({(thread, .removeConnection id)} + rest)) :
    connection.history.erased = 0 := by
  have leaving := departure.leaving
  simp only [inFlight_add, inFlight_singleton, reduceCtorEq, if_true, if_false] at leaving
  split at leaving <;> omega

/-- A connection that is about to be destroyed is closed and out of the registry. -/
theorem destroyed {thread : Thread} {rest : Multiset (Located Thread Task)}
    (departure : Departure id connection ({(thread, .connection id .connectionDestroyed)} + rest)) :
    connection.state = .disconnected ∧ connection.history.erased = 1 ∧
      connection.history.destroyed = 0 := by
  have destroying := departure.destroying
  have leaving := departure.leaving
  simp only [inFlight_add, inFlight_singleton, if_true] at destroying
  split at leaving
  case isTrue closed => exact ⟨closed, by omega, by omega⟩
  case isFalse => omega

/-- Other tasks may be put into flight. -/
theorem add {thread : Thread} {task : ConnectionTask} {flight : Multiset (Located Thread Task)}
    (departure : Departure id connection flight) (notDestroyed : task ≠ .connectionDestroyed) :
    Departure id connection ({(thread, .connection id task)} + flight) := by
  refine ⟨?_, ?_⟩
  · simpa using departure.leaving
  · simpa [notDestroyed] using departure.destroying

/-- `on_close_` posts the functor of `remove_connection`. -/
theorem posted {thread base : Thread} {rest : Multiset (Located Thread Task)}
    (departure : Departure id connection ({(thread, .onClose id)} + rest)) :
    Departure id connection ({(base, .removeConnection id)} + rest) := by
  obtain ⟨leaving, destroying⟩ := departure
  refine ⟨?_, ?_⟩
  · simp only [inFlight_add, inFlight_singleton, reduceCtorEq, if_true, if_false] at leaving ⊢
    omega
  · simpa using destroying

/-- That functor erases the connection and posts `ConnectionDestroyed`. -/
theorem erased {thread : Thread} {rest : Multiset (Located Thread Task)}
    {failedAssertions : List Assertion}
    (departure : Departure id connection ({(thread, .removeConnection id)} + rest)) :
    Departure id { connection with history := { connection.history with
        erased := connection.history.erased + 1, failedAssertions } }
      ({(connection.loop, .connection id .connectionDestroyed)} + rest) := by
  obtain ⟨leaving, destroying⟩ := departure
  constructor <;>
    simp only [inFlight_add, inFlight_singleton, reduceCtorEq, if_true, if_false]
      at leaving destroying ⊢ <;>
    omega

variable [DecidableEq Thread]

/-- A task of the connection keeps the account of its departure. -/
theorem effect {base thread : Thread} {answers : Answers} {site next : Site Thread}
    {task : ConnectionTask} {calls : List (Call Thread Task)}
    {rest : Multiset (Located Thread Task)}
    (departure : Departure id site.connection ({(thread, .connection id task)} + rest))
    (lifecycle : Lifecycle id base site.connection ({(thread, .connection id task)} + rest))
    (effect : site.Effect thread id answers task next calls) :
    Departure id next.connection (tokens id (Call.flights thread calls) + rest) := by
  have early : task = .connectionEstablished → site.connection.state = .connecting := by
    rintro rfl
    exact lifecycle.connecting.1
  have closed : task = .connectionDestroyed → site.connection.state = .disconnected := by
    rintro rfl
    exact departure.destroyed.1
  obtain ⟨-, destroyed, -, erased⟩ := effect.counts
  have onClose := effect.onClose_entered closed early
  have leaving := departure.leaving
  have destroying := departure.destroying
  simp only [inFlight_add, inFlight_singleton, Task.connection.injEq, true_and,
    reduceCtorEq, if_false, zero_add] at leaving destroying
  constructor
  · rw [inFlight_add, inFlight_add, erased, effect.inFlight_removeConnection]
    omega
  · rw [inFlight_add, destroyed, erased, effect.inFlight_connectionDestroyed]
    omega

variable {guard : Thread → Task → Choice Thread → World Thread → Prop} {world : World Thread}
  {before after : Multiset (Located Thread Task)}

/-- Any step keeps the account of the departure while the server lives. -/
theorem step (departure : Departure id (world.connections id) before)
    (alive : world.server.alive = true)
    (survives : ∀ {thread choice}, ¬ guard thread .destroyServer choice world)
    (lifecycle : Lifecycle id world.server.loop (world.connections id) before)
    (step : World.ConnectionStep guard id world before connection after) :
    Departure id connection after := by
  cases step with
  | idle => exact departure
  | polled => exact departure.add (by simp)
  | @called thread choice call _ admitted action =>
      exact departure.add (by cases call <;> simp [UserCall.task])
  | tuned tuned =>
      obtain ⟨_, _, _, _, rfl⟩ := tuned
      exact ⟨departure.leaving, departure.destroying⟩
  | own _ _ effect => exact departure.effect lifecycle effect
  | onClose => exact departure.posted
  | dropped dead =>
      rw [alive] at dead
      cases dead
  | erased =>
      rw [World.withoutConnection, World.modifyConnection_connections_self]
      exact departure.erased
  | condemned admitted => exact absurd admitted survives

end Departure

/-- How far the removal of a connection has come. -/
structure Removal (id : Nat) (connection : TcpConnection Thread)
    (flight : Multiset (Located Thread Task)) : Prop where
  unread : ∀ thread task, (thread, .connection id task) ∈ flight → task.aboutReading = false
  established : connection.history.established = if connection.state = .connecting then 0 else 1
  leaving : inFlight (.onClose id) flight + inFlight (.removeConnection id) flight +
    connection.history.erased = if connection.state = .disconnected then 1 else 0
  destroying : connection.history.destroyed +
    inFlight (.connection id .connectionDestroyed) flight = connection.history.erased
  removing : connection.history.removed +
    inFlight (.connection id .removeFromLoop) flight = connection.history.destroyed

namespace Removal

variable {id : Nat} {connection : TcpConnection Thread}

/-- The removal is a departure. -/
theorem departure {flight : Multiset (Located Thread Task)}
    (removal : Removal id connection flight) : Departure id connection flight :=
  ⟨removal.leaving, removal.destroying⟩

/-- A new connection is not being removed. -/
theorem fresh (isFresh : connection.Fresh) :
    Removal id connection {(connection.loop, .connection id .connectionEstablished)} := by
  obtain ⟨loop, name, fd, onWriteComplete, rfl⟩ := isFresh
  constructor <;> simp [ConnectionTask.aboutReading]

/-- A connection that is about to be destroyed has been established and closed and
is out of the registry. -/
theorem destroyed {thread : Thread} {rest : Multiset (Located Thread Task)}
    (removal : Removal id connection ({(thread, .connection id .connectionDestroyed)} + rest)) :
    connection.state = .disconnected ∧ connection.history.erased = 1 ∧
      connection.history.destroyed = 0 ∧ connection.history.established = 1 := by
  obtain ⟨closed, erased, destroyed⟩ := removal.departure.destroyed
  have established := removal.established
  rw [closed] at established
  exact ⟨closed, erased, destroyed, established⟩

/-- A task that has nothing to do with the removal. -/
theorem add {thread : Thread} {task : ConnectionTask} {flight : Multiset (Located Thread Task)}
    (removal : Removal id connection flight) (quiet : task.aboutReading = false)
    (notDestroyed : task ≠ .connectionDestroyed) (notRemoved : task ≠ .removeFromLoop) :
    Removal id connection ({(thread, .connection id task)} + flight) := by
  obtain ⟨leaving, destroying⟩ := removal.departure.add notDestroyed
  refine ⟨fun waiting other member => ?_, removal.established, leaving, destroying, ?_⟩
  · rcases Multiset.mem_add.mp member with new | old
    · simp only [Multiset.mem_singleton, Prod.mk.injEq, Task.connection.injEq, true_and] at new
      rw [new.2]
      exact quiet
    · exact removal.unread waiting other old
  · simpa [notRemoved] using removal.removing

/-- `on_close_` posts the functor of `remove_connection`. -/
theorem posted {thread base : Thread} {rest : Multiset (Located Thread Task)}
    (removal : Removal id connection ({(thread, .onClose id)} + rest)) :
    Removal id connection ({(base, .removeConnection id)} + rest) := by
  obtain ⟨leaving, destroying⟩ := removal.departure.posted
  refine ⟨fun waiting other member => ?_, removal.established, leaving, destroying, ?_⟩
  · have kept : (waiting, .connection id other) ∈ rest := by simpa using member
    exact removal.unread waiting other (Multiset.mem_add.mpr (.inr kept))
  · simpa using removal.removing

/-- The functor of `remove_connection` posts `ConnectionDestroyed`. -/
theorem erased {thread : Thread} {rest : Multiset (Located Thread Task)}
    {failedAssertions : List Assertion}
    (removal : Removal id connection ({(thread, .removeConnection id)} + rest)) :
    Removal id { connection with history := { connection.history with
        erased := connection.history.erased + 1, failedAssertions } }
      ({(connection.loop, .connection id .connectionDestroyed)} + rest) := by
  obtain ⟨leaving, destroying⟩ := removal.departure.erased
  refine ⟨fun waiting other member => ?_, removal.established, leaving, destroying, ?_⟩
  · rcases Multiset.mem_add.mp member with new | old
    · simp only [Multiset.mem_singleton, Prod.mk.injEq, Task.connection.injEq, true_and] at new
      rw [new.2]
      rfl
    · exact removal.unread waiting other (Multiset.mem_add.mpr (.inr old))
  · simpa using removal.removing

variable [DecidableEq Thread]

/-- A task of the connection keeps the account of its removal. -/
theorem effect {base thread : Thread} {answers : Answers} {site next : Site Thread}
    {task : ConnectionTask} {calls : List (Call Thread Task)}
    {rest : Multiset (Located Thread Task)}
    (removal : Removal id site.connection ({(thread, .connection id task)} + rest))
    (lifecycle : Lifecycle id base site.connection ({(thread, .connection id task)} + rest))
    (effect : site.Effect thread id answers task next calls) :
    Removal id next.connection (tokens id (Call.flights thread calls) + rest) := by
  obtain ⟨leaving, destroying⟩ := removal.departure.effect lifecycle effect
  refine ⟨fun waiting other member => ?_, ?_, leaving, destroying, effect.removing removal.removing⟩
  · rcases Multiset.mem_add.mp member with new | old
    · have own := removal.unread thread task (mem_first _ _)
      cases effect.emitted _ ((mem_tokens id).mp new).1 <;> first | rfl | cases own
    · exact removal.unread waiting other (Multiset.mem_add.mpr (.inr old))
  · rw [effect.counts.established, removal.established]
    by_cases establishes : task = .connectionEstablished
    · subst establishes
      rw [lifecycle.connecting.1]
      cases effect
      rfl
    · simp only [effect.state_moves.connecting_iff establishes, if_neg establishes, add_zero]

variable {guard : Thread → Task → Choice Thread → World Thread → Prop} {world : World Thread}
  {before after : Multiset (Located Thread Task)}

/-- Any step keeps the account of the removal while the server lives and nobody reads anew. -/
theorem step (removal : Removal id (world.connections id) before)
    (alive : world.server.alive = true)
    (reads : ∀ {thread choice call}, guard thread .user choice world →
      choice.action = .call id call → call.task.aboutReading = false)
    (survives : ∀ {thread choice}, ¬ guard thread .destroyServer choice world)
    (lifecycle : Lifecycle id world.server.loop (world.connections id) before)
    (step : World.ConnectionStep guard id world before connection after) :
    Removal id connection after := by
  cases step with
  | idle => exact removal
  | polled => exact removal.add rfl (by simp) (by simp)
  | @called thread choice call _ admitted action =>
      refine removal.add (reads admitted action) ?_ ?_ <;> cases call <;> simp [UserCall.task]
  | tuned tuned =>
      obtain ⟨_, _, _, _, rfl⟩ := tuned
      obtain ⟨unread, established, leaving, destroying, removing⟩ := removal
      exact ⟨unread, established, leaving, destroying, removing⟩
  | own _ _ effect => exact removal.effect lifecycle effect
  | onClose => exact removal.posted
  | dropped dead =>
      rw [alive] at dead
      cases dead
  | erased =>
      rw [World.withoutConnection, World.modifyConnection_connections_self]
      exact removal.erased
  | condemned admitted => exact absurd admitted survives

end Removal

end Benet
