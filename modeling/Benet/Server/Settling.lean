import Benet.Server.HalfClose
import Benet.Server.PendingOutput
import Benet.Server.Reclamation
import Benet.Server.Shutdown

/-!
# Connections that nobody is working on

Between its tasks a connection rests in one of two ways. Either it is open: then it is in the
registry, the kernel watches it for input, and for output exactly while bytes are waiting; or
every stage of its removal is over. A connection is never left half way, closed but registered,
open but deaf, or shut down but without the end of the stream sent
(`World.idle_connection_is_settled`). A functor in the queue of a loop whose `Start` has
returned is still work to be done: `~EventLoop`, which drops it, is not modelled, and nothing is
said about a connection that waits for such a functor.
-/

namespace Benet

open EventLoop Semantics

namespace EventMask

variable (events : EventMask)

/-- The read event has two bits, and writing uses neither. -/
private theorem has_read_or_write (reads : events.has kReadEvent = true) :
    EventMask.has (events ||| kWriteEvent) kReadEvent = true := by
  have disjoint : kWriteEvent &&& kReadEvent = 0 := by decide
  simpa [has, or_and, disjoint] using reads

private theorem has_read_and_not_write :
    EventMask.has (events &&& ~~~kWriteEvent) kReadEvent = events.has kReadEvent := by
  have disjoint : ~~~kWriteEvent &&& kReadEvent = kReadEvent := by decide
  simp [has, BitVec.and_assoc, disjoint]

private theorem has_read_or_read : EventMask.has (events ||| kReadEvent) kReadEvent = true := by
  have absorbed : (events ||| kReadEvent) &&& kReadEvent = kReadEvent := by
    ext index
    simpa using Or.inr
  rw [has, absorbed]
  decide

end EventMask

/-- A connection that is neither `Connecting` nor `Disconnected` is open. -/
theorem TcpState.isOpen_of_ne {state : TcpState} (established : state ≠ .connecting)
    (notClosed : state ≠ .disconnected) : state.isOpen := by
  cases state with
  | connecting => exact absurd rfl established
  | connected => exact .inl rfl
  | disconnecting => exact .inr rfl
  | disconnected => exact absurd rfl notClosed

/-- These tasks bring a shutdown or a close further. -/
def ConnectionTask.finishes : ConnectionTask → Bool
  | .shutdownInLoop | .writeDrained | .shutdownDrained | .forceCloseInLoop | .handleClose => true
  | _ => false

variable {Thread : Type}

/-- A connection that has left `Connected` has sent the end of its stream, or still has bytes
to send before, or somebody is about to finish it. -/
structure Finishing (id : Nat) (connection : TcpConnection Thread)
    (flight : Multiset (Located Thread Task)) : Prop where
  goes : connection.state = .disconnecting → 0 < connection.history.shutdownWrites ∨
    connection.channel.isWriteEvent = true ∨
      ∃ thread task, (thread, .connection id task) ∈ flight ∧ task.finishes = true

/-- A new connection is not in `Disconnecting`. -/
theorem Finishing.fresh {id : Nat} {connection : TcpConnection Thread}
    (isFresh : connection.Fresh) (flight : Multiset (Located Thread Task)) :
    Finishing id connection flight := by
  obtain ⟨loop, name, fd, onWriteComplete, rfl⟩ := isFresh
  exact ⟨fun same => by cases same⟩

variable [DecidableEq Thread]

namespace Site

variable {thread : Thread} {id : Nat} {answers : Answers} {site next : Site Thread}
  {calls : List (Call Thread Task)} {task : ConnectionTask}

omit [DecidableEq Thread] in
private theorem appendRemaining_isReadEvent {remaining : List UInt8}
    (reads : site.connection.channel.isReadEvent = true) :
    (site.appendRemaining id remaining).1.connection.channel.isReadEvent = true := by
  unfold appendRemaining
  split
  · exact reads
  · dsimp only
    split
    · exact reads
    · simpa [Channel.isReadEvent] using EventMask.has_read_or_write _ reads

/-- An open connection keeps the read event through every task but those of `StartRead` and
`StopRead`. -/
theorem Effect.listening (effect : Effect thread id answers site task next calls)
    (unread : task.aboutReading = false) (isOpen : next.connection.state.isOpen)
    (listening : site.connection.state.isOpen → site.connection.channel.isReadEvent = true) :
    next.connection.channel.isReadEvent = true := by
  cases effect with
  | shutdownBegun state | forceCloseBegun state => exact listening (.inl state)
  | connectionEstablished =>
      simp [Channel.isReadEvent, Site.connectionEstablished, EventMask.has_read_or_read]
  | sendPartly state | sendBuffered state =>
      exact appendRemaining_isReadEvent (listening (.inl state))
  | writeDrains =>
      simpa [Channel.isReadEvent, EventMask.has_read_and_not_write] using listening isOpen
  | destroyedConnected | closes => rcases isOpen with closed | closed <;> cases closed
  | startReadSkipped | startReadEnabled | stopReadSkipped | stopReadDisabled => cases unread
  | shutdownInLoop | shutdownDrained =>
      rw [shutdownWriteIfDrained_connection] at isOpen ⊢
      exact listening isOpen
  | removeFromLoop => exact listening isOpen
  | eventReads _ reads | afterCloseEvent reads => cases reads <;> exact listening isOpen
  | _ => exact listening isOpen

/-- Where the write event is switched off, the connection is closed or `handle_write` looks
after the shutdown. -/
theorem Effect.drains (effect : Effect thread id answers site task next calls)
    (writing : site.connection.channel.isWriteEvent = true)
    (state : next.connection.state = .disconnecting) :
    next.connection.channel.isWriteEvent = true ∨
      (thread, .connection id .writeDrained) ∈ Call.flights thread calls := by
  cases effect with
  | writeDrains => exact .inr (by simp [Call.flight])
  | destroyedConnected | closes => cases state
  | sendPartly | sendBuffered =>
      refine .inl ?_
      rw [appendRemaining_isWriteEvent]
      simp [writing]
  | startReadEnabled | stopReadDisabled => exact .inl (by simpa [Channel.isWriteEvent] using writing)
  | connectionEstablished => cases state
  | removeFromLoop => exact .inl writing
  | shutdownInLoop | shutdownDrained =>
      rw [shutdownWriteIfDrained_connection]
      exact .inl writing
  | eventReads _ reads | afterCloseEvent reads => cases reads <;> exact .inl (by simpa using writing)
  | _ => exact .inl (by simpa using writing)

/-- A task that finishes the connection hands over to another one, or the end of the stream is
sent, or bytes are left to send. -/
theorem Effect.handsOver (effect : Effect thread id answers site task next calls)
    (finishes : task.finishes = true) (state : next.connection.state = .disconnecting) :
    0 < next.connection.history.shutdownWrites ∨ next.connection.channel.isWriteEvent = true ∨
      ∃ waiting own, (waiting, .connection id own) ∈ Call.flights thread calls ∧
        own.finishes = true := by
  cases effect with
  | shutdownInLoop | shutdownDrained =>
      unfold shutdownWriteIfDrained
      split
      case isTrue writing => exact .inr (.inl writing)
      case isFalse => exact .inl (Nat.succ_pos _)
  | writeDrained =>
      refine .inr (.inr ⟨site.connection.loop, .shutdownDrained, ?_, rfl⟩)
      rw [if_pos state]
      simp [Call.flight]
  | forceCloseInLoop =>
      refine .inr (.inr ⟨thread, .handleClose, ?_, rfl⟩)
      rw [if_pos (.inr state)]
      simp [Call.flight]
  | closeSkipped _ other => exact absurd state other
  | closes => cases state
  | _ => cases finishes

end Site

namespace Finishing

variable {id : Nat} {thread base : Thread} {answers : Answers} {site next : Site Thread}
  {calls : List (Call Thread Task)} {task : ConnectionTask}
  {rest : Multiset (Located Thread Task)}

/-- `Disconnecting` is entered with a functor that finishes the connection. -/
theorem begins (effect : site.Effect thread id answers task next calls)
    (entered : site.connection.state ≠ .disconnecting)
    (state : next.connection.state = .disconnecting) :
    ∃ waiting own, (waiting, .connection id own) ∈ Call.flights thread calls ∧
      own.finishes = true := by
  cases effect with
  | shutdownBegun => exact ⟨site.connection.loop, .shutdownInLoop, by simp [Call.flight], rfl⟩
  | forceCloseBegun => exact ⟨site.connection.loop, .forceCloseInLoop, by simp [Call.flight], rfl⟩
  | connectionEstablished | destroyedConnected | closes => cases state
  | sendPartly | sendBuffered =>
      rw [Site.appendRemaining_state] at state
      exact absurd state entered
  | shutdownInLoop | shutdownDrained =>
      rw [Site.shutdownWriteIfDrained_connection] at state
      exact absurd state entered
  | eventReads _ reads | afterCloseEvent reads => cases reads <;> exact absurd state entered
  | _ => exact absurd state entered

/-- A task of the connection keeps the account of what is to be finished. -/
theorem effect (effect : site.Effect thread id answers task next calls)
    (finishing : Finishing id site.connection ({(thread, .connection id task)} + rest)) :
    Finishing id next.connection (tokens id (Call.flights thread calls) + rest) := by
  -- what the task calls about the connection is among its tokens
  have called : ∀ {waiting own}, (waiting, .connection id own) ∈ Call.flights thread calls →
      (waiting, .connection id own) ∈ tokens id (Call.flights thread calls) + rest := by
    intro waiting own member
    exact Multiset.mem_add.mpr (.inl ((mem_tokens id).mpr ⟨member, by simp [Task.about]⟩))
  refine ⟨fun state => ?_⟩
  by_cases finishes : task.finishes = true
  · rcases effect.handsOver finishes state with sent | writing | ⟨waiting, own, member, finishes⟩
    · exact .inl sent
    · exact .inr (.inl writing)
    · exact .inr (.inr ⟨waiting, own, called member, finishes⟩)
  by_cases was : site.connection.state = .disconnecting
  · rcases finishing.goes was with sent | writing | ⟨waiting, own, member, isFinishing⟩
    · rcases effect.shutdownWrites with same | ⟨rfl | rfl, -⟩
      · exact .inl (same ▸ sent)
      · exact absurd rfl finishes
      · exact absurd rfl finishes
    · rcases effect.drains writing state with still | drained
      · exact .inr (.inl still)
      · exact .inr (.inr ⟨thread, .writeDrained, called drained, rfl⟩)
    · rcases Multiset.mem_add.mp member with executed | waits
      · obtain ⟨rfl, rfl⟩ : waiting = thread ∧ own = task := by simpa using executed
        exact absurd isFinishing finishes
      · exact .inr (.inr ⟨waiting, own, Multiset.mem_add.mpr (.inr waits), isFinishing⟩)
  · obtain ⟨waiting, own, member, finishes⟩ := begins effect was state
    exact .inr (.inr ⟨waiting, own, called member, finishes⟩)

omit [DecidableEq Thread] in
/-- A step outside the connection keeps the account of what is to be finished. -/
theorem beside {connection changed : TcpConnection Thread}
    {gone new : Multiset (Located Thread Task)}
    (closing : ∀ located ∈ gone, located.2 = .onClose id ∨ located.2 = .removeConnection id)
    (untouched : connection.Untouched changed)
    (finishing : Finishing id connection (gone + rest)) : Finishing id changed (new + rest) := by
  obtain ⟨_, _, _, _, _, _, -, rfl⟩ := untouched
  refine ⟨fun state => ?_⟩
  rcases finishing.goes state with sent | writing | ⟨waiting, own, member, finishes⟩
  · exact .inl sent
  · exact .inr (.inl writing)
  · rcases Multiset.mem_add.mp member with old | kept
    · have impossible := closing _ old
      simp at impossible
    · exact .inr (.inr ⟨waiting, own, Multiset.mem_add.mpr (.inr kept), finishes⟩)

end Finishing

namespace World

variable {guard : Thread → Task → Choice Thread → World Thread → Prop} [Fintype Thread]
  {machine : Machine (World Thread) Thread Task} {id : Nat}

/-- A connection in `Disconnecting` is being finished in every run. -/
theorem reachable_finishing (reachable : system.Reachable (Machine.onExec guard) machine)
    (created : id < machine.client.created) :
    Finishing id (machine.client.connections id) (tokens id machine.flight) := by
  refine (reachable_lifecycle id (fun _ => Finishing id) ?_ ?_ reachable created).2
  · exact fun _ _ isFresh => .fresh isFresh _
  · intro machine before connection after _ _ _ step finishing
    cases step.view with
    | beside untouched closing => exact finishing.beside closing untouched
    | own _ _ effect => exact finishing.effect effect

/-- While nobody calls `StartRead` or `StopRead`, open connections have the read event. -/
theorem reachable_listening (reachable : system.Reachable (Machine.onExec serves) machine)
    (created : id < machine.client.created)
    (isOpen : (machine.client.connections id).state.isOpen) :
    (machine.client.connections id).channel.isReadEvent = true := by
  refine (reachable_lifecycle id (fun _ connection flight => Removal id connection flight ∧
    (connection.state.isOpen → connection.channel.isReadEvent = true)) ?_ ?_ reachable created).2.2
      isOpen
  · intro _ connection isFresh
    refine ⟨.fresh isFresh, ?_⟩
    obtain ⟨loop, name, fd, onWriteComplete, rfl⟩ := isFresh
    rintro (state | state) <;> cases state
  · rintro machine before connection after reached _ lifecycle step ⟨removal, listening⟩
    refine ⟨removal.step (reachable_alive reached) ?_ (fun admitted => admitted) lifecycle step, ?_⟩
    · intro thread choice call admitted action
      simpa [serves, UserAction.reads, action] using admitted
    · intro isOpen
      cases step.view with
      | beside untouched =>
          obtain ⟨_, _, _, _, _, _, -, rfl⟩ := untouched
          exact listening isOpen
      | own _ _ effect =>
          exact effect.listening (removal.unread _ _ (mem_first _ _)) isOpen listening

/-- The connection is open, registered and watched by the kernel: for input always, for output
while bytes are waiting; and a shutdown that has sent everything has sent the end of the
stream. -/
structure InService (id : Nat) (world : World Thread) : Prop where
  isOpen : (world.connections id).state.isOpen
  registered : world.server.connections (world.connections id).name = some id
  watched : (world.pollers (world.connections id).loop).interest
    (world.connections id).channel.fd = some ⟨id, (world.connections id).channel.events⟩
  reads : (world.connections id).channel.isReadEvent = true
  writes : (world.connections id).channel.isWriteEvent = true ↔
    (world.connections id).outputBuffer.content ≠ []
  finished : (world.connections id).state = .disconnecting →
    (world.connections id).outputBuffer.content = [] →
      0 < (world.connections id).history.shutdownWrites

/-- The connection is closed and erased, `ConnectionDestroyed` and `RemoveFromLoop` have run for
it once, and no poller knows it. -/
structure Gone (id : Nat) (world : World Thread) : Prop where
  closed : (world.connections id).state = .disconnected
  unregistered : world.server.connections (world.connections id).name = none
  destroyed : (world.connections id).history.destroyed = 1
  removed : (world.connections id).history.removed = 1
  absent : ∀ loop, (world.pollers loop).Absent id

/-- A server that serves registers no removed channel anew. -/
theorem reachable_keepsRemoved (reachable : system.Reachable (Machine.onExec serves) machine) :
    system.Reachable (Machine.onExec keepsRemoved) machine := by
  refine reachable.invariant (fun machine => system.Reachable (Machine.onExec keepsRemoved) machine)
    (fun _ initial => .initial initial) ?_
  intro machine label next before reached admitted stepped
  exact reached.step (serving_keepsRemoved before admitted) stepped

/-- `RemoveFromLoop` comes last. -/
theorem gone_of_removed (reachable : system.Reachable (Machine.onExec serves) machine)
    (created : id < machine.client.created)
    (removed : 0 < (machine.client.connections id).history.removed) : machine.client.Gone id := by
  obtain ⟨removal, closing⟩ := reachable_removal reachable created
  have closed := closing.removed removed
  have leaving := removal.leaving
  have destroying := removal.destroying
  have removing := removal.removing
  rw [if_pos closed] at leaving
  have index := (reachable_unlinking (reachable_keepsRemoved reachable) created).index removed
  refine ⟨closed, ?_, by omega, by omega, absent_of_new reachable created index⟩
  rw [(reachable_registry reachable).entries id created, if_neg (by omega)]

/-- In every run of a server that is kept and whose users call neither `StartRead` nor
`StopRead`: a connection about which nothing is in flight, no function on a stack, no functor in
a queue and no event of its channel, is in service or gone. -/
theorem idle_connection_is_settled (reachable : system.Reachable (Machine.onExec serves) machine)
    (created : id < machine.client.created) (idle : tokens id machine.flight = 0) :
    machine.client.InService id ∨ machine.client.Gone id := by
  obtain ⟨removal, -⟩ := reachable_removal reachable created
  have cycle := lifecycle id reachable created
  have finishing := reachable_finishing reachable created
  have pending := reachable_pending reachable created
  rw [idle] at removal cycle finishing
  have establishing := cycle.establishing
  have leaving := removal.leaving
  have destroying := removal.destroying
  have removing := removal.removing
  simp only [inFlight_zero, Nat.zero_add, Nat.add_zero] at establishing leaving destroying removing
  by_cases closed : (machine.client.connections id).state = .disconnected
  · rw [if_pos closed] at leaving
    exact .inr (gone_of_removed reachable created (by omega))
  · have connecting : (machine.client.connections id).state ≠ .connecting := by
      intro state
      simp [state] at establishing
    have isOpen := TcpState.isOpen_of_ne connecting closed
    have reads := reachable_listening reachable created isOpen
    rw [if_neg closed] at leaving
    refine .inl ⟨isOpen, ?_, ?_, reads, pending.waiting closed, ?_⟩
    · rw [(reachable_registry reachable).entries id created, if_pos leaving]
    · have events : (machine.client.connections id).channel.events ≠ kNoneEvent := by
        intro none
        simp [Channel.isReadEvent, none] at reads
      have added := (pending.added events).resolve_right (by omega)
      have tracked := ((reachable_registered reachable).tracks id created).interest
      rwa [if_pos added] at tracked
    · intro state empty
      rcases finishing.goes state with sent | writing | ⟨_, _, member, -⟩
      · exact sent
      · exact absurd empty ((pending.waiting closed).mp writing)
      · exact absurd member (Multiset.notMem_zero _)

/-- An established connection with nothing in flight is in service. -/
theorem idle_connection_is_settled_userTurn :
    ∃ machine : Machine (World TwoThreads) TwoThreads Task,
      0 < machine.client.created ∧ tokens 0 machine.flight = 0 ∧ machine.client.InService 0 := by
  let machine := (system.run (Machine.onExec serves) serverOnZero userTurn).get (by decide +kernel)
  have reachable : system.Reachable (Machine.onExec serves) machine :=
    LabelledSystem.run_reachable serverOnZero_initial (Option.some_get _).symm
  have created : 0 < machine.client.created := by decide +kernel
  have idle : tokens 0 machine.flight = 0 := by decide +kernel
  have connected : (machine.client.connections 0).state = .connected := by decide +kernel
  refine ⟨machine, created, idle, (idle_connection_is_settled reachable created idle).resolve_right
    fun gone => ?_⟩
  rw [gone.closed] at connected
  cases connected

end World

end Benet
