import Benet.EventLoop.Stacks
import Benet.Server.Destruction

/-!
# Active channels outlive the event phase

`active_channels_` holds plain pointers to channels of connections. A connection is
kept alive by its entry in `connections_` and then by the functor of
`ConnectionDestroyed`, which its loop runs after the event phase; and a channel that
`RemoveFromLoop` has taken out of the poller is not polled again as long as nothing
registers it anew. So what `Poll` returns stays valid until it has been handled
(`World.active_channels_outlive`).
-/

namespace Benet

open EventLoop Semantics

variable {Thread : Type}

/-- The loop is between the return of `Poll` and the end of the event phase. -/
def EventLoop.Phase.handlesEvents : Phase Thread Task → Bool
  | .events _ => true
  | _ => false

/-- The tasks that take a channel out of its loop, or lead to it. -/
def Task.Deferred : Task → Prop
  | .connection _ .connectionDestroyed | .connection _ .removeFromLoop | .destroyServer => True
  | _ => False

/-- How a connection gets out of its loop: `RemoveFromLoop` follows each
`ConnectionDestroyed`, and the poller does not know a removed channel. -/
structure Unlinking (id : Nat) (connection : TcpConnection Thread)
    (flight : Multiset (Located Thread Task)) : Prop where
  removing : connection.history.removed + inFlight (.connection id .removeFromLoop) flight =
    connection.history.destroyed
  index : 0 < connection.history.removed → connection.channel.index = .kNewChannel

variable [DecidableEq Thread]

namespace Site

variable {thread : Thread} {id : Nat} {answers : Answers} {site next : Site Thread}
  {calls : List (Call Thread Task)} {task : ConnectionTask}

/-- A function of a connection calls no deferred task unless it is one. -/
theorem Effect.avoids (effect : Effect thread id answers site task next calls)
    (body : ¬ (Task.connection id task).Deferred) :
    ∀ call ∈ calls, call.Avoids Task.Deferred := by
  have carried : ∀ {waiting : Thread} {functor : Task},
      (waiting, functor) ∈ Call.flights thread calls → ¬ functor.Deferred := by
    intro waiting functor member
    cases effect.emitted _ member with
    | removeFromLoop => exact absurd trivial body
    | _ => exact fun deferred => deferred
  intro call member
  cases call with
  | task functor | runInLoop loop functor =>
      exact carried ((Call.mem_flights thread).mpr ⟨_, member, Multiset.mem_singleton_self _⟩)
  | queueInLoop | stop => trivial

/-- `RemoveFromLoop` is called and not posted. -/
theorem Effect.posts_others (effect : Effect thread id answers site task next calls) :
    ∀ call ∈ calls, call.Posts fun functor =>
      ∀ other, functor ≠ .connection other .removeFromLoop := by
  intro call member
  have carried : ∀ {waiting : Thread} {functor : Task} {other : Nat},
      (waiting, functor) ∈ call.flight thread → functor = .connection other .removeFromLoop →
        call = .task functor := by
    intro waiting functor other inCall same
    subst same
    cases effect.emitted _ ((Call.mem_flights thread).mpr ⟨call, member, inCall⟩) with
    | removeFromLoop =>
        cases effect with
        | destroyedConnected =>
            rcases List.mem_pair.mp member with rfl | rfl
            · simp [Call.flight] at inCall
            · rfl
        | destroyedOtherwise => exact List.mem_singleton.mp member
  cases call with
  | runInLoop loop functor | queueInLoop loop functor =>
      intro other same
      cases carried (Multiset.mem_singleton_self _) same
  | task | stop => trivial

end Site

namespace Unlinking

variable {id : Nat} {connection : TcpConnection Thread}
  {guard : Thread → Task → Choice Thread → World Thread → Prop} {world : World Thread}
  {before after : Multiset (Located Thread Task)}

omit [DecidableEq Thread] in
/-- A new connection has not been removed. -/
theorem fresh (isFresh : connection.Fresh) :
    Unlinking id connection {(connection.loop, .connection id .connectionEstablished)} := by
  obtain ⟨loop, name, fd, onWriteComplete, rfl⟩ := isFresh
  constructor <;> simp

/-- Any step keeps the removed channel unlinked when nothing registers it anew. -/
theorem step (unlinking : Unlinking id (world.connections id) before)
    (quiet : ∀ {thread choice task}, guard thread (.connection id task) choice world →
      0 < (world.connections id).history.removed → ¬ (world.connections id).Updates task)
    (step : World.ConnectionStep guard id world before connection after) :
    Unlinking id connection after := by
  obtain ⟨removing, index⟩ := unlinking
  cases step.view with
  | beside untouched closing external =>
      obtain ⟨_, _, _, _, _, _, -, rfl⟩ := untouched
      exact ⟨by rwa [World.inFlight_beside closing external rfl], index⟩
  | @own thread choice task site calls rest admitted _ effect =>
      refine ⟨effect.removing removing, fun removed => ?_⟩
      by_cases removes : task = .removeFromLoop
      · subst removes
        cases effect with
        | removeFromLoop => rfl
      · rw [effect.removed_eq removes] at removed
        rw [effect.channel_kept (quiet admitted removed) removes]
        exact index removed

end Unlinking

namespace World

/-- The task is the `HandleEvent` of a connection. -/
def handlesEvent (task : Task) : Prop := ∃ id revents, task = .connection id (.handleEvent revents)

/-- Nothing calls `HandleEvent` but the loop. -/
theorem client_roots :
    (client : Client (World Thread) Thread Task (Choice Thread)).Roots handlesEvent where
  exec {thread body choice world next calls} executed := by
    cases exec_executes executed with
    | connection effect =>
        intro call member
        have carried : ∀ {waiting : Thread} {task : Task}, (waiting, task) ∈ call.flight thread →
            ¬ handlesEvent task := by
          rintro waiting _ inCall ⟨id, revents, rfl⟩
          cases effect.emitted _ ((Call.mem_flights thread).mpr ⟨call, member, inCall⟩)
        cases call with
        | task | runInLoop | queueInLoop => exact carried (Multiset.mem_singleton_self _)
        | stop => trivial
    | @calls _ made => cases made <;> simp [Call.Plain, handlesEvent, UserCall.task]
    | posts posted =>
        obtain ⟨loop, rfl | rfl | rfl⟩ := posted <;> simp [Call.Plain, handlesEvent]
    | destroyServer => simp [Call.Plain, handlesEvent]
    | leaves | tunes | destroys | newConnection | onClose | onCloseDead | removeConnection
    | removeDead => simp [Call.Plain, handlesEvent]

section Executes

variable {world next : World Thread} {thread : Thread} {choice : Choice Thread} {task : Task}
  {calls : List (Call Thread Task)}

/-- Nothing but a deferred task, or a user who destroys the server, calls a deferred
task or may run it at once. -/
theorem Executes.avoids (executes : Executes thread choice world task next calls)
    (spared : task = .user → choice.action ≠ .destroyServer) (body : ¬ task.Deferred) :
    ∀ call ∈ calls, call.Avoids Task.Deferred := by
  cases executes with
  | @calls _ call => cases call <;> simp [Call.Avoids, Task.Deferred, UserCall.task]
  | posts posted =>
      obtain ⟨loop, rfl | rfl | rfl⟩ := posted <;> simp [Call.Avoids, Task.Deferred]
  | destroys action => exact absurd action (spared rfl)
  | connection effect => exact effect.avoids body
  | destroyServer => exact absurd trivial body
  | leaves | tunes | newConnection | onClose | onCloseDead | removeConnection | removeDead =>
      simp [Call.Avoids, Task.Deferred]

/-- No task posts `RemoveFromLoop`; it is called at once. -/
theorem Executes.posts_others (executes : Executes thread choice world task next calls) :
    ∀ call ∈ calls, call.Posts fun functor => ∀ id, functor ≠ .connection id .removeFromLoop := by
  cases executes with
  | connection effect => exact effect.posts_others
  | posts posted => obtain ⟨loop, rfl | rfl | rfl⟩ := posted <;> simp [Call.Posts]
  | destroyServer => simp [Call.Posts]
  | leaves | calls | tunes | destroys | newConnection | onClose | onCloseDead | removeConnection
  | removeDead => simp [Call.Posts]

end Executes

/-- Every connection of a server that lives is registered until the functor of
`remove_connection` has erased it. -/
def Entered (world : World Thread) : Prop :=
  world.server.alive = true → ∀ id, id < world.created →
    (world.connections id).history.erased = 0 →
      world.server.connections (world.connections id).name = some id

namespace Entered

variable {world next : World Thread}

omit [DecidableEq Thread] in
/-- Changes of connections that touch neither names nor removals. -/
theorem congr (entered : world.Entered) (created : next.created = world.created)
    (server : next.server = world.server)
    (name : ∀ id, (next.connections id).name = (world.connections id).name)
    (erased : ∀ id, (next.connections id).history.erased =
      (world.connections id).history.erased) : next.Entered := by
  intro alive id exists' kept
  rw [server] at alive ⊢
  rw [created] at exists'
  rw [erased] at kept
  rw [name]
  exact entered alive id exists' kept

omit [DecidableEq Thread] in
/-- `new_connection` overwrites no entry. -/
theorem withNewConnection {choice : Choice Thread} (entered : world.Entered)
    (alive : world.server.alive = true)
    (vacant : world.server.connections
      (connName world.server (world.nextConnId + choice.skipped)) = none) :
    (world.withNewConnection choice).Entered := by
  intro _ id created kept
  rcases Nat.lt_succ_iff_lt_or_eq.mp created with exists' | rfl
  · rw [withNewConnection_connections_old exists'] at kept ⊢
    have entry := entered alive id exists' kept
    have different : (world.connections id).name ≠
        connName world.server (world.nextConnId + choice.skipped) := by
      intro same
      rw [same, vacant] at entry
      cases entry
    simpa [World.withNewConnection, different] using entry
  · rw [withNewConnection_connections_new]
    exact Function.update_self _ _ _

omit [DecidableEq Thread] in
/-- The functor of `remove_connection` erases its own entry. -/
theorem withoutConnection {other : Nat} (entered : world.Entered)
    (alive : world.server.alive = true) (exists' : other < world.created)
    (present : (world.connections other).history.erased = 0) :
    (world.withoutConnection other).Entered := by
  intro _ id created kept
  by_cases here : id = other
  · subst here
    simp [World.withoutConnection, modifyConnection] at kept
  · rw [withoutConnection_connections_other here] at kept ⊢
    have entry := entered alive id created kept
    have different : (world.connections id).name ≠ (world.connections other).name := by
      intro same
      rw [same, entered alive other exists' present] at entry
      exact here (Option.some.inj entry).symm
    rw [withoutConnection_server_connections, Function.update_of_ne different]
    exact entry

/-- An executed task keeps connections registered until they are erased. -/
theorem executes {thread : Thread} {choice : Choice Thread} {task : Task}
    {calls : List (Call Thread Task)} (entered : world.Entered)
    (vacant : task = .newConnection →
      world.server.connections (connName world.server (world.nextConnId + choice.skipped)) = none)
    (present : ∀ id, task = .removeConnection id → world.server.alive = true →
      id < world.created ∧ (world.connections id).history.erased = 0)
    (executes : Executes thread choice world task next calls) : next.Entered := by
  cases executes with
  | leaves | calls | posts | destroys | onClose | onCloseDead | removeDead => exact entered
  | tunes tuned =>
      obtain ⟨_, _, _, _, changed⟩ := tuned _ rfl
      exact entered.congr rfl rfl (modifyConnection_frame (·.name) (by rw [changed]))
        (modifyConnection_frame (·.history.erased) (by rw [changed]))
  | connection effect =>
      exact entered.congr rfl rfl (setSite_frame (·.name) effect.identity.name)
        (setSite_frame (·.history.erased) effect.counts.erased)
  | newConnection alive => exact entered.withNewConnection alive (vacant rfl)
  | @removeConnection id alive =>
      obtain ⟨exists', notErased⟩ := present id rfl alive
      exact entered.withoutConnection alive exists' notErased
  | destroyServer => exact fun alive => by cases alive

end Entered

/-- Handlers are not deferred, and `RemoveFromLoop` is none of them. -/
theorem poll_handlers {thread : Thread} {choice : Choice Thread} {world : World Thread}
    {actives : List (Active Task)} (polled : client.poll thread choice world = some actives)
    (handler : Task) (member : .channel handler ∈ actives) :
    ¬ handler.Deferred ∧ ∀ id, handler ≠ .connection id .removeFromLoop := by
  have pollable := poll_pollable polled _ member
  unfold World.pollable at pollable
  split at pollable <;> simp_all [Task.Deferred]

/-- `RemoveFromLoop` is never posted and never polled. -/
theorem client_carries :
    (client : Client (World Thread) Thread Task (Choice Thread)).Carries
      (fun functor => ∀ id, functor ≠ .connection id .removeFromLoop)
      (fun handler => ∀ id, handler ≠ .connection id .removeFromLoop) where
  exec executed := (exec_executes executed).posts_others
  poll polled handler member := (poll_handlers polled handler member).2

/-- No function calls `UpdateChannel` for a channel that was removed from its loop,
and `new_connection` does not overwrite an entry of `connections_`. -/
def keepsRemoved (_ : Thread) (task : Task) (choice : Choice Thread) (world : World Thread) :
    Prop :=
  match task with
  | .connection id task => 0 < (world.connections id).history.removed →
      ¬ (world.connections id).Updates task
  | .newConnection =>
      world.server.connections (connName world.server (world.nextConnId + choice.skipped)) = none
  | _ => True

instance (thread : Thread) (task : Task) (choice : Choice Thread) (world : World Thread) :
    Decidable (keepsRemoved thread task choice world) := by
  unfold keepsRemoved
  split <;> infer_instance

/-- Besides, user code does not destroy the server while its thread handles events. -/
def destroysOutside (machine : Machine (World Thread) Thread Task)
    (label : Label Thread (Choice Thread)) : Prop :=
  machine.onExec keepsRemoved label ∧
    ∀ executed ∈ machine.executing label, executed.1 = .user →
      executed.2.action = .destroyServer →
        (machine.loops label.thread).phase.handlesEvents = false

instance (machine : Machine (World Thread) Thread Task) (label : Label Thread (Choice Thread)) :
    Decidable (destroysOutside machine label) :=
  inferInstanceAs (Decidable (_ ∧ ∀ executed ∈ machine.executing label, _))

variable {machine : Machine (World Thread) Thread Task} {thread : Thread}
  {rest : List (Active Task)}

/-- While a loop handles events, its thread is not in a deferred task. -/
theorem handling_avoids (reachable : system.Reachable destroysOutside machine)
    (phase : (machine.loops thread).phase = .events rest) :
    ∀ call ∈ machine.calls thread, call.Avoids Task.Deferred := by
  refine Machine.avoids_while_handling (fun polled handler member =>
    (poll_handlers polled handler member).1) ?_ reachable phase
  intro machine thread body choice state calls rest _ admitted executed ran handling notDeferred
  refine (exec_executes ran).avoids (fun isUser action => ?_) notDeferred
  have outside := admitted.2 _ executed isUser action
  simp [Phase.handlesEvents, handling] at outside

/-- In the event phase no deferred function is executed. -/
theorem handling_executes (reachable : system.Reachable destroysOutside machine)
    (phase : (machine.loops thread).phase = .events rest) {label : Label Thread (Choice Thread)}
    (here : label.thread = thread) {task : Task} {choice : Choice Thread}
    (executed : machine.executing label = some (task, choice)) : ¬ task.Deferred := by
  subst here
  obtain ⟨stack, -, top, -⟩ := Machine.executing_top executed
  exact handling_avoids reachable phase (.task task) (top ▸ List.mem_cons_self)

variable [Fintype Thread] {id : Nat}

/-- `RemoveFromLoop` follows `ConnectionDestroyed` in every run that keeps removed channels removed.
-/
theorem reachable_unlinking (reachable : system.Reachable (Machine.onExec keepsRemoved) machine)
    (created : id < machine.client.created) :
    Unlinking id (machine.client.connections id) (tokens id machine.flight) := by
  refine reachable_connection id (fun _ => Unlinking id) ?_ ?_ reachable created
  · exact fun _ _ isFresh => .fresh isFresh
  · exact fun _ _ _ _ _ _ step unlinking => unlinking.step (fun admitted => admitted) step

/-- Connections stay registered until they are erased, in every run that keeps removed channels
removed. -/
theorem reachable_entered (reachable : system.Reachable (Machine.onExec keepsRemoved) machine) :
    machine.client.Entered := by
  refine reachable_world Entered ?_ ?_ reachable
  · rintro world ⟨loop, name, listenAddr, writeCompleteCb, rfl⟩ _ id created
    cases created
  · intro machine thread task choice rest next calls reached before admitted executes entered
    refine entered.executes ?_ ?_ executes
    · rintro rfl
      exact admitted
    · rintro id rfl alive
      exact reachable_not_erased reached alive before

omit [Fintype Thread] in
/-- `ConnectionDestroyed` is not taken back. -/
theorem ConnectionView.condemned {world : World Thread} {connection : TcpConnection Thread}
    {guard : Thread → Task → Choice Thread → World Thread → Prop}
    {before after : Multiset (Located Thread Task)}
    (positive : 0 < (world.connections id).history.destroyed +
      inFlight (.connection id .connectionDestroyed) before)
    (view : ConnectionView guard id world before connection after) :
    0 < connection.history.destroyed +
      inFlight (.connection id .connectionDestroyed) after := by
  cases view with
  | beside untouched closing external =>
      obtain ⟨_, _, _, _, _, _, -, rfl⟩ := untouched
      rw [inFlight_add, inFlight_gone closing] at positive
      rw [inFlight_add]
      dsimp only
      omega
  | own _ _ effect =>
      have kept : (world.site id).connection = world.connections id := rfl
      simp only [inFlight_add, inFlight_singleton, Task.connection.injEq, true_and] at positive
      rw [inFlight_add, effect.counts.destroyed, effect.inFlight_connectionDestroyed, kept]
      omega

/-- Once the server is destroyed, `ConnectionDestroyed` is under way or has run for
every connection. -/
theorem reachable_condemned (reachable : system.Reachable (Machine.onExec keepsRemoved) machine)
    (created : id < machine.client.created) (dead : machine.client.server.alive = false) :
    0 < (machine.client.connections id).history.destroyed +
      inFlight (.connection id .connectionDestroyed) (tokens id machine.flight) := by
  refine reachable_created id (fun world flight => world.server.alive = false →
    0 < (world.connections id).history.destroyed +
      inFlight (.connection id .connectionDestroyed) flight) ?_ ?_ reachable created dead
  · intro world alive _ _ dead
    simp [dead] at alive
  · intro machine next reached exists' step condemned dead
    cases guardedStep_server step with
    | spares alive step =>
        rw [alive] at dead
        exact guardedStep_preserves (fun connection flight =>
          0 < connection.history.destroyed +
            inFlight (.connection id .connectionDestroyed) flight)
          (fun _ _ _ step positive => step.view.condemned positive) exists' step (condemned dead)
    | @destroys thread choice rest _ alive order before after flown =>
        have destroying := ((reachable_departing reached exists').departure alive).destroying
        have entered := reachable_entered reached alive id exists'
        rw [after, flown, inFlight_destroyServer exists' order, ← before]
        simp only [modifyServer]
        split
        case isTrue => omega
        case isFalse absent =>
          have erased := mt entered absent
          omega

/-- A connection that has not been destroyed is in `connections_`, or a functor
holds it. -/
theorem reachable_owned (reachable : system.Reachable (Machine.onExec keepsRemoved) machine)
    (created : id < machine.client.created)
    (present : (machine.client.connections id).history.destroyed = 0) :
    machine.client.server.connections (machine.client.connections id).name = some id ∨
      0 < inFlight (.connection id .connectionDestroyed) machine.flight := by
  have own : (Task.connection id .connectionDestroyed).about id = true := by simp [Task.about]
  rw [← inFlight_tokens _ own]
  cases alive : machine.client.server.alive with
  | true =>
      have destroying := ((reachable_departing reachable created).departure alive).destroying
      by_cases erased : (machine.client.connections id).history.erased = 0
      · exact .inl (reachable_entered reachable alive id created erased)
      · right
        omega
  | false =>
      have condemned := reachable_condemned reachable created alive
      right
      omega

/-- A connection whose channel is in the interest set when its loop polls has not
been destroyed. -/
theorem polled_present (reachable : system.Reachable (Machine.onExec keepsRemoved) machine)
    (empty : machine.calls thread = []) {revents : EventMask}
    (pollable : machine.client.pollable thread
      (.channel (.connection id (.handleEvent revents))) = true) :
    id < machine.client.created ∧ (machine.client.connections id).loop = thread ∧
      (machine.client.connections id).history.destroyed = 0 := by
  simp only [World.pollable, Bool.and_eq_true, decide_eq_true_eq] at pollable
  obtain ⟨⟨created, rfl⟩, interest⟩ := pollable
  refine ⟨created, rfl, ?_⟩
  obtain ⟨removing, index⟩ := reachable_unlinking reachable created
  have tracked := ((reachable_registered reachable).tracks id created).interest
  have linked : (machine.client.connections id).history.removed = 0 := by
    by_contra removed
    rw [index (Nat.pos_of_ne_zero removed)] at tracked
    simp [tracked] at interest
  have none : inFlight (.connection id .removeFromLoop) (tokens id machine.flight) = 0 := by
    rw [inFlight_eq_zero]
    rintro ⟨waiting, task⟩ member rfl
    have here : waiting = (machine.client.connections id).loop :=
      (lifecycle id reachable created).placed _ member rfl
    have onStack := (Machine.reachable_carries client_carries reachable).on_stack
      (fun other => other id rfl) (fun other => other id rfl) ((mem_tokens id).mp member).1
    rw [here, empty] at onStack
    cases onStack
  omega

omit [Fintype Thread] in
/-- Destroying the server outside the event phase is a further restriction only. -/
theorem keepsRemoved_of_destroysOutside (reachable : system.Reachable destroysOutside machine) :
    system.Reachable (Machine.onExec keepsRemoved) machine :=
  reachable.weaken fun _ _ admitted => admitted.1

/-- A connection whose channel is still to be handled has not been destroyed. -/
theorem active_present (reachable : system.Reachable destroysOutside machine)
    {revents : EventMask}
    (waits : .channel (.connection id (.handleEvent revents)) ∈ (machine.loops thread).actives) :
    id < machine.client.created ∧ (machine.client.connections id).loop = thread ∧
      (machine.client.connections id).history.destroyed = 0 := by
  refine Machine.reachable_actives (fun thread handler world =>
    ∀ id revents, handler = .connection id (.handleEvent revents) →
      id < world.created ∧ (world.connections id).loop = thread ∧
        (world.connections id).history.destroyed = 0) ?_ ?_ reachable thread _ waits id revents rfl
  · rintro machine thread choice active handler reached empty polled member id revents rfl
    exact polled_present (keepsRemoved_of_destroysOutside reached) empty
      (poll_pollable polled _ member)
  · rintro machine next label thread handler reached admitted stepped waits present id revents rfl
    obtain ⟨created, loop, notDestroyed⟩ := present id revents rfl
    have past := keepsRemoved_of_destroysOutside reached
    have grows := guardedStep_created (Machine.guardedStep client_prompt past admitted.1 stepped)
    refine ⟨Nat.lt_of_lt_of_le created grows, step_lifecycle (fun connection =>
      connection.loop = thread ∧ connection.history.destroyed = 0) ?_ past created stepped
      ⟨loop, notDestroyed⟩⟩
    intro before connection after cycle view
    cases view with
    | beside untouched =>
        obtain ⟨_, _, _, _, _, _, -, rfl⟩ := untouched
        exact ⟨loop, notDestroyed⟩
    | @own runner choice task site calls rest executed _ effect =>
        obtain ⟨rfl, executed⟩ := executed
        refine ⟨effect.identity.loop.trans loop, ?_⟩
        have other : task ≠ .connectionDestroyed := by
          rintro rfl
          obtain ⟨rest, handling⟩ := Loop.phase_of_mem_actives waits
          exact handling_executes reached handling ((cycle.here rfl).trans loop) executed trivial
        rw [effect.counts.destroyed, if_neg other, add_zero]
        exact notDestroyed

/-- The active list of a loop, from the return of `Poll` to the end of the event
phase, in every run in which no removed channel is registered anew, no entry of
`connections_` is overwritten and the server is not destroyed in the event phase.
The loop's thread calls `RemoveChannel` for no channel, and a channel that is still
to be handled is removed by no thread; its connection is in `connections_`, or the
functor of `ConnectionDestroyed` that holds it is queued or about to be. -/
theorem active_channels_outlive (reachable : system.Reachable destroysOutside machine)
    (phase : (machine.loops thread).phase = .events rest) :
    (∀ (label : Label Thread (Choice Thread)) id choice, label.thread = thread →
      machine.executing label ≠ some (.connection id .removeFromLoop, choice)) ∧
    ∀ id revents, .channel (.connection id (.handleEvent revents)) ∈ rest →
      (∀ (label : Label Thread (Choice Thread)) choice,
        machine.executing label ≠ some (.connection id .removeFromLoop, choice)) ∧
      (machine.client.server.connections (machine.client.connections id).name = some id ∨
        0 < inFlight (.connection id .connectionDestroyed) machine.flight) := by
  have removesNone : ∀ (label : Label Thread (Choice Thread)) id choice, label.thread = thread →
      machine.executing label ≠ some (.connection id .removeFromLoop, choice) :=
    fun label id choice here executed => handling_executes reachable phase here executed trivial
  refine ⟨removesNone, fun id revents member => ?_⟩
  have waits : .channel (.connection id (.handleEvent revents)) ∈
      (machine.loops thread).actives := by
    rwa [Loop.actives, phase]
  obtain ⟨created, loop, present⟩ := active_present reachable waits
  have past := keepsRemoved_of_destroysOutside reachable
  refine ⟨fun label choice executed => ?_, reachable_owned past created present⟩
  have token := (mem_tokens id).mpr ⟨Machine.executing_mem_flight executed, by simp [Task.about]⟩
  have here : label.thread = (machine.client.connections id).loop :=
    (lifecycle id past created).placed _ token rfl
  exact removesNone label id choice (here.trans loop) executed

/-- User code on loop `0` passes a functor to its own loop, and the functor destroys
the server. -/
def destroyInFunctor : List (Label TwoThreads (Choice TwoThreads)) :=
  nextPoll [.channel .user] ++ [turn 0 { action := .queueInLoop 0 }] ++ turns 0 7 ++ destroysServer

/-- The server is destroyed while loop `1` has still to handle the channel of its
connection, which the functor of `ConnectionDestroyed` now holds. -/
theorem active_channels_outlive_destroyInFunctor :
    ∃ machine : Machine (World TwoThreads) TwoThreads Task,
      machine.client.server.alive = false ∧
      (machine.loops 1).phase = .events [.channel (.connection 0 (.handleEvent epollIn))] ∧
      0 < inFlight (.connection 0 .connectionDestroyed) machine.flight := by
  let machine := (system.run destroysOutside serverOnZero
    (establishOnOne ++ destroyInFunctor)).get (by decide +kernel)
  have reachable : system.Reachable destroysOutside machine :=
    LabelledSystem.run_reachable serverOnZero_initial (Option.some_get _).symm
  have phase : (machine.loops 1).phase =
      .events [.channel (.connection 0 (.handleEvent epollIn))] := by decide +kernel
  have erased : machine.client.server.connections (machine.client.connections 0).name ≠ some 0 := by
    decide +kernel
  obtain ⟨-, outlives⟩ := active_channels_outlive reachable phase
  obtain ⟨-, owned⟩ := outlives 0 epollIn List.mem_cons_self
  exact ⟨machine, by decide +kernel, phase, owned.resolve_left erased⟩

/-- Connection `0` is closed, removed and destroyed; in the next iteration user code
that has kept it calls `StopRead`; then the loop polls again. -/
def stopReadAndPoll : List (Label TwoThreads (Choice TwoThreads)) :=
  peerCloses ++ removeAndDestroy ++ turns 0 6 ++ [turn 0 { actives := [.channel .user] }] ++
    turns 0 1 ++ [turn 0 { action := .call 0 .stopRead }] ++ turns 0 10 ++
    [turn 0 { actives := [.channel (.connection 0 (.handleEvent epollHup))] }]

/-- `StopRead` has registered the removed channel again: `Poll` returns it although
neither `connections_` nor a functor holds the connection. -/
theorem active_without_owner :
    ∃ machine : Machine (World TwoThreads) TwoThreads Task,
      system.Reachable LabelledSystem.unguarded machine ∧
      (machine.loops 0).phase = .events [.channel (.connection 0 (.handleEvent epollHup))] ∧
      machine.client.server.connections (machine.client.connections 0).name = none ∧
      tokens 0 machine.flight = {(0, .connection 0 (.handleEvent epollHup))} := by
  let machine := (system.run LabelledSystem.unguarded serverOnZero stopReadAndPoll).get
    (by decide +kernel)
  exact ⟨machine, LabelledSystem.run_reachable serverOnZero_initial (Option.some_get _).symm,
    by decide +kernel, by decide +kernel, by decide +kernel⟩

end World

end Benet
