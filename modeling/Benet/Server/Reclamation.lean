import Benet.Server.ActiveChannels
import Benet.Server.Lifetime
import Benet.Server.PendingOutput
import Benet.Server.Registry

/-!
# What is left of a destroyed connection

When the last reference to a connection is gone, `ConnectionDestroyed` has run, its channel
is out of its loop, and no poller and no active list has a pointer to it
(`Custody.destroyed_is_unlinked`), in runs in which no removed channel is registered anew and
the server is not destroyed in the event phase. A user who calls neither `StartRead` nor
`StopRead` and keeps the server can only make such runs; then no function of the library is
ever executed for a destroyed connection, which is `Disconnected`, as `~TcpConnection` asserts,
and in no poller, as the last assertion of `~Channel` demands (`Custody.library_never_dangles`).
The first assertion of `~Channel` is about `event_handing_`, which `HandleEvent` alone
initialises and which is not modelled.

Both results are about runs in which no loop is stopped. A loop that has been stopped may be
destroyed with functors in its queue, among them that of `ConnectionDestroyed`, and
`~EventLoop` is not modelled. `~TcpServer` stops the loops of its pool in this way.
-/

namespace Benet

open EventLoop Semantics

variable {Thread : Type} [DecidableEq Thread]

namespace World

section Present

variable [Fintype Thread] {machine : Machine (World Thread) Thread Task} {thread : Thread}
  {id : Nat}

/-- A connection whose channel is being handled has not been destroyed. -/
theorem handled_present (reachable : system.Reachable destroysOutside machine)
    {revents : EventMask} (called : .task (.connection id (.handleEvent revents)) ∈
      machine.calls thread) :
    (machine.client.connections id).history.destroyed = 0 := by
  refine (Machine.reachable_roots client_roots ?_ (fun thread handler world =>
    ∀ id revents, handler = .connection id (.handleEvent revents) →
      id < world.created ∧ (world.connections id).loop = thread ∧
        (world.connections id).history.destroyed = 0) ?_ ?_ reachable ⟨id, revents, rfl⟩ called id
      revents rfl).2.2
  · rintro ⟨_, _, same⟩
    cases same
  · rintro machine thread _ reached - waits id revents rfl
    exact active_present reached waits
  · rintro machine label thread _ body choice world calls reached admitted - elsewhere executed
      ran present id revents rfl
    obtain ⟨created, loop, notDestroyed⟩ := present id revents rfl
    have past := keepsRemoved_of_destroysOutside reached
    obtain ⟨stack, outside, top, action⟩ := Machine.executing_top executed
    have stepped : system.step machine label =
        some ({ machine with client := world }.setCalls label.thread (calls ++ stack)) := by
      simp [system, Machine.system, Machine.step, outside, top, action, Machine.call, ran]
    have grows := guardedStep_created (Machine.guardedStep client_prompt past admitted.1 stepped)
    refine ⟨Nat.lt_of_lt_of_le created grows, step_lifecycle (fun connection =>
      connection.loop = thread ∧ connection.history.destroyed = 0) ?_ past created stepped
      ⟨loop, notDestroyed⟩⟩
    intro before connection after cycle view
    cases view with
    | beside untouched =>
        obtain ⟨_, _, _, _, _, _, -, rfl⟩ := untouched
        exact ⟨loop, notDestroyed⟩
    | @own runner choice task site calls rest executed _ effect =>
        obtain ⟨rfl, executed⟩ := executed
        refine ⟨effect.identity.loop.trans loop, ?_⟩
        have other : task ≠ .connectionDestroyed := by
          rintro rfl
          exact elsewhere ((cycle.here rfl).trans loop)
        rw [effect.counts.destroyed, if_neg other, add_zero]
        exact notDestroyed

end Present

/-- User code calls neither `StartRead` nor `StopRead` and does not destroy the server, and
the 64-bit counter of connections does not wrap around. -/
def serving (machine : Machine (World Thread) Thread Task) (label : Label Thread (Choice Thread)) :
    Prop :=
  machine.onExec serves label ∧
    ∀ executed ∈ machine.executing label, executed.1 = .user →
      executed.2.action ≠ .destroyServer

instance (machine : Machine (World Thread) Thread Task) (label : Label Thread (Choice Thread)) :
    Decidable (serving machine label) :=
  inferInstanceAs (Decidable (_ ∧ ∀ executed ∈ machine.executing label, _))

/-- No loop is stopped: user code does not call `Stop`, and it destroys the server, which stops
the loops of its pool, only when all connections are on the server's own loop. -/
def stopsNoLoop (_ : Thread) (task : Task) (choice : Choice Thread) (world : World Thread) : Prop :=
  match task, choice.action with
  | .user, .stop _ => False
  | .user, .destroyServer => ∀ id < world.created, (world.connections id).loop = world.server.loop
  | _, _ => True

instance (thread : Thread) (task : Task) (choice : Choice Thread) (world : World Thread) :
    Decidable (stopsNoLoop thread task choice world) := by
  unfold stopsNoLoop
  split <;> infer_instance

omit [DecidableEq Thread] in
/-- A number of the counter that was not given yet makes a name that is not registered. -/
theorem Registry.vacant {world : World Thread} {connId : Nat} (registry : world.Registry)
    (later : world.nextConnId ≤ connId) (bound : connId < 2 ^ 64) :
    world.server.connections (connName world.server connId) = none := by
  cases entry : world.server.connections (connName world.server connId) with
  | none => rfl
  | some id =>
      obtain ⟨created, name⟩ := registry.known _ _ entry
      obtain ⟨given, before, givenBound, named⟩ := registry.numbered id created
      have same := connName_injective givenBound bound (named.symm.trans name)
      omega

section Serving

variable [Fintype Thread] {machine : Machine (World Thread) Thread Task} {id : Nat}

/-- After its removal no function of the connection calls `UpdateChannel`. -/
theorem removed_not_updates (reachable : system.Reachable (Machine.onExec serves) machine)
    {label : Label Thread (Choice Thread)} {task : ConnectionTask} {choice : Choice Thread}
    (executed : machine.executing label = some (.connection id task, choice))
    (removed : 0 < (machine.client.connections id).history.removed) :
    ¬ (machine.client.connections id).Updates task := by
  have waits := Machine.executing_mem_flight executed
  have about : (Task.connection id task).about id = true := by simp [Task.about]
  have created := (reachable_noneBefore reachable).exists waits about
  have token := (mem_tokens id).mpr ⟨waits, about⟩
  obtain ⟨removal, closing⟩ := reachable_removal reachable created
  have closed := closing.removed removed
  have unread := removal.unread _ _ token
  have idle := (reachable_pending reachable created).closed closed
  have cycle := lifecycle id reachable created
  cases task with
  | connectionEstablished =>
      obtain ⟨rest, split⟩ := Multiset.exists_cons_of_mem token
      rw [← Multiset.singleton_add] at split
      have connecting := (split ▸ cycle).connecting.1
      rw [closed] at connecting
      cases connecting
  | startReadInLoop | stopReadInLoop => cases unread
  | handleWrite => simp [TcpConnection.Updates, idle]
  | sendInLoop | connectionDestroyed | handleClose => simp [TcpConnection.Updates, closed]
  | _ => exact fun updates => updates

/-- Such runs keep removed channels unregistered and overwrite no entry. -/
theorem serving_keepsRemoved (reachable : system.Reachable (Machine.onExec serves) machine)
    {label : Label Thread (Choice Thread)} (admitted : machine.onExec serves label) :
    machine.onExec keepsRemoved label := by
  rintro ⟨task, choice⟩ executed
  have serve := admitted _ executed
  cases task with
  | connection id task => exact removed_not_updates reachable executed
  | newConnection => exact (reachable_registry reachable).vacant (Nat.le_add_right _ _) serve
  | user | onClose | removeConnection | destroyServer => trivial

/-- A server that is kept is not destroyed in the event phase. -/
theorem serving_destroysOutside (reachable : system.Reachable serving machine)
    {label : Label Thread (Choice Thread)} (admitted : serving machine label) :
    destroysOutside machine label := by
  have serves := reachable.weaken fun _ _ admitted => admitted.1
  refine ⟨serving_keepsRemoved serves admitted.1, fun executed found isUser action => ?_⟩
  exact absurd action (admitted.2 executed found isUser)

end Serving

end World

namespace Custody

/-- The step of the server that the event is; a call of `ForceCloseDelay` is none. -/
def Event.label : Event Thread → Option (Label Thread (Choice Thread))
  | .proceed label => some label
  | .forceCloseDelay _ _ => none
  | .expire thread id => some ⟨thread, .proceed { action := .call id .forceClose }⟩

/-- The guard of the server's steps as a guard of events. -/
def admits (guard : Machine (World Thread) Thread Task → Label Thread (Choice Thread) → Prop)
    (custody : Custody Thread) (event : Event Thread) : Prop :=
  ∀ label ∈ event.label, guard custody.machine label

instance (guard : Machine (World Thread) Thread Task → Label Thread (Choice Thread) → Prop)
    [∀ machine label, Decidable (guard machine label)] (custody : Custody Thread)
    (event : Event Thread) : Decidable (custody.admits guard event) :=
  inferInstanceAs (Decidable (∀ label ∈ event.label, _))

variable [Fintype Thread] {custody next : Custody Thread} {id : Nat}
  {guard : Machine (World Thread) Thread Task → Label Thread (Choice Thread) → Prop}

/-- An event steps the machine by its own label or leaves it alone. -/
theorem step_label {event : Event Thread} (stepped : custody.step event = some next) :
    next.machine = custody.machine ∨
      ∃ label ∈ event.label, World.system.step custody.machine label = some next.machine := by
  have moves : ∀ {timers : List (Thread × Nat)} {label : Label Thread (Choice Thread)},
      proceed { custody with timers } label = some next →
        World.system.step custody.machine label = some next.machine := by
    intro timers label proceeded
    obtain ⟨-, machine, moved, rfl⟩ := proceed_eq proceeded
    exact moved
  cases event with
  | proceed label => exact .inr ⟨label, rfl, moves stepped⟩
  | forceCloseDelay thread id =>
      simp only [step] at stepped
      split at stepped <;> cases stepped
      exact .inl rfl
  | expire thread id =>
      simp only [step] at stepped
      split at stepped
      case isTrue =>
        split at stepped
        case isTrue =>
          cases stepped
          exact .inl rfl
        case isFalse => exact .inr ⟨_, rfl, moves stepped⟩
      case isFalse => cases stepped

/-- A guarded run with references is a run of the server under the same guard. -/
theorem reachable_under (reachable : system.Reachable (admits guard) custody) :
    World.system.Reachable guard custody.machine := by
  refine reachable.invariant (fun custody => World.system.Reachable guard custody.machine) ?_ ?_
  · rintro _ ⟨machine, initial, rfl⟩
    exact .initial initial
  · intro custody event next _ reached admitted stepped
    rcases step_label stepped with same | ⟨label, isLabel, moved⟩
    · rwa [same]
    · exact reached.step (admitted label isLabel) moved

/-- A task in flight keeps its connection, or is sheltered by what does. -/
theorem held_of_flight {guard : Custody Thread → Event Thread → Prop}
    (reachable : system.Reachable guard custody) {located : Located Thread Task}
    (waits : located ∈ custody.machine.flight) (kept : located.2.kept = some id) :
    custody.Held id := by
  have reached := reachable_machine reachable
  have queued := World.reachable_queued_owns reached
  cases Machine.waits_of_mem_flight waits with
  | @call thread call _ member carried =>
      have passes := World.reachable_passes reached thread call member
      have sheltered : call.kept = some id → custody.Held id := fun kept => by
        obtain ⟨height, shelters⟩ := (reachable_sheltered reachable thread).of_mem member kept
        exact shelters.held
      cases call with
      | task body =>
          cases Multiset.mem_singleton.mp carried
          exact sheltered kept
      | runInLoop loop functor =>
          cases Multiset.mem_singleton.mp carried
          cases captures : functor.captures with
          | none => exact sheltered (by simpa [Call.kept, captures] using kept)
          | some other =>
              exact .functor (Machine.hasObject_call member rfl)
                (Task.Owns.of_captures captures id kept)
      | queueInLoop loop functor =>
          cases Multiset.mem_singleton.mp carried
          exact .functor (Machine.hasObject_call member rfl) (passes id kept)
      | stop => cases carried
  | @inside thread loop functor point =>
      refine .functor ⟨thread, ?_⟩ (queued.1 thread loop functor point id kept)
      exact Machine.mem_objects.mpr (.inr (.inl (by simp [point, Inside.objects])))
  | @functor thread pending member =>
      have object := Loop.mem_objects_of_functors member
      exact .functor (Machine.hasObject_loop object) (queued.2 thread pending member id kept)
  | @active thread handler member =>
      rw [World.reachable_handlers reached thread handler member] at kept
      cases kept

/-- The same for a destroyed connection: nothing that needs it is in flight. -/
theorem not_kept_of_destroyed {guard : Custody Thread → Event Thread → Prop}
    (reachable : system.Reachable guard custody) (destroyed : id ∈ custody.destroyed)
    {located : Located Thread Task} (waits : located ∈ custody.machine.flight) :
    located.2.kept ≠ some id :=
  fun kept => (reachable_sound reachable).free id destroyed (held_of_flight reachable waits kept)

/-- A destroyed connection has gone through `ConnectionDestroyed`. -/
theorem destroyed_departed (reachable : system.Reachable (admits World.destroysOutside) custody)
    (destroyed : id ∈ custody.destroyed) :
    0 < (custody.machine.client.connections id).history.destroyed := by
  have sound := reachable_sound reachable
  have past := World.keepsRemoved_of_destroysOutside (reachable_under reachable)
  by_contra never
  rcases World.reachable_owned past (sound.created id destroyed) (Nat.eq_zero_of_not_pos never) with
    entry | waits
  · exact sound.free id destroyed (.registered entry)
  · have none : inFlight (.connection id .connectionDestroyed) custody.machine.flight = 0 := by
      rw [inFlight_eq_zero]
      rintro ⟨thread, task⟩ member rfl
      exact not_kept_of_destroyed reachable destroyed member rfl
    omega

/-- A destroyed connection was removed from its loop as often as `ConnectionDestroyed` has run
for it, at least once, and its channel is as new. -/
theorem removed_of_destroyed
    (reachable : system.Reachable (admits World.destroysOutside) custody)
    (destroyed : id ∈ custody.destroyed) :
    0 < (custody.machine.client.connections id).history.removed ∧
    (custody.machine.client.connections id).history.removed =
      (custody.machine.client.connections id).history.destroyed ∧
    (custody.machine.client.connections id).channel.index = .kNewChannel := by
  have past := World.keepsRemoved_of_destroysOutside (reachable_under reachable)
  have created := (reachable_sound reachable).created id destroyed
  have departed := destroyed_departed reachable destroyed
  obtain ⟨removing, index⟩ := World.reachable_unlinking past created
  have none : inFlight (.connection id .removeFromLoop) (tokens id custody.machine.flight) = 0 := by
    rw [inFlight_eq_zero]
    rintro ⟨thread, task⟩ member rfl
    exact not_kept_of_destroyed reachable destroyed ((mem_tokens id).mp member).1 rfl
  have removed : 0 < (custody.machine.client.connections id).history.removed := by omega
  exact ⟨removed, by omega, index removed⟩

/-- No poller has the channel of a destroyed connection. -/
theorem absent_of_destroyed
    (reachable : system.Reachable (admits World.destroysOutside) custody)
    (destroyed : id ∈ custody.destroyed) (loop : Thread) :
    (custody.machine.client.pollers loop).Absent id := by
  have past := World.keepsRemoved_of_destroysOutside (reachable_under reachable)
  have created := (reachable_sound reachable).created id destroyed
  obtain ⟨-, -, index⟩ := removed_of_destroyed reachable destroyed
  exact World.absent_of_new past created index loop

/-- Only what `StartRead` and `StopRead` have posted can still be executed for a destroyed
connection. -/
theorem reads_of_destroyed
    (reachable : system.Reachable (admits World.destroysOutside) custody)
    (destroyed : id ∈ custody.destroyed) {label : Label Thread (Choice Thread)} {body : Task}
    {choice : Choice Thread} (executed : custody.machine.executing label = some (body, choice))
    (about : body.about id = true) :
    body = .connection id .startReadInLoop ∨ body = .connection id .stopReadInLoop := by
  have free := not_kept_of_destroyed reachable destroyed (Machine.executing_mem_flight executed)
  obtain ⟨removed, same, -⟩ := removed_of_destroyed reachable destroyed
  cases body with
  | connection other task =>
      obtain rfl : other = id := by simpa [Task.about] using about
      cases task with
      | startReadInLoop => exact .inl rfl
      | stopReadInLoop => exact .inr rfl
      | handleEvent revents =>
          obtain ⟨stack, -, top, -⟩ := Machine.executing_top executed
          have present := World.handled_present (reachable_under reachable)
            (top ▸ List.mem_cons_self)
          omega
      | _ => exact absurd rfl free
  | onClose other | removeConnection other =>
      obtain rfl : other = id := by simpa [Task.about] using about
      exact absurd rfl free
  | user | newConnection | destroyServer => cases about

/-- A destroyed connection, in every run in which no removed channel is registered anew, no
entry of `connections_` is overwritten, the server is not destroyed in the event phase and no
loop is stopped: `ConnectionDestroyed` has run and each time `RemoveFromLoop` after it; no
poller and no active list has its channel; and of its functions only those that `StartRead`
and `StopRead` have posted can still be executed. -/
theorem destroyed_is_unlinked
    (reachable : system.Reachable (admits fun machine label =>
      World.destroysOutside machine label ∧ machine.onExec World.stopsNoLoop label) custody)
    (destroyed : id ∈ custody.destroyed) :
    0 < (custody.machine.client.connections id).history.removed ∧
    (custody.machine.client.connections id).history.removed =
      (custody.machine.client.connections id).history.destroyed ∧
    (∀ loop, (custody.machine.client.pollers loop).Absent id) ∧
    (∀ thread revents, .channel (.connection id (.handleEvent revents)) ∉
      (custody.machine.loops thread).actives) ∧
    ∀ (label : Label Thread (Choice Thread)) body choice,
      custody.machine.executing label = some (body, choice) → body.about id = true →
        body = .connection id .startReadInLoop ∨ body = .connection id .stopReadInLoop := by
  have orderly : system.Reachable (admits World.destroysOutside) custody :=
    reachable.weaken fun _ _ admitted label isLabel => (admitted label isLabel).1
  obtain ⟨removed, same, -⟩ := removed_of_destroyed orderly destroyed
  refine ⟨removed, same, absent_of_destroyed orderly destroyed, ?_,
    fun _ _ _ executed about => reads_of_destroyed orderly destroyed executed about⟩
  intro thread revents waits
  have present := (World.active_present (reachable_under orderly) waits).2.2
  omega

/-- The only connection of the server is closed by its peer and destroyed. -/
def reclaimsOne : List (Event TwoThreads) :=
  (World.establishOne ++ closesFully ++ nextBatch).map .proceed

/-- A connection whose last reference is gone has been removed from its loop once. -/
theorem destroyed_is_unlinked_reclaimsOne :
    ∃ custody : Custody TwoThreads, 0 ∈ custody.destroyed ∧
      (custody.machine.client.connections 0).history.removed = 1 ∧
      (custody.machine.client.connections 0).history.destroyed = 1 ∧
      ∀ loop, (custody.machine.client.pollers loop).Absent 0 := by
  let custody := (system.run (admits fun machine label =>
    World.destroysOutside machine label ∧ machine.onExec World.stopsNoLoop label) fresh
    reclaimsOne).get (by decide +kernel)
  have reachable : system.Reachable (admits fun machine label =>
      World.destroysOutside machine label ∧ machine.onExec World.stopsNoLoop label) custody :=
    LabelledSystem.run_reachable fresh_initial (Option.some_get _).symm
  have destroyed : 0 ∈ custody.destroyed := by decide +kernel
  have removed : (custody.machine.client.connections 0).history.removed = 1 := by decide +kernel
  obtain ⟨-, same, absent, -, -⟩ := destroyed_is_unlinked reachable destroyed
  exact ⟨custody, destroyed, removed, same ▸ removed, absent⟩

/-- A server that is kept, and whose users do not call `StartRead` and `StopRead`, in every
run in which no loop is stopped: no function of the library is executed for a connection that
is destroyed, from whatever thread users call it and whatever the peers do; and when a
connection is destroyed, it is `Disconnected`, has no events and is in no poller. -/
theorem library_never_dangles
    (reachable : system.Reachable (admits fun machine label =>
      World.serving machine label ∧ machine.onExec World.stopsNoLoop label) custody) :
    (∀ (label : Label Thread (Choice Thread)) body choice id,
      custody.machine.executing label = some (body, choice) → body ≠ .user →
        body.uses choice = some id → id ∉ custody.destroyed) ∧
    ∀ id ∈ custody.destroyed,
      (custody.machine.client.connections id).state = .disconnected ∧
      (custody.machine.client.connections id).channel.isNoneEvent = true ∧
      ∀ loop, (custody.machine.client.pollers loop).Absent id := by
  have served : system.Reachable (admits World.serving) custody :=
    reachable.weaken fun _ _ admitted label isLabel => (admitted label isLabel).1
  have orderly : system.Reachable (admits World.destroysOutside) custody := by
    refine served.implied fun custody event reached admitted label isLabel => ?_
    exact World.serving_destroysOutside (reachable_under reached) (admitted label isLabel)
  have serves := (reachable_under served).weaken fun _ _ admitted => admitted.1
  refine ⟨fun label body choice id executed library uses destroyed => ?_,
    fun id destroyed => ?_⟩
  · have created := (reachable_sound reachable).created id destroyed
    have about : body.about id = true := by
      cases body with
      | connection | onClose | removeConnection =>
          simpa [Task.uses, Task.about] using uses
      | user => exact absurd rfl library
      | newConnection | destroyServer => cases uses
    have token := (mem_tokens id).mpr ⟨Machine.executing_mem_flight executed, about⟩
    have unread := (World.reachable_removal serves created).1.unread
    rcases reads_of_destroyed orderly destroyed executed about with rfl | rfl
    · exact absurd (unread _ _ token) (by simp [ConnectionTask.aboutReading])
    · exact absurd (unread _ _ token) (by simp [ConnectionTask.aboutReading])
  · obtain ⟨removed, -, -⟩ := removed_of_destroyed orderly destroyed
    have created := (reachable_sound reachable).created id destroyed
    have closing := (World.reachable_removal serves created).2
    have closed := closing.removed removed
    refine ⟨closed, ?_, absent_of_destroyed orderly destroyed⟩
    rw [Channel.isNoneEvent, closing.events closed]
    rfl

/-- A connection whose last reference is gone is `Disconnected` and has no events. -/
theorem library_never_dangles_reclaimsOne :
    ∃ custody : Custody TwoThreads, 0 ∈ custody.destroyed ∧
      (custody.machine.client.connections 0).state = .disconnected ∧
      (custody.machine.client.connections 0).channel.isNoneEvent = true := by
  let custody := (system.run (admits fun machine label =>
    World.serving machine label ∧ machine.onExec World.stopsNoLoop label) fresh reclaimsOne).get
    (by decide +kernel)
  have reachable : system.Reachable (admits fun machine label =>
      World.serving machine label ∧ machine.onExec World.stopsNoLoop label) custody :=
    LabelledSystem.run_reachable fresh_initial (Option.some_get _).symm
  have destroyed : 0 ∈ custody.destroyed := by decide +kernel
  obtain ⟨closed, none, -⟩ := (library_never_dangles reachable).2 0 destroyed
  exact ⟨custody, destroyed, closed, none⟩

end Custody

end Benet
