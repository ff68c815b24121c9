import Benet.EventLoop.Functors
import Benet.Server.Destruction

/-!
# Who keeps a connection alive

A connection lives as long as a `shared_ptr` to it exists. Over the machine of the server
`Custody` counts them: the entry in `connections_`, the functor objects that have captured
one, and the local ones of functions that have not returned. When the count of a
connection is zero it is destroyed, and a run does not go on past a function of a destroyed
connection. A caller of a public function has a reference only during its call, and the
timer of `ForceCloseDelay` has a weak one. Between any two steps the destroyed connections
are those without a reference (`Custody.reachable_sound`).
-/

namespace Benet

open EventLoop Semantics

variable {Thread : Type}

/-- The connection of which the functor has captured a `shared_ptr`. The functors of
`StartRead`, of `StopRead` and at the end of `handle_write` capture `this`. -/
def Task.captures : Task → Option Nat
  | .connection id (.sendInLoop _) | .connection id .shutdownInLoop
  | .connection id .forceCloseInLoop | .connection id .connectionEstablished
  | .connection id .connectionDestroyed | .connection id .writeCompleteCallback
  | .connection id (.highWaterMarkCallback _) | .removeConnection id => some id
  | _ => none

/-- The connection that a task works on, so that it has to exist. -/
def Task.uses (choice : Choice Thread) : Task → Option Nat
  | .connection id _ | .onClose id | .removeConnection id => some id
  | .user =>
      match choice.action with
      | .call id _ | .retrieveInput id _ | .bindWriteCompleteCallback id _
      | .bindHighWaterMarkCallback id _ _ => some id
      | _ => none
  | .newConnection | .destroyServer => none

/-- A `shared_ptr` in a local variable of a function, or captured by a functor that
`RunInLoop` calls in place. The function has returned when its thread has no more than
`height` calls left to make. -/
structure Scope where
  id : Nat
  height : Nat
deriving DecidableEq, Repr

/-- The local references that a task makes when `height` calls remain after it: the guard of
`HandleEvent` and that of `handle_close`, `conn` in `new_connection`, and the reference
with which user code calls a function. Those that are passed to callbacks live inside one
of these or of a functor. -/
def Task.locals (choice : Choice Thread) (world : World Thread) (height : Nat) :
    Task → List Scope
  | .connection id (.handleEvent _) | .connection id .handleClose => [⟨id, height⟩]
  | .newConnection => [⟨world.created, height⟩]
  | .user =>
      match choice.action with
      | .call id _ => [⟨id, height + 1⟩]
      | _ => []
  | _ => []

/-- The function whose local reference it is has not returned. -/
def Scope.alive (machine : Machine (World Thread) Thread Task) (thread : Thread) (scope : Scope) :
    Bool :=
  scope.height < (machine.calls thread).length + if (machine.inside thread).isSome then 1 else 0

/-- The server with the references to its connections. -/
structure Custody (Thread : Type) where
  machine : Machine (World Thread) Thread Task
  scopes : Thread → List Scope := fun _ => []
  /-- the timers of `ForceCloseDelay`, with the loop that runs them -/
  timers : List (Thread × Nat) := []
  /-- history: the connections whose last reference is gone -/
  destroyed : List Nat := []

namespace Custody

/-- What happens next: a step of the server, a call of `ForceCloseDelay`, or the callback
of such a timer. -/
inductive Event (Thread : Type) where
  | proceed (label : Label Thread (Choice Thread))
  | forceCloseDelay (thread : Thread) (id : Nat)
  | expire (thread : Thread) (id : Nat)

/-- The thread is in user code. -/
def inUserCode (custody : Custody Thread) (thread : Thread) : Bool :=
  match custody.machine.inside thread, custody.machine.calls thread with
  | none, .task .user :: _ => true
  | _, _ => false

/-- The loop of the thread handles its active channels. -/
def handlesEvents (custody : Custody Thread) (thread : Thread) : Bool :=
  match (custody.machine.loops thread).phase with
  | .events _ => true
  | _ => false

/-- The step would execute a function of a destroyed connection. -/
def dangles (custody : Custody Thread) (label : Label Thread (Choice Thread)) : Bool :=
  match custody.machine.executing label with
  | some (body, choice) => (body.uses choice).any (· ∈ custody.destroyed)
  | none => false

section Count

/-- The connection is in `connections_`. -/
def registered (custody : Custody Thread) (id : Nat) : Bool :=
  custody.machine.client.server.connections (custody.machine.client.connections id).name == some id

variable [Fintype Thread]

/-- The strong reference count of a connection. -/
def strong (custody : Custody Thread) (id : Nat) : Nat :=
  (custody.registered id).toNat + ∑ thread,
    ((custody.machine.objects thread).countP (fun functor => functor.captures = some id) +
      (custody.scopes thread).countP (fun scope => scope.id = id))

/-- The connections whose count is zero are destroyed. -/
def reclaim (custody : Custody Thread) : Custody Thread :=
  { custody with destroyed := custody.destroyed ++
      (List.range custody.machine.client.created).filter fun id =>
        custody.strong id = 0 && id ∉ custody.destroyed }

/-- Somebody has a reference to the connection. -/
inductive Held (custody : Custody Thread) (id : Nat) : Prop where
  | registered (entry : custody.machine.client.server.connections
      (custody.machine.client.connections id).name = some id)
  | functor {functor} (has : custody.machine.HasObject functor)
      (captures : functor.captures = some id)
  | scope {thread scope} (member : scope ∈ custody.scopes thread) (same : scope.id = id)

variable {custody : Custody Thread} {id : Nat}

omit [Fintype Thread] in
/-- Whether a connection is held depends on the machine and the references of functions. -/
theorem Held.congr {other : Custody Thread} (held : custody.Held id)
    (machine : other.machine = custody.machine) (scopes : other.scopes = custody.scopes) :
    other.Held id := by
  cases held with
  | registered entry => exact .registered (by rwa [machine])
  | functor has captures => exact .functor (by rwa [machine]) captures
  | scope member same => exact .scope (by rwa [scopes]) same

/-- The count is zero when there is no reference in any of the places. -/
theorem strong_eq_zero : custody.strong id = 0 ↔ ¬ custody.Held id := by
  unfold strong
  rw [Nat.add_eq_zero_iff, Finset.sum_eq_zero_iff]
  constructor
  · rintro ⟨unregistered, none⟩ held
    cases held with
    | registered entry => simp [registered, entry] at unregistered
    | functor has captures =>
        obtain ⟨thread, member⟩ := has
        have counts := (Nat.add_eq_zero_iff.mp (none thread (Finset.mem_univ _))).1
        exact List.countP_eq_zero.mp counts _ member (by simpa using captures)
    | @scope thread _ member same =>
        have counts := (Nat.add_eq_zero_iff.mp (none thread (Finset.mem_univ _))).2
        exact List.countP_eq_zero.mp counts _ member (by simpa using same)
  · intro free
    refine ⟨?_, fun thread _ => Nat.add_eq_zero_iff.mpr ⟨?_, ?_⟩⟩
    · have unregistered : custody.registered id = false :=
        Bool.eq_false_iff.mpr fun entry => free (.registered (by simpa [registered] using entry))
      rw [unregistered]
      rfl
    · refine List.countP_eq_zero.mpr fun functor member captures => free ?_
      exact .functor ⟨thread, member⟩ (by simpa using captures)
    · refine List.countP_eq_zero.mpr fun scope member same => free ?_
      exact .scope member (by simpa using same)

/-- A connection is destroyed where nothing holds it. -/
theorem mem_destroyed_reclaim : id ∈ custody.reclaim.destroyed ↔
    id ∈ custody.destroyed ∨ id < custody.machine.client.created ∧ ¬ custody.Held id := by
  simp only [reclaim, List.mem_append, List.mem_filter, List.mem_range, Bool.and_eq_true,
    decide_eq_true_eq, strong_eq_zero]
  tauto

end Count

variable [DecidableEq Thread]

/-- The local references that a step makes. -/
def opened (machine : Machine (World Thread) Thread Task) (label : Label Thread (Choice Thread)) :
    List Scope :=
  match machine.inside label.thread, machine.calls label.thread, label.action with
  | none, .task body :: rest, .proceed choice => body.locals choice machine.client rest.length
  | none, .runInLoop loop functor :: rest, .proceed _ =>
      if label.thread = loop then functor.captures.toList.map (⟨·, rest.length⟩) else []
  | _, _, _ => []

/-- A step of the machine with the local references it makes and drops. -/
def follow (custody : Custody Thread) (label : Label Thread (Choice Thread))
    (next : Machine (World Thread) Thread Task) : Custody Thread :=
  { custody with
    machine := next
    scopes := Function.update custody.scopes label.thread
      ((opened custody.machine label ++ custody.scopes label.thread).filter
        (·.alive next label.thread)) }

variable [Fintype Thread]

def proceed (custody : Custody Thread) (label : Label Thread (Choice Thread)) :
    Option (Custody Thread) :=
  if custody.dangles label then none
  else (custody.machine.step World.client label).map fun next => (custody.follow label next).reclaim

/-- `ForceCloseDelay` makes a weak reference from the caller's; its timer locks it and calls
`ForceClose` if that succeeds. -/
def step (custody : Custody Thread) : Event Thread → Option (Custody Thread)
  | .proceed label => custody.proceed label
  | .forceCloseDelay thread id =>
      if custody.inUserCode thread ∧ id < custody.machine.client.created ∧
          id ∉ custody.destroyed then
        some { custody with
          timers := custody.timers ++ [((custody.machine.client.connections id).loop, id)] }
      else none
  | .expire thread id =>
      if custody.handlesEvents thread ∧ custody.inUserCode thread ∧
          (thread, id) ∈ custody.timers then
        let fired := { custody with timers := custody.timers.erase (thread, id) }
        if id ∈ custody.destroyed then some fired
        else fired.proceed ⟨thread, .proceed { action := .call id .forceClose }⟩
      else none

/-- All runs of the server, up to the first function of a destroyed connection. -/
abbrev system : LabelledSystem (Custody Thread) (Event Thread) where
  Initial custody := ∃ machine, World.system.Initial machine ∧ custody = { machine }
  step := step

end Custody

/-- A functor with a reference to a connection is about it. -/
theorem Task.eq_of_captures {functor : Task} {id other : Nat}
    (captures : functor.captures = some id) (about : functor.about other = true) : other = id := by
  unfold Task.captures at captures
  split at captures <;> cases captures <;> exact (beq_iff_eq.mp about).symm

/-- A task has local references to the connection it works on and to one that it makes. -/
theorem Task.uses_of_locals {body : Task} {choice : Choice Thread} {world : World Thread}
    {height : Nat} {scope : Scope} (member : scope ∈ body.locals choice world height) :
    body.uses choice = some scope.id ∨ scope.id = world.created := by
  unfold Task.locals at member
  split at member
  case h_1 | h_2 =>
    obtain rfl := List.mem_singleton.mp member
    exact .inl rfl
  case h_3 =>
    obtain rfl := List.mem_singleton.mp member
    exact .inr rfl
  case h_4 =>
    split at member
    case h_1 action =>
      obtain rfl := List.mem_singleton.mp member
      exact .inl (by simp [Task.uses, action])
    case h_2 => cases member
  case h_5 => cases member

/-- A functor that a call passes on is in flight. -/
theorem EventLoop.Call.mem_flights_of_functor {call : Call Thread Task} {functor : Task}
    {calls : List (Call Thread Task)} (thread : Thread) (made : call ∈ calls)
    (passes : call.functor = some functor) :
    ∃ target, (target, functor) ∈ Call.flights thread calls := by
  cases call with
  | task | stop => cases passes
  | runInLoop loop _ | queueInLoop loop _ =>
      cases passes
      exact ⟨loop, (Call.mem_flights thread).mpr ⟨_, made, Multiset.mem_singleton_self _⟩⟩

namespace World

variable [DecidableEq Thread] {world next : World Thread} {thread : Thread}
  {choice : Choice Thread} {task : Task} {calls : List (Call Thread Task)} {id : Nat}

/-- A task that passes on a functor with a reference works on the same connection, or it is
`~TcpServer` and the reference is that of the registry. -/
theorem Executes.captures (executes : Executes thread choice world task next calls)
    (created : id < world.created) {call : Call Thread Task} {functor : Task} (made : call ∈ calls)
    (passes : call.functor = some functor) (captures : functor.captures = some id) :
    task.uses choice = some id ∨
      world.server.connections (world.connections id).name = some id := by
  cases executes with
  | leaves | onCloseDead | removeDead => cases made
  | calls | destroys =>
      rcases List.mem_pair.mp made with rfl | rfl <;> cases passes
  | tunes =>
      obtain rfl := List.mem_singleton.mp made
      cases passes
  | posts posted =>
      rcases List.mem_pair.mp made with rfl | rfl
      · obtain ⟨loop, rfl | rfl | rfl⟩ := posted <;> cases passes <;> cases captures
      · cases passes
  | @connection other own site _ effect =>
      left
      obtain ⟨target, carried⟩ := Call.mem_flights_of_functor thread made passes
      rcases (effect.emitted _ carried).own with user | about
      · cases user
        cases captures
      · rw [← Task.eq_of_captures captures about]
        rfl
  | newConnection =>
      obtain rfl := List.mem_singleton.mp made
      cases passes
      cases captures
      exact absurd created (lt_irrefl _)
  | onClose | removeConnection =>
      obtain rfl := List.mem_singleton.mp made
      cases passes
      cases captures
      exact .inl rfl
  | destroyServer _ order =>
      right
      obtain ⟨other, inOrder, rfl⟩ := List.mem_map.mp made
      cases passes
      cases captures
      have entered := (List.mem_filter.mp (order.mem_iff.mp inOrder)).2
      simpa using entered

end World

namespace Custody

section Works

variable {custody : Custody Thread} {label : Label Thread (Choice Thread)} {id : Nat}

/-- The step executes a task that works on the connection. -/
def Works (custody : Custody Thread) (label : Label Thread (Choice Thread)) (id : Nat) : Prop :=
  ∃ body choice, custody.machine.executing label = some (body, choice) ∧
    body.uses choice = some id

/-- The run has not gone past a function of a destroyed connection. -/
theorem not_works_of_destroyed (sound : custody.dangles label = false)
    (destroyed : id ∈ custody.destroyed) : ¬ custody.Works label id := by
  rintro ⟨body, choice, executed, works⟩
  simp [dangles, executed, works, destroyed] at sound

end Works

variable [DecidableEq Thread] {custody : Custody Thread} {label : Label Thread (Choice Thread)}
  {machine : Machine (World Thread) Thread Task} {id : Nat}

/-- A local reference is made from another one: the task works on the connection, or it is
that of a functor that is called in place. -/
theorem opened_held (created : id < custody.machine.client.created) {scope : Scope}
    (member : scope ∈ opened custody.machine label) (same : scope.id = id) :
    custody.Held id ∨ custody.Works label id := by
  unfold opened at member
  split at member
  case h_1 body rest choice outside top action =>
    have executed : custody.machine.executing label = some (body, choice) := by
      simp [Machine.executing, outside, top, action]
    rcases Task.uses_of_locals member with works | fresh
    · exact .inr ⟨body, choice, executed, same ▸ works⟩
    · omega
  case h_2 loop functor rest choice outside top action =>
    split at member
    case isTrue =>
      obtain ⟨captured, captures, rfl⟩ := List.mem_map.mp member
      rw [Option.mem_toList] at captures
      refine .inl (.functor (Machine.hasObject_call (top ▸ List.mem_cons_self) rfl) ?_)
      rwa [← same]
    case isFalse => cases member
  case h_3 => cases member

/-- A step gives a reference to a connection only from one that there was, or by a task that
works on the connection. -/
theorem held_follow (stepped : custody.machine.step World.client label = some machine)
    (created : id < custody.machine.client.created)
    (held : (custody.follow label machine).Held id) :
    custody.Held id ∨ custody.Works label id := by
  cases held with
  | registered entry =>
      refine .inl (.registered ?_)
      have transition := Machine.step_transition stepped
      cases transition with
      | exec _ _ executed => exact ((World.exec_executes executed).registered created entry).1
      | _ => exact entry
  | functor has captures =>
      rcases (Machine.step_transition stepped).hasObject has with
        before | ⟨body, choice, calls, executed, ran, call, made, passes⟩
      · exact .inl (.functor before captures)
      · rcases (World.exec_executes ran).captures created made passes captures with works | entry
        · exact .inr ⟨body, choice, executed, works⟩
        · exact .inl (.registered entry)
  | scope member same =>
      rcases (Function.exists_update_iff custody.scopes fun _ scopes => _ ∈ scopes).mp
        ⟨_, member⟩ with new | ⟨_, -, old⟩
      · rcases List.mem_append.mp (List.mem_filter.mp new).1 with made | old
        · exact opened_held created made same
        · exact .inl (.scope old same)
      · exact .inl (.scope old same)

section Cases

variable [Fintype Thread] {next : Custody Thread}

/-- A step of the machine, followed by the destruction of what is no longer held. -/
theorem proceed_eq (proceeded : custody.proceed label = some next) :
    custody.dangles label = false ∧ ∃ machine,
      custody.machine.step World.client label = some machine ∧
        next = (custody.follow label machine).reclaim := by
  unfold proceed at proceeded
  split at proceeded
  case isTrue => cases proceeded
  case isFalse safe =>
    obtain ⟨machine, stepped, rfl⟩ := Option.map_eq_some_iff.mp proceeded
    exact ⟨Bool.eq_false_iff.mpr safe, machine, stepped, rfl⟩

/-- Every event changes the timers at most, and is then a step of the server or none at all. -/
theorem step_eq {event : Event Thread} (stepped : custody.step event = some next) :
    ∃ timers, next = { custody with timers } ∨
      ∃ label, proceed { custody with timers } label = some next := by
  cases event with
  | proceed label => exact ⟨custody.timers, .inr ⟨label, stepped⟩⟩
  | forceCloseDelay thread id =>
      simp only [step] at stepped
      split at stepped <;> cases stepped
      exact ⟨_, .inl rfl⟩
  | expire thread id =>
      simp only [step] at stepped
      split at stepped
      case isTrue =>
        split at stepped
        case isTrue =>
          cases stepped
          exact ⟨_, .inl rfl⟩
        case isFalse => exact ⟨_, .inr ⟨_, stepped⟩⟩
      case isFalse => cases stepped

end Cases

/-- Between any two steps the destroyed connections are those without a reference. -/
structure Sound (custody : Custody Thread) : Prop where
  created : ∀ id ∈ custody.destroyed, id < custody.machine.client.created
  free : ∀ id ∈ custody.destroyed, ¬ custody.Held id
  held : ∀ id < custody.machine.client.created, id ∉ custody.destroyed → custody.Held id

/-- Connections are only added. -/
theorem created_le (stepped : custody.machine.step World.client label = some machine) :
    custody.machine.client.created ≤ machine.client.created := by
  have transition := Machine.step_transition stepped
  cases transition with
  | exec _ _ executed =>
      have created := (World.exec_executes executed).created
      simp only [Machine.setCalls_client]
      omega
  | _ => exact le_rfl

namespace Sound

omit [DecidableEq Thread] in
/-- Soundness depends on the machine, the references and the list of destroyed connections. -/
theorem congr {next : Custody Thread} (sound : custody.Sound)
    (machine : next.machine = custody.machine) (scopes : next.scopes = custody.scopes)
    (destroyed : next.destroyed = custody.destroyed) : next.Sound := by
  refine ⟨?_, fun id gone held => ?_, fun id created alive => ?_⟩
  · rw [machine, destroyed]
    exact sound.created
  · exact sound.free id (destroyed ▸ gone) (held.congr machine.symm scopes.symm)
  · exact (sound.held id (machine ▸ created) (destroyed ▸ alive)).congr machine scopes

variable [Fintype Thread] {next : Custody Thread}

/-- A destroyed connection gets no reference any more, and one without a reference is
destroyed. -/
theorem proceed (sound : custody.Sound) (proceeded : custody.proceed label = some next) :
    next.Sound := by
  obtain ⟨safe, machine, stepped, rfl⟩ := proceed_eq proceeded
  have stays : ∀ id ∈ custody.destroyed, ¬ (custody.follow label machine).Held id := by
    intro id destroyed held
    rcases held_follow stepped (sound.created id destroyed) held with before | works
    · exact sound.free id destroyed before
    · exact not_works_of_destroyed safe destroyed works
  refine ⟨fun id destroyed => ?_, fun id destroyed held => ?_, fun id created alive => ?_⟩
  · rcases mem_destroyed_reclaim.mp destroyed with before | ⟨created, -⟩
    · exact (sound.created id before).trans_le (created_le stepped)
    · exact created
  · have held : (custody.follow label machine).Held id := held.congr rfl rfl
    rcases mem_destroyed_reclaim.mp destroyed with before | ⟨-, free⟩
    · exact stays id before held
    · exact free held
  · have held : (custody.follow label machine).Held id := by
      by_contra free
      exact alive (mem_destroyed_reclaim.mpr (.inr ⟨created, free⟩))
    exact held.congr rfl rfl

/-- One event keeps the counts sound. -/
theorem step (sound : custody.Sound) {event : Event Thread}
    (stepped : custody.step event = some next) : next.Sound := by
  obtain ⟨timers, outcome⟩ := step_eq stepped
  have changed : Sound { custody with timers } := sound.congr rfl rfl rfl
  rcases outcome with rfl | ⟨label, proceeded⟩
  · exact changed
  · exact changed.proceed proceeded

end Sound

variable [Fintype Thread]

/-- The counts are sound in every run. -/
theorem reachable_sound {guard : Custody Thread → Event Thread → Prop}
    (reachable : system.Reachable guard custody) : custody.Sound := by
  refine reachable.invariant Sound ?_ fun _ _ _ _ sound _ stepped => sound.step stepped
  rintro _ ⟨_, ⟨_, ⟨loop, name, listenAddr, writeCompleteCb, rfl⟩, rfl⟩, rfl⟩
  refine ⟨by simp, by simp, fun id created => ?_⟩
  cases created

/-- An event is a step of the machine or leaves it alone. -/
theorem step_machine {next : Custody Thread} {event : Event Thread}
    (stepped : custody.step event = some next) :
    next.machine = custody.machine ∨
      ∃ label, World.system.step custody.machine label = some next.machine := by
  obtain ⟨timers, rfl | ⟨label, proceeded⟩⟩ := step_eq stepped
  · exact .inl rfl
  · obtain ⟨-, machine, moved, rfl⟩ := proceed_eq proceeded
    exact .inr ⟨label, moved⟩

/-- A run with references is a run of the server. -/
theorem reachable_machine {guard : Custody Thread → Event Thread → Prop}
    (reachable : system.Reachable guard custody) :
    World.system.Reachable LabelledSystem.unguarded custody.machine := by
  refine reachable.invariant (fun custody =>
    World.system.Reachable LabelledSystem.unguarded custody.machine) ?_ ?_
  · rintro _ ⟨machine, initial, rfl⟩
    exact .initial initial
  · intro custody event next _ reached _ stepped
    rcases step_machine stepped with same | ⟨label, moved⟩
    · rwa [same]
    · exact reached.step trivial moved

section Schedules

/-- The peer closes the connection; the batch with `ConnectionDestroyed` has run, but its
functors are not destroyed yet. -/
def closesFully : List (Label TwoThreads (Choice TwoThreads)) :=
  World.nextPoll [.channel (.connection 0 (.handleEvent epollHup))] ++ World.turns 0 15

/-- That batch is destroyed, and the next one begins. -/
def nextBatch : List (Label TwoThreads (Choice TwoThreads)) := World.turns 0 10

def fresh : Custody TwoThreads where
  machine := World.serverOnZero

/-- The run starts with a new server. -/
theorem fresh_initial : system.Initial fresh := ⟨_, World.serverOnZero_initial, rfl⟩

end Schedules

end Custody

end Benet
