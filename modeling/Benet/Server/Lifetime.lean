import Benet.EventLoop.Stacks
import Benet.Server.References

/-!
# Functions run inside the lifetime of their connection

A function of a connection that calls another one does so under a reference: the functor
that was taken from the queue, the guard of `HandleEvent` or of `handle_close`, or the
reference of the user who called. `Custody.Sheltered` says so for everything on the stacks
of the threads, and `Custody.functions_run_alive` follows: of all functions, only
`HandleEvent`, which locks a weak reference first, and the functors of `StartRead` and
`StopRead` can begin when their connection is destroyed.
-/

namespace Benet

open EventLoop Semantics

variable {Thread : Type}

/-- The function begins without a reference to its connection: the functors of `StartRead`
and `StopRead` have captured `this`, and `HandleEvent` locks `tie_` first. -/
def ConnectionTask.beginsFree : ConnectionTask → Bool
  | .startReadInLoop | .stopReadInLoop | .handleEvent _ => true
  | _ => false

/-- The connection that a task works on, unless it begins without a reference. -/
def Task.kept : Task → Option Nat
  | .connection id task => if task.beginsFree then none else some id
  | .onClose id | .removeConnection id => some id
  | .user | .newConnection | .destroyServer => none

/-- A functor that needs its connection has captured it. -/
def Task.Owns (functor : Task) : Prop :=
  ∀ id, functor.kept = some id → functor.captures = some id

/-- A functor with a captured reference owns its connection. -/
theorem Task.Owns.of_captures {functor : Task} {id : Nat} (captures : functor.captures = some id) :
    functor.Owns := by
  intro other kept
  unfold Task.captures at captures ⊢
  split at captures <;> cases captures <;> cases kept <;> rfl

/-- A functor that the call passes to a queue has captured its connection. `RunInLoop` calls
it at once when it is already in the loop's thread. -/
def EventLoop.Call.Passes (thread : Thread) : Call Thread Task → Prop
  | .runInLoop loop functor => functor.Owns ∨ loop = thread
  | .queueInLoop _ functor => functor.Owns
  | .task _ | .stop _ => True

/-- The connection that has to be kept alive by what lies below the call on the stack. A
functor that has captured it keeps it alive itself. -/
def EventLoop.Call.kept : Call Thread Task → Option Nat
  | .task body => body.kept
  | .runInLoop _ functor => if functor.captures = none then functor.kept else none
  | .queueInLoop _ _ | .stop _ => none

/-- A task keeps alive the connection that it is about. -/
theorem Task.kept_eq_of_about {task : Task} {id other : Nat} (kept : task.kept = some other)
    (about : task.about id = true) : other = id := by
  cases task with
  | connection | onClose | removeConnection => simp_all [Task.kept, Task.about]
  | user | newConnection | destroyServer => cases kept

/-- What is kept for the sake of a call is what its task is about. -/
theorem EventLoop.Call.mem_flight_of_kept {call : Call Thread Task} {id : Nat} (thread : Thread)
    (kept : call.kept = some id) :
    ∃ located ∈ call.flight thread, located.2.kept = some id := by
  cases call with
  | task body => exact ⟨_, Multiset.mem_singleton_self _, kept⟩
  | runInLoop loop functor =>
      simp only [Call.kept] at kept
      split at kept
      case isTrue => exact ⟨_, Multiset.mem_singleton_self _, kept⟩
      case isFalse => cases kept
  | queueInLoop | stop => cases kept

/-- Every call of the stack finds alive what has to be kept for it; `Kept id height` says
that `id` lives as long as more than `height` calls remain. -/
def EventLoop.Call.Sheltered (Kept : Nat → Nat → Prop) : List (Call Thread Task) → Prop
  | [] => True
  | call :: below => (∀ id, call.kept = some id → Kept id below.length) ∧ Sheltered Kept below

/-- A functor that a loop has still to run is one of its objects. -/
theorem EventLoop.Loop.mem_objects_of_functors {loop : Loop Thread Task}
    {pending : Pending Thread Task} (member : pending ∈ loop.functors) :
    pending.functor ∈ loop.objects := by
  unfold Loop.functors at member
  unfold Loop.objects
  split at member
  case h_1 finished rest phase =>
    rw [phase]
    rcases List.mem_append.mp member with taken | waiting
    · refine List.mem_append_right _ (List.mem_map_of_mem ?_)
      exact List.mem_append_right _ taken
    · exact List.mem_append_left _ (List.mem_map_of_mem waiting)
  case h_2 => exact List.mem_append_left _ (List.mem_map_of_mem member)

namespace EventLoop.Call.Sheltered

variable {Kept Other : Nat → Nat → Prop} {calls rest : List (Call Thread Task)}

/-- Only what holds for the heights inside the stack matters. -/
theorem mono (sheltered : Call.Sheltered Kept calls)
    (implied : ∀ id height, height < calls.length → Kept id height → Other id height) :
    Call.Sheltered Other calls := by
  induction calls with
  | nil => trivial
  | cons call below inductionHypothesis =>
      refine ⟨fun id kept => implied id _ (by simp) (sheltered.1 id kept), ?_⟩
      refine inductionHypothesis sheltered.2 fun id height bound => implied id height ?_
      rw [List.length_cons]
      omega

/-- Calls that are put on top of a sheltered stack. -/
theorem append (front : Call.Sheltered (fun id height => Kept id (height + rest.length)) calls)
    (back : Call.Sheltered Kept rest) : Call.Sheltered Kept (calls ++ rest) := by
  induction calls with
  | nil => exact back
  | cons call below inductionHypothesis =>
      refine ⟨fun id kept => ?_, inductionHypothesis front.2⟩
      have found : Kept id (below.length + rest.length) := front.1 id kept
      rwa [← List.length_append] at found

/-- The connection of a sheltered call is kept. -/
theorem of_mem (sheltered : Call.Sheltered Kept calls) {call : Call Thread Task} {id : Nat}
    (member : call ∈ calls) (kept : call.kept = some id) : ∃ height, Kept id height := by
  induction calls with
  | nil => cases member
  | cons first below inductionHypothesis =>
      rcases List.mem_cons.mp member with rfl | later
      · exact ⟨_, sheltered.1 id kept⟩
      · exact inductionHypothesis sheltered.2 later

/-- The lower part of a sheltered stack is sheltered. -/
theorem of_append (sheltered : Call.Sheltered Kept (calls ++ rest)) :
    Call.Sheltered Kept rest := by
  induction calls with
  | nil => exact sheltered
  | cons call below inductionHypothesis => exact inductionHypothesis sheltered.2

/-- A stack is sheltered when the connections of its calls are kept everywhere. -/
theorem of_forall (all : ∀ call ∈ calls, ∀ id, call.kept = some id → ∀ height, Kept id height) :
    Call.Sheltered Kept calls := by
  induction calls with
  | nil => trivial
  | cons call below inductionHypothesis =>
      refine ⟨fun id kept => all call List.mem_cons_self id kept _, inductionHypothesis ?_⟩
      exact fun other member => all other (List.mem_cons_of_mem _ member)

/-- Calls for which nothing has to be kept. -/
theorem of_none (none : ∀ call ∈ calls, call.kept = none) : Call.Sheltered Kept calls := by
  refine .of_forall fun call member id kept => ?_
  rw [none call member] at kept
  cases kept

end EventLoop.Call.Sheltered

namespace Site

variable [DecidableEq Thread] {thread : Thread} {id : Nat} {answers : Answers}
  {site next : Site Thread} {calls : List (Call Thread Task)} {task : ConnectionTask}

/-- The functors that a connection passes to `QueueInLoop` have captured it. -/
theorem Effect.queues (effect : Effect thread id answers site task next calls) {loop : Thread}
    {functor : Task} (queued : .queueInLoop loop functor ∈ calls) :
    functor.captures = some id := by
  have writes : ∀ {site : Site Thread}, .queueInLoop loop functor ∈ queueWriteComplete id site →
      functor.captures = some id := by
    intro site member
    unfold queueWriteComplete at member
    split at member
    case isTrue =>
      cases List.mem_singleton.mp member
      rfl
    case isFalse => cases member
  have branch : ∀ {revents}, .queueInLoop loop functor ∉
      (writeBranch id revents : List (Call Thread Task)) := by
    intro revents
    unfold writeBranch
    split <;> simp
  have appends : ∀ {site : Site Thread} {remaining},
      .queueInLoop loop functor ∈ (site.appendRemaining id remaining).2 →
        functor.captures = some id := by
    intro site remaining member
    unfold appendRemaining at member
    split at member
    case isTrue => cases member
    case isFalse =>
      dsimp only at member
      split at member
      case isTrue =>
        cases List.mem_singleton.mp member
        rfl
      case isFalse => cases member
  cases effect with
  | sendPartly | sendBuffered => exact appends queued
  | sendCompleted => exact writes queued
  | writeDrains =>
      rcases List.mem_append.mp queued with complete | drained
      · exact writes complete
      · cases List.mem_singleton.mp drained
  | forceCloseBegun | forceCloseLoaded =>
      cases List.mem_singleton.mp queued
      rfl
  | eventReads _ reads | afterCloseEvent reads =>
      cases reads with
      | skipped | again => exact absurd queued branch
      | message | endOfFile | error =>
          exact absurd ((List.mem_cons.mp queued).resolve_left (by simp)) branch
  | sendSubmitted | forceCloseInLoop | writeDrained => split at queued <;> simp at queued
  | _ => simp at queued

/-- The functors that it passes to `RunInLoop` have captured it, or they are called at once. -/
theorem Effect.runs (effect : Effect thread id answers site task next calls)
    (here : task.inLoop = true → thread = site.connection.loop) {loop : Thread} {functor : Task}
    (run : .runInLoop loop functor ∈ calls) : functor.Owns ∨ loop = thread := by
  have carried : (loop, functor) ∈ Call.flights thread calls :=
    (Call.mem_flights thread).mpr ⟨_, run, Multiset.mem_singleton_self _⟩
  cases effect.emitted _ carried with
  | shutdownDrained => exact .inr (here rfl).symm
  | user | handleClose | forceCloseLoad | removeFromLoop | afterCloseEvent | handleWrite
  | writeDrained | onClose => exact .inr rfl
  | startReadInLoop | stopReadInLoop => exact .inl fun _ kept => by cases kept
  | sendInLoop | shutdownInLoop | forceCloseInLoop | writeCompleteCallback
  | highWaterMarkCallback => exact .inl (.of_captures rfl)

/-- A task passes functors that have captured the connection, or posts to its own thread. -/
theorem Effect.passes (effect : Effect thread id answers site task next calls)
    (here : task.inLoop = true → thread = site.connection.loop) :
    ∀ call ∈ calls, call.Passes thread := by
  intro call member
  cases call with
  | runInLoop => exact effect.runs here member
  | queueInLoop => exact .of_captures (effect.queues member)
  | task | stop => trivial

/-- The functors of `StartRead` and `StopRead` call nothing. -/
theorem Effect.calls_eq_nil (effect : Effect thread id answers site task next calls)
    (raw : task = .startReadInLoop ∨ task = .stopReadInLoop) : calls = [] := by
  rcases raw with rfl | rfl <;> cases effect <;> rfl

end Site

namespace World

variable [DecidableEq Thread] {world next : World Thread} {thread : Thread}
  {choice : Choice Thread} {task : Task} {calls : List (Call Thread Task)}

/-- A task calls functions of a connection when it is kept alive for the task already, or
the task makes a reference. -/
theorem Executes.sheltered (executes : Executes thread choice world task next calls)
    (below : Nat) :
    Call.Sheltered (fun id height => task.kept = some id ∨
      ∃ scope ∈ task.locals choice world below, scope.id = id ∧ scope.height ≤ height + below)
      calls := by
  cases executes with
  | leaves | onCloseDead | removeDead => trivial
  | @calls other made action =>
      refine ⟨fun id kept => .inr ⟨⟨other, below + 1⟩, by simp [Task.locals, action], ?_, ?_⟩,
        .of_none (by simp [Call.kept, Task.kept])⟩
      · cases made <;> exact Option.some.inj kept
      · simp [Nat.add_comm]
  | posts posted =>
      obtain ⟨loop, rfl | rfl | rfl⟩ := posted <;>
        exact .of_none (by simp [Call.kept, Task.kept])
  | tunes | destroys | newConnection | removeConnection =>
      exact .of_none (by simp [Call.kept, Task.kept, Task.captures])
  | onClose => exact .of_none (by simp [Call.kept, Task.captures])
  | destroyServer => exact .of_none (by simp [Call.kept, Task.captures])
  | @connection other own site _ effect =>
      refine .of_forall fun call member id kept height => ?_
      obtain ⟨located, inCall, keeps⟩ := Call.mem_flight_of_kept thread kept
      have emitted := effect.emitted _ ((Call.mem_flights thread).mpr ⟨call, member, inCall⟩)
      obtain rfl : id = other := by
        rcases emitted.own with user | about
        · simp [user, Task.kept] at keeps
        · exact Task.kept_eq_of_about keeps about
      cases own with
      | handleEvent revents =>
          exact .inr ⟨⟨id, below⟩, List.mem_singleton_self _, rfl, Nat.le_add_left _ _⟩
      | startReadInLoop | stopReadInLoop =>
          rw [effect.calls_eq_nil (by simp)] at member
          cases member
      | _ => exact .inl rfl

/-- The functors that a task passes on have captured their connection, except those that
are called at once. -/
theorem Executes.passes (executes : Executes thread choice world task next calls)
    (here : ∀ id own, task = .connection id own → own.inLoop = true →
      thread = (world.connections id).loop) : ∀ call ∈ calls, call.Passes thread := by
  cases executes with
  | connection effect => exact effect.passes (here _ _ rfl)
  | posts posted =>
      obtain ⟨loop, rfl | rfl | rfl⟩ := posted <;> simp [Call.Passes, Task.Owns, Task.kept]
  | destroyServer => simp [Call.Passes, Task.Owns, Task.kept, Task.captures]
  | leaves | calls | tunes | destroys | newConnection | onClose | onCloseDead | removeConnection
  | removeDead => simp [Call.Passes, Task.Owns, Task.kept, Task.captures]

variable {machine : Machine (World Thread) Thread Task} [Fintype Thread]
  {guard : Machine (World Thread) Thread Task → Label Thread (Choice Thread) → Prop}

/-- In every run, for the functors on the stacks. -/
theorem reachable_passes (reachable : system.Reachable guard machine) (thread : Thread) :
    ∀ call ∈ machine.calls thread, call.Passes thread := by
  refine Machine.reachable_made (fun _ _ => trivial) ?_ reachable thread
  intro machine thread body choice state calls reached executed ran
  refine (exec_executes ran).passes ?_
  rintro id own rfl inLoop
  exact executing_here reached executed inLoop

omit [Fintype Thread] in
/-- The only function of a connection among the handlers is `HandleEvent`. -/
theorem reachable_handlers (reachable : system.Reachable guard machine) (thread : Thread)
    (handler : Task) (active : .channel handler ∈ (machine.loops thread).actives) :
    handler.kept = none := by
  have carries : (client : Client (World Thread) Thread Task (Choice Thread)).Carries
      (fun _ => True) fun handler => handler.kept = none := by
    refine ⟨fun _ call _ => by cases call <;> trivial, fun polled handler member => ?_⟩
    have pollable := poll_pollable polled _ member
    unfold World.pollable at pollable
    split at pollable <;> simp_all [Task.kept, ConnectionTask.beginsFree]
  exact (Machine.reachable_carries carries reachable).actives thread handler active

/-- So every functor in a queue, or about to be pushed, has captured its connection or does
not need it. -/
theorem reachable_queued_owns (reachable : system.Reachable guard machine) :
    (∀ thread loop functor, machine.inside thread = some (.pushBack loop functor) →
      functor.Owns) ∧
    ∀ thread, ∀ pending ∈ (machine.loops thread).functors, pending.functor.Owns := by
  refine Machine.reachable_queued ?_ reachable
  intro machine thread call rest loop functor reached top posts
  have passes := reachable_passes reached thread call (top ▸ List.mem_cons_self)
  rcases posts with ⟨rfl, elsewhere⟩ | rfl
  · exact passes.resolve_right (Ne.symm elsewhere)
  · exact passes

end World

namespace Custody

variable {custody : Custody Thread} {thread : Thread} {id height : Nat}

/-- A reference to the connection lives as long as more than `height` calls of the thread
remain: a local one, or that of a functor of the batch that its loop is running. -/
def Shelters (custody : Custody Thread) (thread : Thread) (id height : Nat) : Prop :=
  (∃ scope ∈ custody.scopes thread, scope.id = id ∧ scope.height ≤ height) ∨
    ∃ finished rest, (custody.machine.loops thread).phase = .batch finished rest ∧
      ∃ pending ∈ finished, pending.functor.captures = some id

/-- A connection that is sheltered is held. -/
theorem Shelters.held (shelters : custody.Shelters thread id height) : custody.Held id := by
  rcases shelters with ⟨scope, member, same, -⟩ | ⟨finished, rest, phase, pending, ran, captures⟩
  · exact .scope member same
  · have waits : pending.functor ∈ (custody.machine.loops thread).objects := by
      simp only [Loop.objects, phase, Phase.objects, List.mem_append, List.mem_map]
      exact .inr ⟨pending, .inl ran, rfl⟩
    exact .functor (Machine.hasObject_loop waits) captures

/-- Every thread finds alive what it works on. -/
def Sheltered (custody : Custody Thread) : Prop :=
  ∀ thread, Call.Sheltered (custody.Shelters thread) (custody.machine.calls thread)

/-- What shelters a call shelters those above it. -/
theorem Shelters.mono {higher : Nat} (shelters : custody.Shelters thread id height)
    (above : height ≤ higher) : custody.Shelters thread id higher := by
  rcases shelters with ⟨scope, member, same, below⟩ | batch
  · exact .inl ⟨scope, member, same, below.trans above⟩
  · exact .inr batch

variable [DecidableEq Thread] {label : Label Thread (Choice Thread)}
  {machine : Machine (World Thread) Thread Task}

/-- A local reference stays while more calls remain than there are below it. -/
theorem mem_scopes_follow {scope : Scope}
    (member : scope ∈ opened custody.machine label ++ custody.scopes label.thread)
    (inside : scope.height < (machine.calls label.thread).length) :
    scope ∈ (custody.follow label machine).scopes label.thread := by
  simp only [Custody.follow, Function.update_self, List.mem_filter, Scope.alive,
    decide_eq_true_eq]
  exact ⟨member, by omega⟩

/-- What sheltered a connection shelters it after a step that leaves the batch as it is. -/
theorem Shelters.follow (shelters : custody.Shelters label.thread id height)
    (phase : (machine.loops label.thread).phase = (custody.machine.loops label.thread).phase)
    (inside : height < (machine.calls label.thread).length) :
    (custody.follow label machine).Shelters label.thread id height := by
  rcases shelters with ⟨scope, member, same, below⟩ | batch
  · exact .inl ⟨scope, mem_scopes_follow (List.mem_append_right _ member) (by omega), same, below⟩
  · right
    rw [Custody.follow, phase]
    exact batch

/-- A reference that the step makes shelters its connection. -/
theorem shelters_opened {scope : Scope} (made : scope ∈ opened custody.machine label)
    (below : scope.height ≤ height) (inside : height < (machine.calls label.thread).length) :
    (custody.follow label machine).Shelters label.thread scope.id height :=
  .inl ⟨scope, mem_scopes_follow (List.mem_append_left _ made) (by omega), rfl, below⟩

namespace Sheltered

variable (sheltered : custody.Sheltered)

include sheltered

/-- The step of one thread, when the others keep their calls and the phases of their loops. -/
theorem follow
    (others : ∀ thread, thread ≠ label.thread → machine.calls thread = custody.machine.calls thread ∧
      (machine.loops thread).phase = (custody.machine.loops thread).phase)
    (own : Call.Sheltered ((custody.follow label machine).Shelters label.thread)
      (machine.calls label.thread)) : (custody.follow label machine).Sheltered := by
  intro thread
  by_cases same : thread = label.thread
  · rw [same]
    exact own
  · obtain ⟨calls, phase⟩ := others thread same
    have before := sheltered thread
    rw [← calls] at before
    refine before.mono fun id height _ shelters => ?_
    simpa [Shelters, Custody.follow, same, phase] using shelters

/-- A step that makes no call: the thread has its calls or those below the first. -/
theorem returns {stack : List (Call Thread Task)}
    (others : ∀ thread, (machine.loops thread).phase = (custody.machine.loops thread).phase)
    (calls : machine.calls = Function.update custody.machine.calls label.thread stack)
    (below : stack <:+ custody.machine.calls label.thread) :
    (custody.follow label machine).Sheltered := by
  refine sheltered.follow (fun thread other => ⟨?_, others thread⟩) ?_
  · rw [calls, Function.update_of_ne other]
  · obtain ⟨front, split⟩ := below
    have before := sheltered label.thread
    rw [← split] at before
    have kept := before.of_append
    rw [calls, Function.update_self]
    refine kept.mono fun id height bound shelters => shelters.follow (others _) ?_
    rwa [calls, Function.update_self]

/-- An executed task leaves its stack sheltered. -/
theorem exec {thread : Thread} {choice : Choice Thread} {body : Task}
    {rest calls : List (Call Thread Task)} {world : World Thread}
    (outside : custody.machine.inside thread = none)
    (top : custody.machine.calls thread = .task body :: rest)
    (executes : World.Executes thread choice custody.machine.client body world calls) :
    (custody.follow ⟨thread, .proceed choice⟩
      ({ custody.machine with client := world }.setCalls thread (calls ++ rest))).Sheltered := by
  have before := sheltered thread
  rw [top] at before
  refine sheltered.follow (fun other different => ⟨?_, rfl⟩) ?_
  · exact Function.update_of_ne different _ _
  · have opens : opened custody.machine ⟨thread, .proceed choice⟩ =
        body.locals choice custody.machine.client rest.length := by
      simp [opened, outside, top]
    simp only [Machine.setCalls_calls, Function.update_self]
    refine .append ?_ ?_
    · refine (executes.sheltered rest.length).mono fun id height bound => ?_
      have within : height + rest.length < (calls ++ rest).length := by
        rw [List.length_append]
        omega
      rintro (kept | ⟨scope, made, rfl, below⟩)
      · exact ((before.1 id kept).mono (Nat.le_add_left _ _)).follow rfl (by simpa using within)
      · exact shelters_opened (opens ▸ made) below (by simpa using within)
    · refine before.2.mono fun id height bound shelters => shelters.follow rfl ?_
      simp only [Machine.setCalls_calls, Function.update_self, List.length_append]
      omega

/-- A functor that `RunInLoop` calls in place is sheltered by itself. -/
theorem runHere {thread : Thread} {choice : Choice Thread} {functor : Task}
    {rest : List (Call Thread Task)} (outside : custody.machine.inside thread = none)
    (top : custody.machine.calls thread = .runInLoop thread functor :: rest) :
    (custody.follow ⟨thread, .proceed choice⟩
      (custody.machine.setCalls thread (.task functor :: rest))).Sheltered := by
  have before := sheltered thread
  rw [top] at before
  refine sheltered.follow (fun other different => ⟨?_, rfl⟩) ?_
  · exact Function.update_of_ne different _ _
  · simp only [Machine.setCalls_calls, Function.update_self]
    refine ⟨fun id kept => ?_, ?_⟩
    · cases captures : functor.captures with
      | none =>
          have needed : (Call.runInLoop thread functor).kept = some id := by
            simpa [Call.kept, captures] using kept
          exact (before.1 id needed).follow rfl (by simp)
      | some other =>
          -- the functor object lives until its call has returned
          obtain rfl : other = id :=
            Option.some.inj (captures.symm.trans (Task.Owns.of_captures captures id kept))
          have made : ⟨other, rest.length⟩ ∈ opened custody.machine ⟨thread, .proceed choice⟩ := by
            simp [opened, outside, top, captures]
          exact shelters_opened made le_rfl (by simp)
    · refine before.2.mono fun id height bound shelters => shelters.follow rfl ?_
      simp only [Machine.setCalls_calls, Function.update_self, List.length_cons]
      omega

/-- A loop calls a handler, which locks a reference itself, or a functor of its batch. -/
theorem advance {thread : Thread} {choice : Choice Thread} {loop : Loop Thread Task}
    {calls : List (Call Thread Task)}
    (owns : ∀ pending ∈ (custody.machine.loops thread).functors, pending.functor.Owns)
    (handlers : ∀ handler, .channel handler ∈ (custody.machine.loops thread).actives →
      handler.kept = none)
    (moves : (custody.machine.loops thread).Moves .user
      (World.client.poll thread choice custody.machine.client) loop calls) :
    (custody.follow ⟨thread, .proceed choice⟩
      ((custody.machine.modifyLoop thread fun _ => loop).setCalls thread calls)).Sheltered := by
  refine sheltered.follow (fun other different => ⟨?_, ?_⟩) ?_
  · exact Function.update_of_ne different _ _
  · simp [show other ≠ thread from different]
  · simp only [Machine.setCalls_calls, Function.update_self]
    cases moves with
    | @begin finished pending rest phase =>
        refine ⟨fun id kept => .inr ⟨finished ++ [pending], rest, ?_, pending, by simp, ?_⟩, trivial⟩
        · simp [Custody.follow]
        · exact owns pending (by simp [Loop.functors, phase]) id kept
    | channel phase =>
        refine .of_none ?_
        simpa [Call.kept] using handlers _ (by simp [Loop.actives, phase])
    | outside | release => exact .of_none (by simp [Call.kept, Task.kept])
    | leave | iterate | poll | handled | wakeup | swap | batched | released | finish => trivial

/-- One transition keeps all stacks sheltered. -/
theorem transition [Fintype Thread]
    (reachable : World.system.Reachable LabelledSystem.unguarded custody.machine)
    (stepped : custody.machine.step World.client label = some machine) :
    (custody.follow label machine).Sheltered := by
  have phases : ∀ {loop : Thread} {change : Loop Thread Task → Loop Thread Task},
      (change (custody.machine.loops loop)).phase = (custody.machine.loops loop).phase →
      ∀ thread, (Function.update custody.machine.loops loop
        (change (custody.machine.loops loop)) thread).phase =
          (custody.machine.loops thread).phase := by
    intro loop change kept thread
    by_cases same : thread = loop
    · subst same
      simpa using kept
    · simp [same]
  cases Machine.step_transition stepped with
  | exec outside top executed => exact sheltered.exec outside top (World.exec_executes executed)
  | runHere outside top => exact sheltered.runHere outside top
  | post outside top => exact sheltered.returns (fun _ => rfl) rfl (top ▸ List.suffix_cons _ _)
  | stop outside top => exact sheltered.returns (phases rfl) rfl (top ▸ List.suffix_cons _ _)
  | pushBack =>
      exact sheltered.returns (phases rfl) (Function.update_eq_self _ _).symm List.suffix_rfl
  | wakeAfterPush | wakeAfterStop =>
      refine sheltered.returns (phases ?_) (Function.update_eq_self _ _).symm List.suffix_rfl
      simp [Loop.wakeAfterPush, Loop.wakeAfterStop, Loop.wakeIf_eq]
  | advance _ _ moves =>
      exact sheltered.advance ((World.reachable_queued_owns reachable).2 _)
        (fun handler => World.reachable_handlers reachable _ handler) moves
  | @enter thread outside idle phase =>
      refine sheltered.follow (fun other different => ⟨rfl, ?_⟩) ?_
      · simp [show other ≠ thread from different]
      · simp only [Machine.modifyLoop_calls, idle]
        trivial

end Sheltered

section Runs

variable [Fintype Thread]

/-- All stacks are sheltered in every run. -/
theorem reachable_sheltered {guard : Custody Thread → Event Thread → Prop}
    (reachable : system.Reachable guard custody) : custody.Sheltered := by
  refine reachable.invariant Sheltered ?_ ?_
  · rintro _ ⟨_, ⟨_, -, rfl⟩, rfl⟩ thread
    trivial
  · intro custody event next reached sheltered _ stepped
    obtain ⟨timers, rfl | ⟨label, proceeded⟩⟩ := step_eq stepped
    · exact sheltered
    · obtain ⟨-, machine, moved, rfl⟩ := proceed_eq proceeded
      have before : Sheltered { custody with timers } := sheltered
      have past := reachable_machine reached
      exact before.transition past moved

/-- In every run, whoever calls from which thread: a function of a connection is executed
while the connection exists, and so are `on_close_` and `remove_connection` with it.
Exceptions are only `HandleEvent`, before it has locked its weak reference, and the functors of
`StartRead` and `StopRead`. -/
theorem functions_run_alive (reachable : system.Reachable LabelledSystem.unguarded custody)
    {body : Task} {choice : Choice Thread}
    (executed : custody.machine.executing label = some (body, choice))
    (kept : body.kept = some id) : id ∉ custody.destroyed := by
  obtain ⟨rest, -, top, -⟩ := Machine.executing_top executed
  have sheltered := reachable_sheltered reachable label.thread
  rw [top] at sheltered
  intro destroyed
  exact (reachable_sound reachable).free id destroyed (sheltered.1 id kept).held

end Runs

/-- Thread `1` calls `Shutdown` with the last reference: `ConnectionDestroyed` has run, and the
batch that it was in is destroyed. -/
def lastCaller : List (Event TwoThreads) :=
  (World.establishOne ++ closesFully ++
    [World.turn 1 {}, World.turn 1 { action := .call 0 .shutdown }] ++ nextBatch).map .proceed

/-- The caller of `Shutdown` has the last reference to a connection that is not destroyed. -/
theorem functions_run_alive_lastCaller :
    ∃ custody : Custody TwoThreads,
      custody.machine.executing (World.turn 1 {}) = some (.connection 0 .shutdown, {}) ∧
      custody.registered 0 = false ∧ custody.strong 0 = 1 ∧ 0 ∉ custody.destroyed := by
  let custody := (system.run LabelledSystem.unguarded fresh lastCaller).get (by decide +kernel)
  have reachable : system.Reachable LabelledSystem.unguarded custody :=
    LabelledSystem.run_reachable fresh_initial (Option.some_get _).symm
  have calls : custody.machine.calls 1 = [.task (.connection 0 .shutdown), .task .user] := by
    decide +kernel
  have outside : custody.machine.inside 1 = none := by decide +kernel
  have executed : custody.machine.executing (World.turn 1 {}) =
      some (.connection 0 .shutdown, {}) := by
    simp [Machine.executing, World.turn, calls, outside]
  exact ⟨custody, executed, by decide +kernel, by decide +kernel,
    functions_run_alive reachable executed rfl⟩

end Custody

end Benet
