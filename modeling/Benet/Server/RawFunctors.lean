import Benet.Server.Lifetime

/-!
# Functors without a reference

`StartRead` and `StopRead` pass a functor that has captured `this` to `RunInLoop`. On the
loop's thread it is called at once, while the caller still has a reference. Any other thread
queues it, and when the call has returned nothing keeps the connection for it. So it finds
the connection alive if no step drops the last reference while it waits, and does not
otherwise; the functors that have captured their connection need no such condition
(`Custody.queued_functor_alive_iff`).
-/

namespace Benet

open EventLoop Semantics

variable {Thread : Type}

/-- The functor of `StartRead` or `StopRead` of the connection. -/
def Task.switchesReading (id : Nat) : Task → Bool
  | .connection other .startReadInLoop | .connection other .stopReadInLoop => other == id
  | _ => false

/-- Such a functor is about the connection and has captured no reference to it. -/
theorem Task.about_of_switchesReading {functor : Task} {id : Nat}
    (switches : functor.switchesReading id = true) :
    functor.about id = true ∧ functor.captures = none := by
  unfold Task.switchesReading at switches
  split at switches
  case h_1 | h_2 => exact ⟨switches, rfl⟩
  case h_3 => cases switches

/-- The call does not pass such a functor to `QueueInLoop`. -/
def EventLoop.Call.QueuesOthers (id : Nat) : Call Thread Task → Prop
  | .queueInLoop _ functor => functor.switchesReading id = false
  | .task _ | .runInLoop _ _ | .stop _ => True

namespace World

variable [DecidableEq Thread] {world next : World Thread} {thread : Thread}
  {choice : Choice Thread} {task functor : Task} {calls : List (Call Thread Task)} {id : Nat}

/-- Only `StartRead` and `StopRead` pass on such a functor. -/
theorem Executes.switchesReading (executes : Executes thread choice world task next calls)
    (switches : functor.switchesReading id = true) {waiting : Thread}
    (member : (waiting, functor) ∈ Call.flights thread calls) :
    task = .connection id .startRead ∨ task = .connection id .stopRead := by
  have others (plain : ∀ call ∈ calls, call.Plain fun other => other.switchesReading id = true) :
      task = .connection id .startRead ∨ task = .connection id .stopRead :=
    absurd switches (Call.plain_flight plain member)
  cases executes with
  | connection effect =>
      have emitted := effect.emitted _ member
      generalize located : (waiting, functor) = target at emitted
      cases emitted with
      | startReadInLoop =>
          cases located
          exact .inl (by rw [beq_iff_eq.mp switches])
      | stopReadInLoop =>
          cases located
          exact .inr (by rw [beq_iff_eq.mp switches])
      | _ =>
          cases located
          cases switches
  | @calls _ made =>
      exact others (by cases made <;> simp [Call.Plain, Task.switchesReading, UserCall.task])
  | posts posted =>
      refine others ?_
      obtain ⟨loop, rfl | rfl | rfl⟩ := posted <;> simp [Call.Plain, Task.switchesReading]
  | destroyServer | leaves | tunes | destroys | newConnection | onClose | onCloseDead
  | removeConnection | removeDead => exact others (by simp [Call.Plain, Task.switchesReading])

/-- It is no handler of a channel. -/
theorem arrives_unread {arrived : Multiset (Located Thread Task)}
    (brought : client.Arrives world arrived) {located : Located Thread Task}
    (member : located ∈ arrived) : ¬ located.2.switchesReading id = true := by
  cases brought with
  | none => cases Multiset.notMem_zero _ member
  | user =>
      cases Multiset.mem_singleton.mp member
      simp [client, Task.switchesReading]
  | polled returned =>
      obtain ⟨handler, inActives, rfl⟩ := Active.mem_flights.mp member
      have pollable := poll_pollable returned _ inActives
      unfold World.pollable at pollable
      split at pollable <;> simp_all [Task.switchesReading]

/-- It is not passed to `QueueInLoop`. -/
theorem Executes.queuesOthers (executes : Executes thread choice world task next calls) :
    ∀ call ∈ calls, call.QueuesOthers id := by
  cases executes with
  | connection effect =>
      intro call made
      cases call with
      | queueInLoop loop functor =>
          refine Bool.eq_false_iff.mpr fun switches => ?_
          have captures := effect.queues made
          rw [(Task.about_of_switchesReading switches).2] at captures
          cases captures
      | task | runInLoop | stop => trivial
  | posts posted =>
      obtain ⟨loop, rfl | rfl | rfl⟩ := posted <;> simp [Call.QueuesOthers, Task.switchesReading]
  | destroyServer | leaves | calls | tunes | destroys | newConnection | onClose | onCloseDead
  | removeConnection | removeDead => simp [Call.QueuesOthers, Task.switchesReading]

/-- A thread never posts such a functor to its own loop: there `RunInLoop` calls it at once. -/
theorem switchesReading_posted {machine : Machine (World Thread) Thread Task}
    {guard : Machine (World Thread) Thread Task → Label Thread (Choice Thread) → Prop}
    (reachable : system.Reachable guard machine) {loop : Thread}
    (posted : functor ∈ machine.posted thread loop)
    (switches : functor.switchesReading id = true) : thread ≠ loop := by
  have all : ∀ thread loop, ∀ functor ∈ machine.posted thread loop,
      functor.switchesReading id = true → thread ≠ loop := by
    refine Machine.reachable_posted ?_ reachable
    intro machine thread call rest loop functor reached top called switches
    rcases called with ⟨-, elsewhere⟩ | rfl
    · exact elsewhere
    · have others : ∀ call ∈ machine.calls thread, call.QueuesOthers id :=
        Machine.reachable_made (fun _ _ => trivial)
          (fun _ _ ran => (exec_executes ran).queuesOthers) reached thread
      have unread : functor.switchesReading id = false :=
        others (.queueInLoop loop functor) (top ▸ List.mem_cons_self)
      rw [unread] at switches
      cases switches
  exact all thread loop functor posted switches

end World

namespace Custody

variable [DecidableEq Thread] [Fintype Thread] {custody next finish : Custody Thread} {id : Nat}
  {guard : Custody Thread → Event Thread → Prop} {event : Event Thread}

/-- A functor of `StartRead` or `StopRead` of the connection waits to be executed. -/
def Awaited (custody : Custody Thread) (id : Nat) : Prop :=
  ∃ located ∈ custody.machine.flight, located.2.switchesReading id = true

/-- The step does not drop the last reference to the connection while such a functor waits:
if somebody has one before the step, somebody has one after it. -/
def keepsAwaited (id : Nat) (custody : Custody Thread) (event : Event Thread) : Prop :=
  ∀ next ∈ custody.step event, custody.Awaited id → next.Awaited id →
    custody.Held id → next.Held id

omit [DecidableEq Thread] in
instance (custody : Custody Thread) (id : Nat) : Decidable (custody.Held id) :=
  decidable_of_iff (custody.strong id ≠ 0) (by rw [Ne, strong_eq_zero, not_not])

omit [DecidableEq Thread] in
instance (custody : Custody Thread) (id : Nat) : Decidable (custody.Awaited id) :=
  Multiset.decidableExistsMultiset

instance (custody : Custody Thread) (event : Event Thread) :
    Decidable (keepsAwaited id custody event) :=
  inferInstanceAs (Decidable (∀ next ∈ custody.step event, _))

/-- Where a functor waits there is its connection. -/
theorem Awaited.created (awaited : custody.Awaited id)
    (reachable : system.Reachable guard custody) : id < custody.machine.client.created := by
  obtain ⟨located, waits, switches⟩ := awaited
  have reached := (reachable_machine reachable).weaken Machine.onExec_of_unguarded
  exact (World.reachable_noneBefore reached).exists waits
    (Task.about_of_switchesReading switches).1

/-- A function that makes a call is under a reference that outlasts the call. -/
theorem held_of_calling (reachable : system.Reachable guard custody)
    {label : Label Thread (Choice Thread)} {body : Task} {choice : Choice Thread}
    (running : custody.machine.executing label = some (body, choice)) (kept : body.kept = some id)
    {machine : Machine (World Thread) Thread Task}
    (moved : custody.machine.step World.client label = some machine)
    (calling : (custody.machine.calls label.thread).length ≤ (machine.calls label.thread).length) :
    (custody.follow label machine).Held id := by
  obtain ⟨stack, state, calls, top, -, rfl⟩ := Machine.executing_step running moved
  have sheltered := reachable_sheltered reachable label.thread
  rw [top] at sheltered calling
  refine Shelters.held ((sheltered.1 id kept).follow rfl ?_)
  simp only [Machine.setCalls_calls, Function.update_self, List.length_cons] at calling ⊢
  omega

/-- A functor that begins to wait is passed on by a caller, who still has a reference. -/
theorem Awaited.step (reachable : system.Reachable guard custody)
    (stepped : custody.step event = some next) (awaited : next.Awaited id) :
    custody.Awaited id ∨ next.Held id := by
  obtain ⟨timers, rfl | ⟨label, proceeded⟩⟩ := step_eq stepped
  · exact .inl awaited
  · obtain ⟨-, machine, moved, rfl⟩ := proceed_eq proceeded
    have moved : custody.machine.step World.client label = some machine := moved
    obtain ⟨⟨waiting, functor⟩, waits, switches⟩ := awaited
    change (waiting, functor) ∈ machine.flight at waits
    cases running : custody.machine.executing label with
    | none =>
        cases (Machine.step_transition moved).flightStep with
        | executes outside top => simp [Machine.executing, outside, top] at running
        | arrives _ brought after =>
            rw [after, Multiset.mem_add] at waits
            exact waits.elim (fun new => absurd switches (World.arrives_unread brought new))
              fun old => .inl ⟨_, old, switches⟩
    | some task =>
        obtain ⟨body, choice⟩ := task
        obtain ⟨calls, rest, ran, before, after⟩ := Machine.executing_flight running moved
        rw [after, Multiset.mem_add] at waits
        rcases waits with new | old
        · have kept : body.kept = some id := by
            rcases (World.exec_executes ran).switchesReading switches new with rfl | rfl <;> rfl
          obtain ⟨stack, state, made, top, again, same⟩ := Machine.executing_step running moved
          cases ran.symm.trans again
          have calling : (custody.machine.calls label.thread).length ≤
              (machine.calls label.thread).length := by
            obtain ⟨call, member, -⟩ := (Call.mem_flights label.thread).mp new
            have some := List.length_pos_of_mem member
            rw [same, top]
            simp
            omega
          exact .inr ((held_of_calling reachable running kept moved calling).congr rfl rfl)
        · exact .inl ⟨_, before ▸ Multiset.mem_add.mpr (.inr old), switches⟩

/-- A step brings no connection back. -/
theorem destroyed_step (stepped : custody.step event = some next)
    (destroyed : id ∈ custody.destroyed) : id ∈ next.destroyed := by
  obtain ⟨timers, rfl | ⟨label, proceeded⟩⟩ := step_eq stepped
  · exact destroyed
  · obtain ⟨-, machine, -, rfl⟩ := proceed_eq proceeded
    exact mem_destroyed_reclaim.mpr (.inl destroyed)

/-- Under the condition, somebody has a reference as long as such a functor waits: the caller
when it begins to wait, and then whoever has one after each step. -/
theorem reachable_awaited (reachable : system.Reachable (keepsAwaited id) custody) :
    custody.Awaited id → custody.Held id := by
  refine reachable.invariant (fun custody => custody.Awaited id → custody.Held id) ?_ ?_
  · rintro _ ⟨_, ⟨_, _, rfl⟩, rfl⟩ ⟨located, waits, -⟩
    rw [Machine.flight_initial] at waits
    exact absurd waits (Multiset.notMem_zero _)
  · intro custody event next reached held kept stepped awaited
    rcases awaited.step reached stepped with before | passed
    · exact kept next stepped before awaited (held before)
    · exact passed

section Schedules

/-- `Send` on thread `1` still finds the connection open, and its functor comes into the
queue when `ConnectionDestroyed` has run. -/
def lateSend : List (Event TwoThreads) :=
  (World.establishOne ++
    [World.turn 1 {}, World.turn 1 { action := .call 0 (.send [7]) }, World.turn 1 {}] ++
    closesFully ++ World.turns 1 4 ++ nextBatch).map .proceed

/-- `StartRead` is called on thread `1` when `ConnectionDestroyed` is in the queue, and comes
into the same batch. -/
def startReadInTime : List (Event TwoThreads) :=
  (World.establishOne ++ World.nextPoll [.channel (.connection 0 (.handleEvent epollHup))] ++
    World.turns 0 8 ++
    [World.turn 1 {}, World.turn 1 { action := .call 0 .startRead }] ++ World.turns 1 5 ++
    World.turns 0 8).map .proceed

/-- `StartRead` is called on thread `1` when `ConnectionDestroyed` has run. -/
def lateStartRead : List (Event TwoThreads) :=
  (World.establishOne ++ closesFully ++
    [World.turn 1 {}, World.turn 1 { action := .call 0 .startRead }] ++ World.turns 1 5 ++
    nextBatch).map .proceed

end Schedules

end Custody

end Benet
