import Benet.EventLoop.Transition
import Mathlib.Algebra.BigOperators.Group.Finset.Basic
import Mathlib.Algebra.Order.Group.Multiset
import Mathlib.Data.Fintype.Basic
import Mathlib.Tactic.Abel

/-!
# Tasks in flight

For most results about a client it does not matter in which queue or on which
stack a task waits, only that it waits and which thread will execute it. The
tasks in flight are the multiset of all of them. Moving through `RunInLoop`,
`QueueInLoop`, `pendings_` and a batch does not change it; executing a task
replaces the task by the calls it makes; and new tasks arrive only from `Poll`
and from user code.
-/

namespace Benet.EventLoop

open Semantics

variable {State Thread Task Choice : Type}

/-- A task and the thread that will execute it. -/
abbrev Located (Thread Task : Type) : Type := Thread × Task

/-- The tasks a call stands for, when `thread` is to make it. -/
def Call.flight (thread : Thread) : Call Thread Task → Multiset (Located Thread Task)
  | .task body => {(thread, body)}
  | .runInLoop loop functor | .queueInLoop loop functor => {(loop, functor)}
  | .stop _ => 0

/-- The tasks of the calls a thread has still to make. -/
def Call.flights (thread : Thread) (calls : List (Call Thread Task)) :
    Multiset (Located Thread Task) :=
  (calls.map (Call.flight thread)).sum

/-- The functor that a thread is about to push. -/
def Inside.flight : Option (Inside Thread Task) → Multiset (Located Thread Task)
  | some (.pushBack loop functor) => {(loop, functor)}
  | _ => 0

/-- The handlers of polled channels. -/
def Active.flights (thread : Thread) (actives : List (Active Task)) :
    Multiset (Located Thread Task) :=
  (actives.filterMap fun
    | .wakeup => none
    | .channel handler => some (thread, handler) : List (Located Thread Task))

/-- Functors waiting in a queue of a loop. -/
def Pending.flights (thread : Thread) (pendings : List (Pending Thread Task)) :
    Multiset (Located Thread Task) :=
  (pendings.map fun pending => (thread, pending.functor) : List (Located Thread Task))

/-- The tasks that the current iteration has still to execute. -/
def Phase.flight (thread : Thread) : Phase Thread Task → Multiset (Located Thread Task)
  | .events rest => Active.flights thread rest
  | .batch _ rest => Pending.flights thread rest
  | _ => 0

/-- The tasks waiting in a loop. -/
def Loop.flight (thread : Thread) (loop : Loop Thread Task) : Multiset (Located Thread Task) :=
  loop.phase.flight thread + Pending.flights thread loop.pendings

/-- The first of the tasks in flight is one of them. -/
theorem mem_first (located : Located Thread Task) (rest : Multiset (Located Thread Task)) :
    located ∈ {located} + rest :=
  Multiset.mem_add.mpr (.inl (Multiset.mem_singleton_self located))

section Lists

variable (thread : Thread)

@[simp] theorem Call.flights_nil : Call.flights thread ([] : List (Call Thread Task)) = 0 := rfl

@[simp] theorem Call.flights_cons (call : Call Thread Task) (calls : List (Call Thread Task)) :
    Call.flights thread (call :: calls) = call.flight thread + Call.flights thread calls := by
  simp [Call.flights]

@[simp] theorem Call.flights_append (front back : List (Call Thread Task)) :
    Call.flights thread (front ++ back) =
      Call.flights thread front + Call.flights thread back := by
  simp [Call.flights]

/-- What is in flight for a list of calls. -/
theorem Call.mem_flights {located : Located Thread Task} {calls : List (Call Thread Task)} :
    located ∈ Call.flights thread calls ↔ ∃ call ∈ calls, located ∈ call.flight thread := by
  induction calls with
  | nil => simp
  | cons first rest inductionHypothesis => simp [Multiset.mem_add, inductionHypothesis]

@[simp] theorem Active.flights_wakeup (actives : List (Active Task)) :
    Active.flights thread (.wakeup :: actives) = Active.flights thread actives := rfl

@[simp] theorem Active.flights_channel (handler : Task) (actives : List (Active Task)) :
    Active.flights thread (.channel handler :: actives) =
      {(thread, handler)} + Active.flights thread actives := rfl

/-- What waits in a list of active channels. -/
theorem Active.mem_flights {thread : Thread} {located : Located Thread Task}
    {actives : List (Active Task)} :
    located ∈ Active.flights thread actives ↔
      ∃ handler, .channel handler ∈ actives ∧ (thread, handler) = located := by
  simp only [Active.flights, Multiset.mem_coe, List.mem_filterMap]
  constructor
  · rintro ⟨_ | handler, member, same⟩
    · cases same
    · exact ⟨handler, member, Option.some.inj same⟩
  · rintro ⟨handler, member, same⟩
    exact ⟨.channel handler, member, congrArg some same⟩

@[simp] theorem Pending.flights_cons (pending : Pending Thread Task)
    (pendings : List (Pending Thread Task)) :
    Pending.flights thread (pending :: pendings) =
      {(thread, pending.functor)} + Pending.flights thread pendings := rfl

/-- A push adds one functor. -/
theorem Pending.flights_push (pending : Pending Thread Task)
    (pendings : List (Pending Thread Task)) :
    Pending.flights thread (pendings ++ [pending]) =
      {(thread, pending.functor)} + Pending.flights thread pendings := by
  simp [Pending.flights, ← Multiset.coe_add, add_comm]

@[simp] theorem Loop.flight_push (pending : Pending Thread Task) (loop : Loop Thread Task) :
    (loop.push pending).flight thread = {(thread, pending.functor)} + loop.flight thread := by
  simp only [Loop.flight, Loop.push, Pending.flights_push]
  abel

/-- A wakeup changes nothing in flight. -/
theorem Loop.flight_wakeIf (needed : Bool) (loop : Loop Thread Task) :
    (loop.wakeIf needed).flight thread = loop.flight thread := by
  rw [Loop.wakeIf_eq]
  rfl

@[simp] theorem Loop.flight_wakeAfterPush (inLoopThread : Bool) (loop : Loop Thread Task) :
    (loop.wakeAfterPush inLoopThread).flight thread = loop.flight thread :=
  loop.flight_wakeIf thread _

@[simp] theorem Loop.flight_wakeAfterStop (inLoopThread : Bool) (loop : Loop Thread Task) :
    (loop.wakeAfterStop inLoopThread).flight thread = loop.flight thread :=
  loop.flight_wakeIf thread _

end Lists

/-- What `Poll` and user code outside a task can bring in. -/
inductive Client.Arrives (client : Client State Thread Task Choice) (state : State) :
    Multiset (Located Thread Task) → Prop where
  | none : Arrives client state 0
  | user (thread : Thread) : Arrives client state {(thread, client.user)}
  | polled {thread choice active} (returned : client.poll thread choice state = some active) :
      Arrives client state (Active.flights thread active)

/-- A move of a loop thread neither loses nor duplicates a task. -/
theorem Loop.Moves.flight {client : Client State Thread Task Choice} {state : State}
    {thread : Thread} {choice : Choice} {loop next : Loop Thread Task}
    {calls : List (Call Thread Task)}
    (moves : loop.Moves client.user (client.poll thread choice state) next calls) :
    ∃ arrived, client.Arrives state arrived ∧
      Call.flights thread calls + next.flight thread = arrived + loop.flight thread := by
  cases moves with
  | outside => exact ⟨_, .user thread, by simp [Call.flight]⟩
  | poll phase returned => exact ⟨_, .polled returned, by simp [Loop.flight, phase, Phase.flight]⟩
  | release phase =>
      exact ⟨_, .user thread, by simp [Loop.flight, phase, Phase.flight, Call.flight]⟩
  | swap phase =>
      refine ⟨0, .none, ?_⟩
      simp [Loop.flight, phase, Phase.flight, Loop.swapPendings, Pending.flights]
  | channel phase =>
      exact ⟨0, .none, by simp [Loop.flight, phase, Phase.flight, Call.flight]⟩
  | begin phase =>
      exact ⟨0, .none, by simp [Loop.flight, phase, Phase.flight, Call.flight]⟩
  | wakeup phase =>
      exact ⟨0, .none, by simp [Loop.flight, phase, Phase.flight, Loop.resetWakeup]⟩
  | leave phase | iterate phase | finish phase | released phase =>
      exact ⟨0, .none, by simp [Loop.flight, phase, Phase.flight]⟩
  | handled phase =>
      exact ⟨0, .none, by simp [Loop.flight, phase, Phase.flight, Active.flights]⟩
  | batched phase =>
      exact ⟨0, .none, by simp [Loop.flight, phase, Phase.flight, Pending.flights]⟩

/-- Changing the value of one thread exchanges its part of a sum. -/
private theorem sum_update [Fintype Thread] [DecidableEq Thread] {Value Item : Type}
    (part : Thread → Value → Multiset Item) (values : Thread → Value) (thread : Thread)
    (value : Value) :
    (∑ other, part other (Function.update values thread value other)) +
        part thread (values thread) =
      (∑ other, part other (values other)) + part thread value := by
  have unchanged : ∑ other ∈ Finset.univ.erase thread,
      part other (Function.update values thread value other) =
        ∑ other ∈ Finset.univ.erase thread, part other (values other) := by
    apply Finset.sum_congr rfl
    intro other member
    rw [Function.update_of_ne (Finset.ne_of_mem_erase member)]
  rw [← Finset.add_sum_erase _ _ (Finset.mem_univ thread),
    ← Finset.add_sum_erase Finset.univ (fun other => part other (values other))
      (Finset.mem_univ thread), unchanged, Function.update_self]
  abel

variable [Fintype Thread]

namespace Machine

/-- Tasks on the stacks of the threads. -/
def callFlight (machine : Machine State Thread Task) : Multiset (Located Thread Task) :=
  ∑ thread, Call.flights thread (machine.calls thread)

/-- Tasks in the hands of threads that are inside `QueueInLoop`. -/
def insideFlight (machine : Machine State Thread Task) : Multiset (Located Thread Task) :=
  ∑ thread, Inside.flight (machine.inside thread)

/-- Tasks in the loops. -/
def loopFlight (machine : Machine State Thread Task) : Multiset (Located Thread Task) :=
  ∑ thread, (machine.loops thread).flight thread

/-- All tasks in flight. -/
def flight (machine : Machine State Thread Task) : Multiset (Located Thread Task) :=
  machine.callFlight + machine.insideFlight + machine.loopFlight

/-- All tasks in flight but those on the stack of `thread`. -/
def flightBeside [DecidableEq Thread] (thread : Thread) (machine : Machine State Thread Task) :
    Multiset (Located Thread Task) :=
  (∑ other ∈ Finset.univ.erase thread, Call.flights other (machine.calls other)) +
    machine.insideFlight + machine.loopFlight

variable [DecidableEq Thread] {client : Client State Thread Task Choice}
  {machine next : Machine State Thread Task}

/-- All that is in flight: one thread's stack, and the rest. -/
theorem flight_eq_beside (thread : Thread) (machine : Machine State Thread Task) :
    machine.flight =
      Call.flights thread (machine.calls thread) + machine.flightBeside thread := by
  rw [flight, callFlight, flightBeside, ← Finset.add_sum_erase _ _ (Finset.mem_univ thread)]
  abel

/-- The task on top of a stack and the other tasks in flight. -/
theorem flight_top {thread : Thread} {body : Task} {stack : List (Call Thread Task)}
    (top : machine.calls thread = .task body :: stack) :
    machine.flight =
      {(thread, body)} + (Call.flights thread stack + machine.flightBeside thread) := by
  rw [flight_eq_beside thread machine, top, Call.flights_cons, Call.flight, add_assoc]

omit [DecidableEq Thread] in
/-- Nothing is in flight before the first step. -/
theorem flight_initial (state : State) :
    ({ client := state } : Machine State Thread Task).flight = 0 := by
  simp [flight, callFlight, insideFlight, loopFlight, Inside.flight, Loop.flight, Phase.flight,
    Pending.flights]

/-- A task on a stack is in flight. -/
theorem task_mem_flight {thread : Thread} {task : Task}
    (member : .task task ∈ machine.calls thread) : (thread, task) ∈ machine.flight := by
  rw [flight_eq_beside thread, Multiset.mem_add]
  exact .inl ((Call.mem_flights thread).mpr ⟨_, member, Multiset.mem_singleton_self _⟩)

/-- Replacing a stack leaves the tasks beside it alone. -/
theorem flight_setCalls (thread : Thread) (calls : List (Call Thread Task))
    (machine : Machine State Thread Task) :
    (machine.setCalls thread calls).flight =
      Call.flights thread calls + machine.flightBeside thread := by
  have unchanged : ∑ other ∈ Finset.univ.erase thread,
      Call.flights other (Function.update machine.calls thread calls other) =
        ∑ other ∈ Finset.univ.erase thread, Call.flights other (machine.calls other) := by
    apply Finset.sum_congr rfl
    intro other member
    rw [Function.update_of_ne (Finset.ne_of_mem_erase member)]
  rw [flight_eq_beside thread, flightBeside, setCalls_calls, unchanged, Function.update_self]
  rfl

/-- Moving a thread into, through or out of a call. -/
private theorem flight_setInside (thread : Thread) (point : Option (Inside Thread Task))
    (machine : Machine State Thread Task) :
    (machine.setInside thread point).flight + Inside.flight (machine.inside thread) =
      machine.flight + Inside.flight point := by
  have exchanged := sum_update (fun _ => Inside.flight) machine.inside thread point
  have inside : (machine.setInside thread point).insideFlight +
      Inside.flight (machine.inside thread) = machine.insideFlight + Inside.flight point :=
    exchanged
  calc (machine.setInside thread point).flight + Inside.flight (machine.inside thread)
      = machine.callFlight + machine.loopFlight + ((machine.setInside thread point).insideFlight +
          Inside.flight (machine.inside thread)) := by
        simp only [flight, callFlight, loopFlight, setInside_calls, setInside_loops]
        abel
    _ = machine.flight + Inside.flight point := by
        rw [inside, flight]
        abel

/-- Changing a loop exchanges the tasks that wait in it. -/
private theorem flight_modifyLoop (loop : Thread) (change : Loop Thread Task → Loop Thread Task)
    (machine : Machine State Thread Task) :
    (machine.modifyLoop loop change).flight + (machine.loops loop).flight loop =
      machine.flight + (change (machine.loops loop)).flight loop := by
  have loops : (machine.modifyLoop loop change).loopFlight + (machine.loops loop).flight loop =
      machine.loopFlight + (change (machine.loops loop)).flight loop :=
    sum_update (fun thread value => Loop.flight thread value) machine.loops loop _
  calc (machine.modifyLoop loop change).flight + (machine.loops loop).flight loop
      = machine.callFlight + machine.insideFlight + ((machine.modifyLoop loop change).loopFlight +
          (machine.loops loop).flight loop) := by
        simp only [flight, callFlight, insideFlight, modifyLoop_calls, modifyLoop_inside]
        abel
    _ = machine.flight + (change (machine.loops loop)).flight loop := by
        rw [loops, flight]
        abel

/-- A change of a loop that keeps its tasks. -/
private theorem flight_modifyLoop_of_same {loop : Thread}
    {change : Loop Thread Task → Loop Thread Task}
    (same : (change (machine.loops loop)).flight loop = (machine.loops loop).flight loop) :
    (machine.modifyLoop loop change).flight = machine.flight := by
  have exchanged := flight_modifyLoop loop change machine
  rw [same] at exchanged
  exact add_right_cancel exchanged

/-- A thread leaves a point without a task, and the loop it changes keeps its tasks. -/
private theorem flight_leave {thread loop : Thread} {change : Loop Thread Task → Loop Thread Task}
    (empty : Inside.flight (machine.inside thread) = 0)
    (same : (change (machine.loops loop)).flight loop = (machine.loops loop).flight loop) :
    ((machine.modifyLoop loop change).setInside thread none).flight = machine.flight := by
  have moved := flight_setInside thread none (machine.modifyLoop loop change)
  rw [flight_modifyLoop_of_same same, modifyLoop_inside, empty] at moved
  simpa [Inside.flight] using moved

/-- One transition in terms of the tasks in flight: a task on top of a stack is
executed and replaced by its calls, or tasks arrive and the client's state
stays. -/
inductive FlightStep (client : Client State Thread Task Choice)
    (machine : Machine State Thread Task) :
    Label Thread Choice → Machine State Thread Task → Prop where
  | executes {thread choice body stack calls next}
      (outside : machine.inside thread = none)
      (top : machine.calls thread = .task body :: stack)
      (executed : client.exec thread body choice machine.client = some (next.client, calls))
      (after : next.flight =
        Call.flights thread calls + (Call.flights thread stack + machine.flightBeside thread)) :
      FlightStep client machine ⟨thread, .proceed choice⟩ next
  | arrives {label arrived next}
      (same : next.client = machine.client)
      (brought : client.Arrives machine.client arrived)
      (after : next.flight = arrived + machine.flight) :
      FlightStep client machine label next

/-- How one transition changes what is in flight. -/
theorem Transition.flightStep {label : Label Thread Choice}
    (transition : Transition client machine label next) : FlightStep client machine label next := by
  cases transition with
  | exec outside top executed =>
      refine .executes outside top executed ?_
      rw [flight_setCalls, Call.flights_append, add_assoc]
      rfl
  | runHere outside top =>
      refine .arrives rfl .none ?_
      rw [flight_setCalls, flight_eq_beside _ machine, top]
      simp [Call.flight]
  | @post thread choice loop functor call rest outside top posts =>
      refine .arrives rfl .none ?_
      have moved := flight_setInside thread (some (.pushBack loop functor))
        (machine.setCalls thread rest)
      have carried : call.flight thread = {(loop, functor)} := by
        rcases posts with ⟨rfl, -⟩ | rfl <;> rfl
      rw [setCalls_inside, outside, flight_setCalls] at moved
      rw [flight_eq_beside thread machine, top, Call.flights_cons, carried]
      calc ((machine.setCalls thread rest).enterQueueInLoop thread loop functor).flight
          = ((machine.setCalls thread rest).setInside thread
              (some (.pushBack loop functor))).flight := rfl
        _ = Call.flights thread rest + machine.flightBeside thread + {(loop, functor)} := by
            simpa [Inside.flight] using moved
        _ = 0 + ({(loop, functor)} + Call.flights thread rest + machine.flightBeside thread) := by
            abel
  | @stop thread choice loop rest outside top =>
      refine .arrives rfl .none ?_
      have moved := flight_setInside thread (some (.wakeAfterStop loop))
        ((machine.setCalls thread rest).modifyLoop loop Loop.quit)
      have kept : ((machine.setCalls thread rest).modifyLoop loop Loop.quit).flight =
          (machine.setCalls thread rest).flight := flight_modifyLoop_of_same rfl
      rw [kept, flight_setCalls, modifyLoop_inside, setCalls_inside, outside] at moved
      rw [flight_eq_beside thread machine, top]
      simpa [Inside.flight, Call.flight] using moved
  | @pushBack thread choice loop functor inside =>
      refine .arrives rfl .none ?_
      have moved := flight_setInside thread (some (.wakeAfterPush loop))
        (machine.modifyLoop loop (Loop.push ⟨thread, functor⟩))
      have pushed := flight_modifyLoop loop (Loop.push ⟨thread, functor⟩) machine
      rw [Loop.flight_push, ← add_assoc] at pushed
      have total := add_right_cancel pushed
      rw [total, modifyLoop_inside, inside] at moved
      simpa [Inside.flight] using moved
  | @wakeAfterPush thread choice loop inside =>
      refine .arrives rfl .none ?_
      rw [flight_leave (by simp [inside, Inside.flight]) (by simp), zero_add]
  | @wakeAfterStop thread choice loop inside =>
      refine .arrives rfl .none ?_
      rw [flight_leave (by simp [inside, Inside.flight]) (by simp), zero_add]
  | @advance thread choice loop calls outside idle moves =>
      obtain ⟨arrived, brought, balance⟩ := moves.flight
      refine .arrives rfl brought ?_
      have replaced := flight_modifyLoop thread (fun _ => loop) machine
      rw [flight_eq_beside thread (machine.modifyLoop thread fun _ => loop), modifyLoop_calls,
        idle, Call.flights_nil, zero_add] at replaced
      rw [flight_setCalls]
      apply add_right_cancel (b := (machine.loops thread).flight thread)
      rw [add_assoc, replaced, add_left_comm, balance]
      abel
  | enter outside idle phase quitting =>
      refine .arrives rfl .none ?_
      rw [zero_add]
      apply flight_modifyLoop_of_same
      simp [Loop.flight, phase, Phase.flight]

end Machine

end Benet.EventLoop
