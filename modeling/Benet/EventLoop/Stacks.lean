import Benet.EventLoop.FunctorQueue
import Benet.EventLoop.Urgent

/-!
# How a task gets on a stack

A task is called by another task, is passed to a loop as a functor, or is the
handler of a polled channel. `Machine.Carries` says which tasks can be in a queue
or in the active list, and `Machine.reachable_stack` is the induction over runs
for a property of one thread: of the phase of its loop and of the calls it has
still to make. The stack of a thread grows only by its own steps, and the phase of
its loop changes only when the stack is empty.
-/

namespace Benet.EventLoop

open Semantics

variable {State Thread Task Choice : Type} {Postable Pollable : Task → Prop}

/-- The call posts functors of the class only. -/
def Call.Posts (Postable : Task → Prop) : Call Thread Task → Prop
  | .runInLoop _ functor | .queueInLoop _ functor => Postable functor
  | .task _ | .stop _ => True

/-- The client posts functors of the one class and binds handlers of the other. -/
structure Client.Carries (client : Client State Thread Task Choice)
    (Postable Pollable : Task → Prop) : Prop where
  exec : ∀ {thread body choice state next calls},
    client.exec thread body choice state = some (next, calls) → ∀ call ∈ calls, call.Posts Postable
  poll : ∀ {thread choice state active}, client.poll thread choice state = some active →
    ∀ handler, .channel handler ∈ active → Pollable handler

/-- The functors that the loop has still to run. -/
def Loop.functors (loop : Loop Thread Task) : List (Pending Thread Task) :=
  match loop.phase with
  | .batch _ rest => rest ++ loop.pendings
  | _ => loop.pendings

/-- The entries of the active list that are still to be handled. -/
def Loop.actives (loop : Loop Thread Task) : List (Active Task) :=
  match loop.phase with
  | .events rest => rest
  | _ => []

/-- There are such entries only while events are handled. -/
theorem Loop.phase_of_mem_actives {loop : Loop Thread Task} {active : Active Task}
    (member : active ∈ loop.actives) : ∃ rest, loop.phase = .events rest := by
  unfold Loop.actives at member
  split at member
  case h_1 rest phase => exact ⟨rest, phase⟩
  case h_2 => cases member

section Loops

variable {loop next : Loop Thread Task} {user : Task} {polled : Option (List (Active Task))}
  {calls : List (Call Thread Task)}

/-- A push adds one functor. -/
theorem Loop.mem_functors_push {pending added : Pending Thread Task} :
    pending ∈ (loop.push added).functors ↔ pending ∈ loop.functors ∨ pending = added := by
  unfold Loop.functors Loop.push
  dsimp only
  split <;> simp [or_assoc]

@[simp] theorem Loop.functors_wakeIf (needed : Bool) :
    (loop.wakeIf needed).functors = loop.functors := by
  rw [Loop.wakeIf_eq]
  rfl

@[simp] theorem Loop.actives_wakeIf (needed : Bool) :
    (loop.wakeIf needed).actives = loop.actives := by
  rw [Loop.wakeIf_eq]
  rfl

/-- A loop gets no new functors by its own moves. -/
theorem Loop.Moves.functors (moves : loop.Moves user polled next calls) :
    ∀ pending ∈ next.functors, pending ∈ loop.functors := by
  cases moves with
  | outside => exact fun _ => id
  | swap phase => simp [Loop.functors, Loop.swapPendings, phase]
  | begin phase =>
      simp only [Loop.functors, phase]
      exact fun _ => List.mem_cons_of_mem _
  | wakeup phase => simp [Loop.functors, Loop.resetWakeup, phase]
  | leave phase | iterate phase | poll phase | handled phase | channel phase | batched phase
  | released phase | release phase | finish phase => simp [Loop.functors, phase]

/-- The active list is what `Poll` returned, or a part of what it was. -/
theorem Loop.Moves.actives (moves : loop.Moves user polled next calls) :
    ∀ active ∈ next.actives, active ∈ loop.actives ∨
      ∃ returned, polled = some returned ∧ active ∈ returned := by
  cases moves with
  | outside => exact fun _ => .inl
  | poll phase returned => exact fun active member => .inr ⟨_, returned, member⟩
  | wakeup phase | channel phase =>
      simp only [Loop.actives, phase]
      exact fun _ member => .inl (List.mem_cons_of_mem _ member)
  | leave phase | iterate phase | handled phase | swap phase | batched phase | begin phase
  | released phase | release phase | finish phase => simp [Loop.actives, Loop.swapPendings]

/-- What waits in a queue. -/
theorem Pending.mem_flights {thread : Thread} {located : Located Thread Task}
    {pendings : List (Pending Thread Task)} :
    located ∈ Pending.flights thread pendings ↔
      ∃ pending ∈ pendings, (thread, pending.functor) = located := by
  simp [Pending.flights]

/-- A task that waits in a loop is a functor or the handler of an active channel. -/
theorem Loop.mem_flight {thread : Thread} {located : Located Thread Task}
    (member : located ∈ loop.flight thread) :
    (∃ pending ∈ loop.functors, (thread, pending.functor) = located) ∨
      ∃ handler, .channel handler ∈ loop.actives ∧ (thread, handler) = located := by
  rw [Loop.flight, Multiset.mem_add, Pending.mem_flights] at member
  unfold Loop.functors Loop.actives
  cases phase : loop.phase with
  | events rest =>
      rw [phase, Phase.flight, Active.mem_flights] at member
      exact member.symm
  | batch finished rest =>
      rw [phase, Phase.flight, Pending.mem_flights] at member
      left
      rcases member with ⟨pending, inBatch, same⟩ | ⟨pending, inQueue, same⟩
      · exact ⟨pending, List.mem_append_left _ inBatch, same⟩
      · exact ⟨pending, List.mem_append_right _ inQueue, same⟩
  | idle | head | poll | swap | release | finish | returned =>
      rw [phase] at member
      simp only [Phase.flight, Multiset.notMem_zero, false_or] at member
      exact .inl member

/-- A functor of the loop is in flight. -/
theorem Loop.mem_flight_of_functors {thread : Thread} {pending : Pending Thread Task}
    (member : pending ∈ loop.functors) : (thread, pending.functor) ∈ loop.flight thread := by
  rw [Loop.flight, Multiset.mem_add, Pending.mem_flights]
  unfold Loop.functors at member
  split at member
  case h_1 finished rest phase =>
    rcases List.mem_append.mp member with inBatch | inQueue
    · left
      rw [phase, Phase.flight, Pending.mem_flights]
      exact ⟨pending, inBatch, rfl⟩
    · exact .inr ⟨pending, inQueue, rfl⟩
  case h_2 => exact .inr ⟨pending, member, rfl⟩

/-- The handler of an active channel is in flight. -/
theorem Loop.mem_flight_of_actives {thread : Thread} {handler : Task}
    (member : .channel handler ∈ loop.actives) : (thread, handler) ∈ loop.flight thread := by
  obtain ⟨rest, phase⟩ := Loop.phase_of_mem_actives member
  rw [Loop.actives, phase] at member
  rw [Loop.flight, Multiset.mem_add, phase, Phase.flight, Active.mem_flights]
  exact .inl ⟨handler, member, rfl⟩

end Loops

namespace Machine

variable {client : Client State Thread Task Choice} {machine next : Machine State Thread Task}

/-- Only functors of the class are posted and queued, and only handlers of the
class are in an active list. -/
structure Carries (Postable Pollable : Task → Prop) (machine : Machine State Thread Task) :
    Prop where
  calls : ∀ thread, ∀ call ∈ machine.calls thread, call.Posts Postable
  inside : ∀ thread loop functor, machine.inside thread = some (.pushBack loop functor) →
    Postable functor
  functors : ∀ thread, ∀ pending ∈ (machine.loops thread).functors, Postable pending.functor
  actives : ∀ thread handler, .channel handler ∈ (machine.loops thread).actives → Pollable handler

variable [DecidableEq Thread]

namespace Carries

variable (carries : machine.Carries Postable Pollable)

include carries

/-- A stack may be replaced by one that posts only such functors. -/
theorem setCalls (thread : Thread) {stack : List (Call Thread Task)}
    (posts : ∀ call ∈ stack, call.Posts Postable) :
    (machine.setCalls thread stack).Carries Postable Pollable where
  calls := (Function.forall_update_iff _ fun _ (stack : List (Call Thread Task)) =>
    ∀ call ∈ stack, call.Posts Postable).mpr ⟨posts, fun other _ => carries.calls other⟩
  inside := carries.inside
  functors := carries.functors
  actives := carries.actives

/-- A thread may come to another point of a call that pushes only such functors. -/
theorem setInside (thread : Thread) {point : Option (Inside Thread Task)}
    (pushes : ∀ loop functor, point = some (.pushBack loop functor) → Postable functor) :
    (machine.setInside thread point).Carries Postable Pollable where
  calls := carries.calls
  inside := (Function.forall_update_iff _ fun _ (point : Option (Inside Thread Task)) =>
    ∀ loop functor, point = some (.pushBack loop functor) → Postable functor).mpr
      ⟨pushes, fun other _ => carries.inside other⟩
  functors := carries.functors
  actives := carries.actives

/-- A loop may be changed into one that holds only such functors and handlers. -/
theorem modifyLoop {loop : Thread} (change : Loop Thread Task → Loop Thread Task)
    (functors : ∀ pending ∈ (change (machine.loops loop)).functors, Postable pending.functor)
    (actives : ∀ handler, .channel handler ∈ (change (machine.loops loop)).actives →
      Pollable handler) :
    (machine.modifyLoop loop change).Carries Postable Pollable where
  calls := carries.calls
  inside := carries.inside
  functors := (Function.forall_update_iff _ fun _ (loop : Loop Thread Task) =>
    ∀ pending ∈ loop.functors, Postable pending.functor).mpr
      ⟨functors, fun other _ => carries.functors other⟩
  actives := (Function.forall_update_iff _ fun _ (loop : Loop Thread Task) =>
    ∀ handler, .channel handler ∈ loop.actives → Pollable handler).mpr
      ⟨actives, fun other _ => carries.actives other⟩

/-- Waking a loop changes nothing that it carries. -/
theorem wake {loop : Thread} (needed : Bool) :
    (machine.modifyLoop loop (Loop.wakeIf needed)).Carries Postable Pollable :=
  carries.modifyLoop _ (by simpa using carries.functors loop) (by simpa using carries.actives loop)

omit [DecidableEq Thread] in
/-- What lies below the top of a stack. -/
theorem tail {thread : Thread} {call : Call Thread Task} {rest : List (Call Thread Task)}
    (top : machine.calls thread = call :: rest) : ∀ call ∈ rest, call.Posts Postable :=
  fun other member => carries.calls thread other (top ▸ List.mem_cons_of_mem _ member)

/-- One transition keeps to what the client posts and polls. -/
theorem transition (posts : client.Carries Postable Pollable) {label : Label Thread Choice}
    (transition : Transition client machine label next) : next.Carries Postable Pollable := by
  cases transition with
  | @exec thread choice body rest state emitted outside top executed =>
      have sameQueues : Carries Postable Pollable { machine with client := state } :=
        ⟨carries.calls, carries.inside, carries.functors, carries.actives⟩
      refine sameQueues.setCalls thread fun call member => ?_
      rcases List.mem_append.mp member with new | old
      · exact posts.exec executed call new
      · exact carries.tail top call old
  | @runHere thread choice functor rest outside top =>
      refine carries.setCalls thread fun call member => ?_
      rcases List.mem_cons.mp member with rfl | old
      · trivial
      · exact carries.tail top call old
  | @post thread choice loop functor call rest outside top posted =>
      have first : call.Posts Postable := carries.calls thread call (top ▸ List.mem_cons_self)
      have isFunctor : Postable functor := by
        rcases posted with ⟨rfl, -⟩ | rfl <;> exact first
      have pushes : ∀ target pushed, some (Inside.pushBack loop functor) =
          some (.pushBack target pushed) → Postable pushed := by
        rintro _ _ ⟨⟩
        exact isFunctor
      have entered := (carries.setCalls thread (carries.tail top)).setInside thread pushes
      exact ⟨entered.calls, entered.inside, entered.functors, entered.actives⟩
  | @stop thread choice loop rest outside top =>
      have popped := carries.setCalls thread (carries.tail top)
      have stopped := popped.modifyLoop Loop.quit (popped.functors loop) (popped.actives loop)
      exact stopped.setInside thread fun _ _ same => by cases same
  | @pushBack thread choice loop functor inside =>
      have isFunctor := carries.inside thread loop functor inside
      refine (carries.modifyLoop (Loop.push ⟨thread, functor⟩) ?_ (carries.actives loop)).setInside
        thread fun _ _ same => by cases same
      intro pending member
      rcases Loop.mem_functors_push.mp member with old | rfl
      · exact carries.functors loop pending old
      · exact isFunctor
  | wakeAfterPush inside => exact (carries.wake _).setInside _ fun _ _ same => by cases same
  | wakeAfterStop inside => exact (carries.wake _).setInside _ fun _ _ same => by cases same
  | @advance thread choice loop emitted outside idle moved =>
      refine (carries.modifyLoop (fun _ => loop) ?_ ?_).setCalls thread ?_
      · exact fun pending member => carries.functors thread pending (moved.functors pending member)
      · intro handler member
        rcases moved.actives _ member with old | ⟨active, returned, inActive⟩
        · exact carries.actives thread handler old
        · exact posts.poll returned handler inActive
      · cases moved <;> simp [Call.Posts]
  | @enter thread outside idle phase quitting =>
      refine carries.modifyLoop _ ?_ ?_
      · have kept := carries.functors thread
        simpa [Loop.functors, phase] using kept
      · simp [Loop.actives]

end Carries

variable {Initial : State → Prop}
  {guard : Machine State Thread Task → Label Thread Choice → Prop}

/-- What the client never posts or polls is nowhere in the machine. -/
theorem reachable_carries (posts : client.Carries Postable Pollable)
    (reachable : (system client Initial).Reachable guard machine) :
    machine.Carries Postable Pollable := by
  refine reachable.invariant (Carries Postable Pollable) ?_ ?_
  · rintro _ ⟨state, -, rfl⟩
    constructor <;> simp [Loop.functors, Loop.actives]
  · intro machine label next _ carries _ stepped
    exact carries.transition posts (step_transition stepped)

/-- What holds of the functors that are posted holds of all functors in the queues. -/
theorem reachable_queued {Queued : Task → Prop}
    (posts : ∀ {machine : Machine State Thread Task} {thread call rest loop functor},
      (system client Initial).Reachable guard machine → machine.calls thread = call :: rest →
      (call = .runInLoop loop functor ∧ thread ≠ loop ∨ call = .queueInLoop loop functor) →
        Queued functor)
    (reachable : (system client Initial).Reachable guard machine) :
    (∀ thread loop functor, machine.inside thread = some (.pushBack loop functor) →
      Queued functor) ∧
    ∀ thread, ∀ pending ∈ (machine.loops thread).functors, Queued pending.functor := by
  have law := reachable_queueInvariant reachable
  have posted : ∀ thread loop, ∀ functor ∈ machine.posted thread loop, Queued functor :=
    reachable_posted (fun reached top call => posts reached top call) reachable
  refine ⟨fun thread loop functor inside => posted thread loop functor ?_,
    fun loop pending member => posted pending.poster loop _ (law.posted_of_pushed ?_)⟩
  · rw [← law.posts thread loop, entering, inside]
    simp
  · rw [← (law.queue loop).conserved]
    unfold Loop.functors at member
    split at member
    case h_1 phase => simp_all [Phase.unrun]
    case h_2 => exact List.mem_append.mpr (.inr member)

/-- An active list is what it was or a part of it, or `Poll` has just returned it. -/
theorem Transition.actives {label : Label Thread Choice}
    (transition : Transition client machine label next) (thread : Thread) {active : Active Task}
    (member : active ∈ (next.loops thread).actives) :
    active ∈ (machine.loops thread).actives ∨
      ∃ choice returned, machine.calls thread = [] ∧
        client.poll thread choice machine.client = some returned ∧ active ∈ returned ∧
        next.client = machine.client := by
  have changed : ∀ {loop : Thread} (change : Loop Thread Task → Loop Thread Task),
      (change (machine.loops loop)).actives = (machine.loops loop).actives →
      active ∈ (Function.update machine.loops loop (change (machine.loops loop)) thread).actives →
        active ∈ (machine.loops thread).actives := by
    intro loop change same member
    by_cases here : thread = loop
    · subst here
      rwa [Function.update_self, same] at member
    · rwa [Function.update_of_ne here] at member
  cases transition with
  | exec | runHere | post => exact .inl member
  | stop | pushBack => exact .inl (changed _ rfl member)
  | wakeAfterPush | wakeAfterStop => exact .inl (changed _ (Loop.actives_wakeIf _) member)
  | @advance mover choice loop emitted outside idle moved =>
      by_cases here : thread = mover
      · subst here
        simp only [setCalls_loops, modifyLoop_loops, Function.update_self] at member
        rcases moved.actives _ member with old | ⟨returned, polled, inReturned⟩
        · exact .inl old
        · exact .inr ⟨choice, returned, idle, polled, inReturned, rfl⟩
      · simp only [setCalls_loops, modifyLoop_loops, Function.update_of_ne here] at member
        exact .inl member
  | @enter mover outside idle phase quitting =>
      refine .inl (changed (fun loop => { loop with phase := .head, running := true }) ?_ member)
      simp [Loop.actives, phase]

/-- A property of a thread's phase and stack that its own steps keep. Executing a
task and a move of the loop may use that the machine is reachable. -/
structure StackStable (client : Client State Thread Task Choice) (Initial : State → Prop)
    (guard : Machine State Thread Task → Label Thread Choice → Prop)
    (Holds : Thread → Phase Thread Task → List (Call Thread Task) → Prop) : Prop where
  initial : ∀ thread, Holds thread .idle []
  exec : ∀ {machine : Machine State Thread Task} {thread body choice state calls rest},
    (system client Initial).Reachable guard machine → guard machine ⟨thread, .proceed choice⟩ →
    machine.executing ⟨thread, .proceed choice⟩ = some (body, choice) →
    client.exec thread body choice machine.client = some (state, calls) →
    Holds thread (machine.loops thread).phase (.task body :: rest) →
      Holds thread (machine.loops thread).phase (calls ++ rest)
  runHere : ∀ {thread phase functor rest},
    Holds thread phase (.runInLoop thread functor :: rest) →
    Holds thread phase (.task functor :: rest)
  pop : ∀ {thread phase call rest}, Holds thread phase (call :: rest) → Holds thread phase rest
  moves : ∀ {machine : Machine State Thread Task} {thread choice loop calls},
    (system client Initial).Reachable guard machine →
    (machine.loops thread).Moves client.user (client.poll thread choice machine.client) loop calls →
    Holds thread (machine.loops thread).phase [] → Holds thread loop.phase calls
  enter : ∀ {thread}, Holds thread .idle [] → Holds thread .head []

section Threads

variable {Holds : Thread → Phase Thread Task → List (Call Thread Task) → Prop}

/-- A new stack of one thread. -/
private theorem holds_setCalls
    (holds : ∀ thread, Holds thread (machine.loops thread).phase (machine.calls thread))
    {thread : Thread} {stack : List (Call Thread Task)}
    (changed : Holds thread (machine.loops thread).phase stack) (other : Thread) :
    Holds other ((machine.setCalls thread stack).loops other).phase
      ((machine.setCalls thread stack).calls other) := by
  by_cases same : other = thread
  · subst same
    simpa using changed
  · simpa [same] using holds other

/-- A change of one loop that keeps its phase. -/
private theorem holds_modifyLoop
    (holds : ∀ thread, Holds thread (machine.loops thread).phase (machine.calls thread))
    {loop : Thread} {change : Loop Thread Task → Loop Thread Task}
    (kept : (change (machine.loops loop)).phase = (machine.loops loop).phase) (other : Thread) :
    Holds other ((machine.modifyLoop loop change).loops other).phase (machine.calls other) := by
  by_cases same : other = loop
  · subst same
    simpa [kept] using holds other
  · simpa [same] using holds other

end Threads

/-- A property of a thread's phase and stack that each transition keeps holds in every run. -/
theorem reachable_stack {Holds : Thread → Phase Thread Task → List (Call Thread Task) → Prop}
    (stable : StackStable client Initial guard Holds)
    (reachable : (system client Initial).Reachable guard machine) (thread : Thread) :
    Holds thread (machine.loops thread).phase (machine.calls thread) := by
  refine reachable.invariant (fun machine => ∀ thread,
    Holds thread (machine.loops thread).phase (machine.calls thread)) ?_ ?_ thread
  · rintro _ ⟨state, -, rfl⟩ thread
    exact stable.initial thread
  · intro machine label next reached holds admitted stepped
    cases step_transition stepped with
    | @exec thread choice body rest state emitted outside top executed =>
        refine holds_setCalls holds (stable.exec reached admitted ?_ executed (top ▸ holds thread))
        simp [executing, outside, top]
    | @runHere thread choice functor rest outside top =>
        exact holds_setCalls holds (stable.runHere (top ▸ holds thread))
    | @post thread choice loop functor call rest outside top posted =>
        exact holds_setCalls holds (stable.pop (top ▸ holds thread))
    | @stop thread choice loop rest outside top =>
        have popped := holds_setCalls holds (stable.pop (top ▸ holds thread))
        exact holds_modifyLoop popped rfl
    | @pushBack thread choice loop functor inside => exact holds_modifyLoop holds rfl
    | @wakeAfterPush thread choice loop inside =>
        refine holds_modifyLoop holds ?_
        rw [Loop.wakeAfterPush, Loop.wakeIf_eq]
    | @wakeAfterStop thread choice loop inside =>
        refine holds_modifyLoop holds ?_
        rw [Loop.wakeAfterStop, Loop.wakeIf_eq]
    | @advance thread choice loop emitted outside idle moved =>
        have advanced := stable.moves reached moved (idle ▸ holds thread)
        intro other
        by_cases same : other = thread
        · subst same
          simpa using advanced
        · simpa [same] using holds other
    | @enter thread outside idle phase quitting =>
        intro other
        by_cases same : other = thread
        · subst same
          have entered := stable.enter (phase ▸ idle ▸ holds other)
          simpa [idle] using entered
        · simpa [same] using holds other

/-- Where a task in flight can be. -/
inductive Waits (machine : Machine State Thread Task) : Located Thread Task → Prop where
  | call {thread call located} (member : call ∈ machine.calls thread)
      (carried : located ∈ call.flight thread) : Waits machine located
  | inside {thread loop functor} (point : machine.inside thread = some (.pushBack loop functor)) :
      Waits machine (loop, functor)
  | functor {thread pending} (member : pending ∈ (machine.loops thread).functors) :
      Waits machine (thread, pending.functor)
  | active {thread handler} (member : .channel handler ∈ (machine.loops thread).actives) :
      Waits machine (thread, handler)

omit [DecidableEq Thread] in
/-- What is in flight waits at one of the places. -/
theorem waits_of_mem_flight [Fintype Thread] {located : Located Thread Task}
    (member : located ∈ machine.flight) : machine.Waits located := by
  simp only [flight, callFlight, insideFlight, loopFlight, Multiset.mem_add, Multiset.mem_sum,
    Finset.mem_univ, true_and] at member
  rcases member with (⟨thread, onStack⟩ | ⟨thread, inside⟩) | ⟨thread, waiting⟩
  · obtain ⟨call, inCalls, carried⟩ := (Call.mem_flights thread).mp onStack
    exact .call inCalls carried
  · rcases point : machine.inside thread with _ | (⟨loop, functor⟩ | _ | _)
    all_goals simp only [point, Inside.flight, Multiset.notMem_zero, Multiset.mem_singleton] at inside
    subst inside
    exact .inside point
  · rcases Loop.mem_flight waiting with ⟨pending, queued, rfl⟩ | ⟨handler, active, rfl⟩
    · exact .functor queued
    · exact .active active

omit [DecidableEq Thread] in
/-- What waits at one of the places is in flight. -/
theorem mem_flight_of_waits [Fintype Thread] {located : Located Thread Task}
    (waits : machine.Waits located) : located ∈ machine.flight := by
  simp only [flight, callFlight, insideFlight, loopFlight, Multiset.mem_add, Multiset.mem_sum,
    Finset.mem_univ, true_and]
  cases waits with
  | @call thread call _ member carried =>
      exact .inl (.inl ⟨thread, (Call.mem_flights thread).mpr ⟨call, member, carried⟩⟩)
  | @inside thread loop functor point =>
      exact .inl (.inr ⟨thread, by simp [point, Inside.flight]⟩)
  | @functor thread pending member =>
      exact .inr ⟨thread, Loop.mem_flight_of_functors member⟩
  | @active thread handler member =>
      exact .inr ⟨thread, Loop.mem_flight_of_actives member⟩

omit [DecidableEq Thread] in
/-- A task that is neither posted nor polled is on the stack of its thread. -/
theorem Carries.on_stack [Fintype Thread] (carries : machine.Carries Postable Pollable)
    {thread : Thread} {task : Task} (notPosted : ¬ Postable task) (notPolled : ¬ Pollable task)
    (member : (thread, task) ∈ machine.flight) : .task task ∈ machine.calls thread := by
  cases waits_of_mem_flight member with
  | @call other call _ inCalls carried =>
      have posts := carries.calls other call inCalls
      cases call <;> simp_all [Call.flight, Call.Posts]
  | inside point => exact absurd (carries.inside _ _ _ point) notPosted
  | functor queued => exact absurd (carries.functors _ _ queued) notPosted
  | active active => exact absurd (carries.actives _ _ active) notPolled

/-- What holds of the calls that a task makes holds of all calls on the stacks. -/
theorem reachable_made {Made : Thread → Call Thread Task → Prop}
    (tasks : ∀ thread body, Made thread (.task body))
    (exec : ∀ {machine : Machine State Thread Task} {thread body choice state calls},
      (system client Initial).Reachable guard machine →
      machine.executing ⟨thread, .proceed choice⟩ = some (body, choice) →
      client.exec thread body choice machine.client = some (state, calls) →
        ∀ call ∈ calls, Made thread call)
    (reachable : (system client Initial).Reachable guard machine) (thread : Thread) :
    ∀ call ∈ machine.calls thread, Made thread call := by
  have stable : StackStable client Initial guard fun thread _ calls =>
      ∀ call ∈ calls, Made thread call := by
    refine ⟨by simp, ?_, ?_, ?_, ?_, by simp⟩
    · intro machine thread body choice state calls rest reached _ executed ran holds call member
      rcases List.mem_append.mp member with new | old
      · exact exec reached executed ran call new
      · exact holds call (List.mem_cons_of_mem _ old)
    · intro thread phase functor rest holds
      rw [List.forall_mem_cons] at holds ⊢
      exact ⟨tasks thread functor, holds.2⟩
    · intro thread phase call rest holds
      exact (List.forall_mem_cons.mp holds).2
    · intro machine thread choice loop calls _ moves _
      cases moves <;> simp [tasks]
  exact reachable_stack stable reachable thread

end Machine

/-- The tasks of the class are handlers of channels and are not called otherwise. -/
structure Client.Roots (client : Client State Thread Task Choice) (Root : Task → Prop) : Prop where
  exec : ∀ {thread body choice state next calls},
    client.exec thread body choice state = some (next, calls) →
      ∀ call ∈ calls, call.Plain Root

/-- A handler that nothing calls is not posted. -/
theorem Client.Roots.carries {client : Client State Thread Task Choice} {Root : Task → Prop}
    (roots : client.Roots Root) : client.Carries (fun functor => ¬ Root functor) fun _ => True := by
  refine ⟨fun executed call member => ?_, fun _ _ _ => trivial⟩
  have plain := roots.exec executed call member
  cases call with
  | runInLoop | queueInLoop => exact plain
  | task | stop => trivial

/-- What is executed brings no task of the class. -/
theorem Client.Roots.flights {client : Client State Thread Task Choice} {Root : Task → Prop}
    (roots : client.Roots Root) {thread : Thread} {body : Task} {choice : Choice}
    {state next : State} {calls : List (Call Thread Task)}
    (executed : client.exec thread body choice state = some (next, calls)) {waiting : Thread}
    {handler : Task} (root : Root handler) : (waiting, handler) ∉ Call.flights thread calls :=
  fun member => Call.plain_flight (roots.exec executed) member root

/-- The call neither calls a task of the class nor may run it at once. -/
def Call.Avoids (Deferred : Task → Prop) : Call Thread Task → Prop
  | .task body | .runInLoop _ body => ¬ Deferred body
  | .queueInLoop _ _ | .stop _ => True

namespace Machine

variable [DecidableEq Thread] {client : Client State Thread Task Choice}
  {machine : Machine State Thread Task} {Initial : State → Prop}
  {guard : Machine State Thread Task → Label Thread Choice → Prop}

/-- A stack has no handler that nothing calls, or it is a single call. -/
private theorem plain_or_single {Root : Task → Prop} (roots : client.Roots Root)
    (reachable : (system client Initial).Reachable guard machine) (thread : Thread) :
    (∀ call ∈ machine.calls thread, call.Plain Root) ∨
      ∃ body, machine.calls thread = [.task body] := by
  have stable : StackStable client Initial guard fun _ _ calls =>
      (∀ call ∈ calls, call.Plain Root) ∨ ∃ body, calls = [.task body] := by
    refine ⟨by simp, ?_, ?_, ?_, ?_, id⟩
    · intro machine thread body choice state calls rest _ _ _ executed holds
      left
      intro call member
      rcases List.mem_append.mp member with new | old
      · exact roots.exec executed call new
      · rcases holds with plain | ⟨single, only⟩
        · exact plain call (List.mem_cons_of_mem _ old)
        · cases only
          cases old
    · rintro thread phase functor rest (plain | ⟨single, only⟩)
      · left
        rw [List.forall_mem_cons] at plain ⊢
        exact plain
      · cases only
    · rintro thread phase call rest (plain | ⟨single, only⟩)
      · exact .inl (List.forall_mem_cons.mp plain).2
      · cases only
        exact .inl (by simp)
    · intro machine thread choice loop calls _ moved _
      cases moved <;> simp
  exact reachable_stack stable reachable thread

/-- A handler that nothing calls runs on an otherwise empty stack. -/
theorem root_alone {Root : Task → Prop} (roots : client.Roots Root)
    (reachable : (system client Initial).Reachable guard machine) {thread : Thread} {body : Task}
    (root : Root body) (member : .task body ∈ machine.calls thread) :
    machine.calls thread = [.task body] := by
  rcases plain_or_single roots reachable thread with plain | ⟨single, only⟩
  · exact absurd root (plain _ member)
  · rw [only, List.mem_singleton] at member
    cases member
    exact only

/-- No handler that nothing calls is below another call. -/
theorem root_not_below {Root : Task → Prop} (roots : client.Roots Root)
    (reachable : (system client Initial).Reachable guard machine) {thread : Thread} {body : Task}
    (root : Root body) {first : Call Thread Task} {rest : List (Call Thread Task)}
    (top : machine.calls thread = first :: rest) : .task body ∉ rest := by
  intro member
  have alone := root_alone roots reachable root (top ▸ List.mem_cons_of_mem _ member)
  rw [top] at alone
  cases alone
  cases member

/-- A handler that nothing calls waits in the active list, or is called on an otherwise empty
stack. -/
theorem root_waits [Fintype Thread] {Root : Task → Prop} (roots : client.Roots Root)
    (reachable : (system client Initial).Reachable guard machine) {thread : Thread}
    {handler : Task} (root : Root handler) (member : (thread, handler) ∈ machine.flight) :
    machine.calls thread = [.task handler] ∨ .channel handler ∈ (machine.loops thread).actives := by
  have carries := reachable_carries roots.carries reachable
  cases waits_of_mem_flight member with
  | @call other call _ inCalls carried =>
      have posts := carries.calls other call inCalls
      cases call with
      | task =>
          cases Multiset.mem_singleton.mp carried
          exact .inl (root_alone roots reachable root inCalls)
      | runInLoop | queueInLoop =>
          cases Multiset.mem_singleton.mp carried
          exact absurd root posts
      | stop => cases Multiset.notMem_zero _ carried
  | inside point => exact absurd root (carries.inside _ _ _ point)
  | functor queued => exact absurd root (carries.functors _ _ queued)
  | active active => exact .inr active

/-- Tasks of a class that are not handlers, and that are not called by others while
events are handled, are not on the stack of a loop that handles events. -/
theorem avoids_while_handling {Deferred : Task → Prop}
    (poll : ∀ {thread choice state active}, client.poll thread choice state = some active →
      ∀ handler, .channel handler ∈ active → ¬ Deferred handler)
    (exec : ∀ {machine : Machine State Thread Task} {thread body choice state calls rest},
      (system client Initial).Reachable guard machine → guard machine ⟨thread, .proceed choice⟩ →
      machine.executing ⟨thread, .proceed choice⟩ = some (body, choice) →
      client.exec thread body choice machine.client = some (state, calls) →
      (machine.loops thread).phase = .events rest → ¬ Deferred body →
        ∀ call ∈ calls, call.Avoids Deferred)
    (reachable : (system client Initial).Reachable guard machine) {thread : Thread}
    {rest : List (Active Task)} (phase : (machine.loops thread).phase = .events rest) :
    ∀ call ∈ machine.calls thread, call.Avoids Deferred := by
  have carries : client.Carries (fun _ => True) fun handler => ¬ Deferred handler :=
    ⟨fun _ call _ => by cases call <;> trivial, poll⟩
  have stable : StackStable client Initial guard fun _ phase calls =>
      ∀ rest, phase = .events rest → ∀ call ∈ calls, call.Avoids Deferred := by
    refine ⟨by simp, ?_, ?_, ?_, ?_, by simp⟩
    · intro machine thread body choice state calls stack reached admitted executed ran holds rest
        handling call member
      have below := List.forall_mem_cons.mp (holds rest handling)
      rcases List.mem_append.mp member with new | old
      · exact exec reached admitted executed ran handling below.1 call new
      · exact below.2 call old
    · intro thread phase functor stack holds rest handling
      obtain ⟨first, below⟩ := List.forall_mem_cons.mp (holds rest handling)
      exact List.forall_mem_cons.mpr ⟨first, below⟩
    · intro thread phase call stack holds rest handling
      exact (List.forall_mem_cons.mp (holds rest handling)).2
    · intro machine thread choice loop calls reached moved _ rest handling
      have handlers := (reachable_carries carries reached).actives thread
      cases moved with
      | channel phase => simpa [Call.Avoids] using handlers _ (by simp [Loop.actives, phase])
      | outside phase => rcases phase with phase | phase <;> simp [phase] at handling
      | poll | wakeup | handled | leave | iterate | swap | batched | released | finish => simp
      | begin | release => cases handling
  exact reachable_stack stable reachable thread rest phase

/-- What holds of a handler as long as it is in the active list, and is kept by the tasks of
other threads while it is called, holds until it is executed. -/
theorem reachable_roots {Root : Task → Prop} (roots : client.Roots Root)
    (user : ¬ Root client.user) (Holds : Thread → Task → State → Prop)
    (active : ∀ {machine : Machine State Thread Task} {thread handler},
      (system client Initial).Reachable guard machine → Root handler →
      .channel handler ∈ (machine.loops thread).actives → Holds thread handler machine.client)
    (kept : ∀ {machine : Machine State Thread Task} {label thread handler body choice state calls},
      (system client Initial).Reachable guard machine → guard machine label → Root handler →
      label.thread ≠ thread → machine.executing label = some (body, choice) →
      client.exec label.thread body choice machine.client = some (state, calls) →
      Holds thread handler machine.client → Holds thread handler state)
    (reachable : (system client Initial).Reachable guard machine) {thread : Thread}
    {handler : Task} (root : Root handler) (called : .task handler ∈ machine.calls thread) :
    Holds thread handler machine.client := by
  have carries := roots.carries
  refine reachable.invariant (fun machine => ∀ thread handler, Root handler →
    .task handler ∈ machine.calls thread → Holds thread handler machine.client) ?_ ?_
    thread handler root called
  · rintro _ ⟨state, -, rfl⟩
    simp
  · intro machine label next reached holds admitted stepped thread handler root called
    have below : ∀ {mover : Thread} {first : Call Thread Task} {rest : List (Call Thread Task)},
        machine.calls mover = first :: rest →
        .task handler ∈ Function.update machine.calls mover rest thread →
          Holds thread handler machine.client := by
      intro mover first rest top member
      by_cases same : thread = mover
      · rw [same, Function.update_self] at member
        exact absurd member (root_not_below roots reached root top)
      · rw [Function.update_of_ne same] at member
        exact holds thread handler root member
    cases step_transition stepped with
    | @exec mover choice body rest state calls outside top executed =>
        by_cases same : thread = mover
        · subst same
          rw [setCalls_calls, Function.update_self] at called
          rcases List.mem_append.mp called with new | old
          · exact absurd root (roots.exec executed _ new)
          · exact absurd old (root_not_below roots reached root top)
        · rw [setCalls_calls, Function.update_of_ne same] at called
          refine kept reached admitted root (Ne.symm same) ?_ executed
            (holds thread handler root called)
          simp [executing, outside, top]
    | @runHere mover choice functor rest outside top =>
        have plain : ¬ Root functor := by
          rcases plain_or_single roots reached mover with plain | ⟨single, only⟩
          · exact plain (.runInLoop mover functor) (top ▸ List.mem_cons_self)
          · rw [top] at only
            cases only
        refine below top ?_
        by_cases same : thread = mover
        · subst same
          rw [setCalls_calls, Function.update_self] at called
          rw [Function.update_self]
          rcases List.mem_cons.mp called with first | old
          · cases first
            exact absurd root plain
          · exact old
        · rw [setCalls_calls, Function.update_of_ne same] at called
          rwa [Function.update_of_ne same]
    | post outside top => exact below top called
    | stop outside top => exact below top called
    | pushBack | wakeAfterPush | wakeAfterStop | enter => exact holds thread handler root called
    | @advance mover choice loop calls outside idle moves =>
        by_cases same : thread = mover
        · subst same
          rw [setCalls_calls, Function.update_self] at called
          cases moves with
          | channel phase =>
              cases List.mem_singleton.mp called
              have waits : .channel handler ∈ (machine.loops thread).actives := by
                simp [Loop.actives, phase]
              have now : Holds thread handler machine.client := active reached root waits
              exact now
          | begin phase =>
              cases List.mem_singleton.mp called
              exact absurd root ((reachable_carries carries reached).functors thread _
                (by simp [Loop.functors, phase]))
          | outside | release =>
              cases List.mem_singleton.mp called
              exact absurd root user
          | leave | iterate | poll | handled | wakeup | swap | batched | released | finish =>
              cases called
        · rw [setCalls_calls, Function.update_of_ne same] at called
          exact holds thread handler root called

/-- What holds of a handler when `Poll` returns it, and is kept by every step while
it waits, holds until it is called. `Poll` is called on an empty stack. -/
theorem reachable_actives (Holds : Thread → Task → State → Prop)
    (polled : ∀ {machine : Machine State Thread Task} {thread choice active handler},
      (system client Initial).Reachable guard machine → machine.calls thread = [] →
      client.poll thread choice machine.client = some active → .channel handler ∈ active →
        Holds thread handler machine.client)
    (kept : ∀ {machine next : Machine State Thread Task} {label thread handler},
      (system client Initial).Reachable guard machine → guard machine label →
      (system client Initial).step machine label = some next →
      .channel handler ∈ (machine.loops thread).actives →
      Holds thread handler machine.client → Holds thread handler next.client)
    (reachable : (system client Initial).Reachable guard machine) (thread : Thread)
    (handler : Task) (waits : .channel handler ∈ (machine.loops thread).actives) :
    Holds thread handler machine.client := by
  refine reachable.invariant (fun machine => ∀ thread handler,
    .channel handler ∈ (machine.loops thread).actives → Holds thread handler machine.client)
    ?_ ?_ thread handler waits
  · rintro _ ⟨state, -, rfl⟩
    simp [Loop.actives]
  · intro machine label next reached holds admitted stepped thread handler waits
    rcases (step_transition stepped).actives thread waits with
      old | ⟨choice, active, empty, returned, member, same⟩
    · exact kept reached admitted stepped old (holds thread handler old)
    · rw [same]
      exact polled reached empty returned member

end Machine

end Benet.EventLoop
