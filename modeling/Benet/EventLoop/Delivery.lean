import Benet.EventLoop.Liveness
import Benet.EventLoop.Stacks

/-!
# Every task in flight is executed eventually

A task waits on the stack of its thread, in a call that another thread has still to make, in
the queue of its loop or in the list of active channels. In a run in which all threads keep
moving and its loop is not stopped, it leaves each of these places for the next, and in the
end it is executed (`Machine.executed_eventually`).
-/

namespace Benet.EventLoop

open Semantics

variable {State Thread Task Choice : Type} [DecidableEq Thread]

namespace Machine

variable {client : Client State Thread Task Choice} {Initial : State → Prop}
  {guard : Machine State Thread Task → Label Thread Choice → Prop}
  {machine next : Machine State Thread Task} {label : Label Thread Choice}

/-- A thread takes calls off the top of its stack and puts those of the function there. -/
theorem Transition.stack (transition : Transition client machine label next) (thread : Thread) :
    next.calls thread = machine.calls thread ∨ machine.calls thread = [] ∨
      label.thread = thread ∧ ∃ top rest new,
        machine.calls thread = top :: rest ∧ next.calls thread = new ++ rest := by
  have update : ∀ (other : Thread) (new : List (Call Thread Task)) {top : Call Thread Task}
      {rest : List (Call Thread Task)}, machine.calls other = top :: rest →
        Function.update machine.calls other (new ++ rest) thread = machine.calls thread ∨
        machine.calls thread = [] ∨ other = thread ∧ ∃ top rest' new',
          machine.calls thread = top :: rest' ∧
            Function.update machine.calls other (new ++ rest) thread = new' ++ rest' := by
    intro other new top rest stack
    by_cases same : other = thread
    · subst same
      exact .inr (.inr ⟨rfl, top, rest, new, stack, by simp⟩)
    · exact .inl (by simp [Ne.symm same])
  cases transition with
  | exec _ top => exact update _ _ top
  | @runHere other choice functor rest _ top => exact update other [.task functor] top
  | post _ top | stop _ top => exact update _ [] top
  | pushBack | wakeAfterPush | wakeAfterStop | enter => exact .inl rfl
  | @advance other choice moved calls _ idle _ =>
      by_cases same : other = thread
      · subst same
        exact .inr (.inl idle)
      · exact .inl (by simp [Ne.symm same])

/-- A call is on top of a stack until it is made. -/
private theorem step_makes {call : Call Thread Task} {below : List (Call Thread Task)}
    (stepped : machine.step client label = some next)
    (stack : machine.calls label.thread = call :: below)
    (changed : next.calls label.thread ≠ call :: below) :
    machine.inside label.thread = none ∧ ∃ choice, label.action = .proceed choice ∧
      machine.call client label.thread choice below call = some next := by
  obtain ⟨thread, action⟩ := label
  unfold step at stepped
  simp only [stack] at stepped changed
  cases inside : machine.inside thread with
  | some point =>
      cases action with
      | start => simp [inside] at stepped
      | proceed choice =>
          simp only [inside, Option.some.injEq] at stepped
          subst stepped
          cases point <;> exact absurd stack changed
  | none =>
      cases action with
      | start => simp [inside] at stepped
      | proceed choice =>
          simp only [inside] at stepped
          exact ⟨rfl, choice, rfl, stepped⟩

/-- No other thread moves a thread inside a call. -/
theorem Transition.inside_other (transition : Transition client machine label next) {thread : Thread}
    (other : thread ≠ label.thread) : next.inside thread = machine.inside thread := by
  cases transition with
  | exec | runHere | advance | enter => rfl
  | post | stop | pushBack | wakeAfterPush | wakeAfterStop => exact Function.update_of_ne other _ _

/-- A thread is inside a call until it goes on. -/
private theorem step_resumes {thread : Thread} {point : Inside Thread Task}
    (stepped : machine.step client label = some next)
    (position : machine.inside thread = some point) (changed : next.inside thread ≠ some point) :
    next = machine.resume thread point := by
  by_cases same : thread = label.thread
  · obtain ⟨_, action⟩ := label
    subst same
    unfold step at stepped
    cases action with
    | start => simp [position] at stepped
    | proceed choice => simpa [position] using stepped.symm
  · exact absurd ((step_transition stepped).inside_other same ▸ position) changed

/-- A functor of the batch is called when it is started. -/
theorem Transition.started (transition : Transition client machine label next) (loop : Thread) :
    (next.loops loop).started = (machine.loops loop).started ∨
      ∃ pending, (next.loops loop).started = (machine.loops loop).started ++ [pending] ∧
        next.calls loop = [.task pending.functor] := by
  have update : ∀ (target : Thread) (change : Loop Thread Task → Loop Thread Task),
      (∀ loop, (change loop).started = loop.started) →
        (Function.update machine.loops target (change (machine.loops target)) loop).started =
          (machine.loops loop).started := by
    intro target change changed
    by_cases same : loop = target
    · subst same
      simpa using changed _
    · simp [same]
  cases transition with
  | exec | runHere | post => exact .inl rfl
  | stop | pushBack => exact .inl (update _ _ fun _ => rfl)
  | enter =>
      exact .inl (update _ (fun loop => { loop with phase := .head, running := true }) fun _ => rfl)
  | wakeAfterPush | wakeAfterStop =>
      exact .inl (update _ _ fun _ => by
        simp [Loop.wakeAfterPush, Loop.wakeAfterStop, Loop.wakeIf_eq])
  | @advance thread choice moved calls _ _ moves =>
      by_cases same : loop = thread
      · subst same
        cases moves with
        | @begin finished pending rest => exact .inr ⟨pending, by simp⟩
        | _ => exact .inl (by simp [Loop.resetWakeup, Loop.swapPendings])
      · exact .inl (by simp [same])

/-- A completed iteration ends at the head of the loop. -/
theorem Transition.head (transition : Transition client machine label next) {loop : Thread}
    (completed : (next.loops loop).iterations = (machine.loops loop).iterations + 1) :
    (next.loops loop).phase = .head := by
  have head : ∀ {user : Task} {polled : Option (List (Active Task))} {before after : Loop Thread Task}
      {calls : List (Call Thread Task)}, before.Moves user polled after calls →
        after.iterations = before.iterations + 1 → after.phase = .head := by
    intro user polled before after calls moves completed
    cases moves <;> first | rfl | simp [Loop.resetWakeup, Loop.swapPendings] at completed
  rcases transition.position loop with ⟨⟨-, same⟩, -⟩ | ⟨-, -, ⟨_, _, moves⟩ | ⟨-, head, -⟩⟩
  · omega
  · exact head moves completed
  · exact head

/-- The handler of an active channel is called when the channel is taken off the list. -/
theorem Transition.handles (transition : Transition client machine label next) (loop : Thread)
    {above below : List (Active Task)} {handler : Task}
    (listed : (machine.loops loop).phase = .events (above ++ .channel handler :: below)) :
    (∃ above, (next.loops loop).phase = .events (above ++ .channel handler :: below)) ∨
      next.calls loop = [.task handler] := by
  rcases transition.position loop with ⟨⟨phase, -⟩, -⟩ | ⟨scheduled, ⟨outside, idle⟩, moved⟩
  · exact .inl ⟨above, phase.trans listed⟩
  · cases transition with
    | exec _ top | runHere _ top | post _ top | stop _ top =>
        rw [← scheduled] at idle
        simp [idle] at top
    | pushBack inside | wakeAfterPush inside | wakeAfterStop inside =>
        rw [← scheduled] at outside
        simp [outside] at inside
    | enter _ _ phase =>
        rw [← scheduled] at listed
        simp [phase] at listed
    | @advance thread choice moved calls _ _ moves =>
        obtain rfl : thread = loop := scheduled
        cases above with
        | nil =>
            cases moves <;> simp_all
        | cons first above =>
            left
            refine ⟨above, ?_⟩
            cases moves <;> simp_all [Loop.resetWakeup]

/-- The thread executes the task at this point of the run. -/
def ExecutesAt (continuation : Continuation (system client Initial) guard) (index : Nat)
    (thread : Thread) (task : Task) : Prop :=
  (continuation.label index).thread = thread ∧
    ∃ choice, (continuation.state index).executing (continuation.label index) = some (task, choice)

section Places

variable {continuation : Continuation (system client Initial) guard} {thread loop : Thread}
  {first : Nat} {task : Task}

/-- A call on the stack of a thread that keeps moving comes to the top and is made. -/
theorem made_eventually (moving : KeepsMoving continuation thread) {call : Call Thread Task}
    (member : call ∈ (continuation.state first).calls thread) :
    ∃ index choice below, first ≤ index ∧ continuation.label index = ⟨thread, .proceed choice⟩ ∧
      (continuation.state index).inside thread = none ∧
      (continuation.state index).calls thread = call :: below ∧
      (continuation.state index).call client thread choice below call =
        some (continuation.state (index + 1)) := by
  obtain ⟨above, below, stack⟩ := List.append_of_mem member
  obtain ⟨later, since, -, -, empty⟩ := moving first
  -- the last moment at which the call is on the stack
  obtain ⟨index, after, ⟨above, stack⟩, lost⟩ := continuation.exists_loss since
    (fun machine => ∃ above, machine.calls thread = above ++ call :: below)
    ⟨above, stack⟩ (by rintro ⟨above, stack⟩; simp [empty] at stack)
  have transition := continuation.transition index
  rcases (step_transition transition).stack thread with
    same | none | ⟨scheduled, top, rest, new, before, result⟩
  · exact absurd ⟨above, same.trans stack⟩ lost
  · simp [none] at stack
  · cases above with
    | nil =>
        obtain ⟨outside, choice, action, made⟩ := step_makes transition (scheduled ▸ stack)
          (scheduled ▸ fun same => lost ⟨[], same⟩)
        subst scheduled
        refine ⟨index, choice, below, after, ?_, outside, stack, made⟩
        rw [← action]
    | cons first above =>
        obtain ⟨-, rfl⟩ : first = top ∧ above ++ call :: below = rest := by
          simpa [before] using stack.symm
        exact absurd ⟨new ++ above, by rw [result, List.append_assoc]⟩ lost

/-- A task on the stack is executed. -/
theorem executed_of_stack (moving : KeepsMoving continuation thread)
    (member : .task task ∈ (continuation.state first).calls thread) :
    ∃ index, first ≤ index ∧ ExecutesAt continuation index thread task := by
  obtain ⟨index, choice, below, since, label, outside, stack, -⟩ := made_eventually moving member
  refine ⟨index, since, by rw [label], choice, ?_⟩
  simp [executing, label, outside, stack]

/-- A functor that a thread is about to push is pushed. -/
theorem pushed_of_inside (moving : KeepsMoving continuation thread)
    (point : (continuation.state first).inside thread = some (.pushBack loop task)) :
    ∃ index, first ≤ index ∧
      ⟨thread, task⟩ ∈ ((continuation.state index).loops loop).pendings := by
  obtain ⟨later, since, -, outside, -⟩ := moving first
  obtain ⟨index, after, position, lost⟩ := continuation.exists_loss since
    (fun machine => machine.inside thread = some (.pushBack loop task)) point (by simp [outside])
  refine ⟨index + 1, by omega, ?_⟩
  rw [step_resumes (continuation.transition index) position lost]
  simp [resume, Loop.push]

/-- The functors that a loop starts are the pushed ones. -/
private theorem started_getElem (reachable : (system client Initial).Reachable guard machine)
    {index : Nat}
    (bound : index < (machine.loops loop).started.length) :
    (machine.loops loop).started[index]? = (machine.loops loop).pushed[index]? := by
  have law := (reachable_queueInvariant reachable).queue loop
  rw [← law.conserved, List.append_assoc, List.getElem?_append_left bound]

/-- A functor in the queue of a loop is executed. -/
theorem executed_of_functors
    (reachable : (system client Initial).Reachable guard (continuation.state 0))
    (moving : KeepsMoving continuation loop)
    (inStart : ((continuation.state first).loops loop).phase.InStart)
    (running : ∀ index, first ≤ index → ((continuation.state index).loops loop).quitting = false)
    {pending : Pending Thread Task}
    (member : pending ∈ ((continuation.state first).loops loop).functors) :
    ∃ index, first ≤ index ∧ ExecutesAt continuation index loop pending.functor := by
  have law := (reachable_queueInvariant (continuation.reachable reachable first)).queue loop
  -- its place among all pushes
  have queued : pending ∈ ((continuation.state first).loops loop).phase.unrun ++
      ((continuation.state first).loops loop).pendings := by
    unfold Loop.functors at member
    unfold Phase.unrun
    split at member <;> simp_all
  obtain ⟨place, bound, found⟩ := List.mem_iff_getElem.mp queued
  let position := ((continuation.state first).loops loop).started.length + place
  have pushed : ((continuation.state first).loops loop).pushed[position]? = some pending := by
    rw [← law.conserved, List.append_assoc, List.getElem?_append_right (Nat.le_add_right _ _),
      Nat.add_sub_cancel_left]
    exact List.getElem?_eq_some_iff.mpr ⟨bound, found⟩
  obtain ⟨later, since, all⟩ := started_eventually reachable moving inStart running
  obtain ⟨index, after, before, starts⟩ := continuation.exists_loss since
    (fun machine => (machine.loops loop).started.length ≤ position) (Nat.le_add_right _ _) (by
      have inRange := (List.getElem?_eq_some_iff.mp pushed).1
      have ran := all.length_le
      omega)
  -- the step that starts it calls it
  rcases (step_transition (continuation.transition index)).started loop with
    same | ⟨other, starting, calls⟩
  · rw [same] at starts
    exact absurd before starts
  · have last : ((continuation.state (index + 1)).loops loop).started[position]? = some other := by
      have length : ((continuation.state index).loops loop).started.length = position := by
        rw [starting, List.length_append, List.length_singleton] at starts
        omega
      rw [starting, ← length, List.getElem?_concat_length]
    have same : other = pending := by
      have bound := (List.getElem?_eq_some_iff.mp last).1
      rw [started_getElem (continuation.reachable reachable (index + 1)) bound] at last
      obtain ⟨labels, steps⟩ := continuation.steps (Nat.le_succ_of_le after)
      obtain ⟨new, grown⟩ := steps_loop_preserves (Loop.pushed_stable _) loop steps
        List.prefix_rfl
      rw [← grown, List.getElem?_append_left (List.getElem?_eq_some_iff.mp pushed).1, pushed] at last
      exact (Option.some.inj last).symm
    have onStack : .task pending.functor ∈ (continuation.state (index + 1)).calls loop := by
      rw [calls, same]
      exact List.mem_singleton_self _
    obtain ⟨final, thereafter, executed⟩ := executed_of_stack moving onStack
    exact ⟨final, by omega, executed⟩

/-- The handler of an active channel is executed. -/
theorem executed_of_actives (moving : KeepsMoving continuation loop)
    (member : .channel task ∈ ((continuation.state first).loops loop).actives) :
    ∃ index, first ≤ index ∧ ExecutesAt continuation index loop task := by
  obtain ⟨rest, phase, inRest⟩ : ∃ rest,
      ((continuation.state first).loops loop).phase = .events rest ∧ .channel task ∈ rest := by
    unfold Loop.actives at member
    split at member
    case h_1 rest phase => exact ⟨rest, phase, member⟩
    case h_2 => cases member
  obtain ⟨above, below, rfl⟩ := List.append_of_mem inRest
  have inStart : ((continuation.state first).loops loop).phase.InStart := by
    simp [phase, Phase.InStart]
  obtain ⟨later, since, completed⟩ := completes_or_returns moving inStart
  obtain ⟨index, after, ⟨above, listed⟩, lost⟩ := continuation.exists_loss
    (Nat.le_succ_of_le since)
    (fun machine => ∃ above, (machine.loops loop).phase = .events (above ++ .channel task :: below))
    ⟨above, phase⟩ (by
      rintro ⟨above, listed⟩
      rcases completed with completed | returned
      · simp [(step_transition (continuation.transition later)).head completed] at listed
      · simp [returned] at listed)
  have calls := ((step_transition (continuation.transition index)).handles loop listed).resolve_left
    lost
  have onStack : .task task ∈ (continuation.state (index + 1)).calls loop := by
    rw [calls]
    exact List.mem_singleton_self _
  obtain ⟨final, thereafter, executed⟩ := executed_of_stack moving onStack
  exact ⟨final, by omega, executed⟩

/-- In a run that goes on for ever and in which every thread keeps moving, every task for a
loop that is in `Start` and is not stopped is executed by the loop's thread, wherever it
waits now. -/
theorem executed_eventually [Fintype Thread]
    (reachable : (system client Initial).Reachable guard (continuation.state 0))
    (moving : ∀ thread, KeepsMoving continuation thread)
    (inStart : ((continuation.state first).loops loop).phase.InStart)
    (running : ∀ index, first ≤ index → ((continuation.state index).loops loop).quitting = false)
    (waits : (loop, task) ∈ (continuation.state first).flight) :
    ∃ index, first ≤ index ∧ ExecutesAt continuation index loop task := by
  -- once it is about to be pushed, it is pushed and waits in the queue
  have pushing : ∀ (thread : Thread) {index : Nat}, first ≤ index →
      (continuation.state index).inside thread = some (.pushBack loop task) →
      ∃ index, first ≤ index ∧ ExecutesAt continuation index loop task := by
    intro thread index since point
    obtain ⟨later, after, member⟩ := pushed_of_inside (moving thread) point
    have queued : ⟨thread, task⟩ ∈ ((continuation.state later).loops loop).functors := by
      unfold Loop.functors
      split
      · exact List.mem_append_right _ member
      · exact member
    obtain ⟨final, thereafter, executed⟩ := executed_of_functors reachable (moving loop)
      (stays_inStart inStart running (since.trans after))
      (fun index later => running index (by omega)) queued
    exact ⟨final, by omega, executed⟩
  cases waits_of_mem_flight waits with
  | @call thread call _ member carried =>
      obtain ⟨index, choice, below, since, label, outside, stack, made⟩ :=
        made_eventually (moving thread) member
      cases call with
      | task body =>
          obtain ⟨rfl, rfl⟩ : loop = thread ∧ task = body := by simpa [Call.flight] using carried
          exact executed_of_stack (moving loop) member
      | runInLoop target functor =>
          obtain ⟨rfl, rfl⟩ : loop = target ∧ task = functor := by
            simpa [Call.flight] using carried
          simp only [Machine.call] at made
          split at made
          case isTrue here =>
            subst here
            have onStack : .task task ∈ (continuation.state (index + 1)).calls thread := by
              rw [← Option.some.inj made]
              simp
            obtain ⟨final, thereafter, executed⟩ := executed_of_stack (moving thread) onStack
            exact ⟨final, by omega, executed⟩
          case isFalse =>
            refine pushing thread (Nat.le_succ_of_le since) ?_
            rw [← Option.some.inj made]
            simp
      | queueInLoop target functor =>
          obtain ⟨rfl, rfl⟩ : loop = target ∧ task = functor := by
            simpa [Call.flight] using carried
          refine pushing thread (Nat.le_succ_of_le since) ?_
          rw [← Option.some.inj made]
          simp
      | stop => cases Multiset.notMem_zero _ carried
  | inside point => exact pushing _ le_rfl point
  | functor member => exact executed_of_functors reachable (moving loop) inStart running member
  | active member => exact executed_of_actives (moving loop) member

/-- The life of a loop, for every program and every run that goes on for ever and in which all
threads keep moving. As long as it is not stopped, every task for it that is in flight is
executed by its thread; and when it is stopped, `Start` returns. -/
theorem loop_serves_until_stopped [Fintype Thread]
    (reachable : (system client Initial).Reachable guard (continuation.state 0))
    (moving : ∀ thread, KeepsMoving continuation thread)
    (inStart : ((continuation.state first).loops loop).phase.InStart) :
    ((∀ index, first ≤ index → ((continuation.state index).loops loop).quitting = false) →
      ∀ task, (loop, task) ∈ (continuation.state first).flight →
        ∃ index, first ≤ index ∧ ExecutesAt continuation index loop task) ∧
    (((continuation.state first).loops loop).quitting = true →
      ∃ index, first ≤ index ∧ ((continuation.state index).loops loop).phase = .returned) :=
  ⟨fun running _ waits => executed_eventually reachable moving inStart running waits,
    returns_eventually (moving loop) inStart⟩

end Places

section Lone

variable {client : Client State Unit Task Choice} {Initial : State → Prop}
  {guard : Machine State Unit Task → Label Unit Choice → Prop}
  {machine start finish : Machine State Unit Task} {labels : List (Label Unit Choice)}
  {choice : Choice}

/-- The only loop of a program goes round without anything to do. -/
structure Resting (machine : Machine State Unit Task) : Prop where
  quiet : machine.Quiet ()
  quitting : (machine.loops ()).quitting = false
  pendings : (machine.loops ()).pendings = []
  phase : (machine.loops ()).phase ∈
    [.head, .poll, .events [], .swap, .batch [] [], .release [], .finish]

/-- A loop at rest that polls nothing stays at rest. -/
theorem Resting.step (resting : machine.Resting)
    (polls : client.poll () choice machine.client = some []) :
    ∃ next, machine.step client ⟨(), .proceed choice⟩ = some next ∧
      next.Resting ∧ next.client = machine.client := by
  obtain ⟨⟨outside, idle⟩, quitting, pendings, phase⟩ := resting
  simp only [List.mem_cons, List.not_mem_nil, or_false] at phase
  rcases phase with phase | phase | phase | phase | phase | phase | phase
  all_goals
    simp only [Machine.step, outside, idle, polls, Loop.advance, phase, quitting]
    refine ⟨_, rfl, ⟨⟨outside, by simp⟩, ?_, ?_, ?_⟩, rfl⟩ <;>
      simp [quitting, pendings, Loop.swapPendings]

/-- An execution that ends at rest can be continued for ever. -/
theorem Resting.continues (resting : finish.Resting) (choice : Choice)
    (steps : (system client Initial).Steps guard start labels finish)
    (polls : client.poll () choice finish.client = some [])
    (admits : ∀ machine label, machine.executing label = none → guard machine label) :
    ∃ continuation : Continuation (system client Initial) guard, continuation.state 0 = start ∧
      (∀ thread, KeepsMoving continuation thread) ∧
      ∀ index, ((continuation.state index).loops ()).quitting = false := by
  let Goes (machine : Machine State Unit Task) (label : Label Unit Choice) : Prop :=
    label.thread = () ∧ machine.Resting
  have rests : ∃ continuation : Continuation (system client Initial) guard,
      continuation.state 0 = finish ∧ ∀ index,
        Goes (continuation.state index) (continuation.label index) ∧
          (continuation.state index).Resting ∧
            (continuation.state index).client = finish.client := by
    refine Continuation.exists_forever
      (fun machine : Machine State Unit Task => machine.Resting ∧ machine.client = finish.client)
      Goes ?_ ⟨resting, rfl⟩
    rintro machine ⟨resting, same⟩
    obtain ⟨next, stepped, rests, kept⟩ := resting.step (same ▸ polls)
    refine ⟨_, next, admits _ _ ?_, stepped, ⟨rfl, resting⟩, rests, kept.trans same⟩
    simp [executing, resting.quiet.1, resting.quiet.2]
  obtain ⟨rest, begins, always⟩ := rests
  obtain ⟨continuation, begins, often⟩ := Continuation.exists_of_steps
    Goes steps ⟨rest, begins, fun index => ⟨index, le_rfl, (always index).1⟩⟩
  refine ⟨continuation, begins, fun thread index => ?_, fun index => ?_⟩
  · obtain ⟨later, since, scheduled, resting⟩ := often index
    exact ⟨later, since, scheduled, resting.quiet⟩
  · -- a loop that was stopped would not come to rest again
    obtain ⟨later, since, -, resting⟩ := often index
    obtain ⟨labels, steps⟩ := continuation.steps since
    by_contra stopped
    have kept := steps_loop_preserves Loop.quitting_stable () steps (by simpa using stopped)
    simp [resting.quitting] at kept

/-- A program with one thread, whose functions make the calls that the schedule says. -/
abbrev loneSystem : LabelledSystem (Machine Unit Unit Nat) (Label Unit (FreeChoice Unit Nat)) :=
  system (Client.free 0) fun _ => True

/-- A program with one thread queues the functor `7` and enters `Start`. -/
def queueAndStart : List (Label Unit (FreeChoice Unit Nat)) :=
  [.calls () [], .calls () [.queueInLoop () 7], .calls () [], .calls () [], .calls () [],
    ⟨(), .start⟩]

/-- Then it goes on by itself. -/
def runsAlone : List (Label Unit (FreeChoice Unit Nat)) := List.replicate 12 (.calls () [])

/-- A functor that is queued before `Start` is executed in a run that goes on for ever. -/
theorem loop_serves_until_stopped_queueAndStart :
    ∃ continuation : Continuation loneSystem LabelledSystem.unguarded,
      ((), 7) ∈ (continuation.state 0).flight ∧ ∃ index, ExecutesAt continuation index () 7 := by
  let start := (loneSystem.run LabelledSystem.unguarded { client := () } queueAndStart).get
    (by decide)
  let finish := (loneSystem.run LabelledSystem.unguarded start runsAlone).get (by decide)
  have reachable : loneSystem.Reachable LabelledSystem.unguarded start :=
    LabelledSystem.run_reachable ⟨(), trivial, rfl⟩ (Option.some_get _).symm
  have steps : loneSystem.Steps LabelledSystem.unguarded start runsAlone finish :=
    LabelledSystem.run_steps (Option.some_get _).symm
  have resting : finish.Resting := ⟨⟨by decide, by decide⟩, by decide, by decide, by decide⟩
  obtain ⟨continuation, begins, moving, running⟩ :=
    resting.continues ([], []) steps rfl fun _ _ _ => trivial
  have waits : ((), 7) ∈ (continuation.state 0).flight := by
    rw [begins]
    decide
  have inStart : ((continuation.state 0).loops ()).phase.InStart := by
    rw [begins]
    exact ⟨by decide, by decide⟩
  obtain ⟨index, -, executed⟩ :=
    (loop_serves_until_stopped (begins ▸ reachable) moving inStart).1 (fun index _ => running index)
      7 waits
  exact ⟨continuation, waits, index, executed⟩

end Lone

end Machine

end Benet.EventLoop
