import Benet.EventLoop.FunctorQueue
import Benet.EventLoop.Urgent

/-!
# Functor objects

A functor that was passed to `RunInLoop` or `QueueInLoop` is an object, and what it has
captured lives as long as it does: in the argument of the call, in `pendings_`, and in
`tmp_pendings` until the vector is destroyed after the last functor has returned.
`Machine.objects` lists these objects. A transition makes new ones only by executing a
task that passes them on (`Machine.Transition.hasObject`). What is executed from a queue was
posted by its poster (`Machine.RunsQueued.posted`).
-/

namespace Benet.EventLoop

variable {State Thread Task Choice : Type}

/-- The functor that the call passes on. -/
def Call.functor : Call Thread Task → Option Task
  | .runInLoop _ functor | .queueInLoop _ functor => some functor
  | .task _ | .stop _ => none

/-- The functor that is about to be pushed. -/
def Inside.objects : Option (Inside Thread Task) → List Task
  | some (.pushBack _ functor) => [functor]
  | _ => []

/-- The functors in `tmp_pendings`, with those that have run. -/
def Phase.objects : Phase Thread Task → List Task
  | .batch finished rest => (finished ++ rest).map Pending.functor
  | .release rest => rest.map Pending.functor
  | _ => []

def Loop.objects (loop : Loop Thread Task) : List Task :=
  loop.pendings.map Pending.functor ++ loop.phase.objects

/-- All functors of `pendings_` and `tmp_pendings` have been pushed. -/
structure Loop.HoldsPushed (loop : Loop Thread Task) : Prop where
  pendings : ∀ pending ∈ loop.pendings, pending ∈ loop.pushed
  batch : ∀ finished rest, loop.phase = .batch finished rest →
    ∀ pending ∈ finished ++ rest, pending ∈ loop.pushed

/-- Every functor of a loop has been pushed, whatever the loop does. -/
theorem Loop.HoldsPushed.stable (user : Task) :
    Loop.Stable user fun loop : Loop Thread Task => loop.HoldsPushed where
  quit law := ⟨law.pendings, law.batch⟩
  push pending law := by
    refine ⟨fun other member => ?_, fun finished rest phase other member => ?_⟩
    · simp only [Loop.push, List.mem_append] at member ⊢
      exact member.imp_left (law.pendings other)
    · exact List.mem_append.mpr (.inl (law.batch finished rest phase other member))
  wake needed law := by
    rw [Loop.wakeIf_eq]
    exact ⟨law.pendings, law.batch⟩
  moves law moves := by
    cases moves with
    | outside => exact law
    | swap => exact ⟨by simp [Loop.swapPendings], by simpa [Loop.swapPendings] using law.pendings⟩
    | begin phase =>
        exact ⟨law.pendings, by simpa [or_assoc] using law.batch _ _ phase⟩
    | leave | iterate | poll | handled | wakeup | channel | batched | released | release
    | finish => exact ⟨law.pendings, by simp⟩
  enter law _ := ⟨law.pendings, by simp⟩

namespace Machine

/-- The functor objects of a thread and of its loop. -/
def objects (machine : Machine State Thread Task) (thread : Thread) : List Task :=
  (machine.calls thread).filterMap Call.functor ++ Inside.objects (machine.inside thread) ++
    (machine.loops thread).objects

/-- Some thread has this functor. -/
def HasObject (machine : Machine State Thread Task) (functor : Task) : Prop :=
  ∃ thread, functor ∈ machine.objects thread

/-- The loop of `thread` has taken this functor from its queue and executes it next. -/
def RunsQueued (machine : Machine State Thread Task) (thread : Thread)
    (pending : Pending Thread Task) : Prop :=
  machine.inside thread = none ∧ machine.calls thread = [.task pending.functor] ∧
    ∃ finished rest, (machine.loops thread).phase = .batch (finished ++ [pending]) rest

variable {machine next : Machine State Thread Task} {thread : Thread} {functor : Task}

/-- Where a thread has functor objects. -/
theorem mem_objects : functor ∈ machine.objects thread ↔
    (∃ call ∈ machine.calls thread, call.functor = some functor) ∨
      functor ∈ Inside.objects (machine.inside thread) ∨
        functor ∈ (machine.loops thread).objects := by
  simp only [objects, List.mem_append, List.mem_filterMap, or_assoc]

/-- A functor that is executed from the queue is not destroyed yet. -/
theorem RunsQueued.mem_objects {pending : Pending Thread Task}
    (runs : machine.RunsQueued thread pending) : pending.functor ∈ machine.objects thread := by
  obtain ⟨-, -, finished, rest, phase⟩ := runs
  refine Machine.mem_objects.mpr (.inr (.inr ?_))
  simp [Loop.objects, phase, Phase.objects]

variable [DecidableEq Thread]

/-- A functor that is executed from the queue was posted by its poster. -/
theorem RunsQueued.posted {client : Client State Thread Task Choice} {Initial : State → Prop}
    {guard : Machine State Thread Task → Label Thread Choice → Prop}
    (reachable : (system client Initial).Reachable guard machine) {pending : Pending Thread Task}
    (runs : machine.RunsQueued thread pending) :
    pending.functor ∈ machine.posted pending.poster thread := by
  have law : ∀ loop, (machine.loops loop).HoldsPushed := by
    refine reachable.invariant (fun machine => ∀ loop, (machine.loops loop).HoldsPushed) ?_ ?_
    · rintro _ ⟨state, -, rfl⟩ loop
      exact ⟨by simp, by simp⟩
    · intro machine label next _ law _ stepped loop
      exact (step_transition stepped).loop_preserves (Loop.HoldsPushed.stable client.user) loop
        (law loop)
  obtain ⟨-, -, finished, rest, phase⟩ := runs
  exact (reachable_queueInvariant reachable).posted_of_pushed
    ((law thread).batch _ _ phase pending (by simp))

private theorem hasObject_setCalls {stack : List (Call Thread Task)}
    (has : (machine.setCalls thread stack).HasObject functor) :
    (∃ call ∈ stack, call.functor = some functor) ∨ machine.HasObject functor := by
  obtain ⟨owner, member⟩ := has
  rcases mem_objects.mp member with inCalls | elsewhere
  · rcases (Function.exists_update_iff machine.calls fun _ calls =>
      ∃ call ∈ calls, call.functor = some functor).mp ⟨owner, inCalls⟩ with new | ⟨other, -, old⟩
    · exact .inl new
    · exact .inr ⟨other, mem_objects.mpr (.inl old)⟩
  · exact .inr ⟨owner, mem_objects.mpr (.inr elsewhere)⟩

private theorem hasObject_setInside {point : Option (Inside Thread Task)}
    (has : (machine.setInside thread point).HasObject functor) :
    functor ∈ Inside.objects point ∨ machine.HasObject functor := by
  obtain ⟨owner, member⟩ := has
  rcases mem_objects.mp member with inCalls | inside | waiting
  · exact .inr ⟨owner, mem_objects.mpr (.inl inCalls)⟩
  · rcases (Function.exists_update_iff machine.inside fun _ point =>
      functor ∈ Inside.objects point).mp ⟨owner, inside⟩ with new | ⟨other, -, old⟩
    · exact .inl new
    · exact .inr ⟨other, mem_objects.mpr (.inr (.inl old))⟩
  · exact .inr ⟨owner, mem_objects.mpr (.inr (.inr waiting))⟩

private theorem hasObject_modifyLoop {loop : Thread} {change : Loop Thread Task → Loop Thread Task}
    (has : (machine.modifyLoop loop change).HasObject functor) :
    functor ∈ (change (machine.loops loop)).objects ∨ machine.HasObject functor := by
  obtain ⟨owner, member⟩ := has
  rcases mem_objects.mp member with inCalls | inside | waiting
  · exact .inr ⟨owner, mem_objects.mpr (.inl inCalls)⟩
  · exact .inr ⟨owner, mem_objects.mpr (.inr (.inl inside))⟩
  · rcases (Function.exists_update_iff machine.loops fun _ loop => functor ∈ loop.objects).mp
      ⟨owner, waiting⟩ with new | ⟨other, -, old⟩
    · exact .inl new
    · exact .inr ⟨other, mem_objects.mpr (.inr (.inr old))⟩

private theorem hasObject_enterQueueInLoop {loop : Thread} {posted : Task}
    (has : (machine.enterQueueInLoop thread loop posted).HasObject functor) :
    functor = posted ∨ machine.HasObject functor := by
  have entered : (machine.setInside thread (some (.pushBack loop posted))).HasObject functor := has
  exact (hasObject_setInside entered).imp_left List.mem_singleton.mp

omit [DecidableEq Thread] in
/-- A functor of one of its calls or of its loop is a functor of the thread. -/
theorem hasObject_call {call : Call Thread Task} (member : call ∈ machine.calls thread)
    (passes : call.functor = some functor) : machine.HasObject functor :=
  ⟨thread, mem_objects.mpr (.inl ⟨call, member, passes⟩)⟩

omit [DecidableEq Thread] in
/-- The objects of a loop are objects of the machine. -/
theorem hasObject_loop (member : functor ∈ (machine.loops thread).objects) :
    machine.HasObject functor :=
  ⟨thread, mem_objects.mpr (.inr (.inr member))⟩

end Machine

/-- A loop thread moves functors from `pendings_` to `tmp_pendings` and destroys them; it
makes none. -/
theorem Loop.Moves.mem_objects {user functor : Task} {polled : Option (List (Active Task))}
    {loop next : Loop Thread Task} {calls : List (Call Thread Task)}
    (moves : loop.Moves user polled next calls) (member : functor ∈ next.objects) :
    functor ∈ loop.objects := by
  cases moves with
  | outside => exact member
  | leave phase | iterate phase | poll phase | handled phase | wakeup phase | channel phase
  | swap phase | batched phase | begin phase | released phase | finish phase =>
      simpa [Loop.objects, Loop.swapPendings, Loop.resetWakeup, Phase.objects, phase] using member
  | release phase =>
      simp only [Loop.objects, Phase.objects, phase, List.mem_append, List.map_cons,
        List.mem_cons] at member ⊢
      exact member.imp_right .inr

/-- No call that `Start` makes itself has a functor as its argument. -/
theorem Loop.Moves.functor_eq_none {user : Task} {polled : Option (List (Active Task))}
    {loop next : Loop Thread Task} {calls : List (Call Thread Task)} {call : Call Thread Task}
    (moves : loop.Moves user polled next calls) (member : call ∈ calls) : call.functor = none := by
  cases moves <;> simp_all [Call.functor]

namespace Machine

variable [DecidableEq Thread] {client : Client State Thread Task Choice}
  {machine next : Machine State Thread Task} {functor : Task}

/-- After a transition a functor was there before, or the transition has executed a task
that passes it on. -/
theorem Transition.hasObject {label : Label Thread Choice}
    (transition : Transition client machine label next) (has : next.HasObject functor) :
    machine.HasObject functor ∨ ∃ body choice calls, machine.executing label = some (body, choice) ∧
      client.exec label.thread body choice machine.client = some (next.client, calls) ∧
      ∃ call ∈ calls, call.functor = some functor := by
  cases transition with
  | @exec thread choice body rest state calls outside top executed =>
      rcases hasObject_setCalls has with ⟨call, member, passes⟩ | before
      · rcases List.mem_append.mp member with made | waiting
        · exact .inr ⟨body, choice, calls, by simp [executing, outside, top], executed, call, made,
            passes⟩
        · exact .inl (hasObject_call (top ▸ List.mem_cons_of_mem _ waiting) passes)
      · exact .inl before
  | @runHere thread choice posted rest outside top =>
      refine .inl ?_
      rcases hasObject_setCalls has with ⟨call, member, passes⟩ | before
      · rcases List.mem_cons.mp member with rfl | waiting
        · cases passes
        · exact hasObject_call (top ▸ List.mem_cons_of_mem _ waiting) passes
      · exact before
  | @post thread choice loop posted call rest outside top posts =>
      refine .inl ?_
      rcases hasObject_enterQueueInLoop has with rfl | before
      · refine hasObject_call (top ▸ List.mem_cons_self) ?_
        rcases posts with ⟨rfl, -⟩ | rfl <;> rfl
      · rcases hasObject_setCalls before with ⟨call, member, passes⟩ | before
        · exact hasObject_call (top ▸ List.mem_cons_of_mem _ member) passes
        · exact before
  | @stop thread choice loop rest outside top =>
      refine .inl ?_
      rcases hasObject_setInside has with new | before
      · cases new
      · rcases hasObject_modifyLoop before with waiting | before
        · exact hasObject_loop waiting
        · rcases hasObject_setCalls before with ⟨call, member, passes⟩ | before
          · exact hasObject_call (top ▸ List.mem_cons_of_mem _ member) passes
          · exact before
  | @pushBack thread choice loop posted inside =>
      refine .inl ?_
      rcases hasObject_setInside has with new | before
      · cases new
      · rcases hasObject_modifyLoop before with waiting | before
        · simp only [Loop.objects, Loop.push, List.map_append, List.map_cons, List.map_nil,
            List.append_assoc, List.mem_append, List.mem_singleton] at waiting
          rcases waiting with pending | rfl | taken
          · exact hasObject_loop (List.mem_append.mpr (.inl pending))
          · exact ⟨thread, mem_objects.mpr (.inr (.inl (by simp [inside, Inside.objects])))⟩
          · exact hasObject_loop (List.mem_append.mpr (.inr taken))
        · exact before
  | @wakeAfterPush thread choice loop inside | @wakeAfterStop thread choice loop inside =>
      refine .inl ?_
      rcases hasObject_setInside has with new | before
      · cases new
      · rcases hasObject_modifyLoop before with waiting | before
        · simp only [Loop.wakeAfterPush, Loop.wakeAfterStop, Loop.wakeIf_eq] at waiting
          exact hasObject_loop waiting
        · exact before
  | @advance thread choice loop calls outside idle moves =>
      refine .inl ?_
      rcases hasObject_setCalls has with ⟨call, member, passes⟩ | before
      · rw [moves.functor_eq_none member] at passes
        cases passes
      · rcases hasObject_modifyLoop before with waiting | before
        · exact hasObject_loop (moves.mem_objects waiting)
        · exact before
  | @enter thread outside idle phase =>
      refine .inl ?_
      rcases hasObject_modifyLoop has with waiting | before
      · have kept : functor ∈ (machine.loops thread).objects := by
          simpa [Loop.objects, Phase.objects, phase] using waiting
        exact hasObject_loop kept
      · exact before

end Machine

end Benet.EventLoop
