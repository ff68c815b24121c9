import Benet.EventLoop.Transition

/-!
# The functor queue runs everything once and in order

`pendings_` and `tmp_pendings` together are one first-in first-out queue: what
has been started, what the current batch has still to run and what waits in
`pendings_` is always the sequence of pushes. `Loop.QueueLaw` is the part of
this that concerns one loop; `Machine.PostLaw` relates the pushes to the program
order of each posting thread.
-/

namespace Benet.EventLoop

open Semantics

variable {State Thread Task Choice : Type}

/-- The functors of `tmp_pendings` that have not been started. -/
def Phase.unrun : Phase Thread Task → List (Pending Thread Task)
  | .batch _ rest => rest
  | _ => []

/-- The queue of one loop: nothing is lost, duplicated or reordered, and the
batch holds exactly the pushes made between the last two swaps. -/
structure Loop.QueueLaw (loop : Loop Thread Task) : Prop where
  conserved : loop.started ++ loop.phase.unrun ++ loop.pendings = loop.pushed
  batch : (loop.started ++ loop.phase.unrun).length = loop.swapped

namespace Loop.QueueLaw

variable {loop next : Loop Thread Task}

/-- A new loop obeys the law. -/
theorem initial : ({} : Loop Thread Task).QueueLaw := ⟨rfl, rfl⟩

/-- Only the queue fields and the unrun part of the batch matter. -/
theorem congr (law : loop.QueueLaw) (started : next.started = loop.started)
    (unrun : next.phase.unrun = loop.phase.unrun) (pendings : next.pendings = loop.pendings)
    (pushed : next.pushed = loop.pushed) (swapped : next.swapped = loop.swapped) :
    next.QueueLaw := by
  constructor
  · rw [started, unrun, pendings, pushed]
    exact law.conserved
  · rw [started, unrun, swapped]
    exact law.batch

/-- A push keeps the law. -/
theorem push (law : loop.QueueLaw) (pending : Pending Thread Task) :
    (loop.push pending).QueueLaw := by
  refine ⟨?_, law.batch⟩
  simp only [Loop.push]
  rw [← List.append_assoc, law.conserved]

/-- A wakeup keeps the law. -/
theorem wakeIf (law : loop.QueueLaw) (needed : Bool) : (loop.wakeIf needed).QueueLaw := by
  rw [Loop.wakeIf_eq]
  exact law.congr rfl rfl rfl rfl rfl

/-- Every move of the loop thread keeps the queue. Only the swap and the start
of a functor touch it. -/
theorem moves (law : loop.QueueLaw) {user : Task} {polled : Option (List (Active Task))}
    {calls : List (Call Thread Task)} (moves : loop.Moves user polled next calls) :
    next.QueueLaw := by
  cases moves with
  | outside => exact law
  | swap phase =>
      -- No batch is being run at the swap, so all that was pushed before the
      -- pending functors has been started.
      have conserved := law.conserved
      have batch := law.batch
      simp only [phase, Phase.unrun, List.append_nil] at conserved batch
      refine ⟨?_, ?_⟩
      · simpa [Loop.swapPendings, Phase.unrun] using conserved
      · simp only [Loop.swapPendings, Phase.unrun]
        rw [conserved]
  | begin phase =>
      have conserved := law.conserved
      have batch := law.batch
      simp only [phase, Phase.unrun] at conserved batch
      refine ⟨?_, ?_⟩
      · simpa [Phase.unrun, List.append_assoc] using conserved
      · simpa [Phase.unrun, List.append_assoc, Nat.add_comm, Nat.add_left_comm] using batch
  | leave phase | iterate phase | poll phase | handled phase | wakeup phase | channel phase
  | batched phase | released phase | release phase | finish phase =>
      exact law.congr rfl (by simp [phase, Phase.unrun]) rfl rfl rfl

/-- Nothing that happens to a loop breaks its queue. -/
theorem stable (user : Task) : Loop.Stable user fun loop : Loop Thread Task => loop.QueueLaw where
  quit law := law.congr rfl rfl rfl rfl rfl
  push pending law := law.push pending
  wake needed law := law.wakeIf needed
  moves law moves := law.moves moves
  enter law phase := law.congr rfl (by simp [phase, Phase.unrun]) rfl rfl rfl

end Loop.QueueLaw

/-- No move of a loop thread pushes a functor. -/
theorem Loop.Moves.pushed {user : Task} {polled : Option (List (Active Task))}
    {loop next : Loop Thread Task} {calls : List (Call Thread Task)}
    (moves : loop.Moves user polled next calls) : next.pushed = loop.pushed := by
  cases moves <;> rfl

/-- A wakeup pushes nothing. -/
theorem Loop.wakeIf_pushed (needed : Bool) (loop : Loop Thread Task) :
    (loop.wakeIf needed).pushed = loop.pushed := by
  rw [Loop.wakeIf_eq]

variable [DecidableEq Thread]

namespace Machine

/-- The functor that a thread is about to push to `loop`. -/
def entering (machine : Machine State Thread Task) (thread loop : Thread) : List Task :=
  match machine.inside thread with
  | some (.pushBack target functor) => if target = loop then [functor] else []
  | _ => []

/-- The functors of a list that `thread` posted. -/
def postedBy (thread : Thread) (pendings : List (Pending Thread Task)) : List Task :=
  (pendings.filter fun pending => pending.poster = thread).map Pending.functor

/-- What a thread has posted in two parts. -/
theorem postedBy_append (thread : Thread) (first second : List (Pending Thread Task)) :
    postedBy thread (first ++ second) = postedBy thread first ++ postedBy thread second := by
  simp [postedBy]

/-- A thread's pushes to a loop are its postings to it, in program order, up to
the one it is in the middle of. -/
def PostLaw (machine : Machine State Thread Task) : Prop :=
  ∀ thread loop,
    postedBy thread (machine.loops loop).pushed ++ machine.entering thread loop =
      machine.posted thread loop

/-- Both laws as one property of a machine. -/
structure QueueInvariant (machine : Machine State Thread Task) : Prop where
  queue : ∀ loop, (machine.loops loop).QueueLaw
  posts : machine.PostLaw

namespace PostLaw

variable {machine next : Machine State Thread Task}

/-- Only the pushes, the points inside `QueueInLoop` and the postings matter. -/
theorem congr (law : machine.PostLaw)
    (pushed : ∀ loop, (next.loops loop).pushed = (machine.loops loop).pushed)
    (entering : ∀ thread loop, next.entering thread loop = machine.entering thread loop)
    (posted : next.posted = machine.posted) : next.PostLaw := by
  intro thread loop
  rw [pushed, entering, posted]
  exact law thread loop

/-- A thread outside `QueueInLoop` is about to push nothing. -/
theorem entering_of_ne {machine : Machine State Thread Task} {thread : Thread}
    (other : ∀ loop functor, machine.inside thread ≠ some (.pushBack loop functor))
    (loop : Thread) : machine.entering thread loop = [] := by
  unfold entering
  split
  case h_1 target functor inside => exact absurd inside (other target functor)
  case h_2 => rfl

/-- Entering `QueueInLoop` posts the functor that is now about to be pushed. -/
theorem enterQueueInLoop (law : machine.PostLaw) {thread : Thread}
    (outside : machine.inside thread = none) (loop : Thread) (functor : Task) :
    (machine.enterQueueInLoop thread loop functor).PostLaw := by
  intro poster target
  have before := law poster target
  by_cases samePoster : poster = thread
  · subst samePoster
    have nothing : machine.entering poster target = [] :=
      entering_of_ne (by simp [outside]) target
    rw [nothing, List.append_nil] at before
    by_cases sameLoop : target = loop
    · subst sameLoop
      simp [entering, before]
    · simp [entering, before, sameLoop, Ne.symm sameLoop]
  · simpa [entering, samePoster] using before

/-- The push moves the functor from the thread to the end of the queue. -/
theorem pushBack (law : machine.PostLaw) {thread loop : Thread} {functor : Task}
    (inside : machine.inside thread = some (.pushBack loop functor)) :
    ((machine.modifyLoop loop (Loop.push ⟨thread, functor⟩)).setInside thread
      (some (.wakeAfterPush loop))).PostLaw := by
  intro poster target
  have before := law poster target
  by_cases samePoster : poster = thread
  · subst samePoster
    by_cases sameLoop : target = loop
    · subst sameLoop
      simp only [entering, inside, if_true] at before
      simpa [entering, Loop.push, postedBy] using before
    · simp only [entering, inside, Ne.symm sameLoop, if_false] at before
      simpa [entering, Function.update_of_ne sameLoop] using before
  · have otherPoster : ¬ thread = poster := fun same => samePoster same.symm
    by_cases sameLoop : target = loop
    · subst sameLoop
      simpa [entering, Loop.push, postedBy, samePoster, otherPoster] using before
    · simpa [entering, Function.update_of_ne sameLoop, samePoster] using before

/-- Moving a thread between points that are not before a push changes nothing. -/
theorem setInside (law : machine.PostLaw) {thread : Thread} {point : Option (Inside Thread Task)}
    (before : ∀ loop functor, machine.inside thread ≠ some (.pushBack loop functor))
    (after : ∀ loop functor, point ≠ some (.pushBack loop functor)) :
    (machine.setInside thread point).PostLaw := by
  refine law.congr (fun _ => rfl) (fun poster loop => ?_) rfl
  by_cases same : poster = thread
  · subst same
    rw [entering_of_ne before, entering_of_ne (by simpa using after)]
  · simp [entering, same]

/-- A change of a loop that pushes nothing changes nothing. -/
theorem modifyLoop (law : machine.PostLaw) {loop : Thread}
    {change : Loop Thread Task → Loop Thread Task}
    (pushed : (change (machine.loops loop)).pushed = (machine.loops loop).pushed) :
    (machine.modifyLoop loop change).PostLaw := by
  refine law.congr (fun other => ?_) (fun _ _ => rfl) rfl
  by_cases same : other = loop
  · subst same
    simpa using pushed
  · simp [Function.update_of_ne same]

/-- Every transition keeps the program order of every thread. -/
theorem preserved (law : machine.PostLaw) {client : Client State Thread Task Choice}
    {label : Label Thread Choice} (transition : Transition client machine label next) :
    next.PostLaw := by
  cases transition with
  | exec => exact law.congr (fun _ => rfl) (fun _ _ => rfl) rfl
  | runHere => exact law.congr (fun _ => rfl) (fun _ _ => rfl) rfl
  | @post thread _ loop functor _ rest outside =>
      have calls : (machine.setCalls thread rest).PostLaw :=
        law.congr (fun _ => rfl) (fun _ _ => rfl) rfl
      exact calls.enterQueueInLoop outside loop functor
  | @stop thread _ loop rest outside =>
      have calls : (machine.setCalls thread rest).PostLaw :=
        law.congr (fun _ => rfl) (fun _ _ => rfl) rfl
      exact (calls.modifyLoop rfl).setInside (by simp [outside]) (by simp)
  | pushBack inside => exact law.pushBack inside
  | wakeAfterPush inside | wakeAfterStop inside =>
      exact (law.modifyLoop (Loop.wakeIf_pushed _ _)).setInside (by simp [inside]) (by simp)
  | @advance thread _ loop calls _ _ moves =>
      have moved : (machine.modifyLoop thread fun _ => loop).PostLaw :=
        law.modifyLoop moves.pushed
      exact moved.congr (fun _ => rfl) (fun _ _ => rfl) rfl
  | enter => exact law.modifyLoop rfl

end PostLaw

/-- Every transition keeps both laws. -/
theorem QueueInvariant.preserved {client : Client State Thread Task Choice}
    {machine next : Machine State Thread Task} {label : Label Thread Choice}
    (holds : machine.QueueInvariant) (transition : Transition client machine label next) :
    next.QueueInvariant := by
  refine ⟨fun loop => ?_, holds.posts.preserved transition⟩
  exact transition.loop_preserves (Loop.QueueLaw.stable client.user) loop (holds.queue loop)

/-- Both laws hold in every reachable state of every client's machine. -/
theorem reachable_queueInvariant {client : Client State Thread Task Choice}
    {Initial : State → Prop} {guard : Machine State Thread Task → Label Thread Choice → Prop}
    {machine : Machine State Thread Task}
    (reachable : (system client Initial).Reachable guard machine) : machine.QueueInvariant := by
  refine reachable.invariant QueueInvariant (fun _ initial => ?_) fun _ _ _ _ holds _ stepped =>
    holds.preserved (step_transition stepped)
  obtain ⟨state, _, rfl⟩ := initial
  exact ⟨fun _ => Loop.QueueLaw.initial, fun _ _ => rfl⟩

/-- A functor that was pushed to a loop was posted to it. -/
theorem QueueInvariant.posted_of_pushed {machine : Machine State Thread Task}
    (law : machine.QueueInvariant) {loop : Thread} {pending : Pending Thread Task}
    (pushed : pending ∈ (machine.loops loop).pushed) :
    pending.functor ∈ machine.posted pending.poster loop := by
  rw [← law.posts pending.poster loop]
  refine List.mem_append.mpr (.inl (List.mem_map_of_mem ?_))
  exact List.mem_filter.mpr ⟨pushed, by simp⟩

/-- What holds of each call that posts a functor holds of all functors that were ever posted. -/
theorem reachable_posted {client : Client State Thread Task Choice} {Initial : State → Prop}
    {guard : Machine State Thread Task → Label Thread Choice → Prop}
    {machine : Machine State Thread Task} {Posted : Thread → Thread → Task → Prop}
    (posts : ∀ {machine : Machine State Thread Task} {thread call rest loop functor},
      (system client Initial).Reachable guard machine → machine.calls thread = call :: rest →
      (call = .runInLoop loop functor ∧ thread ≠ loop ∨ call = .queueInLoop loop functor) →
        Posted thread loop functor)
    (reachable : (system client Initial).Reachable guard machine) :
    ∀ thread loop, ∀ functor ∈ machine.posted thread loop, Posted thread loop functor := by
  refine reachable.invariant (fun machine =>
    ∀ thread loop, ∀ functor ∈ machine.posted thread loop, Posted thread loop functor) ?_ ?_
  · rintro _ ⟨state, -, rfl⟩
    simp
  · intro machine label next reached posted _ stepped
    cases step_transition stepped with
    | @post thread choice loop functor call rest outside top called =>
        refine (Function.forall_update_iff _ fun thread (functors : Thread → List Task) =>
          ∀ loop, ∀ functor ∈ functors loop, Posted thread loop functor).mpr
            ⟨?_, fun other _ => posted other⟩
        refine (Function.forall_update_iff _ fun loop (functors : List Task) =>
          ∀ functor ∈ functors, Posted thread loop functor).mpr ⟨?_, fun other _ => posted thread other⟩
        intro other member
        rcases List.mem_append.mp member with old | new
        · exact posted thread loop other old
        · obtain rfl := List.mem_singleton.mp new
          exact posts reached top called
    | _ => exact posted

/-- The functor queue of every loop, in every reachable state of every program
on the machine. The functors started from the queue, the rest of the batch and
the pending ones are the pushes in their order; what a thread other than the
loop's has had started is a prefix of what it posted, through `RunInLoop` or
`QueueInLoop`, in its program order; and the batch ends where the queue ended
when it was swapped out. -/
theorem functors_run_once_in_order {client : Client State Thread Task Choice}
    {Initial : State → Prop} {machine : Machine State Thread Task}
    (reachable : (system client Initial).Reachable LabelledSystem.unguarded machine)
    (loop : Thread) :
    let queue := machine.loops loop
    queue.started ++ queue.phase.unrun ++ queue.pendings = queue.pushed ∧
      (∀ thread, thread ≠ loop →
        postedBy thread queue.started <+: machine.posted thread loop) ∧
      queue.started ++ queue.phase.unrun = queue.pushed.take queue.swapped := by
  obtain ⟨queue, posts⟩ := reachable_queueInvariant reachable
  have conserved := (queue loop).conserved
  refine ⟨conserved, fun thread _ => ?_, ?_⟩
  · rw [← posts thread loop, ← conserved, List.append_assoc, postedBy_append, List.append_assoc]
    exact List.prefix_append _ _
  · rw [← conserved, ← (queue loop).batch, List.take_left']
    rfl

/-- Thread `1` posts `7` and, while the batch with `7` is being run, `8`. -/
def postDuringBatch : List (Label TwoThreads (FreeChoice TwoThreads Nat)) :=
  [⟨0, .start⟩, .polls 0 [], .calls 1 [], .calls 1 [.runInLoop 0 7, .queueInLoop 0 8],
    .calls 1 [], .calls 1 [], .calls 1 [], .polls 0 [], .polls 0 [], .polls 0 [], .polls 0 [],
    .calls 1 [], .calls 1 []]

/-- A functor that is queued while the batch runs waits for the next one. -/
theorem functors_run_once_in_order_during_batch :
    ∃ machine, freeSystem.Reachable LabelledSystem.unguarded machine ∧
      (machine.loops 0).started = [⟨1, 7⟩] ∧ (machine.loops 0).pendings = [⟨1, 8⟩] ∧
      (machine.loops 0).started ++ (machine.loops 0).phase.unrun ++ (machine.loops 0).pendings =
        (machine.loops 0).pushed ∧
      postedBy 1 (machine.loops 0).started <+: machine.posted 1 0 := by
  let machine := (freeSystem.run LabelledSystem.unguarded { client := () } postDuringBatch).get
    (by decide)
  have reachable : freeSystem.Reachable LabelledSystem.unguarded machine :=
    LabelledSystem.run_reachable ⟨(), trivial, rfl⟩ (Option.some_get _).symm
  obtain ⟨conserved, inOrder, _⟩ := functors_run_once_in_order reachable 0
  exact ⟨machine, reachable, by decide, by decide, conserved, inOrder 1 (by decide)⟩

end Machine

end Benet.EventLoop
