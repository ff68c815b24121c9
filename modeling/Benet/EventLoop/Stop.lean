import Benet.EventLoop.FunctorQueue

/-!
# What `Stop` leaves undone

`quitting_` is tested at the head of the loop only, and `pendings_` is swapped
only before that. Whether a functor that was queued before `Stop` still runs is
therefore decided at the store: `Machine.queued_before_stop_runs_iff` gives the
exact condition, and `Machine.queued_before_stop_dropped` a run in which it
fails.
-/

namespace Benet.EventLoop

open Semantics

variable {State Thread Task Choice : Type}

/-- The loop thread has passed the test of `quitting_` and not yet swapped
`pendings_` in this iteration. -/
def Phase.beforeSwap : Phase Thread Task → Prop
  | .poll | .events _ | .swap => True
  | _ => False

/-- The loop thread is inside `Start` after the swap, or has left `Start`. -/
def Phase.afterSwap : Phase Thread Task → Prop
  | .batch _ _ | .release _ | .finish | .head | .returned => True
  | _ => False

/-- A started loop is before its swap or after it. -/
theorem Phase.afterSwap_of_not {phase : Phase Thread Task} (started : phase ≠ .idle)
    (notBefore : ¬ phase.beforeSwap) : phase.afterSwap := by
  cases phase with
  | idle => exact absurd rfl started
  | poll | events | swap => exact absurd trivial notBefore
  | batch | release | finish | head | returned => trivial

namespace Loop

/-- A stopped loop that has taken the push of the given index out of `pendings_`,
or will still do so. -/
structure Takes (index : Nat) (loop : Loop Thread Task) : Prop where
  quitting : loop.quitting = true
  pushed : index < loop.pushed.length
  taken : index < loop.swapped ∨ loop.phase.beforeSwap

/-- A stopped loop that has left the push of the given index in `pendings_` and
will not swap again. -/
structure Drops (index : Nat) (loop : Loop Thread Task) : Prop where
  quitting : loop.quitting = true
  left : loop.swapped ≤ index
  phase : loop.phase.afterSwap

variable {index : Nat} {loop next : Loop Thread Task} {user : Task}
  {polled : Option (List (Active Task))} {calls : List (Call Thread Task)}

/-- Before the swap the loop goes on to the swap, which takes everything pushed
so far. -/
theorem Takes.moves (takes : loop.Takes index) (moves : loop.Moves user polled next calls) :
    next.Takes index := by
  obtain ⟨quitting, pushed, taken⟩ := takes
  cases moves with
  | outside => exact ⟨quitting, pushed, taken⟩
  | swap => exact ⟨quitting, pushed, .inl pushed⟩
  | iterate phase running =>
      rw [quitting] at running
      cases running
  | poll | wakeup | channel | handled => exact ⟨quitting, pushed, .inr trivial⟩
  | leave phase | batched phase | begin phase | released phase | release phase
  | finish phase => exact ⟨quitting, pushed, .inl (by simpa [phase, Phase.beforeSwap] using taken)⟩

/-- After the swap a stopped loop finishes its batch and leaves `Start` at the
next test. -/
theorem Drops.moves (drops : loop.Drops index) (moves : loop.Moves user polled next calls) :
    next.Drops index := by
  obtain ⟨quitting, left, after⟩ := drops
  cases moves with
  | outside => exact ⟨quitting, left, after⟩
  | iterate phase running =>
      rw [quitting] at running
      cases running
  | poll phase | handled phase | wakeup phase | channel phase | swap phase =>
      simp [phase, Phase.afterSwap] at after
  | leave | batched | begin | released | release | finish => exact ⟨quitting, left, trivial⟩

/-- A functor that will be taken stays one, whatever happens to the loop. -/
theorem Takes.stable : Stable user fun loop : Loop Thread Task => loop.Takes index where
  quit takes := ⟨rfl, takes.pushed, takes.taken⟩
  push pending takes := by
    refine ⟨takes.quitting, ?_, takes.taken⟩
    have pushed := takes.pushed
    simp only [Loop.push, List.length_append]
    omega
  wake needed takes := by
    rw [Loop.wakeIf_eq]
    exact ⟨takes.quitting, takes.pushed, takes.taken⟩
  moves takes moves := takes.moves moves
  enter takes phase := by
    refine ⟨takes.quitting, takes.pushed, .inl ?_⟩
    simpa [phase, Phase.beforeSwap] using takes.taken

/-- A functor that will be dropped stays one, whatever happens to the loop. -/
theorem Drops.stable : Stable user fun loop : Loop Thread Task => loop.Drops index where
  quit drops := ⟨rfl, drops.left, drops.phase⟩
  push pending drops := ⟨drops.quitting, drops.left, drops.phase⟩
  wake needed drops := by
    rw [Loop.wakeIf_eq]
    exact ⟨drops.quitting, drops.left, drops.phase⟩
  moves drops moves := drops.moves moves
  enter drops _ := ⟨drops.quitting, drops.left, trivial⟩

/-- Pushes are never taken back. -/
theorem pushed_stable (before : List (Pending Thread Task)) :
    Stable user fun loop : Loop Thread Task => before <+: loop.pushed where
  quit kept := kept
  push _ kept := kept.trans (List.prefix_append _ _)
  wake needed kept := by rwa [Loop.wakeIf_pushed]
  moves kept moves := by rwa [moves.pushed]
  enter kept _ := kept

end Loop

variable [DecidableEq Thread]

namespace Machine

/-- Work queued before `Stop`. `thread` is about to store `quitting_` of a loop
that is in `Start`, and the push of index `index` was its own. When `Start` has
returned, that functor has been executed if and only if, at the store, the loop
thread had already swapped it out of `pendings_` or was between its test of
`quitting_` and its swap. -/
theorem queued_before_stop_runs_iff {client : Client State Thread Task Choice}
    {Initial : State → Prop} {before after finish : Machine State Thread Task}
    {labels : List (Label Thread Choice)} {thread loop : Thread} {choice : Choice}
    {rest : List (Call Thread Task)} {index : Nat} {functor : Task}
    (reachable : (system client Initial).Reachable LabelledSystem.unguarded before)
    (started : (before.loops loop).phase ≠ .idle)
    (queued : (before.loops loop).pushed[index]? = some ⟨thread, functor⟩)
    (queueReturned : before.inside thread = none)
    (stops : before.calls thread = .stop loop :: rest)
    (stored : (system client Initial).step before ⟨thread, .proceed choice⟩ = some after)
    (steps : (system client Initial).Steps LabelledSystem.unguarded after labels finish)
    (returned : (finish.loops loop).phase = .returned) :
    (finish.loops loop).started[index]? = some ⟨thread, functor⟩ ↔
      index < (before.loops loop).swapped ∨ (before.loops loop).phase.beforeSwap := by
  have afterStore : after.loops loop = (before.loops loop).quit := by
    have result : some (((before.setCalls thread rest).modifyLoop loop Loop.quit).setInside thread
        (some (.wakeAfterStop loop))) = some after := by
      rw [← stored]
      simp [system, step, queueReturned, stops, call]
    cases result
    simp
  have inRange : index < (before.loops loop).pushed.length :=
    (List.getElem?_eq_some_iff.mp queued).1
  -- In the end no batch is left, so what was swapped out has been executed.
  have law := (reachable_queueInvariant ((reachable.step trivial stored).steps steps)).queue loop
  have all : (finish.loops loop).started.length = (finish.loops loop).swapped := by
    simpa [returned, Phase.unrun] using law.batch
  have kept : (finish.loops loop).pushed[index]? = some ⟨thread, functor⟩ := by
    have extended := steps_loop_preserves (Loop.pushed_stable (after.loops loop).pushed) loop steps
      List.prefix_rfl
    rw [afterStore] at extended
    obtain ⟨later, extension⟩ := extended
    rw [← extension]
    exact (List.getElem?_append_left inRange).trans queued
  constructor
  · intro executed
    by_contra neither
    obtain ⟨notTaken, notBefore⟩ := not_or.mp neither
    have drops : (after.loops loop).Drops index := by
      rw [afterStore]
      exact ⟨rfl, Nat.le_of_not_lt notTaken, Phase.afterSwap_of_not started notBefore⟩
    have left := (steps_loop_preserves Loop.Drops.stable loop steps drops).left
    have executedIndex := (List.getElem?_eq_some_iff.mp executed).1
    omega
  · intro taken
    have takes : (after.loops loop).Takes index := by
      rw [afterStore]
      exact ⟨rfl, inRange, taken⟩
    have swapped : index < (finish.loops loop).swapped := by
      simpa [returned, Phase.beforeSwap] using
        (steps_loop_preserves Loop.Takes.stable loop steps takes).taken
    rw [← law.conserved, returned] at kept
    simpa [Phase.unrun, List.getElem?_append, all, swapped] using kept

/-- Thread `1` queues `7` and is about to call `Stop`, while the loop stands
before its `Poll`. -/
def stopAtPoll : List (Label TwoThreads (FreeChoice TwoThreads Nat)) :=
  [⟨0, .start⟩, .polls 0 [], .calls 1 [], .calls 1 [.queueInLoop 0 7, .stop 0],
    .calls 1 [], .calls 1 [], .calls 1 []]

/-- From there the loop thread goes on until `Start` returns. -/
def runBatchAndReturn : List (Label TwoThreads (FreeChoice TwoThreads Nat)) :=
  [.polls 0 [], .polls 0 [], .polls 0 [], .polls 0 [], .polls 0 [], .polls 0 [], .polls 0 [],
    .polls 0 [], .polls 0 [], .polls 0 [], .polls 0 []]

/-- A functor that is queued before `Stop` while the loop polls is run. -/
theorem queued_before_stop_runs_at_poll :
    ∃ finish : Machine Unit TwoThreads Nat,
      (finish.loops 0).phase = .returned ∧ (finish.loops 0).started[0]? = some ⟨1, 7⟩ := by
  let before := (freeSystem.run LabelledSystem.unguarded { client := () } stopAtPoll).get
    (by decide)
  let after := (freeSystem.step before (.calls 1 [])).get (by decide)
  let finish := (freeSystem.run LabelledSystem.unguarded after runBatchAndReturn).get (by decide)
  have reachable : freeSystem.Reachable LabelledSystem.unguarded before :=
    LabelledSystem.run_reachable ⟨(), trivial, rfl⟩ (Option.some_get _).symm
  have steps : freeSystem.Steps LabelledSystem.unguarded after runBatchAndReturn finish :=
    LabelledSystem.run_steps (Option.some_get _).symm
  have stored : freeSystem.step before (.calls 1 []) = some after := (Option.some_get _).symm
  have stops : before.calls 1 = [.stop 0] := by decide
  have atPoll : (before.loops 0).phase = .poll := by decide
  refine ⟨finish, by decide, ?_⟩
  refine (queued_before_stop_runs_iff reachable (by simp [atPoll]) (by decide)
    (by decide) stops stored steps (by decide)).mpr (.inr ?_)
  simp [atPoll, Phase.beforeSwap]

/-- The same calls, but the loop has already swapped `pendings_` in this
iteration. -/
def stopAfterSwap : List (Label TwoThreads (FreeChoice TwoThreads Nat)) :=
  [⟨0, .start⟩, .polls 0 [], .polls 0 [], .polls 0 [], .polls 0 [],
    .calls 1 [], .calls 1 [.queueInLoop 0 7, .stop 0], .calls 1 [], .calls 1 [], .calls 1 []]

/-- From there the loop thread finishes its empty batch and leaves `Start`. -/
def finishAndReturn : List (Label TwoThreads (FreeChoice TwoThreads Nat)) :=
  [.calls 1 [], .polls 0 [], .polls 0 [], .polls 0 [], .polls 0 []]

/-- `QueueInLoop` has returned before `Stop` is called, and `Start` returns
without having run the functor. -/
theorem queued_before_stop_dropped :
    ∃ before after finish : Machine Unit TwoThreads Nat,
      freeSystem.Reachable LabelledSystem.unguarded before ∧
      (before.loops 0).phase ≠ .idle ∧
      (before.loops 0).pushed[0]? = some ⟨1, 7⟩ ∧
      before.inside 1 = none ∧ before.calls 1 = [.stop 0] ∧
      freeSystem.step before (.calls 1 []) = some after ∧
      freeSystem.Steps LabelledSystem.unguarded after finishAndReturn finish ∧
      (finish.loops 0).phase = .returned ∧
      (finish.loops 0).started[0]? ≠ some ⟨1, 7⟩ := by
  let before := (freeSystem.run LabelledSystem.unguarded { client := () } stopAfterSwap).get
    (by decide)
  let after := (freeSystem.step before (.calls 1 [])).get (by decide)
  let finish := (freeSystem.run LabelledSystem.unguarded after finishAndReturn).get (by decide)
  refine ⟨before, after, finish, ?_, by decide, by decide, by decide, by decide,
    (Option.some_get _).symm, LabelledSystem.run_steps (Option.some_get _).symm,
    by decide, by decide⟩
  exact LabelledSystem.run_reachable ⟨(), trivial, rfl⟩ (Option.some_get _).symm

end Machine

end Benet.EventLoop
