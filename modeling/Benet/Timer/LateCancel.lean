import Benet.Timer.Passes

/-!
# Cancelling a timer of the running pass

The batch of a pass is copied out of `timers_` before the first callback, and the loop
that runs the callbacks looks at the copy only. `CancelTimer` of a timer that waits in the
batch finds no entry for it and puts it into `canceling_timers_`, which is consulted after
the last callback. So a pass runs the callbacks of its whole batch, whatever is cancelled
meanwhile.
-/

namespace Benet

open EventLoop Semantics

namespace TimerWorld

variable {Thread : Type} [DecidableEq Thread] [Fintype Thread]
  {machine next later : Machine (TimerWorld Thread) Thread TimerTask}
  {label : Label Thread (TimerChoice Thread)} {labels : List (Label Thread (TimerChoice Thread))}
  {loop : Thread} {pass : ExpiryPass}

/-- The pass is still running over the same batch, or the whole batch was run in it. -/
def GoesOn (loop : Thread) (pass : ExpiryPass)
    (machine : Machine (TimerWorld Thread) Thread TimerTask) : Prop :=
  (∃ running, (loop, .callExpired running) ∈ machine.flight ∧ running.number = pass.number ∧
    running.now = pass.now ∧ running.expired = pass.expired) ∨
  ∀ entry ∈ pass.expired, ⟨pass.number, pass.now, entry⟩ ∈ (machine.client.queues loop).firings

omit [Fintype Thread] in
/-- The loop that executes a pass runs its next callback and goes on with the same batch, or it
has run the whole batch. -/
theorem Executes.goes_on {world next : TimerWorld Thread} {choice : TimerChoice Thread}
    {calls : List (Call Thread TimerTask)}
    (executes : Executes loop choice world (.callExpired pass) next calls)
    (record : world.PassRecord loop pass) :
    (∃ running, (loop, .callExpired running) ∈ Call.flights loop calls ∧
      running.number = pass.number ∧ running.now = pass.now ∧ running.expired = pass.expired) ∨
    ∀ entry ∈ pass.expired, ⟨pass.number, pass.now, entry⟩ ∈ (next.queues loop).firings := by
  have grows := executes.firings_append loop
  cases executes with
  | @fires _ entry later due =>
      exact .inl ⟨pass.next entry later, by simp [Call.flight], rfl, rfl,
        ExpiryPass.expired_next due⟩
  | finishes done =>
      refine .inr fun entry inBatch => ?_
      rw [ExpiryPass.expired, done, List.append_nil] at inBatch
      rw [grows]
      exact List.mem_append_left _ (record.fired entry inBatch)

/-- One step goes on with the pass. -/
theorem GoesOn.step (goesOn : GoesOn loop pass machine) (step : RunStep machine label next) :
    GoesOn loop pass next := by
  cases step with
  | arrives same _ after =>
      refine goesOn.imp ?_ ?_
      · rintro ⟨running, member, sameBatch⟩
        exact ⟨running, after ▸ Multiset.mem_add.mpr (.inr member), sameBatch⟩
      · exact fun run => same ▸ run
  | @executes task choice calls rest _ before orderly _ executes after =>
      rcases goesOn with ⟨running, member, number, now, batch⟩ | run
      · rw [before, Multiset.mem_add, Multiset.mem_singleton, Prod.mk.injEq] at member
        rw [GoesOn, ← number, ← now, ← batch, after]
        rcases member with ⟨rfl, rfl⟩ | elsewhere
        · refine (executes.goes_on (orderly.recorded.passes _ running (mem_first _ _))).imp_left ?_
          rintro ⟨following, called, same⟩
          exact ⟨following, Multiset.mem_add.mpr (.inl called), same⟩
        · exact .inl ⟨running, Multiset.mem_add.mpr (.inr elsewhere), rfl, rfl, rfl⟩
      · refine .inr fun entry inBatch => ?_
        rw [executes.firings_append]
        exact List.mem_append_left _ (run entry inBatch)

/-- In every run a pass that has begun goes on until the whole batch was run. -/
theorem pass_goes_on (reachable : system.Reachable LabelledSystem.unguarded machine)
    (running : (loop, .callExpired pass) ∈ machine.flight)
    (steps : system.Steps LabelledSystem.unguarded machine labels later) :
    GoesOn loop pass later := by
  refine reachable.preserves (GoesOn loop pass) (fun _ _ => id) ?_ steps
    (.inl ⟨pass, running, rfl, rfl, rfl⟩)
  intro before label after reached goesOn _ stepped
  exact goesOn.step (reachable_runStep reached stepped)

/-- Let `CancelTimer` run on the thread of a loop for a timer `b` that waits in the batch of
the loop's pass, after the callback of `a` was run in the pass. The callback of `b`, not
run by then, has been run in the same pass by the time the pass is over. -/
theorem cancel_in_pass_is_late {a b : TimerEntry} {choice : TimerChoice Thread}
    (reachable : system.Reachable LabelledSystem.unguarded machine)
    (executing : machine.executing label = some (.cancelTimer b.second, choice))
    (stepped : machine.step client label = some next)
    (running : .task (.callExpired pass) ∈ machine.calls label.thread)
    (ran : a ∈ pass.ran) (waiting : b ∈ pass.rest)
    (steps : system.Steps LabelledSystem.unguarded next labels later)
    (ended : ∀ other, .task (.callExpired other) ∈ later.calls label.thread →
      other.number ≠ pass.number) :
    ⟨pass.number, pass.now, a⟩ ∈ (machine.client.queues label.thread).firings ∧
      ⟨pass.number, pass.now, b⟩ ∉ (next.client.queues label.thread).firings ∧
      ⟨pass.number, pass.now, b⟩ ∈ (later.client.queues label.thread).firings := by
  have member := Machine.task_mem_flight running
  have record := (reachable_orderly reachable).recorded.passes _ pass member
  obtain ⟨calls, rest, executes, -⟩ := reachable_executing reachable executing stepped
  have reached : system.Reachable LabelledSystem.unguarded next := reachable.step trivial stepped
  refine ⟨record.fired a ran, ?_, ?_⟩
  · rw [executes.firings_append, if_pos rfl, TimerTask.firings, List.append_nil]
    intro already
    have inFront : b ∈ pass.ran := record.recorded _ already rfl
    have sorted : (pass.ran ++ pass.rest).Pairwise (· < ·) := record.sorted
    exact lt_irrefl b ((List.pairwise_append.mp sorted).2.2 b inFront b waiting)
  · have goesOn : GoesOn label.thread pass later :=
      pass_goes_on reachable member (.cons trivial stepped steps)
    rcases goesOn with ⟨other, inFlight, same, -⟩ | run
    · have arrived : system.Reachable LabelledSystem.unguarded later := reached.steps steps
      exact absurd same (ended other (pass_on_stack arrived inFlight))
    · exact run b (List.mem_append_right _ waiting)

/-- Two timers that expire at `4` and `5` and a pass at `6`. The callback of the first
cancels the second. -/
def cancelNextInBatch : List (Label TwoThreads (TimerChoice TwoThreads)) :=
  turns 0 1 ++ adding 7 4 ⟨false, 0⟩ ++ adding 8 5 ⟨false, 0⟩ ++ turns 0 1 ++ startToPass ++
    [turn 0 { now := 6, readAt := 6 }] ++ turns 0 1 ++
    [turn 0 { action := .cancelTimer 0 8 }] ++ turns 0 1

/-- `CancelTimer` has run for the second timer, which is in the batch, and its callback
is the next to be run. -/
theorem cancelled_timer_runs_in_pass :
    ∃ cancelled later : Machine (TimerWorld TwoThreads) TwoThreads TimerTask,
      system.Reachable LabelledSystem.unguarded cancelled ∧
      system.Steps LabelledSystem.unguarded cancelled (turns 0 4) later ∧
      .task (.callExpired ⟨0, 6, [⟨4, 7⟩], [⟨5, 8⟩]⟩) ∈ cancelled.calls 0 ∧
      (cancelled.client.heap 8).any Timer.cancelled = true ∧
      (cancelled.client.queues 0).firings = [⟨0, 6, ⟨4, 7⟩⟩] ∧
      later.calls 0 = [] ∧
      (later.client.queues 0).firings = [⟨0, 6, ⟨4, 7⟩⟩, ⟨0, 6, ⟨5, 8⟩⟩] := by
  let cancelled := (system.run LabelledSystem.unguarded noTimers
    (cancelNextInBatch ++ turns 0 1)).get (by decide +kernel)
  let later := (system.run LabelledSystem.unguarded cancelled (turns 0 4)).get (by decide +kernel)
  exact ⟨cancelled, later, LabelledSystem.run_reachable noTimers_initial (Option.some_get _).symm,
    LabelledSystem.run_steps (Option.some_get _).symm, by decide +kernel, by decide +kernel,
    by decide +kernel, by decide +kernel, by decide +kernel⟩

/-- A callback cancels the next timer of the batch, which is run all the same. -/
theorem cancel_in_pass_is_late_cancelNextInBatch :
    ∃ machine next later : Machine (TimerWorld TwoThreads) TwoThreads TimerTask,
      machine.executing (turn 0 {}) = some (.cancelTimer 8, {}) ∧
      machine.step client (turn 0 {}) = some next ∧
      system.Steps LabelledSystem.unguarded next (turns 0 4) later ∧
      later.calls 0 = [] ∧
      ⟨0, 6, ⟨4, 7⟩⟩ ∈ (machine.client.queues 0).firings ∧
      ⟨0, 6, ⟨5, 8⟩⟩ ∉ (next.client.queues 0).firings ∧
      ⟨0, 6, ⟨5, 8⟩⟩ ∈ (later.client.queues 0).firings := by
  let machine := (system.run LabelledSystem.unguarded noTimers cancelNextInBatch).get
    (by decide +kernel)
  let next := (machine.step client (turn 0 {})).get (by decide +kernel)
  let later := (system.run LabelledSystem.unguarded next (turns 0 4)).get (by decide +kernel)
  have reachable : system.Reachable LabelledSystem.unguarded machine :=
    LabelledSystem.run_reachable noTimers_initial (Option.some_get _).symm
  have executing : machine.executing (turn 0 {}) =
      some (.cancelTimer (TimerEntry.mk 5 8).second, {}) := by decide +kernel
  have stepped : machine.step client (turn 0 {}) = some next := (Option.some_get _).symm
  let pass : ExpiryPass := ⟨0, 6, [⟨4, 7⟩], [⟨5, 8⟩]⟩
  have running : .task (.callExpired pass) ∈ machine.calls (turn 0 {}).thread := by decide +kernel
  have ran : ⟨4, 7⟩ ∈ pass.ran := List.mem_cons_self
  have waiting : ⟨5, 8⟩ ∈ pass.rest := List.mem_cons_self
  have steps : system.Steps LabelledSystem.unguarded next (turns 0 4) later :=
    LabelledSystem.run_steps (Option.some_get _).symm
  have empty : later.calls (turn 0 {}).thread = [] := by decide +kernel
  have ended : ∀ other : ExpiryPass, .task (.callExpired other) ∈ later.calls (turn 0 {}).thread →
      other.number ≠ pass.number := by
    intro other onStack
    rw [empty] at onStack
    cases onStack
  have late := cancel_in_pass_is_late reachable executing stepped running ran waiting steps ended
  rw [turn_thread] at late empty
  exact ⟨machine, next, later, executing, stepped, steps, empty, late⟩

end TimerWorld

end Benet
