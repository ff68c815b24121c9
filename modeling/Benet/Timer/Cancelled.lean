import Benet.Timer.Cancel

/-!
# A cancelled timer is not run

From the step on in which `CancelTimer` runs for a timer of its loop, the timer stays
cancelled and no step runs its callback; so it holds of every continuation of the
run (`TimerWorld.cancelled_timer_is_not_run`).
-/

namespace Benet

open EventLoop Semantics

namespace TimerWorld

section Afterwards

variable {Thread : Type}

/-- The timers of one state are there in the other, and cancelled ones stay cancelled. -/
def Evolves (world next : TimerWorld Thread) : Prop :=
  ∀ timer object, world.heap timer = some object →
    ∃ object', next.heap timer = some object' ∧
      (object.cancelled = true → object'.cancelled = true)

/-- An executed task keeps every timer and its cancellation. -/
theorem Executes.evolves [DecidableEq Thread] {world next : TimerWorld Thread} {thread : Thread}
    {choice : TimerChoice Thread} {task : TimerTask} {calls : List (Call Thread TimerTask)}
    {rest : Multiset (Located Thread TimerTask)}
    (consistent : Consistent world ({(thread, task)} + rest))
    (executes : Executes thread choice world task next calls) : Evolves world next := by
  intro timer object live
  have moves := executes.moves consistent timer
  rw [live] at moves
  obtain ⟨object', after, -, -, kept⟩ := moves.forward
  exact ⟨object', after, kept⟩

end Afterwards

end TimerWorld

/-- The callbacks of one timer that a queue has run. -/
def TimerQueue.firingsOf (timer : TimerPtr) (queue : TimerQueue) : List Firing :=
  queue.firings.filter (·.entry.second = timer)

namespace TimerWorld

section Firings

variable {Thread : Type} [DecidableEq Thread] {world next : TimerWorld Thread} {thread : Thread}
  {choice : TimerChoice Thread} {task : TimerTask} {calls : List (Call Thread TimerTask)}

/-- A step runs the callback of at most one timer, the next one of the batch. -/
theorem Executes.firings (executes : Executes thread choice world task next calls)
    {timer : TimerPtr} (notNext : ∀ pass entry rest, task = .callExpired pass →
      pass.rest = entry :: rest → entry.second ≠ timer) (loop : Thread) :
    (next.queues loop).firingsOf timer = (world.queues loop).firingsOf timer := by
  have none : task.firings.filter (·.entry.second = timer) = [] := by
    refine List.filter_eq_nil_iff.mpr fun firing member => ?_
    obtain ⟨pass, entry, rest, isPass, due, rfl⟩ := TimerTask.mem_firings.mp member
    simpa using notNext pass entry rest isPass due
  rw [TimerQueue.firingsOf, executes.firings_append, List.filter_append]
  split_ifs
  · rw [none, List.append_nil]
    rfl
  · exact List.append_nil _

end Firings

variable {Thread : Type} [DecidableEq Thread] [Fintype Thread]
  {machine later : Machine (TimerWorld Thread) Thread TimerTask} {timer : TimerPtr}

/-- `CancelTimer` has run for the timer on the loop of its queue. -/
def Cancelled (timer : TimerPtr) (world : TimerWorld Thread) : Prop :=
  ∃ object, world.heap timer = some object ∧ object.cancelled = true

/-- One step after `CancelTimer` has run: the timer stays cancelled and is not run. -/
theorem step_cancelled {label : Label Thread (TimerChoice Thread)}
    (reachable : system.Reachable (Machine.onExec cancelsInTime) machine)
    (stepped : system.step machine label = some later)
    (cancelled : machine.client.Cancelled timer) :
    later.client.Cancelled timer ∧ ∀ loop, (later.client.queues loop).firingsOf timer =
      (machine.client.queues loop).firingsOf timer := by
  obtain ⟨object, live, isCancelled⟩ := cancelled
  cases reachable_runStep reachable stepped with
  | @executes task choice calls rest _ _ orderly _ executes =>
      obtain ⟨object', live', kept⟩ := executes.evolves orderly.consistent timer object live
      refine ⟨⟨object', live', kept isCancelled⟩, executes.firings ?_⟩
      rintro pass entry later rfl due rfl
      -- The timer of the next callback is due, so it is not cancelled.
      obtain ⟨object', live', -, place, -⟩ := orderly.next_due due
      cases live.symm.trans live'
      exact (reachable_keepsCancelled reachable).not_cancelled live (by simp [place])
        (by simp [place]) isCancelled
  | arrives same =>
      rw [same]
      exact ⟨⟨object, live, isCancelled⟩, fun _ => rfl⟩

/-- In every run in which `CancelTimer` never runs for a timer that is still to be
inserted or that waits in an expired batch: once it has run for a timer, the timer
is in no queue, and its callback is not run any more. -/
theorem cancelled_timer_is_not_run
    (reachable : system.Reachable (Machine.onExec cancelsInTime) machine)
    (cancelled : machine.client.Cancelled timer) {labels : List (Label Thread (TimerChoice Thread))}
    (steps : system.Steps (Machine.onExec cancelsInTime) machine labels later) :
    (∀ loop, ∀ entry ∈ (later.client.queues loop).timers, entry.second ≠ timer) ∧
      ∀ loop, (later.client.queues loop).firingsOf timer =
        (machine.client.queues loop).firingsOf timer := by
  have reached := reachable.steps steps
  have all : later.client.Cancelled timer ∧ ∀ loop,
      (later.client.queues loop).firingsOf timer = (machine.client.queues loop).firingsOf timer := by
    refine reachable.preserves (fun later => later.client.Cancelled timer ∧ ∀ loop,
      (later.client.queues loop).firingsOf timer = (machine.client.queues loop).firingsOf timer)
      (fun _ _ => id) ?_ steps ⟨cancelled, fun _ => rfl⟩
    rintro before label after reached ⟨isCancelled, same⟩ - stepped
    obtain ⟨stays, kept⟩ := step_cancelled reached stepped isCancelled
    exact ⟨stays, fun loop => (kept loop).trans (same loop)⟩
  obtain ⟨⟨object, live, isCancelled⟩, same⟩ := all
  refine ⟨fun loop entry member => ?_, same⟩
  refine (reachable_consistent reached).not_mem_timers live ?_ member
  rcases reachable_keepsCancelled reached timer object live isCancelled with gone | ⟨ran, -⟩
  · simp [gone]
  · simp [ran]

/-- Thread `1` adds a timer to the queue of loop `0` and has its handle; the functor
waits in the queue of the loop. On thread `0` user code then cancels the timer. -/
def cancelBeforeAdd : List (Label TwoThreads (TimerChoice TwoThreads)) :=
  turns 1 1 ++ [turn 1 { action := .addTimer 0 7 5 ⟨false, 0⟩ }] ++ turns 1 4 ++ turns 0 1 ++
    [turn 0 { action := .cancelTimer 0 7 }] ++ turns 0 2

/-- Loop `0` is started and runs the functor that inserts the timer. -/
def thenInsert : List (Label TwoThreads (TimerChoice TwoThreads)) :=
  turns 0 1 ++ [⟨0, .start⟩] ++ turns 0 6

/-- In the next iteration the timerfd is readable, and at `6` the timer is expired. -/
def thenExpire : List (Label TwoThreads (TimerChoice TwoThreads)) :=
  turns 0 6 ++ [turn 0 { actives := [.channel .readCallback] }] ++ turns 0 1 ++
    [turn 0 { now := 6, readAt := 6 }] ++ turns 0 1

/-- The cancellation is lost: both functors have run, and the timer is in the queue;
later its callback is run. -/
theorem cancel_lost_to_pending_add :
    ∃ cancelled inserted expired : Machine (TimerWorld TwoThreads) TwoThreads TimerTask,
      system.Reachable LabelledSystem.unguarded cancelled ∧
      system.Steps LabelledSystem.unguarded cancelled thenInsert inserted ∧
      system.Steps LabelledSystem.unguarded inserted thenExpire expired ∧
      (cancelled.client.heap 7).any (fun object => object.returned && object.cancelled) = true ∧
      (cancelled.client.queues 0).firings = [] ∧
      (inserted.client.queues 0).timers.toList = [⟨5, 7⟩] ∧
      (inserted.client.queues 0).firings = [] ∧
      (expired.client.queues 0).firings = [⟨0, 6, ⟨5, 7⟩⟩] := by
  let cancelled := (system.run LabelledSystem.unguarded noTimers cancelBeforeAdd).get
    (by decide +kernel)
  let inserted := (system.run LabelledSystem.unguarded cancelled thenInsert).get (by decide +kernel)
  let expired := (system.run LabelledSystem.unguarded inserted thenExpire).get (by decide +kernel)
  exact ⟨cancelled, inserted, expired,
    LabelledSystem.run_reachable noTimers_initial (Option.some_get _).symm,
    LabelledSystem.run_steps (Option.some_get _).symm,
    LabelledSystem.run_steps (Option.some_get _).symm, by decide +kernel, by decide +kernel,
    by decide +kernel, by decide +kernel, by decide +kernel⟩

/-- User code on thread `0` adds a repeating and a one-shot timer to the queue of its
loop and cancels the repeating one before either is due. -/
def cancelBeforeExpiry : List (Label TwoThreads (TimerChoice TwoThreads)) :=
  turns 0 1 ++ adding 7 5 ⟨true, 3⟩ ++ adding 8 5 ⟨false, 0⟩ ++
    [turn 0 { action := .cancelTimer 0 7 }] ++ turns 0 2

/-- Loop `0` is started, and a pass runs the timers that are expired at `6`. -/
def thenPass : List (Label TwoThreads (TimerChoice TwoThreads)) :=
  turns 0 1 ++ startToPass ++ [turn 0 { now := 6, readAt := 6 }] ++ turns 0 3

/-- A repeating timer of loop `0` is cancelled by its own callback. -/
def cancelInOwnCallback : List (Label TwoThreads (TimerChoice TwoThreads)) :=
  turns 0 1 ++ adding 7 5 ⟨true, 3⟩ ++ turns 0 1 ++ startToPass ++
    [turn 0 { now := 6, readAt := 6 }] ++ turns 0 1 ++
    [turn 0 { action := .cancelTimer 0 7 }] ++ turns 0 2

/-- A timer cancelled before it is due is not run by the pass that runs the other timer
of the same expiration, and one cancelled by its own callback is not run again. -/
theorem cancelled_timer_is_not_run_early_or_in_callback :
    (∃ machine later : Machine (TimerWorld TwoThreads) TwoThreads TimerTask,
      system.Reachable (Machine.onExec cancelsInTime) machine ∧
      machine.client.Cancelled 7 ∧
      system.Steps (Machine.onExec cancelsInTime) machine thenPass later ∧
      (machine.client.queues 0).timers.toList = [⟨5, 8⟩] ∧
      (machine.client.queues 0).firings = [] ∧
      (later.client.queues 0).firings = [⟨0, 6, ⟨5, 8⟩⟩] ∧
      (∀ entry ∈ (later.client.queues 0).timers, entry.second ≠ 7) ∧
      (later.client.queues 0).firingsOf 7 = (machine.client.queues 0).firingsOf 7) ∧
    ∃ machine later : Machine (TimerWorld TwoThreads) TwoThreads TimerTask,
      system.Reachable (Machine.onExec cancelsInTime) machine ∧
      machine.client.Cancelled 7 ∧
      system.Steps (Machine.onExec cancelsInTime) machine (turns 0 2) later ∧
      (machine.client.queues 0).firingsOf 7 = [⟨0, 6, ⟨5, 7⟩⟩] ∧
      later.calls 0 = [] ∧
      (∀ entry ∈ (later.client.queues 0).timers, entry.second ≠ 7) ∧
      (later.client.queues 0).firingsOf 7 = (machine.client.queues 0).firingsOf 7 := by
  constructor
  · let machine := (system.run (Machine.onExec cancelsInTime) noTimers cancelBeforeExpiry).get
      (by decide +kernel)
    let later := (system.run (Machine.onExec cancelsInTime) machine thenPass).get
      (by decide +kernel)
    have reachable : system.Reachable (Machine.onExec cancelsInTime) machine :=
      LabelledSystem.run_reachable noTimers_initial (Option.some_get _).symm
    have steps : system.Steps (Machine.onExec cancelsInTime) machine thenPass later :=
      LabelledSystem.run_steps (Option.some_get _).symm
    have cancelled : machine.client.Cancelled 7 :=
      ⟨(machine.client.heap 7).get (by decide +kernel), (Option.some_get _).symm, by decide +kernel⟩
    obtain ⟨absent, notRun⟩ := cancelled_timer_is_not_run reachable cancelled steps
    exact ⟨machine, later, reachable, cancelled, steps, by decide +kernel, by decide +kernel,
      by decide +kernel, absent 0, notRun 0⟩
  · let machine := (system.run (Machine.onExec cancelsInTime) noTimers cancelInOwnCallback).get
      (by decide +kernel)
    let later := (system.run (Machine.onExec cancelsInTime) machine (turns 0 2)).get
      (by decide +kernel)
    have reachable : system.Reachable (Machine.onExec cancelsInTime) machine :=
      LabelledSystem.run_reachable noTimers_initial (Option.some_get _).symm
    have steps : system.Steps (Machine.onExec cancelsInTime) machine (turns 0 2) later :=
      LabelledSystem.run_steps (Option.some_get _).symm
    have cancelled : machine.client.Cancelled 7 :=
      ⟨(machine.client.heap 7).get (by decide +kernel), (Option.some_get _).symm, by decide +kernel⟩
    obtain ⟨absent, notRun⟩ := cancelled_timer_is_not_run reachable cancelled steps
    exact ⟨machine, later, reachable, cancelled, steps, by decide +kernel, by decide +kernel,
      absent 0, notRun 0⟩

end TimerWorld

end Benet
