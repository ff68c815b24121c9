import Benet.Timer.Entries

/-!
# The representation of the timer queue

In every run, with any clock readings and any re-entrant calls of the callbacks,
`timers_` holds its timers under their expirations, each of them once, and none
of them while it waits in the batch of a pass. So the assertions of `insert` and
`CancelTimer` hold, and the lookup of `CancelTimer` finds a queued timer.
-/

namespace Benet

open EventLoop Semantics

namespace TimerWorld

variable {Thread : Type} {machine : Machine (TimerWorld Thread) Thread TimerTask}

/-- The state of the queues in relation to the timers and to the running passes. -/
structure Represented (machine : Machine (TimerWorld Thread) Thread TimerTask) : Prop where
  /-- an entry has the expiration of its timer -/
  keyed : ∀ loop, ∀ entry ∈ (machine.client.queues loop).timers,
    ∃ timer, machine.client.heap entry.second = some timer ∧ timer.expiration = entry.first
  /-- a timer has one entry, in one queue -/
  once : ∀ loop other, ∀ entry ∈ (machine.client.queues loop).timers,
    ∀ entry' ∈ (machine.client.queues other).timers,
      entry.second = entry'.second → loop = other ∧ entry = entry'
  /-- while a pass runs callbacks, its timers have no entry -/
  apart : ∀ loop pass, .task (.callExpired pass) ∈ machine.calls loop →
    ∀ expired ∈ pass.expired, ∀ other, ∀ entry ∈ (machine.client.queues other).timers,
      entry.second ≠ expired.second
  asserted : ∀ loop, .inserted ∉ (machine.client.queues loop).failedAssertions ∧
    .erasedOne ∉ (machine.client.queues loop).failedAssertions

/-- A timer of a batch is in no queue. -/
theorem Consistent.apart {world : TimerWorld Thread}
    {flight : Multiset (Located Thread TimerTask)} (consistent : Consistent world flight)
    {loop other : Thread} {pass : ExpiryPass} (member : (loop, .callExpired pass) ∈ flight)
    {expired entry : TimerEntry} (inBatch : expired ∈ pass.expired)
    (queued : entry ∈ (world.queues other).timers) : entry.second ≠ expired.second := by
  have carried : TimerMark.batched expired.second ∈ (TimerTask.callExpired pass).marks := by
    rw [TimerTask.marks, Multiset.mem_add]
    exact .inr (Multiset.mem_coe.mpr (List.mem_map_of_mem inBatch))
  have marked := (consistent.marking.mem (loop, .batched expired.second)).mp
    ((mem_marks _).mpr ⟨_, member, carried⟩)
  obtain ⟨object, live, -, place⟩ := marked
  refine consistent.not_mem_timers live ?_ queued
  rcases place with due | ran
  · simp [due]
  · simp [ran]

variable [DecidableEq Thread]

/-- The functor of `CancelTimer` finds a timer that has an entry, and removes it. -/
theorem Executes.cancels_queued {thread : Thread} {choice : TimerChoice Thread}
    {world next : TimerWorld Thread} {calls : List (Call Thread TimerTask)} {timer : TimerPtr}
    {flight : Multiset (Located Thread TimerTask)} (consistent : Consistent world flight)
    (executes : Executes thread choice world (.cancelTimer timer) next calls) {entry : TimerEntry}
    (queued : entry ∈ (world.queues thread).timers) (about : entry.second = timer) :
    (∃ object, world.heap timer = some object ∧ entry = ⟨object.expiration, timer⟩) ∧
      (next.queues thread).timers = (world.queues thread).timers.erase entry := by
  obtain ⟨object, live, own, place, expires⟩ := (consistent.entries thread entry).mp queued
  rw [about] at live
  have lookup : entry = ⟨object.expiration, timer⟩ := TimerEntry.ext expires.symm about
  refine ⟨⟨object, live, lookup⟩, ?_⟩
  rw [lookup] at queued ⊢
  cases executes with
  | expired found released =>
      cases live.symm.trans found
      rw [released] at place
      cases place
  | erases found inQueue =>
      cases live.symm.trans found
      rw [moveTo_queues, modifyQueue_own, markCancelled, modifyTimer_queues]
      exact (TimerQueue.cancelTimer_found queued).1
  | misses found absent =>
      cases live.symm.trans found
      exact absurd queued absent

variable [Fintype Thread]

/-- What the invariant says about the containers. -/
theorem Consistent.represented (consistent : Consistent machine.client machine.flight) :
    Represented machine where
  keyed loop entry member := by
    obtain ⟨timer, live, -, -, expires⟩ := (consistent.entries loop entry).mp member
    exact ⟨timer, live, expires⟩
  once loop other entry member entry' member' same :=
    ((consistent.entries _ _).mp member).unique ((consistent.entries _ _).mp member') same
  apart loop pass member expired inBatch other entry queued :=
    consistent.apart (Machine.task_mem_flight member) inBatch queued
  asserted loop := by
    constructor <;> intro failed <;> cases consistent.asserted loop _ failed

/-- In every reachable state the queues represent the timers, and a `CancelTimer`
that executes while its timer is queued finds the entry and removes it. -/
theorem timers_represented (reachable : system.Reachable LabelledSystem.unguarded machine) :
    Represented machine ∧
      ∀ label timer choice next, machine.executing label = some (.cancelTimer timer, choice) →
        machine.step client label = some next →
        ∀ entry ∈ (machine.client.queues label.thread).timers, entry.second = timer →
          (∃ object, machine.client.heap timer = some object ∧
            entry = ⟨object.expiration, timer⟩) ∧
          (next.client.queues label.thread).timers =
            (machine.client.queues label.thread).timers.erase entry := by
  have reached := reachable.weaken Machine.onExec_of_unguarded
  have consistent := reachable_consistent reached
  refine ⟨consistent.represented, ?_⟩
  intro label timer choice next executing stepped entry queued about
  obtain ⟨calls, executed⟩ := Machine.executing_exec executing stepped
  have executes : Executes label.thread choice machine.client (.cancelTimer timer) next.client
      calls := exec_executes executed
  exact executes.cancels_queued consistent queued about

/-- A repeating timer that expires at `5` and one that expires at `9`; a pass at
`6` runs the callback of the first, which goes on to cancel the second. -/
def cancelInPass : List (Label TwoThreads (TimerChoice TwoThreads)) :=
  turns 0 1 ++ adding 7 5 ⟨true, 3⟩ ++ adding 8 9 ⟨false, 0⟩ ++ turns 0 1 ++ startToPass ++
    [turn 0 { now := 6, readAt := 6 }] ++ turns 0 1 ++
    [turn 0 { action := .cancelTimer 0 8 }] ++ turns 0 1

/-- A callback cancels another timer that is still in the queue. -/
theorem timers_represented_cancelInPass :
    ∃ machine : Machine (TimerWorld TwoThreads) TwoThreads TimerTask,
      (machine.client.queues 0).timers.toList = [⟨9, 8⟩] ∧
      .task (.callExpired ⟨0, 6, [⟨5, 7⟩], []⟩) ∈ machine.calls 0 ∧
      machine.executing (turn 0 {}) = some (.cancelTimer 8, {}) ∧
      Represented machine ∧
      ∃ next, machine.step client (turn 0 {}) = some next ∧
        (next.client.queues 0).timers = (machine.client.queues 0).timers.erase ⟨9, 8⟩ := by
  let machine := (system.run LabelledSystem.unguarded noTimers cancelInPass).get (by decide +kernel)
  have reachable : system.Reachable LabelledSystem.unguarded machine :=
    LabelledSystem.run_reachable noTimers_initial (Option.some_get _).symm
  have executing : machine.executing (turn 0 {}) = some (.cancelTimer 8, {}) := by decide +kernel
  let next := (machine.step client (turn 0 {})).get (by decide +kernel)
  have stepped : machine.step client (turn 0 {}) = some next := (Option.some_get _).symm
  have queued : (⟨9, 8⟩ : TimerEntry) ∈ (machine.client.queues 0).timers := by decide +kernel
  obtain ⟨represented, cancels⟩ := timers_represented reachable
  exact ⟨machine, by decide +kernel, by decide +kernel, executing, represented, next, stepped,
    (cancels (turn 0 {}) 8 {} next executing stepped ⟨9, 8⟩ queued rfl).2⟩

end TimerWorld

end Benet
