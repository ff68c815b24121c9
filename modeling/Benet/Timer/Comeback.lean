import Benet.Timer.Cancel

/-!
# A cancelled timer does not come back

`CancelTimer` of an inserted timer finds it in `timers_` and erases it, finds it in the batch
of the running pass and takes it down in `canceling_timers_`, or comes after the timer was
given up. In each case the timer gets into no queue again, and no pass that begins later runs
its callback. The other timers are not concerned: their entries, the batches and what the
running pass will restart stay as they were.
-/

namespace Benet

open EventLoop Semantics

namespace TimerWorld

variable {Thread : Type}

/-- A pass of the loop that ends now restarts the timer if it is in the batch. -/
def WillRestart (loop : Thread) (timer : TimerPtr) (world : TimerWorld Thread) : Prop :=
  (∃ object, world.heap timer = some object ∧ object.isRepeat = true) ∧
    timer ∉ (world.queues loop).cancelingTimers

/-- The timer is given up, or it is in the batch of a pass that will give it up, and `limit`
is the number of passes by then; the callback was run in none but those. -/
structure NotAgain (timer : TimerPtr) (limit : Thread → Nat) (world : TimerWorld Thread) :
    Prop where
  place : ∃ object, world.heap timer = some object ∧ (object.place = .released ∨
    (object.place = .due ∨ object.place = .ran) ∧
      timer ∈ (world.queues object.loop).cancelingTimers ∧
      (world.queues object.loop).passes = limit object.loop)
  run : ∀ loop, ∀ firing ∈ (world.queues loop).firings, firing.entry.second = timer →
    firing.pass < limit loop

section Steps

variable [DecidableEq Thread] {world next : TimerWorld Thread} {thread : Thread}
  {timer other : TimerPtr} {object : Timer Thread} {limit : Thread → Nat} {task : TimerTask}
  {choice : TimerChoice Thread} {rest : Multiset (Located Thread TimerTask)}
  {calls : List (Call Thread TimerTask)}

/-- A step after `CancelTimer`. -/
theorem NotAgain.executes (notAgain : NotAgain timer limit world)
    (orderly : Orderly world ({(thread, task)} + rest))
    (alone : task = .readCallback → ∀ pass, (thread, .callExpired pass) ∉ rest)
    (executes : Executes thread choice world task next calls) : NotAgain timer limit next := by
  obtain ⟨⟨object, live, given⟩, run⟩ := notAgain
  have moves := executes.moves orderly.consistent timer
  rw [live] at moves
  refine ⟨?_, fun loop firing member about => ?_⟩
  · -- While the timer is in the batch, its loop is in the same pass and remembers it.
    have held : (object.place = .due ∨ object.place = .ran) →
        timer ∈ (world.queues object.loop).cancelingTimers →
        timer ∈ (next.queues object.loop).cancelingTimers ∧
          (next.queues object.loop).passes = (world.queues object.loop).passes := by
      intro batched member
      have within := orderly.not_begins alone live batched
      refine ⟨executes.canceling_kept within member, ?_⟩
      rw [executes.passes_eq, if_neg fun begins => within begins.1 begins.2, add_zero]
    generalize next.heap timer = changed at moves ⊢
    cases moves with
    | stays =>
        refine ⟨_, rfl, given.imp_right ?_⟩
        rintro ⟨batched, member, passes⟩
        obtain ⟨stillMember, samePasses⟩ := held batched member
        exact ⟨batched, stillMember, samePasses.trans passes⟩
    | inserted own place | erased own place | taken own place => simp [place] at given
    | run own place =>
        simp only [place, reduceCtorEq, or_false, false_or, true_and] at given
        obtain ⟨member, passes⟩ := given
        obtain ⟨stillMember, samePasses⟩ := held (.inl place) member
        exact ⟨_, rfl, .inr ⟨.inr rfl, stillMember, samePasses.trans passes⟩⟩
    | updated own place =>
        have member : timer ∈ (world.queues object.loop).cancelingTimers := by
          simp only [place, reduceCtorEq, false_or, or_true, true_and] at given
          exact given.1
        rw [own] at member
        refine ⟨_, rfl, .inl ?_⟩
        simp [Timer.endPass, member]
  · rw [executes.firings_append] at member
    rcases List.mem_append.mp member with before | new
    · exact run loop firing before about
    split_ifs at new with own
    · subst own
      obtain ⟨pass, entry, later, rfl, due, rfl⟩ := TimerTask.mem_firings.mp new
      subst about
      obtain ⟨object', live', own, place, -⟩ := orderly.next_due due
      cases live.symm.trans live'
      have passes : (world.queues loop).passes = limit loop := by
        simp only [place, reduceCtorEq, or_false, false_or, true_and, own] at given
        exact given.2
      have current := (orderly.recorded.passes loop pass (mem_first _ _)).current
      exact Nat.lt_of_succ_le (current.trans passes).le
    · cases new

/-- The step in which `CancelTimer` runs. -/
theorem notAgain_of_cancel
    (orderly : Orderly world ({(thread, .cancelTimer timer)} + rest))
    (live : world.heap timer = some object) (own : object.loop = thread)
    (inserted : object.place ≠ .functor)
    (executes : Executes thread choice world (.cancelTimer timer) next calls) :
    NotAgain timer (fun loop => (world.queues loop).passes) next := by
  have passes : ∀ loop, (next.queues loop).passes = (world.queues loop).passes := by
    intro loop
    rw [executes.passes_eq, if_neg (by simp), add_zero]
  have moves := executes.moves orderly.consistent timer
  rw [live] at moves
  refine ⟨?_, fun loop firing member _ => ?_⟩
  · generalize next.heap timer = changed at moves ⊢
    cases moves with
    | erased => exact ⟨_, rfl, .inl rfl⟩
    | stays untouched elsewhere =>
        refine ⟨_, rfl, ?_⟩
        by_cases released : object.place = .released
        · exact .inl released
        · have batched : object.place = .due ∨ object.place = .ran := by
            have notQueued := elsewhere rfl own
            cases place : object.place <;> simp_all
          have taken := executes.canceling_taken orderly live own batched
          exact .inr ⟨batched, taken, passes _⟩
  · rw [executes.firings_append, TimerTask.firings, ite_self, List.append_nil] at member
    exact orderly.recorded.begun loop firing member

/-- `CancelTimer` changes no other timer. -/
theorem Executes.cancel_heap
    (executes : Executes thread choice world (.cancelTimer timer) next calls)
    (different : other ≠ timer) : next.heap other = world.heap other := by
  cases executes with
  | expired live => rw [markCancelled_heap live, Function.update_of_ne different]
  | misses live =>
      rw [modifyQueue_heap, markCancelled_heap live, Function.update_of_ne different]
  | erases live => rw [erased_heap thread _ live, Function.update_of_ne different]

/-- The functor of `CancelTimer` calls nothing. -/
theorem Executes.cancel_calls
    (executes : Executes thread choice world (.cancelTimer timer) next calls) : calls = [] := by
  cases executes <;> rfl

/-- The functor of `CancelTimer` does not decide about other timers. -/
theorem Executes.cancel_willRestart
    (executes : Executes thread choice world (.cancelTimer timer) next calls)
    (different : other ≠ timer) (loop : Thread) :
    next.WillRestart loop other ↔ world.WillRestart loop other := by
  have canceling : other ∈ (next.queues loop).cancelingTimers ↔
      other ∈ (world.queues loop).cancelingTimers := by
    refine ⟨fun member => ?_, executes.canceling_kept (by simp)⟩
    rcases executes.canceling_new member with before | ⟨-, same⟩
    · exact before
    · cases same
      exact absurd rfl different
  rw [WillRestart, WillRestart, executes.cancel_heap different, canceling]

/-- The end of a pass restarts those timers of the batch. -/
theorem Executes.restarts_iff {pass : ExpiryPass} {entry : TimerEntry}
    (executes : Executes thread choice world (.callExpired pass) next calls)
    (consistent : Consistent world ({(thread, .callExpired pass)} + rest))
    (done : pass.rest = []) (member : entry ∈ pass.ran)
    (live : world.heap entry.second = some object) :
    ⟨pass.now + object.interval.nanos, entry.second⟩ ∈ (next.queues thread).timers ↔
      world.WillRestart thread entry.second := by
  rw [(consistent.executes executes).entries]
  have moves := executes.moves consistent entry.second
  rw [live] at moves
  generalize after : next.heap entry.second = changed at moves
  cases moves with
  | stays untouched =>
      have handled : entry.second ∈ (TimerTask.callExpired pass).handles := by
        simp only [TimerTask.handles, done]
        exact List.mem_map_of_mem member
      exact absurd handled untouched
  | run _ _ due => simp [done] at due
  | updated own =>
      let restarted : TimerEntry := ⟨pass.now + object.interval.nanos, entry.second⟩
      have found : next.heap restarted.second = _ := after
      rw [queued_iff found, Timer.endPass]
      split_ifs with restarts
      · obtain ⟨repeats, kept⟩ := Bool.and_eq_true_iff.mp restarts
        have restart : world.WillRestart thread entry.second :=
          ⟨⟨object, live, repeats⟩, by simpa using kept⟩
        refine iff_of_true ⟨(object.restart_loop _).trans own, rfl, ?_⟩ restart
        exact object.restart_expiration pass.now repeats
      · have not : ¬ world.WillRestart thread entry.second := by
          rintro ⟨⟨found, isFound, repeats⟩, kept⟩
          cases live.symm.trans isFound
          simp [repeats, kept] at restarts
        simp [not]

end Steps

variable [DecidableEq Thread] [Fintype Thread]
  {machine next : Machine (TimerWorld Thread) Thread TimerTask} {timer : TimerPtr}
  {label : Label Thread (TimerChoice Thread)}

/-- A step leaves the entry of a timer, its place in a batch and whether it will be restarted
as they are. -/
structure Spares (timer : TimerPtr) (machine next : Machine (TimerWorld Thread) Thread TimerTask) :
    Prop where
  entries : ∀ loop entry, entry.second = timer →
    (entry ∈ (next.client.queues loop).timers ↔ entry ∈ (machine.client.queues loop).timers)
  batches : ∀ loop pass, .task (.callExpired pass) ∈ next.calls loop ↔
    .task (.callExpired pass) ∈ machine.calls loop
  restarts : ∀ loop, next.client.WillRestart loop timer ↔ machine.client.WillRestart loop timer

/-- Once `CancelTimer` has run on the thread of the loop for a timer that was inserted, the timer
is in no queue in any later state, and its callback is run in none of the passes that begin
later; and the step spares all other timers. -/
theorem cancelled_timer_never_comes_back {object : Timer Thread} {choice : TimerChoice Thread}
    (reachable : system.Reachable LabelledSystem.unguarded machine)
    (executing : machine.executing label = some (.cancelTimer timer, choice))
    (stepped : machine.step client label = some next)
    (live : machine.client.heap timer = some object) (own : object.loop = label.thread)
    (inserted : object.place ≠ .functor) :
    (∀ labels later, system.Steps LabelledSystem.unguarded next labels later →
      (∀ loop, ∀ entry ∈ (later.client.queues loop).timers, entry.second ≠ timer) ∧
      ∀ loop, ∀ firing ∈ (later.client.queues loop).firings, firing.entry.second = timer →
        firing.pass < (machine.client.queues loop).passes) ∧
    ∀ other, other ≠ timer → Spares other machine next := by
  have reached : system.Reachable LabelledSystem.unguarded next := reachable.step trivial stepped
  obtain ⟨calls, rest, executes, orderly, before, after⟩ :=
    reachable_executing reachable executing stepped
  refine ⟨fun labels later steps => ?_, fun other different => ⟨fun loop entry about => ?_,
    fun loop pass => ?_, executes.cancel_willRestart different⟩⟩
  · have notAgain : NotAgain timer (fun loop => (machine.client.queues loop).passes)
        later.client := by
      refine reached.preserves (fun later => NotAgain timer
        (fun loop => (machine.client.queues loop).passes) later.client) (fun _ _ => id) ?_ steps
        (notAgain_of_cancel orderly live own inserted executes)
      intro before label after reached notAgain _ stepped
      cases reachable_runStep reached stepped with
      | executes _ _ orderly alone executes => exact notAgain.executes orderly alone executes
      | arrives same => exact same ▸ notAgain
    obtain ⟨⟨changed, found, given⟩, run⟩ := notAgain
    have arrived := reached.steps steps
    refine ⟨fun loop entry member => ?_, run⟩
    refine (reachable_orderly arrived).consistent.not_mem_timers found ?_ member
    intro place
    simp [place] at given
  · rw [(reachable_orderly reached).consistent.entries, orderly.consistent.entries]
    exact queued_congr (executes.cancel_heap (about ▸ different))
  · rw [pass_mem_calls reached, pass_mem_calls reachable, before, after, executes.cancel_calls]
    simp

/-- Two repeating timers in the batch of a pass at `6`. The callback of the first cancels the
second, which is still to be run. -/
def cancelDueRepeating : List (Label TwoThreads (TimerChoice TwoThreads)) :=
  turns 0 1 ++ adding 7 4 ⟨true, 3⟩ ++ adding 8 5 ⟨true, 3⟩ ++ turns 0 1 ++ startToPass ++
    [turn 0 { now := 6, readAt := 6 }] ++ turns 0 1 ++
    [turn 0 { action := .cancelTimer 0 8 }] ++ turns 0 1

/-- A repeating timer that is cancelled within the pass is not restarted. -/
theorem cancelled_timer_never_comes_back_cancelDueRepeating :
    ∃ machine next later : Machine (TimerWorld TwoThreads) TwoThreads TimerTask,
      machine.executing (turn 0 {}) = some (.cancelTimer 8, {}) ∧
      machine.step client (turn 0 {}) = some next ∧
      system.Steps LabelledSystem.unguarded next (turns 0 4) later ∧
      later.calls 0 = [] ∧
      (later.client.queues 0).timers.toList = [⟨9, 7⟩] ∧
      (∀ loop, ∀ firing ∈ (later.client.queues loop).firings, firing.entry.second = 8 →
        firing.pass < (machine.client.queues loop).passes) ∧
      Spares 7 machine next := by
  let machine := (system.run LabelledSystem.unguarded noTimers cancelDueRepeating).get
    (by decide +kernel)
  let next := (machine.step client (turn 0 {})).get (by decide +kernel)
  let later := (system.run LabelledSystem.unguarded next (turns 0 4)).get (by decide +kernel)
  have reachable : system.Reachable LabelledSystem.unguarded machine :=
    LabelledSystem.run_reachable noTimers_initial (Option.some_get _).symm
  have executing : machine.executing (turn 0 {}) = some (.cancelTimer 8, {}) := by decide +kernel
  have stepped : machine.step client (turn 0 {}) = some next := (Option.some_get _).symm
  let object := (machine.client.heap 8).get (by decide +kernel)
  have live : machine.client.heap 8 = some object := (Option.some_get _).symm
  have own : object.loop = (turn 0 {}).thread := by decide +kernel
  have inserted : object.place ≠ .functor := by decide +kernel
  have steps : system.Steps LabelledSystem.unguarded next (turns 0 4) later :=
    LabelledSystem.run_steps (Option.some_get _).symm
  obtain ⟨gone, spares⟩ :=
    cancelled_timer_never_comes_back reachable executing stepped live own inserted
  exact ⟨machine, next, later, executing, stepped, steps, by decide +kernel, by decide +kernel,
    (gone _ later steps).2, spares 7 (by decide)⟩

end TimerWorld

end Benet
