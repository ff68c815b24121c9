import Benet.Timer.Passes

/-!
# What `CancelTimer` leaves behind

`AddTimer` and `CancelTimer` go through `RunInLoop`, which executes at once on the
loop's own thread and is deferred on any other. So a `CancelTimer` on the loop's
thread can overtake the functor of an `AddTimer` from another thread: it finds
nothing, and the timer is inserted and run afterwards. A `CancelTimer` from a
callback is also too late for a timer that waits in the batch of the same pass.
When neither is the case, a timer for which `CancelTimer` has run is given up: it has
been released, or it has just been run and is in `canceling_timers_`.
-/

namespace Benet

open EventLoop Semantics

namespace TimerWorld

variable {Thread : Type}

/-- A timer for which `CancelTimer` has run is given up, or will be at the end of the
pass that has run its callback. -/
def GivenUp (world : TimerWorld Thread) (timer : TimerPtr) (object : Timer Thread) : Prop :=
  object.place = .released ∨
    object.place = .ran ∧ timer ∈ (world.queues object.loop).cancelingTimers

/-- The cancelled timers are given up. -/
def KeepsCancelled (world : TimerWorld Thread) : Prop :=
  ∀ timer object, world.heap timer = some object → object.cancelled = true →
    world.GivenUp timer object

variable [DecidableEq Thread]

/-- `CancelTimer` runs for a timer of the loop neither before the functor of
`AddTimer` nor while the timer waits in an expired batch. -/
def cancelsInTime (thread : Thread) (task : TimerTask) (_ : TimerChoice Thread)
    (world : TimerWorld Thread) : Prop :=
  match task with
  | .cancelTimer timer => ∀ object ∈ world.heap timer, object.loop = thread →
      object.place ≠ .functor ∧ object.place ≠ .due
  | .user | .addTimer _ | .addTimerReturns _ | .readCallback | .callExpired _ => True

instance (thread : Thread) (task : TimerTask) (choice : TimerChoice Thread)
    (world : TimerWorld Thread) : Decidable (cancelsInTime thread task choice world) :=
  match task with
  | .cancelTimer timer => inferInstanceAs (Decidable (∀ object ∈ world.heap timer,
      object.loop = thread → object.place ≠ .functor ∧ object.place ≠ .due))
  | .user | .addTimer _ | .addTimerReturns _ | .readCallback | .callExpired _ => .isTrue trivial

section KeepsCancelled

variable {world next : TimerWorld Thread} {thread : Thread} {timer : TimerPtr}
  {object : Timer Thread} {task : TimerTask} {choice : TimerChoice Thread}
  {rest : Multiset (Located Thread TimerTask)} {calls : List (Call Thread TimerTask)}

omit [DecidableEq Thread] in
/-- A timer that is neither given up nor run yet is not cancelled. -/
theorem KeepsCancelled.not_cancelled (keeps : world.KeepsCancelled)
    (live : world.heap timer = some object) (notReleased : object.place ≠ .released)
    (notRan : object.place ≠ .ran) : ¬ object.cancelled = true := by
  intro cancelled
  rcases keeps timer object live cancelled with released | ⟨ran, -⟩
  · exact notReleased released
  · exact notRan ran

/-- `CancelTimer` of a timer of a batch tells the pass not to restart it. -/
theorem Executes.canceling_taken
    (executes : Executes thread choice world (.cancelTimer timer) next calls)
    (orderly : Orderly world ({(thread, .cancelTimer timer)} + rest))
    (live : world.heap timer = some object) (own : object.loop = thread)
    (batched : object.place = .due ∨ object.place = .ran) :
    timer ∈ (next.queues object.loop).cancelingTimers := by
  have running := orderly.consistent.pass_of_batched live batched
  rw [own] at running ⊢
  exact executes.canceling_batched orderly.consistent live batched
    ((calling_iff orderly.calling).mpr running)

/-- A step that cancels a timer gives it up, and no step takes a cancelled one back. -/
theorem KeepsCancelled.executes (keeps : world.KeepsCancelled)
    (orderly : Orderly world ({(thread, task)} + rest))
    (alone : task = .readCallback → ∀ pass, (thread, .callExpired pass) ∉ rest)
    (admitted : cancelsInTime thread task choice world)
    (executes : Executes thread choice world task next calls) : next.KeepsCancelled := by
  intro timer changed after cancelled
  have moves := executes.moves orderly.consistent timer
  rw [after] at moves
  generalize live : world.heap timer = before at moves
  cases moves with
  | allocated => cases cancelled
  | @stays _ object _ untouched elsewhere =>
      simp only [Bool.or_eq_true, decide_eq_true_eq] at cancelled
      rcases cancelled with already | ⟨rfl, own⟩
      · rcases keeps timer object live already with gone | ⟨ran, member⟩
        · exact .inl gone
        · have within := orderly.not_begins alone live (.inr ran)
          exact .inr ⟨ran, executes.canceling_kept within member⟩
      · obtain ⟨notPending, notDue⟩ := admitted object live own
        cases place : object.place with
        | functor => exact absurd place notPending
        | timers => exact absurd place (elsewhere rfl own)
        | due => exact absurd place notDue
        | released => exact .inl rfl
        | ran =>
            have taken := executes.canceling_taken orderly live own (.inr place)
            exact .inr ⟨rfl, taken⟩
  | inserted own place | taken own place | run own place =>
      have not := keeps.not_cancelled live (by simp [place]) (by simp [place])
      exact absurd cancelled not
  | erased => exact .inl rfl
  | @updated object pass own place done =>
      unfold Timer.endPass at cancelled ⊢
      split_ifs at cancelled ⊢ with restarts
      · -- The pass would have found the timer in `canceling_timers_`.
        simp only [Bool.and_eq_true, Bool.not_eq_true', decide_eq_false_iff_not] at restarts
        rw [Timer.restart_cancelled] at cancelled
        rcases keeps timer object live cancelled with gone | ⟨-, member⟩
        · simp [place] at gone
        · exact absurd (own ▸ member) restarts.2
      · exact .inl rfl

end KeepsCancelled

/-- Cancelled timers are given up in every run that cancels in time. -/
theorem reachable_keepsCancelled [Fintype Thread]
    {machine : Machine (TimerWorld Thread) Thread TimerTask}
    (reachable : system.Reachable (Machine.onExec cancelsInTime) machine) :
    machine.client.KeepsCancelled := by
  refine reachable.invariant (fun machine => machine.client.KeepsCancelled) ?_ ?_
  · rintro _ ⟨_, rfl, rfl⟩
    intro timer object live
    cases live
  · intro machine label next reached keeps admitted stepped
    cases reachable_runStep reached stepped with
    | executes executing _ orderly alone executes =>
        exact keeps.executes orderly alone (admitted _ executing) executes
    | arrives same => exact same ▸ keeps

end TimerWorld

end Benet
