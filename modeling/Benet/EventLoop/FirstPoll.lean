import Benet.EventLoop.Wakeup
import Benet.Semantics.Observation

/-!
# Functors that wait for the first `Poll`

Before `Start` the loop's thread may already queue functors on its own loop, for example
in a `ThreadInitCallback`. `QueueInLoop` then writes no wakeup: the caller is the loop's
thread, and `calling_pendings_` is not set yet. An observer counts the calls of `Stop` with
which other threads have written the eventfd. `Machine.first_poll_not_blocked_iff` says
which queues the first `Poll` does not sleep on, and `Machine.first_poll_blocks` is a run
with one that it does.
-/

namespace Benet.EventLoop

open Semantics

variable {State Thread Task Choice : Type}

/-- The first `Poll` of `Start` has not returned yet. -/
def Loop.Unpolled (loop : Loop Thread Task) : Prop :=
  loop.iterations = 0 ∧ (loop.phase = .idle ∨ loop.phase = .head ∨ loop.phase = .poll)

/-- Up to there the loop thread changes nothing but its position. -/
theorem Loop.Moves.unpolled {user : Task} {polled : Option (List (Active Task))}
    {loop next : Loop Thread Task} {calls : List (Call Thread Task)}
    (moves : loop.Moves user polled next calls) (unpolled : next.Unpolled) :
    loop.Unpolled ∧ next = { loop with phase := next.phase } := by
  obtain ⟨none, phases⟩ := unpolled
  cases moves with
  | outside => exact ⟨⟨none, phases⟩, rfl⟩
  | iterate phase => exact ⟨⟨none, .inr (.inl phase)⟩, rfl⟩
  | finish => exact absurd none (Nat.succ_ne_zero _)
  | leave | poll | handled | wakeup | channel | swap | batched | begin | released | release =>
      simp [Loop.swapPendings] at phases

namespace Machine

/-- The next `Poll` of `loop` does not block, or another thread is between its push and
its `set_wakeup`. -/
def Signalled (machine : Machine State Thread Task) (loop : Thread) : Prop :=
  0 < (machine.loops loop).wakeupCount ∨
    ∃ thread, thread ≠ loop ∧ machine.inside thread = some (.wakeAfterPush loop)

/-- Another thread has queued one of the pending functors. -/
def QueuedByOther (machine : Machine State Thread Task) (loop : Thread) : Prop :=
  ∃ pending ∈ (machine.loops loop).pendings, pending.poster ≠ loop

/-- The thread is another one than the loop's, and its `Stop` of the loop comes to
`set_wakeup`. -/
def endsStop [DecidableEq Thread] (machine : Machine State Thread Task) (loop thread : Thread) :
    Bool :=
  match machine.inside thread with
  | some (.wakeAfterStop target) => target = loop ∧ thread ≠ loop
  | _ => false

/-- The number of calls of `Stop` for the loop by which other threads have written its
eventfd. -/
def stopObserver [DecidableEq Thread] (loop : Thread) :
    Observer (Machine State Thread Task) (Label Thread Choice) Nat where
  blank := 0
  note machine label _ stops := stops + (machine.endsStop loop label.thread).toNat

/-- What holds of a loop up to its first `Poll`: the eventfd is written by the threads that
have pushed a functor, and by those that have called `Stop`. -/
structure FirstPollLaw (machine : Machine State Thread Task) (loop : Thread) (stops : Nat) :
    Prop where
  calling : (machine.loops loop).callingPendings = false
  signalled : machine.QueuedByOther loop ∨ 0 < stops → machine.Signalled loop
  written : 0 < (machine.loops loop).wakeupCount → machine.QueuedByOther loop ∨ 0 < stops
  pushed : ∀ thread, thread ≠ loop → machine.inside thread = some (.wakeAfterPush loop) →
    machine.QueuedByOther loop

namespace FirstPollLaw

variable {machine next : Machine State Thread Task} {loop : Thread} {stops : Nat}

/-- A transition that moves the loop at most inside `Start`, and no other thread to or
from its way to this loop's eventfd. -/
theorem keep (law : machine.FirstPollLaw loop stops)
    (same : next.loops loop = { machine.loops loop with
      phase := (next.loops loop).phase, running := (next.loops loop).running })
    (pushing : ∀ thread, thread ≠ loop →
      (next.inside thread = some (.wakeAfterPush loop) ↔
        machine.inside thread = some (.wakeAfterPush loop))) :
    next.FirstPollLaw loop stops := by
  have pendings : (next.loops loop).pendings = (machine.loops loop).pendings := by rw [same]
  have count : (next.loops loop).wakeupCount = (machine.loops loop).wakeupCount := by rw [same]
  have queued : next.QueuedByOther loop ↔ machine.QueuedByOther loop := by
    rw [QueuedByOther, QueuedByOther, pendings]
  refine ⟨?_, fun caused => ?_, fun written => ?_, fun thread other inside => ?_⟩
  · rw [same]
    exact law.calling
  · rcases law.signalled (caused.imp_left queued.mp) with readable | ⟨thread, other, inside⟩
    · exact .inl (count ▸ readable)
    · exact .inr ⟨thread, other, (pushing thread other).mpr inside⟩
  · rw [queued]
    exact law.written (count ▸ written)
  · exact queued.mpr (law.pushed thread other ((pushing thread other).mp inside))

variable [DecidableEq Thread] {thread : Thread} {point : Option (Inside Thread Task)}

/-- The store of `Stop`. -/
theorem stop (law : machine.FirstPollLaw loop stops) {rest : List (Call Thread Task)}
    (outside : machine.inside thread = none) :
    (((machine.setCalls thread rest).modifyLoop loop Loop.quit).setInside thread
      (some (.wakeAfterStop loop))).FirstPollLaw loop stops := by
  refine ⟨by simpa [Loop.quit] using law.calling, fun caused => ?_, fun written => ?_,
    fun other different inside => ?_⟩
  · rcases law.signalled (by simpa [QueuedByOther, Loop.quit] using caused) with
      readable | ⟨other, different, inside⟩
    · exact .inl (by simpa [Loop.quit] using readable)
    · exact .inr ⟨other, different, setInside_of_inside (by simp [outside]) inside⟩
  · simpa [QueuedByOther, Loop.quit] using law.written (by simpa [Loop.quit] using written)
  · have pushing : machine.inside other = some (.wakeAfterPush loop) :=
      inside_of_setInside (by simp) inside
    simpa [QueuedByOther, Loop.quit] using law.pushed other different pushing

/-- A push: another thread that has made it is on its way to the eventfd. -/
theorem pushBack (law : machine.FirstPollLaw loop stops) {functor : Task} :
    ((machine.modifyLoop loop (Loop.push ⟨thread, functor⟩)).setInside thread
      (some (.wakeAfterPush loop))).FirstPollLaw loop stops := by
  have grows : machine.QueuedByOther loop ∨ thread ≠ loop →
      ((machine.modifyLoop loop (Loop.push ⟨thread, functor⟩)).setInside thread
        (some (.wakeAfterPush loop))).QueuedByOther loop := by
    rintro (⟨pending, member, different⟩ | different)
    · exact ⟨pending, by simpa [Loop.push] using .inl member, different⟩
    · exact ⟨⟨thread, functor⟩, by simp [Loop.push], different⟩
  refine ⟨by simpa [Loop.push] using law.calling, fun caused => ?_, fun written => ?_,
    fun other different inside => grows ?_⟩
  · by_cases own : thread = loop
    · -- the loop's own functor is not queued by another thread
      have before : machine.QueuedByOther loop ∨ 0 < stops := by
        refine caused.imp_left ?_
        rintro ⟨pending, member, different⟩
        have either : pending ∈ (machine.loops loop).pendings ∨ pending = ⟨thread, functor⟩ := by
          simpa [Loop.push] using member
        rcases either with old | rfl
        · exact ⟨pending, old, different⟩
        · exact absurd own different
      rcases law.signalled before with readable | ⟨poster, different, pushing⟩
      · exact .inl (by simpa [Loop.push] using readable)
      · have elsewhere : poster ≠ thread := own ▸ different
        exact .inr ⟨poster, different, by simpa [elsewhere] using pushing⟩
    · exact .inr ⟨thread, own, by simp⟩
  · exact (law.written (by simpa [Loop.push] using written)).imp_left fun byOther =>
      grows (.inl byOther)
  · by_cases same : other = thread
    · exact .inr (same ▸ different)
    · exact .inl (law.pushed other different (by simpa [same] using inside))

/-- The end of `QueueInLoop` or `Stop`. The loop's own thread writes nothing here, and any
other one has pushed before or is now counted. -/
theorem wake (law : machine.FirstPollLaw loop stops) {needed : Bool} {counted : Nat}
    (foreign : needed = true ↔ thread ≠ loop) (own : thread = loop → counted = stops)
    (more : stops ≤ counted) (cause : thread ≠ loop → machine.QueuedByOther loop ∨ 0 < counted) :
    ((machine.modifyLoop loop (Loop.wakeIf needed)).setInside thread none).FirstPollLaw loop
      counted := by
  have woken : Loop.wakeIf needed = fun loop : Loop Thread Task =>
      { loop with wakeupCount := loop.wakeupCount + needed.toNat } :=
    funext (Loop.wakeIf_eq needed)
  rw [woken]
  refine ⟨by simpa using law.calling, fun caused => ?_, fun written => ?_,
    fun other different inside => ?_⟩
  · by_cases same : thread = loop
    · rcases law.signalled (by simpa [QueuedByOther, own same] using caused) with
        readable | ⟨other, different, inside⟩
      · exact .inl (by simpa using Nat.lt_add_right _ readable)
      · have elsewhere : other ≠ thread := same ▸ different
        exact .inr ⟨other, different, by simpa [elsewhere] using inside⟩
    · exact .inl (by simp [foreign.mpr same])
  · have caused : machine.QueuedByOther loop ∨ 0 < counted := by
      by_cases same : thread = loop
      · have unneeded : needed = false := Bool.eq_false_iff.mpr (mt foreign.mp (by simp [same]))
        exact (law.written (by simpa [unneeded] using written)).imp_right fun some =>
          some.trans_le more
      · exact cause same
    simpa [QueuedByOther] using caused
  · have pushing : machine.inside other = some (.wakeAfterPush loop) :=
      inside_of_setInside (by simp) inside
    simpa [QueuedByOther] using law.pushed other different pushing

/-- A transition of a thread towards or inside a call that concerns another loop. -/
theorem elsewhere (law : machine.FirstPollLaw loop stops) {target : Thread}
    {rest : List (Call Thread Task)} {change : Loop Thread Task → Loop Thread Task}
    (different : loop ≠ target) (left : machine.inside thread ≠ some (.wakeAfterPush loop))
    (notPushing : point ≠ some (.wakeAfterPush loop)) :
    (((machine.setCalls thread rest).modifyLoop target change).setInside thread
      point).FirstPollLaw loop stops := by
  refine law.keep (by simp [different]) fun other _ => ⟨fun inside => ?_, fun inside => ?_⟩
  · exact inside_of_setInside notPushing inside
  · exact setInside_of_inside left inside

/-- Every transition keeps the law up to the first `Poll`, with the count of the observer. -/
theorem preserved {client : Client State Thread Task Choice} {label : Label Thread Choice}
    (laws : (machine.loops loop).Unpolled → machine.FirstPollLaw loop stops)
    (transition : Transition client machine label next) (unpolled : (next.loops loop).Unpolled) :
    next.FirstPollLaw loop (stops + (machine.endsStop loop label.thread).toNat) := by
  -- only the end of a `Stop` is counted
  have uncounted {thread : Thread} (elsewhere : ∀ target, machine.inside thread ≠
      some (.wakeAfterStop target)) : stops + (machine.endsStop loop thread).toNat = stops := by
    unfold endsStop
    split
    case h_1 target inside => exact absurd inside (elsewhere target)
    case h_2 => rfl
  cases transition with
  | exec outside | runHere outside =>
      rw [uncounted (by simp [outside])]
      exact (laws unpolled).keep rfl fun _ _ => .rfl
  | @post thread _ target functor call rest outside =>
      rw [uncounted (by simp [outside])]
      refine (laws unpolled).keep rfl fun other _ => ⟨fun inside => ?_, fun inside => ?_⟩
      · exact inside_of_setInside (by simp) inside
      · exact setInside_of_inside (by simp [outside]) inside
  | @stop thread _ target rest outside =>
      rw [uncounted (by simp [outside])]
      by_cases same : loop = target
      · subst same
        exact (laws (by simpa [Loop.Unpolled, Loop.quit] using unpolled)).stop outside
      · exact (laws (by simpa [same] using unpolled)).elsewhere same (by simp [outside]) (by simp)
  | @pushBack thread _ target functor inside =>
      rw [uncounted (by simp [inside])]
      by_cases same : loop = target
      · subst same
        exact (laws (by simpa [Loop.Unpolled, Loop.push] using unpolled)).pushBack
      · rw [← setCalls_self machine thread]
        exact (laws (by simpa [same] using unpolled)).elsewhere same (by simp [inside])
          (by simp [Ne.symm same])
  | @wakeAfterPush thread _ target inside =>
      rw [uncounted (by simp [inside])]
      by_cases same : loop = target
      · subst same
        have law := laws (by
          simpa [Loop.Unpolled, Loop.wakeAfterPush, Loop.wakeIf_eq] using unpolled)
        have quiet : Loop.wakeAfterPush (thread = loop) (machine.loops loop) =
            Loop.wakeIf (!decide (thread = loop)) (machine.loops loop) := by
          rw [Loop.wakeAfterPush, law.calling, Bool.or_false]
        have woken : ((machine.modifyLoop loop (Loop.wakeIf !decide (thread = loop))).setInside
            thread none).FirstPollLaw loop stops :=
          law.wake (by simp) (fun _ => rfl) le_rfl fun other => .inl (law.pushed thread other inside)
        simpa only [modifyLoop, quiet] using woken
      · rw [← setCalls_self machine thread]
        exact (laws (by simpa [same] using unpolled)).elsewhere same
          (by simp [inside, Ne.symm same]) (by simp)
  | @wakeAfterStop thread _ target inside =>
      by_cases same : loop = target
      · subst same
        have law := laws (by
          simpa [Loop.Unpolled, Loop.wakeAfterStop, Loop.wakeIf_eq] using unpolled)
        exact law.wake (by simp) (fun own => by simp [endsStop, own ▸ inside, own])
          (Nat.le_add_right _ _) fun other => .inr (by simp [endsStop, inside, other])
      · have other : stops + (machine.endsStop loop thread).toNat = stops := by
          simp [endsStop, inside, Ne.symm same]
        rw [other, ← setCalls_self machine thread]
        exact (laws (by simpa [same] using unpolled)).elsewhere same (by simp [inside]) (by simp)
  | @advance thread _ moved calls outside idle moves =>
      rw [uncounted (by simp [outside])]
      by_cases same : loop = thread
      · subst same
        obtain ⟨before, position⟩ := moves.unpolled (by simpa using unpolled)
        refine (laws before).keep ?_ fun _ _ => .rfl
        simp only [setCalls_loops, modifyLoop_loops, Function.update_self]
        rw [position]
      · exact (laws (by simpa [same] using unpolled)).keep (by simp [same]) fun _ _ => .rfl
  | @enter thread outside idle phase =>
      rw [uncounted (by simp [outside])]
      by_cases same : loop = thread
      · subst same
        exact (laws ⟨by simpa using unpolled.1, .inl phase⟩).keep (by simp) fun _ _ => .rfl
      · exact (laws (by simpa [same] using unpolled)).keep (by simp [same]) fun _ _ => .rfl

end FirstPollLaw

/-- The law holds in every run, with the count of its observer. -/
theorem reachable_firstPollLaw [DecidableEq Thread] {client : Client State Thread Task Choice}
    {Initial : State → Prop} {guard : Machine State Thread Task → Label Thread Choice → Prop}
    {machine : Machine State Thread Task} {loop : Thread} {stops : Nat}
    (reachable : ((system client Initial).observed (stopObserver loop)).Reachable
      (LabelledSystem.beside guard) (machine, stops)) :
    (machine.loops loop).Unpolled → machine.FirstPollLaw loop stops := by
  refine (LabelledSystem.Reachable.observed_invariant (fun machine stops =>
    (machine.loops loop).Unpolled → machine.FirstPollLaw loop stops) ?_ ?_ reachable).2
  · rintro _ ⟨state, -, rfl⟩ -
    constructor <;> simp [QueuedByOther, stopObserver]
  · intro _ _ _ _ _ laws _ stepped
    exact FirstPollLaw.preserved laws (step_transition stepped)

/-- In every run, where the thread of a loop enters the first `Poll` of `Start`: if functors
are pending, then the eventfd is readable or another thread is between its push and its
`set_wakeup`. This holds if and only if none are pending, or another thread has queued one
of them, or another thread's `Stop` is past its `set_wakeup`. -/
theorem first_poll_not_blocked_iff [DecidableEq Thread] {client : Client State Thread Task Choice}
    {Initial : State → Prop} {machine : Machine State Thread Task} (loop : Thread) {stops : Nat}
    (reachable : ((system client Initial).observed (stopObserver loop)).Reachable
      (LabelledSystem.beside LabelledSystem.unguarded) (machine, stops))
    (entersPoll : (machine.loops loop).phase = .poll)
    (first : (machine.loops loop).iterations = 0) :
    ((machine.loops loop).pendings ≠ [] →
        0 < (machine.loops loop).wakeupCount ∨
          ∃ thread, thread ≠ loop ∧ machine.inside thread = some (.wakeAfterPush loop)) ↔
      (machine.loops loop).pendings = [] ∨
        (∃ pending ∈ (machine.loops loop).pendings, pending.poster ≠ loop) ∨ 0 < stops := by
  have law := reachable_firstPollLaw reachable ⟨first, .inr (.inr entersPoll)⟩
  constructor
  · intro signalled
    by_cases waiting : (machine.loops loop).pendings = []
    · exact .inl waiting
    · rcases signalled waiting with readable | ⟨thread, other, inside⟩
      · exact .inr (law.written readable)
      · exact .inr (.inl (law.pushed thread other inside))
  · rintro (none | caused) waiting
    · exact absurd none waiting
    · exact law.signalled caused

/-- Thread `0` queues `7` on its own loop and thread `1` queues `8`, which it has just
pushed; then thread `0` enters `Start`. -/
def queueBeforeStart : List (Label TwoThreads (FreeChoice TwoThreads Nat)) :=
  [.calls 0 [], .calls 0 [.queueInLoop 0 7], .calls 0 [], .calls 0 [], .calls 0 [],
    .calls 1 [], .calls 1 [.queueInLoop 0 8], .calls 1 [], .calls 1 [],
    ⟨0, .start⟩, .polls 0 []]

/-- With a functor of another thread in the queue the first `Poll` is woken. -/
theorem first_poll_not_blocked_queueBeforeStart :
    ∃ machine, freeSystem.Reachable LabelledSystem.unguarded machine ∧
      (machine.loops 0).pendings = [⟨0, 7⟩, ⟨1, 8⟩] ∧
      (0 < (machine.loops 0).wakeupCount ∨
        ∃ thread, thread ≠ 0 ∧ machine.inside thread = some (.wakeAfterPush 0)) := by
  let observation := ((freeSystem.observed (stopObserver 0)).run
    (LabelledSystem.beside LabelledSystem.unguarded) ({ client := () }, 0) queueBeforeStart).get
    (by decide)
  have reachable : (freeSystem.observed (stopObserver 0)).Reachable
      (LabelledSystem.beside LabelledSystem.unguarded) observation :=
    LabelledSystem.run_reachable ⟨⟨(), trivial, rfl⟩, rfl⟩ (Option.some_get _).symm
  have enters : (observation.1.loops 0).phase = .poll := by decide
  have first : (observation.1.loops 0).iterations = 0 := by decide
  have pendings : (observation.1.loops 0).pendings = [⟨0, 7⟩, ⟨1, 8⟩] := by decide
  have unobserved := LabelledSystem.Reachable.unobserved reachable
  clear_value observation
  obtain ⟨machine, stops⟩ := observation
  dsimp only at enters first pendings unobserved
  have signalled := (first_poll_not_blocked_iff 0 reachable enters first).mpr
    (.inr (.inl ⟨⟨1, 8⟩, by simp [pendings], by decide⟩))
  exact ⟨machine, unobserved, pendings, signalled (by simp [pendings])⟩

/-- Only the loop's own thread queues before `Start`. -/
def queueOnOwnLoop : List (Label TwoThreads (FreeChoice TwoThreads Nat)) :=
  [.calls 0 [], .calls 0 [.queueInLoop 0 7], .calls 0 [], .calls 0 [], .calls 0 [],
    ⟨0, .start⟩, .polls 0 []]

/-- Then the first `Poll` finds a functor waiting and nothing that would wake it. -/
theorem first_poll_blocks :
    ∃ machine, freeSystem.Reachable LabelledSystem.unguarded machine ∧
      (machine.loops 0).phase = .poll ∧ (machine.loops 0).iterations = 0 ∧
      (machine.loops 0).pendings = [⟨0, 7⟩] ∧
      ¬(0 < (machine.loops 0).wakeupCount ∨
        ∃ thread, thread ≠ 0 ∧ machine.inside thread = some (.wakeAfterPush 0)) := by
  let machine := (freeSystem.run LabelledSystem.unguarded { client := () } queueOnOwnLoop).get
    (by decide)
  exact ⟨machine, LabelledSystem.run_reachable ⟨(), trivial, rfl⟩ (Option.some_get _).symm,
    by decide, by decide, by decide, by decide⟩

end Machine

end Benet.EventLoop
