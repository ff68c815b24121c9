import Benet.EventLoop.Transition

/-!
# No wakeup is lost

`QueueInLoop` and `Stop` write the eventfd only when the loop thread might be
blocked: always from another thread, and from the loop thread itself only while
`calling_pendings_` is set. `Machine.WakeupLaw` is the invariant that makes the
omissions safe: from the swap of `pendings_` up to the next `Poll`, whatever has
been pushed since is covered by the count or by a thread on its way to raise it.
-/

namespace Benet.EventLoop

open Semantics

variable {State Thread Task Choice : Type}

/-- Phases in which the loop thread executes statements of `Start` and nothing
else: it is inside no call and has none to make. -/
def Phase.quiet : Phase Thread Task → Prop
  | .head | .poll | .swap | .finish => True
  | _ => False

/-- Phases between the two stores to `calling_pendings_`. -/
def Phase.calling : Phase Thread Task → Prop
  | .swap | .batch _ _ | .release _ | .finish => True
  | _ => False

/-- The loop is past its swap and has something that the next `Poll` must not
sleep on. At the head and at `Poll` this is claimed once an iteration has been
completed. -/
def Loop.mustWake (loop : Loop Thread Task) : Prop :=
  match loop.phase with
  | .batch _ _ | .release _ | .finish => loop.pendings ≠ []
  | .head => 0 < loop.iterations ∧ loop.pendings ≠ []
  | .poll => 0 < loop.iterations ∧ (loop.pendings ≠ [] ∨ loop.quitting = true)
  | _ => False

/-- A move that leaves the head, or changes no queue, keeps the obligation. -/
theorem Loop.Moves.mustWake {user : Task} {polled : Option (List (Active Task))}
    {loop next : Loop Thread Task} {calls : List (Call Thread Task)}
    (moves : loop.Moves user polled next calls) (must : next.mustWake) :
    loop.mustWake ∧ next.wakeupCount = loop.wakeupCount := by
  cases moves with
  | outside => exact ⟨must, rfl⟩
  | iterate phase quitting =>
      simp only [Loop.mustWake, quitting, Bool.false_eq_true, or_false] at must
      exact ⟨by simpa only [Loop.mustWake, phase] using must, rfl⟩
  | swap phase => exact absurd rfl must
  | batched phase | begin phase | released phase | release phase =>
      exact ⟨by simpa only [Loop.mustWake, phase] using must, rfl⟩
  | finish phase => exact ⟨by simpa only [Loop.mustWake, phase] using must.2, rfl⟩
  | leave phase | poll phase | handled phase | wakeup phase | channel phase => exact must.elim

/-- The statements of `Start` that a quiet phase follows make no call. -/
theorem Loop.Moves.quiet {user : Task} {polled : Option (List (Active Task))}
    {loop next : Loop Thread Task} {calls : List (Call Thread Task)}
    (moves : loop.Moves user polled next calls) (quiet : next.phase.quiet) : calls = [] := by
  cases moves with
  | outside phase => rcases phase with phase | phase <;> simp [phase, Phase.quiet] at quiet
  | channel | begin | release => exact quiet.elim
  | leave | iterate | poll | handled | wakeup | swap | batched | released | finish => rfl

/-- `calling_pendings_` is set before the swap and cleared after the release. -/
theorem Loop.Moves.calling {user : Task} {polled : Option (List (Active Task))}
    {loop next : Loop Thread Task} {calls : List (Call Thread Task)}
    (moves : loop.Moves user polled next calls)
    (before : loop.phase.calling → loop.callingPendings = true) (calling : next.phase.calling) :
    next.callingPendings = true := by
  cases moves with
  | outside => exact before calling
  | handled => rfl
  | swap phase | batched phase | begin phase | released phase | release phase =>
      exact before (by simp [phase, Phase.calling])
  | leave | iterate | poll | wakeup | channel | finish => exact calling.elim

namespace Machine

/-- The next `Poll` of `loop` does not block, or another thread is between its
push (or its store to `quitting_`) and its `set_wakeup`. -/
def Covered (machine : Machine State Thread Task) (loop : Thread) : Prop :=
  0 < (machine.loops loop).wakeupCount ∨
    ∃ thread, thread ≠ loop ∧
      (machine.inside thread = some (.wakeAfterPush loop) ∨
        machine.inside thread = some (.wakeAfterStop loop))

/-- What holds of one loop between any two transitions. -/
structure WakeupLaw (machine : Machine State Thread Task) (loop : Thread) : Prop where
  quiet : (machine.loops loop).phase.quiet →
    machine.calls loop = [] ∧ machine.inside loop = none
  calling : (machine.loops loop).phase.calling → (machine.loops loop).callingPendings = true
  fresh : (machine.loops loop).phase = .idle → (machine.loops loop).iterations = 0
  covered : (machine.loops loop).mustWake →
    machine.Covered loop ∨ machine.inside loop = some (.wakeAfterPush loop)

/-- Coverage survives as long as the count does not fall and the threads on
their way to raise it stay there or arrive. -/
theorem Covered.keep {machine next : Machine State Thread Task} {loop : Thread}
    (covered : machine.Covered loop)
    (count : (machine.loops loop).wakeupCount ≤ (next.loops loop).wakeupCount)
    (inside : ∀ thread, machine.inside thread = some (.wakeAfterPush loop) ∨
        machine.inside thread = some (.wakeAfterStop loop) → thread ≠ loop →
      next.inside thread = machine.inside thread ∨ 0 < (next.loops loop).wakeupCount) :
    next.Covered loop := by
  rcases covered with positive | ⟨thread, other, coming⟩
  · exact .inl (by omega)
  · rcases inside thread coming other with same | positive
    · exact .inr ⟨thread, other, by rwa [same]⟩
    · exact .inl positive

namespace WakeupLaw

variable {machine : Machine State Thread Task} {client : Client State Thread Task Choice}

/-- A thread that makes a call is not in a quiet phase of its own loop. -/
private theorem not_quiet_of_call {thread : Thread} {call : Call Thread Task}
    {rest : List (Call Thread Task)} (law : machine.WakeupLaw thread)
    (top : machine.calls thread = call :: rest) : ¬ (machine.loops thread).phase.quiet := by
  intro quiet
  rw [(law.quiet quiet).1] at top
  cases top

/-- Neither is a thread inside a call. -/
private theorem not_quiet_of_inside {thread : Thread} {point : Inside Thread Task}
    (law : machine.WakeupLaw thread) (inside : machine.inside thread = some point) :
    ¬ (machine.loops thread).phase.quiet := by
  intro quiet
  rw [(law.quiet quiet).2] at inside
  cases inside

/-- A transition of `thread` that leaves the loops alone and moves the thread
from no point to one that does not concern `loop`. -/
theorem of_calls (laws : ∀ loop, machine.WakeupLaw loop) {next : Machine State Thread Task}
    {thread : Thread} {call : Call Thread Task} {rest : List (Call Thread Task)}
    (outside : machine.inside thread = none) (top : machine.calls thread = call :: rest)
    (loops : next.loops = machine.loops)
    (calls : ∀ other, other ≠ thread → next.calls other = machine.calls other)
    (inside : ∀ other, other ≠ thread → next.inside other = machine.inside other)
    (loop : Thread) : next.WakeupLaw loop := by
  have law := laws loop
  refine ⟨fun quiet => ?_, ?_, ?_, fun must => ?_⟩
  · rw [loops] at quiet
    have other : loop ≠ thread := by
      rintro rfl
      exact law.not_quiet_of_call top quiet
    rw [calls loop other, inside loop other]
    exact law.quiet quiet
  · rw [loops]
    exact law.calling
  · rw [loops]
    exact law.fresh
  · rw [loops] at must
    rcases law.covered must with covered | own
    · have count : (machine.loops loop).wakeupCount ≤ (next.loops loop).wakeupCount :=
        Nat.le_of_eq (by rw [loops])
      refine .inl (covered.keep count fun other coming _ => .inl (inside other ?_))
      rintro rfl
      simp [outside] at coming
    · refine .inr ((inside loop ?_).trans own)
      rintro rfl
      simp [outside] at own

variable [DecidableEq Thread]

/-- A busy thread touches one loop without moving it through `Start`, and leaves
a point that concerned at most that loop. What remains to be shown is the
obligation of the touched loop. -/
theorem touch (laws : ∀ loop, machine.WakeupLaw loop) {thread target : Thread}
    {rest : List (Call Thread Task)} {change : Loop Thread Task → Loop Thread Task}
    {point : Option (Inside Thread Task)} (busy : ¬ (machine.loops thread).phase.quiet)
    (phase : (change (machine.loops target)).phase = (machine.loops target).phase)
    (calling : (change (machine.loops target)).callingPendings =
      (machine.loops target).callingPendings)
    (iterations : (change (machine.loops target)).iterations = (machine.loops target).iterations)
    (left : ∀ loop, machine.inside thread = some (.wakeAfterPush loop) ∨
      machine.inside thread = some (.wakeAfterStop loop) → loop = target)
    (owed : (change (machine.loops target)).mustWake →
      (((machine.setCalls thread rest).modifyLoop target change).setInside thread point).Covered
          target ∨
        target = thread ∧ point = some (.wakeAfterPush target))
    (loop : Thread) :
    (((machine.setCalls thread rest).modifyLoop target change).setInside thread point).WakeupLaw
      loop := by
  have law := laws loop
  have stillQuiet : (machine.loops loop).phase.quiet →
      Function.update machine.calls thread rest loop = [] ∧
        Function.update machine.inside thread point loop = none := by
    intro quiet
    have other : loop ≠ thread := by
      rintro rfl
      exact busy quiet
    simpa [other] using law.quiet quiet
  by_cases same : loop = target
  · subst same
    constructor
    · simpa [phase] using stillQuiet
    · simpa [phase, calling] using law.calling
    · simpa [phase, iterations] using law.fresh
    · intro must
      rcases owed (by simpa using must) with covered | ⟨rfl, rfl⟩
      · exact .inl covered
      · exact .inr (by simp)
  · constructor
    · simpa [same] using stillQuiet
    · simpa [same] using law.calling
    · simpa [same] using law.fresh
    · intro must
      rcases law.covered (by simpa [same] using must) with covered | own
      · refine .inl (covered.keep (by simp [same]) fun other coming _ => .inl ?_)
        have different : other ≠ thread := by
          rintro rfl
          exact same (left loop coming)
        simp [different]
      · exact .inr (setInside_of_inside (fun leaves => same (left loop (.inl leaves))) own)

/-- Storing `quitting_`: another thread is then on its way to the eventfd, and
the loop's own thread is in no phase whose obligation mentions `quitting_`. -/
theorem stop (laws : ∀ loop, machine.WakeupLaw loop) {thread target : Thread}
    {rest : List (Call Thread Task)} (outside : machine.inside thread = none)
    (top : machine.calls thread = .stop target :: rest) (loop : Thread) :
    (((machine.setCalls thread rest).modifyLoop target Loop.quit).setInside thread
      (some (.wakeAfterStop target))).WakeupLaw loop := by
  have busy := (laws thread).not_quiet_of_call top
  refine touch laws busy rfl rfl rfl (by simp [outside]) (fun must => .inl ?_) loop
  by_cases own : thread = target
  · subst own
    have before : (machine.loops thread).mustWake := by
      unfold Loop.mustWake at must ⊢
      simp only [Loop.quit] at must
      split at must <;> simp_all [Phase.quiet]
    rcases (laws thread).covered before with covered | inside
    · refine covered.keep (by simp [Loop.quit]) fun other _ different => .inl ?_
      simp [different]
    · simp [outside] at inside
  · exact .inr ⟨thread, own, by simp⟩

/-- Pushing: the pushing thread is then on its way to the eventfd. -/
theorem pushBack (laws : ∀ loop, machine.WakeupLaw loop) {thread target : Thread}
    {functor : Task} (inside : machine.inside thread = some (.pushBack target functor))
    (loop : Thread) :
    ((machine.modifyLoop target (Loop.push ⟨thread, functor⟩)).setInside thread
      (some (.wakeAfterPush target))).WakeupLaw loop := by
  have busy := (laws thread).not_quiet_of_inside inside
  rw [← setCalls_self machine thread]
  refine touch laws busy rfl rfl rfl (by simp [inside]) (fun _ => ?_) loop
  by_cases own : thread = target
  · exact .inr ⟨own.symm, rfl⟩
  · exact .inl (.inr ⟨thread, own, by simp⟩)

/-- The tail of `QueueInLoop`. The write is omitted only on the loop thread
outside the pending phase, where nothing is owed. -/
theorem wakeAfterPush (laws : ∀ loop, machine.WakeupLaw loop) {thread target : Thread}
    (inside : machine.inside thread = some (.wakeAfterPush target)) (loop : Thread) :
    ((machine.modifyLoop target (Loop.wakeAfterPush (thread = target))).setInside thread
      none).WakeupLaw loop := by
  have busy := (laws thread).not_quiet_of_inside inside
  rw [← setCalls_self machine thread]
  refine touch laws busy (by simp [Loop.wakeAfterPush, Loop.wakeIf_eq])
    (by simp [Loop.wakeAfterPush, Loop.wakeIf_eq]) (by simp [Loop.wakeAfterPush, Loop.wakeIf_eq])
    (by simp [inside]) (fun must => .inl ?_) loop
  by_cases written : thread ≠ target ∨ (machine.loops target).callingPendings = true
  · refine .inl ?_
    have wakes : (!decide (thread = target) || (machine.loops target).callingPendings) = true := by
      simpa using written
    simp [Loop.wakeAfterPush, Loop.wakeIf, wakes, Loop.setWakeup]
  · obtain ⟨rfl, notCalling⟩ : thread = target ∧ (machine.loops target).callingPendings = false := by
      simpa using written
    have quietOrCalling : (machine.loops thread).phase.quiet ∨
        (machine.loops thread).phase.calling := by
      have unchanged : (machine.loops thread).mustWake := by
        simpa [Loop.wakeAfterPush, Loop.wakeIf, notCalling] using must
      unfold Loop.mustWake at unchanged
      split at unchanged <;> simp_all [Phase.quiet, Phase.calling]
    rcases quietOrCalling with quiet | calling
    · exact absurd quiet busy
    · rw [(laws thread).calling calling] at notCalling
      cases notCalling

/-- The tail of `Stop`. -/
theorem wakeAfterStop (laws : ∀ loop, machine.WakeupLaw loop) {thread target : Thread}
    (inside : machine.inside thread = some (.wakeAfterStop target)) (loop : Thread) :
    ((machine.modifyLoop target (Loop.wakeAfterStop (thread = target))).setInside thread
      none).WakeupLaw loop := by
  have busy := (laws thread).not_quiet_of_inside inside
  rw [← setCalls_self machine thread]
  refine touch laws busy (by simp [Loop.wakeAfterStop, Loop.wakeIf_eq])
    (by simp [Loop.wakeAfterStop, Loop.wakeIf_eq]) (by simp [Loop.wakeAfterStop, Loop.wakeIf_eq])
    (by simp [inside]) (fun must => .inl ?_) loop
  by_cases own : thread = target
  · subst own
    have before : (machine.loops thread).mustWake := by
      simpa [Loop.wakeAfterStop, Loop.wakeIf] using must
    rcases (laws thread).covered before with covered | atPush
    · refine covered.keep (by simp [Loop.wakeAfterStop, Loop.wakeIf]) fun other _ different => .inl ?_
      simp [different]
    · simp [inside] at atPush
  · exact .inl (by simp [Loop.wakeAfterStop, Loop.wakeIf, own, Loop.setWakeup])

/-- A move of a loop thread. -/
theorem advance (laws : ∀ loop, machine.WakeupLaw loop) {thread : Thread} {user : Task}
    {polled : Option (List (Active Task))} {next : Loop Thread Task}
    {calls : List (Call Thread Task)} (outside : machine.inside thread = none)
    (moves : (machine.loops thread).Moves user polled next calls) (loop : Thread) :
    ((machine.modifyLoop thread fun _ => next).setCalls thread calls).WakeupLaw loop := by
  have law := laws loop
  by_cases same : loop = thread
  · subst same
    constructor
    · simpa [outside] using moves.quiet
    · simpa using moves.calling law.calling
    · intro idle
      have unmoved := moves.eq_of_idle (by simpa using idle)
      simpa [unmoved] using law.fresh (by simpa [unmoved] using idle)
    · intro must
      obtain ⟨before, count⟩ := moves.mustWake (by simpa using must)
      rcases law.covered before with covered | inside
      · exact .inl (covered.keep (by simp [count]) fun _ _ _ => .inl rfl)
      · simp [outside] at inside
  · constructor
    · simpa [same] using law.quiet
    · simpa [same] using law.calling
    · simpa [same] using law.fresh
    · intro must
      rcases law.covered (by simpa [same] using must) with covered | inside
      · exact .inl (covered.keep (by simp [same]) fun _ _ _ => .inl rfl)
      · exact .inr inside

/-- Entering `Start`: no iteration has been completed. -/
theorem enter (laws : ∀ loop, machine.WakeupLaw loop) {thread : Thread}
    (outside : machine.inside thread = none) (idle : machine.calls thread = [])
    (phase : (machine.loops thread).phase = .idle) (loop : Thread) :
    (machine.modifyLoop thread fun loop =>
      { loop with phase := .head, running := true }).WakeupLaw loop := by
  have law := laws loop
  by_cases same : loop = thread
  · subst same
    constructor
    · simp [outside, idle]
    · simp [Phase.calling]
    · simp
    · simp [Loop.mustWake, law.fresh phase]
  · constructor
    · simpa [same] using law.quiet
    · simpa [same] using law.calling
    · simpa [same] using law.fresh
    · intro must
      rcases law.covered (by simpa [same] using must) with covered | inside
      · exact .inl (covered.keep (by simp [same]) fun _ _ _ => .inl rfl)
      · exact .inr inside

/-- Every transition keeps the law of every loop. -/
theorem preserved (laws : ∀ loop, machine.WakeupLaw loop) {next : Machine State Thread Task}
    {label : Label Thread Choice} (transition : Transition client machine label next)
    (loop : Thread) : next.WakeupLaw loop := by
  cases transition with
  | exec outside top | runHere outside top | post outside top =>
      refine of_calls laws outside top ?_ (fun other different => ?_)
        (fun other different => ?_) loop
      · rfl
      · simp [different]
      · simp [different]
  | stop outside top => exact stop laws outside top loop
  | pushBack inside => exact pushBack laws inside loop
  | wakeAfterPush inside => exact wakeAfterPush laws inside loop
  | wakeAfterStop inside => exact wakeAfterStop laws inside loop
  | advance outside _ moves => exact advance laws outside moves loop
  | enter outside idle phase => exact enter laws outside idle phase loop

end WakeupLaw

/-- The law of wakeups holds for every loop in every run. -/
theorem reachable_wakeupLaw [DecidableEq Thread] {client : Client State Thread Task Choice}
    {Initial : State → Prop} {guard : Machine State Thread Task → Label Thread Choice → Prop}
    {machine : Machine State Thread Task}
    (reachable : (system client Initial).Reachable guard machine) :
    ∀ loop, machine.WakeupLaw loop := by
  refine reachable.invariant (fun machine => ∀ loop, machine.WakeupLaw loop)
    (fun _ initial => ?_) fun _ _ _ _ laws _ stepped =>
      WakeupLaw.preserved laws (step_transition stepped)
  obtain ⟨state, _, rfl⟩ := initial
  exact fun _ => ⟨fun quiet => quiet.elim, fun calling => calling.elim, fun _ => rfl,
    fun must => must.elim⟩

/-- No lost wakeup: when the thread of a loop that has completed an iteration of
`Start` enters `Poll` with pending functors or with `quitting_` set, the eventfd
is readable or another thread is between its push (or its store) and its
`set_wakeup`. -/
theorem poll_not_blocked [DecidableEq Thread] {client : Client State Thread Task Choice}
    {Initial : State → Prop} {machine : Machine State Thread Task}
    (reachable : (system client Initial).Reachable LabelledSystem.unguarded machine)
    (loop : Thread) (entersPoll : (machine.loops loop).phase = .poll)
    (completed : 0 < (machine.loops loop).iterations)
    (waiting : (machine.loops loop).pendings ≠ [] ∨ (machine.loops loop).quitting = true) :
    0 < (machine.loops loop).wakeupCount ∨
      ∃ thread, thread ≠ loop ∧
        (machine.inside thread = some (.wakeAfterPush loop) ∨
          machine.inside thread = some (.wakeAfterStop loop)) := by
  have law := reachable_wakeupLaw reachable loop
  have must : (machine.loops loop).mustWake := by
    simp only [Loop.mustWake, entersPoll]
    exact ⟨completed, waiting⟩
  rcases law.covered must with covered | inside
  · exact covered
  · rw [(law.quiet (by simp [entersPoll, Phase.quiet])).2] at inside
    cases inside

/-- Thread `1` pushes in the second iteration, when the loop is about to call
`Poll`, and has not written the eventfd yet. -/
def pushBeforePoll : List (Label TwoThreads (FreeChoice TwoThreads Nat)) :=
  [⟨0, .start⟩, .polls 0 [], .polls 0 [], .polls 0 [], .polls 0 [], .polls 0 [], .polls 0 [],
    .polls 0 [], .polls 0 [], .calls 1 [], .calls 1 [.queueInLoop 0 7], .calls 1 [], .calls 1 []]

/-- A loop polls while the thread that has queued a functor is about to write the eventfd. -/
theorem poll_not_blocked_before_wakeup :
    ∃ machine, freeSystem.Reachable LabelledSystem.unguarded machine ∧
      (machine.loops 0).phase = .poll ∧ (machine.loops 0).wakeupCount = 0 ∧
      (0 < (machine.loops 0).wakeupCount ∨
        ∃ thread, thread ≠ 0 ∧
          (machine.inside thread = some (.wakeAfterPush 0) ∨
            machine.inside thread = some (.wakeAfterStop 0))) := by
  let machine := (freeSystem.run LabelledSystem.unguarded { client := () } pushBeforePoll).get
    (by decide)
  have reachable : freeSystem.Reachable LabelledSystem.unguarded machine :=
    LabelledSystem.run_reachable ⟨(), trivial, rfl⟩ (Option.some_get _).symm
  exact ⟨machine, reachable, by decide, by decide,
    poll_not_blocked reachable 0 (by decide) (by decide) (by decide)⟩

end Machine

end Benet.EventLoop
