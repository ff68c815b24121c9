import Benet.Timer.Entries
import Mathlib.Tactic.Linarith

/-!
# The timerfd is armed for the earliest timer

The timerfd is set when an insertion changes the earliest entry and at the end of
a pass, and a pass that finds the invalid time point at the front does not set it.
Between passes it is armed for the earliest entry all the same. Inside a pass the
weaker fact holds that it is armed for an earliest entry at or before the invalid
time point: such an entry is not expired but new, so its insertion has set the
timerfd, and the timers that the pass restarts come later.
-/

namespace Benet

open EventLoop Semantics

/-- No argument of `timerfd_settime` disarms. -/
private theorem howLongFromNow_ne_zero (now time : TimePoint) :
    howLongFromNow now time ≠ ⟨0, 0⟩ := by
  unfold howLongFromNow
  split
  case isTrue => simp
  case isFalse late =>
    intro zero
    obtain ⟨seconds, nanos⟩ := Timespec.mk.inj zero
    rw [seconds] at nanos
    exact late (by linarith)

namespace Timerfd

variable {timerfd : Timerfd} {earliest : TimePoint}

/-- An expiration that was not read is due no later than `earliest`, or than one
nanosecond after the last call of `timerfd_settime`. -/
def ArmedFor (earliest : TimePoint) (timerfd : Timerfd) : Prop :=
  ∃ due armedAt, timerfd.expires = some due ∧ timerfd.armedAt = some armedAt ∧
    due ≤ max earliest (armedAt + 1)

/-- A timerfd that is armed for a time is armed for every later one. -/
theorem ArmedFor.mono {other : TimePoint} (armed : timerfd.ArmedFor earliest)
    (le : earliest ≤ other) : timerfd.ArmedFor other := by
  obtain ⟨due, armedAt, expires, set, bound⟩ := armed
  exact ⟨due, armedAt, expires, set, bound.trans (max_le_max_right _ le)⟩

/-- `set_timerfd` arms for the time it is given. -/
theorem setTimerfd_armedFor (now exp : TimePoint) (timerfd : Timerfd) :
    (timerfd.setTimerfd now exp).ArmedFor exp := by
  refine ⟨_, now, if_neg (howLongFromNow_ne_zero now exp), rfl, ?_⟩
  unfold howLongFromNow
  split
  case isTrue => exact le_max_of_le_right (by simp)
  case isFalse => exact le_max_of_le_left (by simp)

end Timerfd

namespace TimerQueue

variable {queue next : TimerQueue} {Early : TimePoint → Prop} {now when_ : TimePoint}
  {timer : TimerPtr}

/-- The timerfd is armed for the earliest entry, if its time is `Early`. -/
def Armed (Early : TimePoint → Prop) (queue : TimerQueue) : Prop :=
  ∀ entry, queue.timers.first? = some entry → Early entry.first →
    queue.timerfd.ArmedFor entry.first

@[simp] theorem insert_timerfd : (queue.insert when_ timer).1.timerfd = queue.timerfd := by
  unfold TimerQueue.insert assert
  dsimp only
  split <;> rfl

/-- `insert` reports a change when the timer is earlier than all others. -/
theorem earliestChanged_iff :
    queue.earliestChanged when_ = true ↔ ∀ entry ∈ queue.timers, when_ < entry.first := by
  unfold earliestChanged
  cases first : queue.timers.first? with
  | none => simpa using fun entry member => absurd member (Data.OrderedSet.first?_eq_none.mp first entry)
  | some earliest =>
      obtain ⟨member, least⟩ := Data.OrderedSet.first?_eq_some.mp first
      simp only [decide_eq_true_eq]
      constructor
      · exact fun before entry inQueue =>
          before.trans_le (TimerEntry.first_le (least entry inQueue))
      · exact fun before => before earliest member

/-- An entry that is inserted is either the earliest and arms the timerfd, or does
not change the earliest time. -/
theorem Armed.addTimer (armed : queue.Armed Early) :
    (queue.addTimer now when_ timer).Armed Early := by
  intro entry first early
  rw [addTimer_timers, Data.OrderedSet.first?_eq_some] at first
  obtain ⟨member, least⟩ := first
  rw [Data.OrderedSet.mem_insert] at member
  have notLater : entry ≤ ⟨when_, timer⟩ := least _ (Data.OrderedSet.mem_insert.mpr (.inl rfl))
  unfold TimerQueue.addTimer
  dsimp only
  split
  case isTrue changed =>
    have new : entry = ⟨when_, timer⟩ := by
      refine member.resolve_right fun old => ?_
      have before := earliestChanged_iff.mp changed entry old
      exact absurd (TimerEntry.first_le notLater) before.not_ge
    rw [new]
    exact queue.timerfd.setTimerfd_armedFor _ _
  case isFalse unchanged =>
    rw [insert_timerfd]
    obtain ⟨earliest, first, notAfter⟩ : ∃ earliest, queue.timers.first? = some earliest ∧
        earliest.first ≤ when_ := by
      change ¬ queue.earliestChanged when_ = true at unchanged
      unfold earliestChanged at unchanged
      split at unchanged
      case h_1 => exact absurd rfl unchanged
      case h_2 earliest first => exact ⟨earliest, first, by simpa using unchanged⟩
    obtain ⟨inQueue, leastOld⟩ := Data.OrderedSet.first?_eq_some.mp first
    have before : entry ≤ earliest := least _ (Data.OrderedSet.mem_insert.mpr (.inr inQueue))
    have same : entry.first = earliest.first := by
      refine le_antisymm (TimerEntry.first_le before) ?_
      rcases member with rfl | old
      · exact notAfter
      · exact TimerEntry.first_le (leastOld entry old)
    rw [same] at early ⊢
    exact armed earliest first early

/-- An insertion that does not set the timerfd, of an entry that is not early. -/
theorem Armed.insert (armed : queue.Armed Early) (late : ¬ Early when_) :
    (queue.insert when_ timer).1.Armed Early := by
  intro entry first early
  rw [insert_timerfd]
  obtain ⟨member, least⟩ := Data.OrderedSet.first?_eq_some.mp first
  have old : entry ∈ queue.timers := by
    refine (Data.OrderedSet.mem_insert.mp member).resolve_left ?_
    rintro rfl
    exact late early
  refine armed entry (Data.OrderedSet.first?_eq_some.mpr ⟨old, fun other inQueue => ?_⟩) early
  exact least other (Data.OrderedSet.mem_insert.mpr (.inr inQueue))

/-- Entries may go without a change of the timerfd, since the earliest one that is
left is not before the earliest one that was there. -/
theorem Armed.subset (armed : queue.Armed Early)
    (closed : ∀ earlier later : TimePoint, earlier ≤ later → Early later → Early earlier)
    (fewer : ∀ entry ∈ next.timers, entry ∈ queue.timers)
    (same : next.timerfd = queue.timerfd) : next.Armed Early := by
  intro entry first early
  have member := fewer entry (Data.OrderedSet.first?_eq_some.mp first).1
  rw [same]
  cases oldFirst : queue.timers.first? with
  | none => exact absurd member (Data.OrderedSet.first?_eq_none.mp oldFirst entry)
  | some earliest =>
      have before := TimerEntry.first_le ((Data.OrderedSet.first?_eq_some.mp oldFirst).2 entry member)
      exact (armed earliest oldFirst (closed _ _ before early)).mono before

/-- Cancelling a timer leaves the timerfd armed early enough. -/
theorem Armed.cancelTimer (armed : queue.Armed Early)
    (closed : ∀ earlier later : TimePoint, earlier ≤ later → Early later → Early earlier) :
    (queue.cancelTimer when_ timer).Armed Early := by
  refine armed.subset closed ?_ ?_
  · by_cases found : ⟨when_, timer⟩ ∈ queue.timers
    · rw [(cancelTimer_found found).1]
      exact fun entry member => (Data.OrderedSet.mem_erase.mp member).1
    · rw [(cancelTimer_absent found).1]
      exact fun entry => id
  · unfold TimerQueue.cancelTimer assert
    dsimp only
    split_ifs <;> rfl

end TimerQueue

namespace TimerWorld

variable {Thread : Type}

/-- Every reading of the clock is positive. -/
def positiveClock (_ : Thread) (_ : TimerTask) (choice : TimerChoice Thread)
    (_ : TimerWorld Thread) : Prop :=
  0 < choice.now

instance (thread : Thread) (task : TimerTask) (choice : TimerChoice Thread)
    (world : TimerWorld Thread) : Decidable (positiveClock thread task choice world) :=
  inferInstanceAs (Decidable (0 < choice.now))

/-- The timerfd of a loop without a running pass is armed for the earliest timer;
during a pass it is armed if that timer is not after the invalid time point. -/
structure Arming (world : TimerWorld Thread) (flight : Multiset (Located Thread TimerTask)) :
    Prop where
  quiet : ∀ loop, (∀ pass, (loop, .callExpired pass) ∉ flight) →
    (world.queues loop).Armed fun _ => True
  early : ∀ loop, (world.queues loop).Armed (· ≤ Timer.invalidTimePoint)
  positive : ∀ loop pass, (loop, .callExpired pass) ∈ flight → 0 < pass.now

namespace Arming

variable {world next : TimerWorld Thread} {flight after : Multiset (Located Thread TimerTask)}
  {thread : Thread}

/-- A step of `thread` that changes its own queue only and leaves the running passes
alone. What it does to the queue must keep the timerfd armed for any early times. -/
theorem step (arming : Arming world flight) (thread : Thread)
    (passes : ∀ loop pass, (loop, .callExpired pass) ∈ after ↔ (loop, .callExpired pass) ∈ flight)
    (others : ∀ loop, loop ≠ thread → next.queues loop = world.queues loop)
    (own : ∀ Early : TimePoint → Prop,
      (∀ earlier later : TimePoint, earlier ≤ later → Early later → Early earlier) →
        (world.queues thread).Armed Early → (next.queues thread).Armed Early) :
    Arming next after := by
  have all : ∀ Early : TimePoint → Prop,
      (∀ earlier later : TimePoint, earlier ≤ later → Early later → Early earlier) →
        ∀ loop, (world.queues loop).Armed Early → (next.queues loop).Armed Early := by
    intro Early closed loop armed
    by_cases same : loop = thread
    · subst same
      exact own Early closed armed
    · rwa [others loop same]
  refine ⟨fun loop none => ?_, fun loop => ?_, fun loop pass member => ?_⟩
  · exact all _ (fun _ _ _ => id) loop
      (arming.quiet loop fun pass member => none pass ((passes loop pass).mpr member))
  · exact all _ (fun _ _ => le_trans) loop (arming.early loop)
  · exact arming.positive loop pass ((passes loop pass).mp member)

variable [DecidableEq Thread] {choice : TimerChoice Thread} {task : TimerTask}
  {calls : List (Call Thread TimerTask)} {rest : Multiset (Located Thread TimerTask)}

/-- After the cut the earliest entry is not before the reading. -/
theorem begins (arming : Arming world ({(thread, .readCallback)} + rest)) {now : TimePoint}
    (positive : 0 < now) (readAt : TimePoint) :
    Arming (world.readCallback thread now readAt).1
      (Call.flights thread [.task (.callExpired ((world.queues thread).expiryPass now))] + rest) := by
  have queues := readCallback_queues world thread now readAt
  have others : ∀ {loop}, loop ≠ thread →
      (world.readCallback thread now readAt).1.queues loop = world.queues loop := by
    intro loop different
    rw [queues, modifyQueue_other _ different]
  refine ⟨fun loop none => ?_, fun loop => ?_, fun loop pass member => ?_⟩
  · have different : loop ≠ thread := by
      rintro rfl
      exact none ((world.queues loop).expiryPass now) (by simp [Call.flight])
    rw [others different]
    refine arming.quiet loop fun pass member => none pass ?_
    exact Multiset.mem_add.mpr (.inr (by simpa using member))
  · by_cases same : loop = thread
    · subst same
      intro entry first early
      rw [queues, modifyQueue_own] at first
      have late := (TimerQueue.mem_beginPass_timers.mp (Data.OrderedSet.first?_eq_some.mp first).1).2
      exact absurd (positive.trans_le late) early.not_gt
    · rw [others same]
      exact arming.early loop
  · rcases Multiset.mem_add.mp member with new | old
    · obtain ⟨rfl, rfl⟩ : loop = thread ∧ pass = (world.queues thread).expiryPass now := by
        simpa [Call.flight] using new
      exact positive
    · exact arming.positive loop pass (Multiset.mem_add.mpr (.inr old))

/-- A callback of the pass leaves the timerfd alone. -/
theorem fires {pass : ExpiryPass} {entry : TimerEntry} {later : List TimerEntry}
    (arming : Arming world ({(thread, .callExpired pass)} + rest)) (firing : Firing)
    (timer : TimerPtr) :
    Arming ((world.modifyQueue thread (·.fire firing)).moveTo .ran timer)
      (Call.flights thread [.task .user, .task (.callExpired (pass.next entry later))] + rest) := by
  have armed : ∀ {Early : TimePoint → Prop} {loop}, (world.queues loop).Armed Early →
      (((world.modifyQueue thread (·.fire firing)).moveTo .ran timer).queues loop).Armed Early := by
    intro Early loop armed
    rw [moveTo_queues]
    by_cases same : loop = thread
    · subst same
      rw [modifyQueue_own]
      exact armed
    · rwa [modifyQueue_other _ same]
  refine ⟨fun loop none => armed (arming.quiet loop fun other member => ?_),
    fun loop => armed (arming.early loop), fun loop other member => ?_⟩
  · rcases Multiset.mem_add.mp member with own | old
    · obtain ⟨rfl, -⟩ : loop = thread ∧ other = pass := by simpa using own
      exact none (pass.next entry later) (by simp [Call.flight])
    · exact none other (Multiset.mem_add.mpr (.inr old))
  · rcases Multiset.mem_add.mp member with new | old
    · obtain ⟨rfl, rfl⟩ : loop = thread ∧ other = pass.next entry later := by
        simpa [Call.flight] using new
      exact arming.positive loop pass (mem_first _ _)
    · exact arming.positive loop other (Multiset.mem_add.mpr (.inr old))

end Arming

section Finish

variable [DecidableEq Thread] {world : TimerWorld Thread} {loop thread : Thread}
  {now : TimePoint} {flight : Multiset (Located Thread TimerTask)}

/-- A restarted timer comes after the invalid time point. -/
theorem updateExpired_armed (positive : 0 < now) (entry : TimerEntry)
    (armed : (world.queues thread).Armed (· ≤ Timer.invalidTimePoint)) :
    ((world.updateExpired thread now entry).queues thread).Armed (· ≤ Timer.invalidTimePoint) := by
  unfold updateExpired
  split
  case h_1 => exact armed
  case h_2 object live =>
    split_ifs with once cancelled
    · exact armed
    · exact armed
    · rw [restart_own]
      refine armed.insert ?_
      rw [Bool.not_eq_true', Bool.not_eq_false] at once
      simp only [Timer.restart, once, if_true, Timer.invalidTimePoint]
      have interval : (0 : TimePoint) ≤ object.interval.nanos := Int.natCast_nonneg _
      linarith

/-- Restarted timers expire after the invalid time point, so that a whole batch of them asks
nothing of the timerfd before it is armed anew. -/
theorem foldl_updateExpired_armed (positive : 0 < now) (batch : List TimerEntry)
    (armed : (world.queues thread).Armed (· ≤ Timer.invalidTimePoint)) :
    ((batch.foldl (updateExpired thread now) world).queues thread).Armed
      (· ≤ Timer.invalidTimePoint) := by
  induction batch generalizing world with
  | nil => exact armed
  | cons entry batch ih => exact ih (updateExpired_armed positive entry armed)

/-- The queues of other loops are left alone. -/
private theorem foldl_updateExpired_other (different : loop ≠ thread) (batch : List TimerEntry) :
    (batch.foldl (updateExpired thread now) world).queues loop = world.queues loop :=
  foldl_updateExpired_kept id (fun same => absurd same different) now batch

omit [DecidableEq Thread] in
/-- The pointer of the first entry leads to the time of the entry. -/
private theorem nextExpiredTime_eq (consistent : Consistent world flight) {entry : TimerEntry}
    (first : (world.queues thread).timers.first? = some entry) :
    world.nextExpiredTime thread = entry.first := by
  have member := (Data.OrderedSet.first?_eq_some.mp first).1
  obtain ⟨object, live, -, -, expires⟩ := (consistent.entries thread entry).mp member
  rw [nextExpiredTime, first]
  simp [live, expires]

/-- The end of a pass arms the timerfd for the earliest entry, or leaves it armed for
the invalid time point. -/
theorem rearm_armed (consistent : Consistent world flight) (now : TimePoint)
    (armed : (world.queues thread).Armed (· ≤ Timer.invalidTimePoint)) :
    ((world.rearm thread now).queues thread).Armed fun _ => True := by
  intro entry first _
  unfold rearm at first ⊢
  split at first
  case isTrue valid =>
    rw [if_pos valid, modifyQueue_own]
    rw [modifyQueue_own] at first
    rw [nextExpiredTime_eq consistent first]
    exact (world.queues thread).timerfd.setTimerfd_armedFor now _
  case isFalse invalid =>
    rw [if_neg invalid]
    rw [nextExpiredTime_eq consistent first, not_not] at invalid
    exact armed entry first invalid.le

/-- Arming one timerfd leaves the queues of other loops alone. -/
theorem rearm_other (different : loop ≠ thread) (now : TimePoint) :
    (world.rearm thread now).queues loop = world.queues loop :=
  rearm_kept id (fun same => absurd same different) now

end Finish

variable [DecidableEq Thread] {world next : TimerWorld Thread} {thread : Thread}
  {choice : TimerChoice Thread} {task : TimerTask} {calls : List (Call Thread TimerTask)}
  {rest : Multiset (Located Thread TimerTask)}

/-- After a pass the timerfd is armed for the earliest timer. -/
theorem Arming.finishes {pass : ExpiryPass}
    (arming : Arming world ({(thread, .callExpired pass)} + rest))
    (consistent : Consistent world ({(thread, .callExpired pass)} + rest)) (done : pass.rest = [])
    (now : TimePoint) :
    Arming (world.finishPass thread now pass) (Call.flights thread [] + rest) := by
  obtain ⟨number, passNow, batch, later⟩ := pass
  subst done
  have positive := arming.positive thread _ (mem_first _ _)
  have stopped := consistent.modifyQueue thread TimerQueue.stopCalling (fun _ => rfl) fun _ => rfl
  have kept : ((world.modifyQueue thread TimerQueue.stopCalling).queues thread).Armed
      (· ≤ Timer.invalidTimePoint) := by
    rw [modifyQueue_own]
    exact arming.early thread
  have updated := foldl_updateExpired_armed positive batch kept
  have armed := rearm_armed stopped.updates_all now updated
  rw [Call.flights_nil, zero_add, finishPass, ExpiryPass.expired, List.append_nil]
  have others : ∀ {loop}, loop ≠ thread →
      ((batch.foldl (updateExpired thread passNow)
        (world.modifyQueue thread TimerQueue.stopCalling)).rearm thread now).queues loop =
          world.queues loop := by
    intro loop different
    rw [rearm_other different, foldl_updateExpired_other different, modifyQueue_other _ different]
  refine ⟨fun loop none => ?_, fun loop => ?_, fun loop pass member => ?_⟩
  · by_cases same : loop = thread
    · subst same
      exact armed
    · rw [others same]
      refine arming.quiet loop fun pass member => none pass ?_
      simpa [same] using member
  · by_cases same : loop = thread
    · subst same
      exact fun entry first _ => armed entry first trivial
    · rw [others same]
      exact arming.early loop
  · exact arming.positive loop pass (Multiset.mem_add.mpr (.inr member))

/-- An executed task keeps the timerfd armed. -/
theorem Arming.executes (arming : Arming world ({(thread, task)} + rest))
    (consistent : Consistent world ({(thread, task)} + rest)) (positive : 0 < choice.now)
    (executes : Executes thread choice world task next calls) :
    Arming next (Call.flights thread calls + rest) := by
  cases executes with
  | leaves => exact arming.step thread (by simp) (fun _ _ => rfl) fun _ _ => id
  | posts posted =>
      refine arming.step thread ?_ (fun _ _ => rfl) fun _ _ => id
      obtain ⟨loop, rfl | rfl | rfl⟩ := posted <;> simp [Call.flight]
  | adds | cancels =>
      exact arming.step thread (by simp [Call.flight]) (fun _ _ => rfl) fun _ _ => id
  | returns | expired => exact arming.step thread (by simp) (fun _ _ => rfl) fun _ _ => id
  | inserts live =>
      refine arming.step thread (by simp) (fun loop different => modifyQueue_other _ different) ?_
      intro Early _ armed
      rw [moveTo_queues, modifyQueue_own]
      exact armed.addTimer
  | erases live found =>
      refine arming.step thread (by simp) (fun loop different => modifyQueue_other _ different) ?_
      intro Early closed armed
      rw [moveTo_queues, modifyQueue_own]
      exact armed.cancelTimer closed
  | misses live absent =>
      refine arming.step thread (by simp) (fun loop different => modifyQueue_other _ different) ?_
      intro Early closed armed
      rw [modifyQueue_own]
      exact armed.cancelTimer closed
  | begins => exact arming.begins positive choice.readAt
  | fires due => exact arming.fires _ _
  | finishes done => exact arming.finishes consistent done choice.now

/-- The timerfd is armed in every run with a positive clock. -/
theorem reachable_arming [Fintype Thread]
    {machine : Machine (TimerWorld Thread) Thread TimerTask}
    (reachable : system.Reachable (Machine.onExec positiveClock) machine) :
    Arming machine.client machine.flight := by
  refine Machine.reachable_flight client_prompt Arming ?_ ?_ reachable
  · rintro _ rfl
    constructor <;> simp [TimerQueue.Armed, Data.OrderedSet.first?_eq_some]
  · intro machine next reached step arming
    have consistent := reachable_consistent reached
    cases step with
    | executes before positive _ executed after =>
        rw [before] at arming consistent
        rw [after]
        exact arming.executes consistent positive (exec_executes executed)
    | @arrives arrived same brought after =>
        have noPass : ∀ loop pass, (loop, TimerTask.callExpired pass) ∉ arrived := by
          intro loop pass member
          rcases arrives_task brought member with user | readCallback
          · cases user
          · cases readCallback
        rw [same, after]
        refine ⟨fun loop none => arming.quiet loop fun pass member => ?_, arming.early,
          fun loop pass member => ?_⟩
        · exact none pass (Multiset.mem_add.mpr (.inr member))
        · exact arming.positive loop pass
            ((Multiset.mem_add.mp member).resolve_left (noPass loop pass))

/-- In every run with positive clock readings, a loop that is not in the middle of an
expiry pass has its timerfd armed for the earliest timer of its queue, and no call
of `set_timerfd` disarms it. -/
theorem timerfd_armed_for_earliest [Fintype Thread]
    {machine : Machine (TimerWorld Thread) Thread TimerTask}
    (reachable : system.Reachable (Machine.onExec positiveClock) machine) :
    (∀ loop, (∀ pass, .task (.callExpired pass) ∉ machine.calls loop) →
      ∀ entry, (machine.client.queues loop).timers.first? = some entry →
        ∃ due armedAt, (machine.client.queues loop).timerfd.expires = some due ∧
          (machine.client.queues loop).timerfd.armedAt = some armedAt ∧
          due ≤ max entry.first (armedAt + 1)) ∧
      ∀ now time, howLongFromNow now time ≠ ⟨0, 0⟩ := by
  refine ⟨fun loop noPass entry first => ?_, howLongFromNow_ne_zero⟩
  refine (reachable_arming reachable).quiet loop (fun pass member => noPass pass ?_) entry first
    trivial
  -- The rest of a pass is neither posted nor polled, so it is on the stack.
  have carries := Machine.reachable_carries client_carries reachable
  exact carries.on_stack (fun posted => posted.2 pass rfl) (by simp) member

/-- A repeating timer that expires at `5` and one that expires at `9`; a pass at `6`
runs the callback of the first and restarts it. -/
def restartInPass : List (Label TwoThreads (TimerChoice TwoThreads)) :=
  turns 0 1 ++ adding 7 5 ⟨true, 3⟩ ++ adding 8 9 ⟨false, 0⟩ ++ turns 0 1 ++ startToPass ++
    [turn 0 { now := 6, readAt := 6 }] ++ turns 0 2 ++ [turn 0 { now := 7 }]

/-- A repeating timer restarts in a pass, and the timerfd is armed for the earliest of the two. -/
theorem timerfd_armed_for_earliest_restartInPass :
    ∃ machine : Machine (TimerWorld TwoThreads) TwoThreads TimerTask,
      system.Reachable (Machine.onExec positiveClock) machine ∧
      machine.calls 0 = [] ∧
      (machine.client.queues 0).timers.toList = [⟨9, 7⟩, ⟨9, 8⟩] ∧
      (machine.client.queues 0).timerfd = ⟨some 9, some 7⟩ ∧
      ∃ due armedAt, (machine.client.queues 0).timerfd.expires = some due ∧
        (machine.client.queues 0).timerfd.armedAt = some armedAt ∧ due ≤ max 9 (armedAt + 1) := by
  let machine := (system.run (Machine.onExec positiveClock) noTimers restartInPass).get
    (by decide +kernel)
  have reachable : system.Reachable (Machine.onExec positiveClock) machine :=
    LabelledSystem.run_reachable noTimers_initial (Option.some_get _).symm
  have idle : machine.calls 0 = [] := by decide +kernel
  refine ⟨machine, reachable, idle, by decide +kernel, by decide +kernel, ?_⟩
  refine (timerfd_armed_for_earliest reachable).1 0 (fun pass member => ?_) ⟨9, 7⟩
    (by decide +kernel)
  rw [idle] at member
  cases member

end TimerWorld

end Benet
