import Benet.Timer.Entries

/-!
# What a step does to one timer and to one queue

`Executes` lists the effects of the tasks on the whole state. `TimerMove` is the same
seen from one timer: a step leaves it where it is or hands it on to its next holder,
and only the end of a pass changes its expiration. For a queue it is enough to know which
callbacks a step runs, whether it begins a pass, and what becomes of
`canceling_timers_`.
-/

namespace Benet

open EventLoop Semantics

/-- The timers that the task hands on: the one it inserts, the next one of the batch, or the
batch when all its callbacks were run. -/
def TimerTask.handles : TimerTask → List TimerPtr
  | .addTimer timer => [timer]
  | .callExpired pass =>
      match pass.rest with
      | [] => pass.ran.map (·.second)
      | entry :: _ => [entry.second]
  | .user | .addTimerReturns _ | .cancelTimer _ | .readCallback => []

/-- The callbacks that the task runs. -/
def TimerTask.firings : TimerTask → List Firing
  | .callExpired pass => pass.rest.head?.toList.map (.mk pass.number pass.now ·)
  | .user | .addTimer _ | .addTimerReturns _ | .cancelTimer _ | .readCallback => []

/-- What a task of the pass runs: the next of its batch. -/
theorem TimerTask.mem_firings {task : TimerTask} {firing : Firing} :
    firing ∈ task.firings ↔ ∃ pass entry rest, task = .callExpired pass ∧
      pass.rest = entry :: rest ∧ firing = ⟨pass.number, pass.now, entry⟩ := by
  cases task with
  | callExpired pass => cases due : pass.rest <;> simp [firings, due]
  | user | addTimer | addTimerReturns | cancelTimer | readCallback => simp [firings]

/-- What the loop over the expired timers makes of one of them. -/
def Timer.endPass {Thread : Type} (now : TimePoint) (canceled : Bool) (object : Timer Thread) :
    Timer Thread :=
  if object.isRepeat && !canceled then { object.restart now with place := .timers }
  else { object with place := .released }

/-- A restart keeps the interval. -/
theorem Timer.restart_interval {Thread : Type} (now : TimePoint) (object : Timer Thread) :
    (object.restart now).interval = object.interval := by
  unfold Timer.restart
  split <;> rfl

/-- A restart does not undo a cancellation. -/
theorem Timer.restart_cancelled {Thread : Type} (now : TimePoint) (object : Timer Thread) :
    (object.restart now).cancelled = object.cancelled := by
  unfold Timer.restart
  split <;> rfl

/-- A restart sets the expiration one interval after the pass. -/
theorem Timer.restart_expiration {Thread : Type} (now : TimePoint) (object : Timer Thread)
    (repeats : object.isRepeat = true) :
    (object.restart now).expiration = now + object.interval.nanos := by
  rw [Timer.restart, if_pos repeats]

namespace TimerQueue

section Kept

variable {Value : Type} {field : TimerQueue → Value} (queue : TimerQueue) (now when_ : TimePoint)
  (timer : TimerPtr)

/-- `insert` changes the entries, and evaluates an assertion. -/
private theorem insert_kept (kept : ∀ (queue : TimerQueue) timers failedAssertions,
    field { queue with timers, failedAssertions } = field queue) :
    field (queue.insert when_ timer).1 = field queue := by
  unfold TimerQueue.insert assert
  dsimp only
  split
  · exact kept queue _ queue.failedAssertions
  · exact kept queue _ _

/-- `AddTimer` sets the timerfd besides. -/
private theorem addTimer_kept (kept : ∀ (queue : TimerQueue) timers failedAssertions,
      field { queue with timers, failedAssertions } = field queue)
    (timerfd : ∀ (queue : TimerQueue) timerfd, field { queue with timerfd } = field queue) :
    field (queue.addTimer now when_ timer) = field queue := by
  rw [← queue.insert_kept when_ timer kept, addTimer]
  dsimp only
  split
  · exact timerfd _ _
  · rfl

/-- `CancelTimer` changes the entries or `canceling_timers_`. -/
private theorem cancelTimer_kept (kept : ∀ (queue : TimerQueue) timers failedAssertions,
      field { queue with timers, failedAssertions } = field queue)
    (canceling : ∀ (queue : TimerQueue) cancelingTimers,
      field { queue with cancelingTimers } = field queue) :
    field (queue.cancelTimer when_ timer) = field queue := by
  unfold cancelTimer assert
  dsimp only
  split_ifs
  · exact kept queue _ queue.failedAssertions
  · exact kept queue _ _
  · exact canceling queue _
  · rfl

end Kept

variable (queue : TimerQueue) (now when_ : TimePoint) (timer : TimerPtr)

@[simp] theorem insert_calling :
    (queue.insert when_ timer).1.callingExpiredTimers = queue.callingExpiredTimers :=
  queue.insert_kept when_ timer fun _ _ _ => rfl

@[simp] theorem insert_canceling :
    (queue.insert when_ timer).1.cancelingTimers = queue.cancelingTimers :=
  queue.insert_kept when_ timer fun _ _ _ => rfl

@[simp] theorem insert_firings : (queue.insert when_ timer).1.firings = queue.firings :=
  queue.insert_kept when_ timer fun _ _ _ => rfl

@[simp] theorem insert_passes : (queue.insert when_ timer).1.passes = queue.passes :=
  queue.insert_kept when_ timer fun _ _ _ => rfl

@[simp] theorem addTimer_calling :
    (queue.addTimer now when_ timer).callingExpiredTimers = queue.callingExpiredTimers :=
  queue.addTimer_kept now when_ timer (fun _ _ _ => rfl) fun _ _ => rfl

@[simp] theorem addTimer_canceling :
    (queue.addTimer now when_ timer).cancelingTimers = queue.cancelingTimers :=
  queue.addTimer_kept now when_ timer (fun _ _ _ => rfl) fun _ _ => rfl

@[simp] theorem addTimer_firings : (queue.addTimer now when_ timer).firings = queue.firings :=
  queue.addTimer_kept now when_ timer (fun _ _ _ => rfl) fun _ _ => rfl

@[simp] theorem addTimer_passes : (queue.addTimer now when_ timer).passes = queue.passes :=
  queue.addTimer_kept now when_ timer (fun _ _ _ => rfl) fun _ _ => rfl

@[simp] theorem cancelTimer_calling :
    (queue.cancelTimer when_ timer).callingExpiredTimers = queue.callingExpiredTimers :=
  queue.cancelTimer_kept when_ timer (fun _ _ _ => rfl) fun _ _ => rfl

@[simp] theorem cancelTimer_firings : (queue.cancelTimer when_ timer).firings = queue.firings :=
  queue.cancelTimer_kept when_ timer (fun _ _ _ => rfl) fun _ _ => rfl

@[simp] theorem cancelTimer_passes : (queue.cancelTimer when_ timer).passes = queue.passes :=
  queue.cancelTimer_kept when_ timer (fun _ _ _ => rfl) fun _ _ => rfl

/-- `canceling_timers_` grows, and it takes up a timer that a pass may restart. -/
theorem mem_cancelTimer_canceling {other : TimerPtr} :
    other ∈ (queue.cancelTimer when_ timer).cancelingTimers ↔
      other ∈ queue.cancelingTimers ∨ other = timer ∧ ⟨when_, timer⟩ ∉ queue.timers ∧
        queue.callingExpiredTimers = true := by
  unfold cancelTimer assert
  dsimp only
  split_ifs <;> simp_all [or_comm]

@[simp] theorem beginPass_firings (readAt : TimePoint) :
    (queue.beginPass now readAt).firings = queue.firings := by
  unfold beginPass assert
  split <;> rfl

@[simp] theorem beginPass_passes (readAt : TimePoint) :
    (queue.beginPass now readAt).passes = queue.passes + 1 := rfl

@[simp] theorem beginPass_canceling (readAt : TimePoint) :
    (queue.beginPass now readAt).cancelingTimers = ∅ := rfl

end TimerQueue

namespace TimerWorld

variable {Thread : Type} [DecidableEq Thread]

/-- What a step in which `thread` executes a task can do to the timer at an address. -/
inductive TimerMove (thread : Thread) (world : TimerWorld Thread) (timer : TimerPtr) :
    TimerTask → Option (Timer Thread) → Option (Timer Thread) → Prop where
  | absent {task} : TimerMove thread world timer task none none
  | allocated {loop when_ interval} :
      TimerMove thread world timer .user none (some { expiration := when_, interval, loop })
  | stays {task object returned} (untouched : timer ∉ task.handles)
      (elsewhere : task = .cancelTimer timer → object.loop = thread → object.place ≠ .timers) :
      TimerMove thread world timer task (some object) (some { object with
        returned, cancelled := object.cancelled ||
          decide (task = .cancelTimer timer ∧ object.loop = thread) })
  | inserted {object} (own : object.loop = thread) (place : object.place = .functor) :
      TimerMove thread world timer (.addTimer timer) (some object)
        (some { object with place := .timers })
  | erased {object} (own : object.loop = thread) (place : object.place = .timers) :
      TimerMove thread world timer (.cancelTimer timer) (some object)
        (some { object with cancelled := true, place := .released })
  | taken {object} (own : object.loop = thread) (place : object.place = .timers) :
      TimerMove thread world timer .readCallback (some object) (some { object with place := .due })
  | run {object pass entry rest} (own : object.loop = thread) (place : object.place = .due)
      (due : pass.rest = entry :: rest) (same : entry.second = timer) :
      TimerMove thread world timer (.callExpired pass) (some object)
        (some { object with place := .ran })
  | updated {object pass} (own : object.loop = thread) (place : object.place = .ran)
      (done : pass.rest = []) :
      TimerMove thread world timer (.callExpired pass) (some object)
        (some (object.endPass pass.now (timer ∈ (world.queues thread).cancelingTimers)))

namespace TimerMove

variable {thread : Thread} {world : TimerWorld Thread} {timer : TimerPtr} {task : TimerTask}
  {before after : Option (Timer Thread)} {object : Timer Thread}

/-- A step that does not cancel the timer and does not hand it on. -/
theorem kept (untouched : timer ∉ task.handles) (other : task ≠ .cancelTimer timer)
    (returned : Bool) :
    TimerMove thread world timer task (some object) (some { object with returned }) := by
  have stays : TimerMove thread world timer task (some object) (some { object with
      returned, cancelled := object.cancelled ||
        decide (task = .cancelTimer timer ∧ object.loop = thread) }) :=
    .stays untouched fun cancels => absurd cancels other
  simpa [other] using stays

/-- A task that does not handle the timer leaves it where it is. -/
theorem unchanged (untouched : timer ∉ task.handles) (other : task ≠ .cancelTimer timer)
    (same : after = before) : TimerMove thread world timer task before after := by
  subst same
  cases after with
  | none => exact .absent
  | some object => exact kept untouched other object.returned

/-- A timer stays in the heap, in its loop and with its interval, and it stays cancelled. -/
theorem forward (moves : TimerMove thread world timer task (some object) after) :
    ∃ object', after = some object' ∧ object'.loop = object.loop ∧
      object'.interval = object.interval ∧
      (object.cancelled = true → object'.cancelled = true) := by
  cases moves with
  | stays => exact ⟨_, rfl, rfl, rfl, fun cancelled => by simp [cancelled]⟩
  | erased => exact ⟨_, rfl, rfl, rfl, fun _ => rfl⟩
  | inserted | taken | run => exact ⟨_, rfl, rfl, rfl, id⟩
  | updated =>
      refine ⟨_, rfl, ?_⟩
      unfold Timer.endPass
      split
      · exact ⟨object.restart_loop _, object.restart_interval _, (object.restart_cancelled _).trans⟩
      · exact ⟨rfl, rfl, id⟩

/-- Its expiration changes at the end of a pass of its loop only. -/
theorem keyed (moves : TimerMove thread world timer task (some object) after)
    (within : ∀ pass, task = .callExpired pass → pass.rest = [] → object.loop ≠ thread) :
    ∃ object', after = some object' ∧ object'.loop = object.loop ∧
      object'.expiration = object.expiration := by
  cases moves with
  | stays | inserted | erased | taken | run => exact ⟨_, rfl, rfl, rfl⟩
  | updated own _ done => exact absurd own (within _ rfl done)

end TimerMove

section Update

variable {world : TimerWorld Thread} {thread : Thread} {timer : TimerPtr} {now : TimePoint}

private theorem updateExpired_other {entry : TimerEntry} (different : timer ≠ entry.second) :
    (world.updateExpired thread now entry).heap timer = world.heap timer := by
  unfold updateExpired
  split
  case h_1 => rfl
  case h_2 object live =>
    split_ifs
    · exact Function.update_of_ne different _ _
    · exact Function.update_of_ne different _ _
    · rw [restart_heap thread now live, Function.update_of_ne different]

private theorem updateExpired_own (entry : TimerEntry) :
    (world.updateExpired thread now entry).heap entry.second = (world.heap entry.second).map
      (Timer.endPass now (entry.second ∈ (world.queues thread).cancelingTimers)) := by
  unfold updateExpired
  cases live : world.heap entry.second with
  | none => exact live
  | some object =>
      dsimp only [Option.map_some]
      unfold Timer.endPass
      split_ifs <;>
        simp_all [moveTo_heap .released live, restart_heap thread now live]

/-- The loop over a batch updates each of its timers and no other. -/
theorem foldl_updateExpired_heap {batch : List TimerEntry}
    (distinct : (batch.map (·.second)).Nodup) :
    (batch.foldl (updateExpired thread now) world).heap timer =
      if timer ∈ batch.map (·.second) then (world.heap timer).map
        (Timer.endPass now (timer ∈ (world.queues thread).cancelingTimers))
      else world.heap timer := by
  induction batch generalizing world with
  | nil => simp
  | cons entry batch ih =>
      obtain ⟨notLater, distinct⟩ := List.nodup_cons.mp distinct
      rw [List.foldl_cons, ih distinct,
        updateExpired_kept TimerQueue.cancelingTimers (by simp), List.map_cons]
      by_cases same : timer = entry.second
      · subst same
        simp only [notLater, if_false, List.mem_cons, true_or, if_true]
        exact updateExpired_own entry
      · simp only [List.mem_cons, same, false_or]
        rw [updateExpired_other same]

end Update

section Executes

variable {world next : TimerWorld Thread} {thread : Thread} {choice : TimerChoice Thread}
  {task : TimerTask} {calls : List (Call Thread TimerTask)}
  {rest : Multiset (Located Thread TimerTask)} {timer moved : TimerPtr}
  {object changed : Timer Thread}

omit [DecidableEq Thread] in
/-- The timers of a batch are distinct. -/
theorem Consistent.nodup_batch {pass : ExpiryPass}
    (consistent : Consistent world ({(thread, .callExpired pass)} + rest)) :
    (pass.expired.map (·.second)).Nodup := by
  have marking := consistent.marking_rest.nodup
  have batched := (Multiset.nodup_add.mp (Multiset.nodup_add.mp marking).1.of_map).2.1
  have composed : (pass.expired.map fun entry => TimerMark.batched entry.second) =
      (pass.expired.map (·.second)).map .batched := by
    rw [List.map_map]
    rfl
  rw [Multiset.coe_nodup, composed] at batched
  exact batched.of_map

/-- A step that changes one timer. -/
theorem TimerMove.update (live : world.heap moved = some object)
    (heap : next.heap = Function.update world.heap moved (some changed))
    (own : TimerMove thread world moved task (some object) (some changed))
    (others : ∀ timer, timer ≠ moved → timer ∉ task.handles ∧ task ≠ .cancelTimer timer) :
    TimerMove thread world timer task (world.heap timer) (next.heap timer) := by
  by_cases same : timer = moved
  · subst same
    rwa [heap, Function.update_self, live]
  · obtain ⟨untouched, notCancelled⟩ := others timer same
    exact .unchanged untouched notCancelled (by rw [heap, Function.update_of_ne same])

/-- `CancelTimer` leaves a timer that it does not find where it is. -/
theorem TimerMove.marked (live : world.heap moved = some object)
    (elsewhere : object.loop = thread → object.place ≠ .timers) :
    TimerMove thread world timer (.cancelTimer moved) (world.heap timer)
      ((world.markCancelled thread moved).heap timer) := by
  have stays : TimerMove thread world moved (.cancelTimer moved) (some object) (some { object with
      cancelled := object.cancelled ||
        decide (TimerTask.cancelTimer moved = .cancelTimer moved ∧ object.loop = thread) }) :=
    .stays (by simp [TimerTask.handles]) fun _ => elsewhere
  refine .update live (markCancelled_heap live) (by simpa using stays) fun timer different => ?_
  exact ⟨by simp [TimerTask.handles], by simpa using Ne.symm different⟩

/-- A step moves every timer in one of these ways. -/
theorem Executes.moves (consistent : Consistent world ({(thread, task)} + rest))
    (executes : Executes thread choice world task next calls) (timer : TimerPtr) :
    TimerMove thread world timer task (world.heap timer) (next.heap timer) := by
  cases executes with
  | leaves | posts | cancels => exact .unchanged (by simp [TimerTask.handles]) (by simp) rfl
  | @adds loop added when_ interval notNull free =>
      by_cases same : timer = added
      · subst same
        have new : (world.allocate timer { expiration := when_, interval, loop }).heap timer =
            some { expiration := when_, interval, loop } := Function.update_self _ _ _
        rw [free, new]
        exact .allocated
      · exact .unchanged (by simp [TimerTask.handles]) (by simp) (Function.update_of_ne same _ _)
  | @inserts added object live =>
      obtain ⟨own, place⟩ : object.loop = thread ∧ object.place = .functor :=
        (marked_iff live).mp (consistent.marked (.adding added) (by simp [TimerTask.marks]))
      exact .update live (moveTo_heap .timers live) (.inserted own place)
        (by simp [TimerTask.handles])
  | @returns added =>
      cases live : world.heap added with
      | none =>
          have same : (world.modifyTimer added fun object => { object with returned := true }).heap =
              world.heap := by
            simp only [modifyTimer, live, Option.map_none]
            exact live ▸ Function.update_eq_self added world.heap
          exact .unchanged (by simp [TimerTask.handles]) (by simp) (by rw [same])
      | some object =>
          exact .update live (modifyTimer_heap live)
            (.kept (by simp [TimerTask.handles]) (by simp) true) (by simp [TimerTask.handles])
  | expired live released => exact .marked live fun _ => by simp [released]
  | @misses cancelled object live absent =>
      exact .marked live fun own place =>
        absent ((consistent.entries _ _).mpr ⟨object, live, own, place, rfl⟩)
  | @erases cancelled object live found =>
      obtain ⟨own, place, -⟩ := (queued_iff live).mp ((consistent.entries _ _).mp found)
      have erased : TimerMove thread world cancelled (.cancelTimer cancelled) (some object)
          (some { object with cancelled := true, place := .released }) := .erased own place
      refine .update live (erased_heap thread _ live) (by simpa [own] using erased)
        fun timer different => ?_
      exact ⟨by simp [TimerTask.handles], by simpa using Ne.symm different⟩
  | begins =>
      by_cases taken : timer ∈ Consistent.takenBy thread choice.now world
      · obtain ⟨object, live, own, place, after⟩ :=
          consistent.readCallback_taken choice.readAt taken
        rw [live, after]
        exact .taken own place
      · exact .unchanged (by simp [TimerTask.handles]) (by simp)
          (Consistent.readCallback_left taken)
  | @fires pass entry later due =>
      obtain ⟨object, live, own, place⟩ := consistent.marked (.waiting entry.second)
        (by simp [TimerTask.marks, due])
      replace live : world.heap entry.second = some object := live
      exact .update live (moveTo_heap .ran live) (.run own place due rfl)
        (by simp [TimerTask.handles, due])
  | @finishes pass done =>
      have distinct := consistent.nodup_batch
      have batch : pass.expired = pass.ran := by rw [ExpiryPass.expired, done, List.append_nil]
      rw [batch] at distinct
      have heap : (world.finishPass thread choice.now pass).heap timer =
          if timer ∈ pass.ran.map (·.second) then (world.heap timer).map
            (Timer.endPass pass.now (timer ∈ (world.queues thread).cancelingTimers))
          else world.heap timer := by
        rw [finishPass, rearm_heap, batch, foldl_updateExpired_heap distinct, modifyQueue_heap,
          modifyQueue_kept TimerQueue.cancelingTimers (by intro _ _; rfl)]
      rw [heap]
      split_ifs with inBatch
      · obtain ⟨entry, member, rfl⟩ := List.mem_map.mp inBatch
        obtain ⟨object, live, own, place⟩ := consistent.ran_of_done done member
        rw [live]
        exact .updated own place done
      · exact .unchanged (by simpa [TimerTask.handles, done] using inBatch) (by simp) rfl

/-- The callbacks that a step runs. -/
theorem Executes.firings_append (executes : Executes thread choice world task next calls)
    (loop : Thread) :
    (next.queues loop).firings =
      (world.queues loop).firings ++ if loop = thread then task.firings else [] := by
  cases executes with
  | leaves | posts | cancels | adds | returns | expired => simp [TimerTask.firings, markCancelled]
  | inserts | erases | misses =>
      simp only [TimerTask.firings, ite_self, List.append_nil]
      exact modifyQueue_kept TimerQueue.firings (by simp)
  | begins =>
      simp only [TimerTask.firings, ite_self, List.append_nil, readCallback_queues]
      exact modifyQueue_kept TimerQueue.firings (by simp)
  | fires due =>
      rw [moveTo_queues]
      by_cases same : loop = thread
      · subst same
        simp [TimerTask.firings, due, TimerQueue.fire]
      · simp [same, modifyQueue_other]
  | finishes done =>
      simp only [TimerTask.firings, done, List.head?_nil, Option.toList_none, List.map_nil, ite_self,
        List.append_nil, finishPass]
      rw [rearm_kept TimerQueue.firings fun _ _ _ _ => rfl,
        foldl_updateExpired_kept TimerQueue.firings (by simp),
        modifyQueue_kept TimerQueue.firings (by intro _ _; rfl)]

/-- A step begins a pass or not. -/
theorem Executes.passes_eq (executes : Executes thread choice world task next calls)
    (loop : Thread) :
    (next.queues loop).passes = (world.queues loop).passes +
      if loop = thread ∧ task = .readCallback then 1 else 0 := by
  cases executes with
  | leaves | posts | cancels | adds | returns | expired => simp [markCancelled]
  | inserts | erases | misses =>
      simp only [reduceCtorEq, and_false, if_false, add_zero]
      exact modifyQueue_kept TimerQueue.passes (by simp)
  | begins =>
      rw [readCallback_queues]
      by_cases same : loop = thread
      · subst same
        simp
      · simp [same, modifyQueue_other]
  | fires =>
      simp only [reduceCtorEq, and_false, if_false, add_zero]
      exact modifyQueue_kept TimerQueue.passes fun _ _ => rfl
  | finishes =>
      simp only [reduceCtorEq, and_false, if_false, add_zero, finishPass]
      rw [rearm_kept TimerQueue.passes fun _ _ _ _ => rfl,
        foldl_updateExpired_kept TimerQueue.passes (by simp),
        modifyQueue_kept TimerQueue.passes (by intro _ _; rfl)]

/-- What a step does to `canceling_timers_`, if it neither begins a pass nor cancels. -/
theorem Executes.canceling_eq (executes : Executes thread choice world task next calls)
    {loop : Thread} (within : loop = thread → task ≠ .readCallback)
    (spares : ∀ timer, loop = thread → task ≠ .cancelTimer timer) :
    (next.queues loop).cancelingTimers = (world.queues loop).cancelingTimers := by
  cases executes with
  | leaves | posts | cancels | adds | returns | expired => rfl
  | inserts => exact modifyQueue_kept TimerQueue.cancelingTimers (by simp)
  | erases | misses => exact modifyQueue_kept _ fun same => absurd rfl (spares _ same)
  | begins =>
      rw [readCallback_queues]
      exact modifyQueue_kept _ fun same => absurd rfl (within same)
  | fires => exact modifyQueue_kept TimerQueue.cancelingTimers fun _ _ => rfl
  | finishes =>
      rw [finishPass, rearm_kept TimerQueue.cancelingTimers fun _ _ _ _ => rfl,
        foldl_updateExpired_kept TimerQueue.cancelingTimers (by simp),
        modifyQueue_kept TimerQueue.cancelingTimers (by intro _ _; rfl)]

/-- `CancelTimer` of a timer that is not queued is taken down while a pass is running. -/
theorem mem_canceling_cancelTimer {loop : Thread} {when_ : TimePoint} :
    timer ∈ (((world.markCancelled thread moved).modifyQueue thread
        (·.cancelTimer when_ moved)).queues loop).cancelingTimers ↔
      timer ∈ (world.queues loop).cancelingTimers ∨ loop = thread ∧ timer = moved ∧
        ⟨when_, moved⟩ ∉ (world.queues thread).timers ∧
        (world.queues thread).callingExpiredTimers = true := by
  by_cases same : loop = thread
  · subst same
    rw [modifyQueue_own, markCancelled, modifyTimer_queues, TimerQueue.mem_cancelTimer_canceling]
    simp
  · rw [modifyQueue_other _ same, markCancelled, modifyTimer_queues]
    simp [same]

/-- A timer leaves `canceling_timers_` when a pass begins only. -/
theorem Executes.canceling_kept (executes : Executes thread choice world task next calls)
    {loop : Thread} (within : loop = thread → task ≠ .readCallback)
    (member : timer ∈ (world.queues loop).cancelingTimers) :
    timer ∈ (next.queues loop).cancelingTimers := by
  by_cases cancels : ∃ cancelled, task = .cancelTimer cancelled
  · obtain ⟨cancelled, rfl⟩ := cancels
    cases executes with
    | expired => exact member
    | erases | misses => exact mem_canceling_cancelTimer.mpr (.inl member)
  · rwa [executes.canceling_eq within fun timer _ same => cancels ⟨timer, same⟩]

/-- The read callback clears it. -/
theorem Executes.begins_canceling
    (executes : Executes thread choice world .readCallback next calls) :
    (next.queues thread).cancelingTimers = ∅ := by
  cases executes
  rw [readCallback_queues, modifyQueue_own, TimerQueue.beginPass_canceling]

/-- It comes there by its own `CancelTimer` only. -/
theorem Executes.canceling_new (executes : Executes thread choice world task next calls)
    {loop : Thread} (member : timer ∈ (next.queues loop).cancelingTimers) :
    timer ∈ (world.queues loop).cancelingTimers ∨ loop = thread ∧ task = .cancelTimer timer := by
  by_cases begins : loop = thread ∧ task = .readCallback
  · obtain ⟨rfl, rfl⟩ := begins
    rw [executes.begins_canceling] at member
    simp at member
  by_cases cancels : ∃ cancelled, task = .cancelTimer cancelled
  · obtain ⟨cancelled, rfl⟩ := cancels
    cases executes with
    | expired => exact .inl member
    | erases | misses =>
        rcases mem_canceling_cancelTimer.mp member with before | ⟨own, rfl, -⟩
        · exact .inl before
        · exact .inr ⟨own, rfl⟩
  · rw [executes.canceling_eq (fun own same => begins ⟨own, same⟩)
      fun timer _ same => cancels ⟨timer, same⟩] at member
    exact .inl member

/-- While a pass is running, `CancelTimer` takes down a timer of the batch. -/
theorem Executes.canceling_batched
    (executes : Executes thread choice world (.cancelTimer timer) next calls)
    (consistent : Consistent world ({(thread, .cancelTimer timer)} + rest))
    (live : world.heap timer = some object) (batched : object.place = .due ∨ object.place = .ran)
    (calling : (world.queues thread).callingExpiredTimers = true) :
    timer ∈ (next.queues thread).cancelingTimers := by
  have absent : ∀ when_, ⟨when_, timer⟩ ∉ (world.queues thread).timers := by
    refine consistent.mk_not_mem live ?_ thread
    rcases batched with due | ran
    · simp [due]
    · simp [ran]
  cases executes with
  | expired found released =>
      cases live.symm.trans found
      simp [released] at batched
  | erases found queued => exact absurd queued (absent _)
  | misses found => exact mem_canceling_cancelTimer.mpr (.inr ⟨rfl, rfl, absent _, calling⟩)

end Executes

end TimerWorld

end Benet
