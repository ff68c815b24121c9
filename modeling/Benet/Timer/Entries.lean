import Benet.Timer.Places

/-!
# Every step keeps every timer in one place

One lemma for each effect of a task, whatever the callbacks of a pass add and
cancel, and the induction over runs. The entries of `timers_` stay under the right
key because `Restart` changes only timers of the batch, and those are not in the
queue.
-/

namespace Benet

open EventLoop Semantics

namespace TimerWorld

variable {Thread : Type} [DecidableEq Thread] {world next : TimerWorld Thread} {thread : Thread}
  {timer : TimerPtr} {object changed : Timer Thread}

namespace Consistent

variable {rest : Multiset (Located Thread TimerTask)} {choice : TimerChoice Thread}
  {task : TimerTask} {calls : List (Call Thread TimerTask)}

omit [DecidableEq Thread] in
/-- The marks of the executed task, and the others. -/
theorem marking_rest (consistent : Consistent world ({(thread, task)} + rest)) :
    Marking world.Marked ((task.marks.map (thread, ·)) + marks TimerTask.marks rest) := by
  have marking := consistent.marking
  rwa [marks_add, marks_singleton] at marking

omit [DecidableEq Thread] in
/-- A task in flight says the truth. -/
theorem marked (consistent : Consistent world ({(thread, task)} + rest)) (mark : TimerMark)
    (carried : mark ∈ task.marks) : world.Marked (thread, mark) :=
  consistent.marking_rest.holds (Multiset.mem_map_of_mem _ carried)

omit [DecidableEq Thread] in
/-- A task that brings no mark and gives none up. -/
theorem marking_plain (consistent : Consistent world ({(thread, task)} + rest))
    (unmarked : task.marks = 0)
    (silent : marks TimerTask.marks (Call.flights thread calls) = 0)
    (same : ∀ fact, next.Marked fact ↔ world.Marked fact) :
    Marking next.Marked (marks TimerTask.marks (Call.flights thread calls + rest)) := by
  have marking := consistent.marking_rest
  rw [unmarked, Multiset.map_zero, zero_add] at marking
  rw [marks_add, silent, zero_add]
  exact marking.keep same

omit [DecidableEq Thread] in
/-- A change of a timer that leaves it where it is. -/
theorem modifyTimer (consistent : Consistent world ({(thread, task)} + rest))
    (unmarked : task.marks = 0) {change : Timer Thread → Timer Thread}
    (loops : ∀ object, (change object).loop = object.loop)
    (places : ∀ object, (change object).place = object.place)
    (expirations : ∀ object, (change object).expiration = object.expiration) :
    Consistent (world.modifyTimer timer change) (Call.flights thread [] + rest) where
  marking := consistent.marking_plain unmarked rfl fun _ => marked_modifyTimer timer loops places
  entries loop entry := (consistent.entries loop entry).trans
    (queued_modifyTimer timer loops places expirations).symm
  asserted := consistent.asserted

omit [DecidableEq Thread] in
/-- `AddTimer` allocates the timer and posts its insertion. -/
theorem adds {loop : Thread} {when_ : TimePoint} {interval : Interval}
    (consistent : Consistent world ({(thread, .user)} + rest)) (free : world.heap timer = none) :
    Consistent (world.allocate timer { expiration := when_, interval, loop })
      (Call.flights thread [.runInLoop loop (.addTimer timer), .task (.addTimerReturns timer),
        .task .user] + rest) where
  marking := by
    have marking := consistent.marking_rest
    have unmarked : ∀ fact, world.Marked fact → fact.2.timer ≠ timer := by
      rintro fact ⟨object, live, -⟩ rfl
      rw [free] at live
      cases live
    have called : marks TimerTask.marks (Call.flights thread [.runInLoop loop (.addTimer timer),
        .task (.addTimerReturns timer), .task .user]) = {(loop, .adding timer)} := by
      simp [Call.flight, TimerTask.marks]
    rw [TimerTask.marks, Multiset.map_zero, zero_add] at marking
    rw [marks_add, called]
    refine marking.acquire (Multiset.nodup_singleton _) ?_ ?_
    · intro fact new held
      rw [Multiset.mem_singleton.mp new] at held
      exact unmarked _ held rfl
    · rintro ⟨other, mark⟩
      rw [marked_update rfl, and_iff_right_of_imp fun held => unmarked _ held]
      cases mark <;> simp [TimerMark.timer, TimerMark.Places, and_comm, eq_comm]
  entries other entry := by
    have kept : world.Queued other entry → entry.second ≠ timer := by
      rintro ⟨object, live, -⟩ rfl
      rw [free] at live
      cases live
    rw [queued_update rfl, allocate_queues, consistent.entries]
    simpa using kept
  asserted := consistent.asserted

omit [DecidableEq Thread] in
/-- A task in flight gives up the marks `old`, which are all about one timer. -/
theorem marking_moved (consistent : Consistent world ({(thread, task)} + rest))
    (old kept : Multiset TimerMark) (split : task.marks = old + kept)
    (live : world.heap timer = some object) (own : object.loop = thread)
    (heap : next.heap = Function.update world.heap timer (some changed))
    (sameLoop : changed.loop = object.loop)
    (given : ∀ mark : TimerMark, mark.timer = timer →
      (mark.Places changed.place ↔ mark.Places object.place ∧ mark ∉ old))
    (about : ∀ mark ∈ old, mark.timer = timer) :
    Marking next.Marked (kept.map (thread, ·) + marks TimerTask.marks rest) := by
  have marking := consistent.marking_rest
  rw [split, Multiset.map_add, add_assoc] at marking
  exact marking.release fun fact => own ▸ marked_moved live heap sameLoop given about

/-- A change of one queue that fails no other assertion than the one on the cut. -/
theorem asserted_modifyQueue {flight : Multiset (Located Thread TimerTask)}
    (consistent : Consistent world flight) (change : TimerQueue → TimerQueue)
    (kept : (change (world.queues thread)).failedAssertions =
      (world.queues thread).failedAssertions) (loop : Thread) :
    ∀ failed ∈ ((world.modifyQueue thread change).queues loop).failedAssertions,
      failed = .cutAfterNow := by
  by_cases same : loop = thread
  · subst same
    rw [modifyQueue_own, kept]
    exact consistent.asserted loop
  · rw [modifyQueue_other _ same]
    exact consistent.asserted loop

omit [DecidableEq Thread] in
/-- A timer that is not in the queue has no entry there. -/
theorem not_mem_timers {flight : Multiset (Located Thread TimerTask)}
    (consistent : Consistent world flight) (live : world.heap timer = some object)
    (elsewhere : object.place ≠ .timers) {loop : Thread} {entry : TimerEntry}
    (member : entry ∈ (world.queues loop).timers) : entry.second ≠ timer := by
  rintro rfl
  exact elsewhere ((queued_iff live).mp ((consistent.entries loop entry).mp member)).2.1

omit [DecidableEq Thread] in
/-- A timer that is elsewhere is in no queue. -/
theorem mk_not_mem {flight : Multiset (Located Thread TimerTask)}
    (consistent : Consistent world flight) (live : world.heap timer = some object)
    (elsewhere : object.place ≠ .timers) (loop : Thread) (when_ : TimePoint) :
    .mk when_ timer ∉ (world.queues loop).timers :=
  fun member => consistent.not_mem_timers live elsewhere member rfl

omit [DecidableEq Thread] in
/-- The entries after the insertion of a timer that was not there. -/
theorem mem_insert {flight : Multiset (Located Thread TimerTask)}
    (consistent : Consistent world flight) (live : world.heap timer = some object)
    (elsewhere : object.place ≠ .timers) {when_ : TimePoint} (entry : TimerEntry) :
    entry ∈ (world.queues thread).timers.insert (.mk when_ timer) ↔
      (entry.second = timer ∧ when_ = entry.first) ∨
        (entry.second ≠ timer ∧ entry ∈ (world.queues thread).timers) := by
  have absent : entry ∈ (world.queues thread).timers → entry.second ≠ timer :=
    consistent.not_mem_timers live elsewhere
  rw [Data.OrderedSet.mem_insert, TimerEntry.eq_mk, and_iff_right_of_imp absent]

omit [DecidableEq Thread] in
/-- The entries when a timer that was not there goes somewhere else. -/
private theorem mem_elsewhere {flight : Multiset (Located Thread TimerTask)}
    (consistent : Consistent world flight) (live : world.heap timer = some object)
    (elsewhere : object.place ≠ .timers) {place : TimerPlace} {when_ : TimePoint}
    (stays : place ≠ .timers) (entry : TimerEntry) :
    entry ∈ (world.queues thread).timers ↔
      (entry.second = timer ∧ place = .timers ∧ when_ = entry.first) ∨
        (entry.second ≠ timer ∧ entry ∈ (world.queues thread).timers) := by
  have absent : entry ∈ (world.queues thread).timers → entry.second ≠ timer :=
    consistent.not_mem_timers live elsewhere
  simpa [stays] using absent

/-- The functor of `AddTimer` hands its timer over to the queue. -/
theorem inserts (consistent : Consistent world ({(thread, .addTimer timer)} + rest))
    (live : world.heap timer = some object) (now : TimePoint) :
    Consistent ((world.modifyQueue thread (·.addTimer now object.expiration timer)).moveTo
      .timers timer) (Call.flights thread [] + rest) := by
  obtain ⟨own, place⟩ : object.loop = thread ∧ object.place = .functor :=
    (marked_iff live).mp (consistent.marked (.adding timer) (by simp [TimerTask.marks]))
  have elsewhere : object.place ≠ .timers := by simp [place]
  have heap : ((world.modifyQueue thread (·.addTimer now object.expiration timer)).moveTo
      .timers timer).heap = Function.update world.heap timer
        (some { object with place := .timers }) := moveTo_heap .timers live
  refine ⟨?_, entries_update consistent.entries live heap own rfl ?_ ?_, ?_⟩
  · have moved := consistent.marking_moved {.adding timer} 0 rfl live own heap rfl ?_ ?_
    · simpa using moved
    · rintro (_ | _ | _) rfl <;> simp [TimerMark.Places, TimerMark.timer, place]
    · simp [TimerMark.timer]
  · exact fun loop different => modifyQueue_other _ different
  · intro entry
    rw [moveTo_queues, modifyQueue_own, TimerQueue.addTimer_timers,
      consistent.mem_insert live elsewhere]
    simp
  · exact consistent.asserted_modifyQueue (·.addTimer now object.expiration timer)
      (TimerQueue.addTimer_failedAssertions (consistent.mk_not_mem live elsewhere _ _))

/-- `CancelTimer` finds the timer under its expiration and takes it out. -/
theorem erases (consistent : Consistent world ({(thread, .cancelTimer timer)} + rest))
    (live : world.heap timer = some object)
    (found : .mk object.expiration timer ∈ (world.queues thread).timers) :
    Consistent (((world.markCancelled thread timer).modifyQueue thread
      (·.cancelTimer object.expiration timer)).moveTo .released timer)
      (Call.flights thread [] + rest) := by
  obtain ⟨own, place, -⟩ := (queued_iff live).mp ((consistent.entries _ _).mp found)
  obtain ⟨erased, asserted⟩ := TimerQueue.cancelTimer_found found
  have heap := erased_heap thread (·.cancelTimer object.expiration timer) live
  refine ⟨?_, entries_update consistent.entries live heap own rfl ?_ ?_, ?_⟩
  · have moved := consistent.marking_moved 0 0 rfl live own heap rfl ?_ ?_
    · simpa using moved
    · rintro (_ | _ | _) rfl <;> simp [TimerMark.Places, place]
    · simp
  · exact fun loop different => modifyQueue_other _ different
  · intro entry
    rw [moveTo_queues, modifyQueue_own, markCancelled, modifyTimer_queues, erased,
      Data.OrderedSet.mem_erase]
    -- The queue has no other entry with this timer.
    have only : entry ∈ (world.queues thread).timers →
        (entry ≠ .mk object.expiration timer ↔ entry.second ≠ timer) := by
      intro member
      refine not_congr ⟨fun same => same ▸ rfl, fun same => ?_⟩
      exact (((consistent.entries _ _).mp member).unique ((consistent.entries _ _).mp found) same).2
    simp only [reduceCtorEq, false_and, and_false, false_or]
    grind
  · exact consistent.asserted_modifyQueue (·.cancelTimer object.expiration timer) asserted

/-- `CancelTimer` of a timer that is not in the queue leaves the queue as it is. -/
theorem misses (consistent : Consistent world ({(thread, .cancelTimer timer)} + rest))
    (absent : .mk object.expiration timer ∉ (world.queues thread).timers) :
    Consistent ((world.markCancelled thread timer).modifyQueue thread
      (·.cancelTimer object.expiration timer)) (Call.flights thread [] + rest) := by
  obtain ⟨timers, asserted⟩ := TimerQueue.cancelTimer_absent absent
  have marked : Consistent (world.markCancelled thread timer) (Call.flights thread [] + rest) :=
    consistent.modifyTimer rfl (fun _ => rfl) (fun _ => rfl) fun _ => rfl
  refine ⟨marked.marking, fun loop entry => ?_, ?_⟩
  · refine Iff.trans ?_ (marked.entries loop entry)
    by_cases same : loop = thread
    · subst same
      rw [modifyQueue_own, markCancelled, modifyTimer_queues, timers]
    · rw [modifyQueue_other _ same]
  · exact consistent.asserted_modifyQueue (·.cancelTimer object.expiration timer) asserted

omit [DecidableEq Thread] in
/-- The timers of the entries of a queue are distinct. -/
private theorem nodup_timers {flight : Multiset (Located Thread TimerTask)}
    (consistent : Consistent world flight) {batch : List TimerEntry} (nodup : batch.Nodup)
    (queued : ∀ entry ∈ batch, entry ∈ (world.queues thread).timers) :
    (batch.map (·.second)).Nodup := by
  refine nodup.map_on fun entry member entry' member' same => ?_
  exact (((consistent.entries _ _).mp (queued entry member)).unique
    ((consistent.entries _ _).mp (queued entry' member')) same).2

section Begin

variable {now readAt : TimePoint} {flight : Multiset (Located Thread TimerTask)}

/-- The timers that the read callback takes out. -/
def takenBy (thread : Thread) (now : TimePoint) (world : TimerWorld Thread) : List TimerPtr :=
  ((world.queues thread).expired now).map (·.second)

omit [DecidableEq Thread] in
/-- A timer that is taken out has an expired entry in the queue. -/
theorem taken_queued (consistent : Consistent world flight)
    (taken : timer ∈ takenBy thread now world) :
    ∃ entry ∈ (world.queues thread).expired now, entry.second = timer ∧ world.Queued thread entry := by
  obtain ⟨entry, member, same⟩ := List.mem_map.mp taken
  exact ⟨entry, member, same,
    (consistent.entries thread entry).mp (TimerQueue.mem_expired.mp member).1⟩

omit [DecidableEq Thread] in
/-- A timer that a pass takes has no mark yet. -/
theorem not_marked_taken (consistent : Consistent world flight) {fact : Thread × TimerMark}
    (taken : fact.2.timer ∈ takenBy thread now world) : ¬ world.Marked fact := by
  obtain ⟨entry, -, same, object, live, -, place, -⟩ := consistent.taken_queued taken
  rw [marked_iff (same ▸ live), place]
  rintro ⟨-, marked⟩
  revert marked
  cases fact.2 <;> simp [TimerMark.Places]

/-- It is due afterwards. -/
theorem readCallback_taken (consistent : Consistent world flight) (readAt : TimePoint)
    (taken : timer ∈ takenBy thread now world) :
    ∃ object, world.heap timer = some object ∧ object.loop = thread ∧ object.place = .timers ∧
      (world.readCallback thread now readAt).1.heap timer =
        some { object with place := .due } := by
  obtain ⟨entry, -, rfl, object, live, own, place, -⟩ := consistent.taken_queued taken
  refine ⟨object, live, own, place, (foldl_moveTo_heap .due _ _ _).trans ((if_pos taken).trans ?_)⟩
  rw [modifyQueue_heap, live]
  rfl

/-- The other timers stay as they are. -/
theorem readCallback_left (left : timer ∉ takenBy thread now world) :
    (world.readCallback thread now readAt).1.heap timer = world.heap timer :=
  (foldl_moveTo_heap .due _ _ _).trans (if_neg left)

/-- The marks of the new pass become true, and no other mark changes. -/
theorem readCallback_marked (consistent : Consistent world flight) (fact : Thread × TimerMark) :
    (world.readCallback thread now readAt).1.Marked fact ↔
      (fact.2.timer ∈ takenBy thread now world ∧ fact.2.Places .due ∧ thread = fact.1) ∨
        world.Marked fact := by
  by_cases taken : fact.2.timer ∈ takenBy thread now world
  · obtain ⟨object, -, own, -, next⟩ := consistent.readCallback_taken readAt taken
    rw [marked_iff next, own]
    simp [taken, consistent.not_marked_taken taken, and_comm]
  · rw [marked_congr (readCallback_left taken)]
    simp [taken]

/-- An entry stays in its queue if its timer is not taken out. -/
theorem readCallback_entries (consistent : Consistent world flight) (loop : Thread)
    (entry : TimerEntry) :
    entry ∈ ((world.readCallback thread now readAt).1.queues loop).timers ↔
      (world.readCallback thread now readAt).1.Queued loop entry := by
  have stays : entry ∈ ((world.readCallback thread now readAt).1.queues loop).timers ↔
      entry ∈ (world.queues loop).timers ∧ (loop = thread → now ≤ entry.first) := by
    rw [readCallback_queues]
    by_cases same : loop = thread
    · subst same
      rw [modifyQueue_own, TimerQueue.mem_beginPass_timers]
      simp
    · rw [modifyQueue_other _ same]
      simp [same]
  rw [stays, consistent.entries]
  by_cases taken : entry.second ∈ takenBy thread now world
  · -- The only entry with this timer is the expired one.
    obtain ⟨expired, member, same, queued⟩ := consistent.taken_queued taken
    obtain ⟨object, -, -, -, next⟩ := consistent.readCallback_taken readAt taken
    rw [queued_iff next]
    constructor
    · rintro ⟨found, late⟩
      obtain ⟨rfl, rfl⟩ := found.unique queued same.symm
      exact absurd (TimerQueue.mem_expired.mp member).2 (late rfl).not_gt
    · rintro ⟨-, place, -⟩
      cases place
  · rw [queued_congr (readCallback_left taken)]
    refine and_iff_left_of_imp fun queued same => not_lt.mp fun early => taken ?_
    subst same
    exact List.mem_map_of_mem
      (TimerQueue.mem_expired.mpr ⟨(consistent.entries _ _).mpr queued, early⟩)

end Begin

/-- The read callback takes the expired timers over from the queue. -/
theorem begins (consistent : Consistent world ({(thread, .readCallback)} + rest))
    (now readAt : TimePoint) :
    Consistent (world.readCallback thread now readAt).1
      (Call.flights thread [.task (.callExpired ((world.queues thread).expiryPass now))] + rest) := by
  refine ⟨?_, consistent.readCallback_entries, ?_⟩
  · have marking := consistent.marking_rest
    rw [TimerTask.marks, Multiset.map_zero, zero_add] at marking
    have called : marks TimerTask.marks (Call.flights thread
        [.task (.callExpired ((world.queues thread).expiryPass now))]) =
        (TimerTask.callExpired ((world.queues thread).expiryPass now)).marks.map (thread, ·) := by
      simp [Call.flight]
    have new : ∀ fact : Thread × TimerMark, fact ∈
        (TimerTask.callExpired ((world.queues thread).expiryPass now)).marks.map (thread, ·) ↔
          fact.2.timer ∈ takenBy thread now world ∧ fact.2.Places .due ∧ thread = fact.1 := by
      rintro ⟨loop, mark⟩
      have carried := (world.queues thread).mem_marks_expiryPass now mark
      simp only [Multiset.mem_map, Prod.mk.injEq, exists_eq_right_right, carried, takenBy]
      tauto
    have distinct : (takenBy thread now world).Nodup :=
      consistent.nodup_timers ((world.queues thread).timers.sorted_before.imp ne_of_lt)
        fun entry member => (TimerQueue.mem_expired.mp member).1
    rw [marks_add, called]
    refine marking.acquire (Multiset.Nodup.map (Prod.mk_right_injective thread)
      (TimerQueue.nodup_marks_expiryPass distinct)) ?_ ?_
    · exact fun fact member => consistent.not_marked_taken ((new fact).mp member).1
    · intro fact
      rw [consistent.readCallback_marked, new]
  · intro loop
    rw [readCallback_queues]
    by_cases same : loop = thread
    · subst same
      rw [modifyQueue_own]
      exact TimerQueue.beginPass_asserted (consistent.asserted loop)
    · rw [modifyQueue_other _ same]
      exact consistent.asserted loop

omit [DecidableEq Thread] in
/-- A timer whose callback a pass will run is in the batch of the pass. -/
theorem waiting_batched {flight : Multiset (Located Thread TimerTask)}
    (waiting : (thread, .waiting timer) ∈ marks TimerTask.marks flight) :
    (thread, .batched timer) ∈ marks TimerTask.marks flight := by
  obtain ⟨task, member, carried⟩ := (mem_marks _).mp waiting
  refine (mem_marks _).mpr ⟨task, member, ?_⟩
  cases task with
  | callExpired pass =>
      simp only [TimerTask.marks, Multiset.mem_add, Multiset.mem_coe, List.mem_map,
        TimerMark.waiting.injEq, reduceCtorEq, and_false, exists_false, or_false] at carried
      obtain ⟨entry, inRest, rfl⟩ := carried
      simp only [TimerTask.marks, Multiset.mem_add, Multiset.mem_coe, List.mem_map]
      exact .inr ⟨entry, List.mem_append_right _ inRest, rfl⟩
  | addTimer => simp [TimerTask.marks] at carried
  | user | addTimerReturns | cancelTimer | readCallback => simp [TimerTask.marks] at carried

/-- `Run()` of the next expired timer. -/
theorem fires {pass : ExpiryPass} {entry : TimerEntry} {later : List TimerEntry}
    (consistent : Consistent world ({(thread, .callExpired pass)} + rest))
    (due : pass.rest = entry :: later) :
    Consistent ((world.modifyQueue thread (·.fire ⟨pass.number, pass.now, entry⟩)).moveTo
      .ran entry.second)
      (Call.flights thread [.task .user, .task (.callExpired (pass.next entry later))] + rest) := by
  have carried : TimerMark.waiting entry.second ∈ (TimerTask.callExpired pass).marks := by
    simp [TimerTask.marks, due]
  obtain ⟨object, live, own, place⟩ := consistent.marked _ carried
  have heap : ((world.modifyQueue thread (·.fire ⟨pass.number, pass.now, entry⟩)).moveTo
      .ran entry.second).heap = Function.update world.heap entry.second (some { object with place := .ran }) :=
    moveTo_heap .ran live
  have elsewhere : object.place ≠ .timers := by
    rw [show object.place = .due from place]
    simp
  refine ⟨?_, entries_update consistent.entries live heap own rfl ?_ ?_, ?_⟩
  · have split : (TimerTask.callExpired pass).marks = {.waiting entry.second} +
        (TimerTask.callExpired (pass.next entry later)).marks := by
      simp [TimerTask.marks, ExpiryPass.expired, ExpiryPass.next, due]
    have moved := consistent.marking_moved _ _ split live own heap rfl ?_ ?_
    · simpa [Call.flight, TimerTask.marks] using moved
    · rintro (_ | _ | _) rfl <;>
        simp [TimerMark.Places, TimerMark.timer, show object.place = .due from place]
    · simp [TimerMark.timer]
  · exact fun loop different => modifyQueue_other _ different
  · intro other
    rw [moveTo_queues, modifyQueue_own]
    exact consistent.mem_elsewhere live elsewhere (by simp) other
  · exact consistent.asserted_modifyQueue (·.fire ⟨pass.number, pass.now, entry⟩) rfl

omit [DecidableEq Thread] in
/-- When the loop over the batch is done, every callback of the batch was run. -/
theorem ran_of_done {pass : ExpiryPass} {entry : TimerEntry}
    (consistent : Consistent world ({(thread, .callExpired pass)} + rest))
    (done : pass.rest = []) (member : entry ∈ pass.ran) :
    ∃ object, world.heap entry.second = some object ∧ object.loop = thread ∧ object.place = .ran := by
  have carried : TimerMark.batched entry.second ∈ (TimerTask.callExpired pass).marks := by
    simp only [TimerTask.marks, ExpiryPass.expired, done, List.append_nil, Multiset.mem_add,
      Multiset.mem_coe, List.mem_map]
    exact .inr ⟨entry, member, rfl⟩
  obtain ⟨object, live, own, due | ran⟩ := consistent.marked _ carried
  · -- A callback that is still to be run would be waiting in another pass.
    have marking := consistent.marking_rest
    have waiting : (thread, TimerMark.waiting entry.second) ∈ marks TimerTask.marks rest := by
      refine marking.mem_rest.mpr ⟨⟨object, live, own, due⟩, ?_⟩
      simp [TimerTask.marks, done]
    exact absurd (waiting_batched waiting)
      (marking.not_mem_rest (Multiset.mem_map_of_mem _ carried))
  · exact ⟨object, live, own, ran⟩

/-- One turn of the loop that restarts the expired timers gives one timer of the
batch up. -/
theorem updates {number : Nat} {now : TimePoint} {entry : TimerEntry} {batch : List TimerEntry}
    (consistent : Consistent world ({(thread, .callExpired ⟨number, now, entry :: batch, []⟩)} +
      rest)) :
    Consistent (world.updateExpired thread now entry)
      ({(thread, .callExpired ⟨number, now, batch, []⟩)} + rest) := by
  obtain ⟨object, live, own, place⟩ := consistent.ran_of_done rfl List.mem_cons_self
  have elsewhere : object.place ≠ .timers := by simp [place]
  have split : (TimerTask.callExpired ⟨number, now, entry :: batch, []⟩).marks =
      {.batched entry.second} + (TimerTask.callExpired ⟨number, now, batch, []⟩).marks := by
    simp [TimerTask.marks, ExpiryPass.expired]
  have gives : ∀ {place'}, place' = TimerPlace.timers ∨ place' = .released →
      ∀ mark : TimerMark, mark.timer = entry.second →
        (mark.Places place' ↔ mark.Places object.place ∧ mark ∉ ({.batched entry.second} : Multiset _)) := by
    rintro _ (rfl | rfl) (_ | _ | _) rfl <;> simp [TimerMark.Places, place]
  have released : Consistent (world.moveTo .released entry.second)
      ({(thread, .callExpired ⟨number, now, batch, []⟩)} + rest) := by
    have heap := moveTo_heap .released live
    refine ⟨?_, entries_update consistent.entries live heap own rfl (fun _ _ => rfl) ?_,
      consistent.asserted⟩
    · have moved := consistent.marking_moved _ _ split live own heap rfl (gives (.inr rfl))
        (by simp [TimerMark.timer])
      rwa [marks_add, marks_singleton]
    · exact consistent.mem_elsewhere live elsewhere (by simp)
  rw [updateExpired, live]
  dsimp only
  split_ifs
  · exact released
  · exact released
  · have heap := restart_heap thread now live
    have sameLoop : (object.restart now).loop = object.loop := object.restart_loop now
    refine ⟨?_, entries_update consistent.entries live heap own sameLoop ?_ ?_, ?_⟩
    · have moved := consistent.marking_moved _ _ split live own heap sameLoop (gives (.inl rfl))
        (by simp [TimerMark.timer])
      rwa [marks_add, marks_singleton]
    · exact fun loop different => restart_other now _ object different
    · intro other
      rw [restart_own]
      refine (consistent.mem_insert live elsewhere other).trans ?_
      simp
    · exact consistent.asserted_modifyQueue
        (fun queue => (queue.insert (object.restart now).expiration entry.second).1)
        (TimerQueue.insert_failedAssertions (consistent.mk_not_mem live elsewhere _ _))

/-- The loop gives the whole batch up. -/
theorem updates_all {number : Nat} {now : TimePoint} {batch : List TimerEntry}
    (consistent : Consistent world ({(thread, .callExpired ⟨number, now, batch, []⟩)} + rest)) :
    Consistent (batch.foldl (updateExpired thread now) world) rest := by
  induction batch generalizing world with
  | nil =>
      refine ⟨?_, consistent.entries, consistent.asserted⟩
      simpa [TimerTask.marks, ExpiryPass.expired] using consistent.marking
  | cons entry batch ih =>
      rw [List.foldl_cons]
      exact ih consistent.updates

/-- A change of a queue that keeps its entries. -/
theorem modifyQueue {flight : Multiset (Located Thread TimerTask)}
    (consistent : Consistent world flight) (thread : Thread) (change : TimerQueue → TimerQueue)
    (timers : ∀ queue, (change queue).timers = queue.timers)
    (asserted : ∀ queue, (change queue).failedAssertions = queue.failedAssertions) :
    Consistent (world.modifyQueue thread change) flight where
  marking := consistent.marking
  entries loop entry := by
    refine Iff.trans ?_ (consistent.entries loop entry)
    by_cases same : loop = thread
    · subst same
      rw [modifyQueue_own, timers]
    · rw [modifyQueue_other _ same]
  asserted := consistent.asserted_modifyQueue change (asserted _)

/-- The end of a pass. -/
theorem finishes {pass : ExpiryPass}
    (consistent : Consistent world ({(thread, .callExpired pass)} + rest)) (done : pass.rest = [])
    (now : TimePoint) :
    Consistent (world.finishPass thread now pass) (Call.flights thread [] + rest) := by
  obtain ⟨number, passNow, batch, later⟩ := pass
  subst done
  have stopped := consistent.modifyQueue thread TimerQueue.stopCalling (fun _ => rfl)
    fun _ => rfl
  have updated := stopped.updates_all
  rw [Call.flights_nil, zero_add, finishPass, ExpiryPass.expired, List.append_nil, rearm]
  split
  · exact updated.modifyQueue thread _ (fun _ => rfl) fun _ => rfl
  · exact updated

/-- Every step of the timers keeps every timer in one place. -/
theorem executes (consistent : Consistent world ({(thread, task)} + rest))
    (executes : Executes thread choice world task next calls) :
    Consistent next (Call.flights thread calls + rest) := by
  cases executes with
  | leaves =>
      exact ⟨consistent.marking_plain rfl rfl fun _ => Iff.rfl, consistent.entries,
        consistent.asserted⟩
  | posts posted =>
      refine ⟨consistent.marking_plain rfl ?_ fun _ => Iff.rfl, consistent.entries,
        consistent.asserted⟩
      obtain ⟨loop, rfl | rfl | rfl⟩ := posted <;> simp [Call.flight, TimerTask.marks]
  | adds notNull free => exact consistent.adds free
  | cancels =>
      refine ⟨consistent.marking_plain rfl ?_ fun _ => Iff.rfl, consistent.entries,
        consistent.asserted⟩
      simp [Call.flight, TimerTask.marks]
  | inserts live => exact consistent.inserts live choice.now
  | returns | expired => exact consistent.modifyTimer rfl (fun _ => rfl) (fun _ => rfl) fun _ => rfl
  | erases live found => exact consistent.erases live found
  | misses live absent => exact consistent.misses absent
  | begins => exact consistent.begins choice.now choice.readAt
  | fires due => exact consistent.fires due
  | finishes done => exact consistent.finishes done choice.now

end Consistent

omit [DecidableEq Thread] in
/-- Without timers everything is consistent. -/
theorem consistent_initial : Consistent ({} : TimerWorld Thread) 0 where
  marking := ⟨Multiset.nodup_zero, by simp [Marked]⟩
  entries := by simp [Queued]
  asserted := by simp

/-- What arrives from `Poll` and from the machine says nothing about a timer. -/
theorem Consistent.arrives {flight arrived : Multiset (Located Thread TimerTask)}
    (consistent : Consistent world flight) (brought : client.Arrives world arrived) :
    Consistent world (arrived + flight) := by
  refine ⟨?_, consistent.entries, consistent.asserted⟩
  have silent : marks TimerTask.marks arrived = 0 := by
    refine marks_eq_zero _ fun located member => ?_
    rcases arrives_task brought member with user | readCallback
    · rw [user]
      rfl
    · rw [readCallback]
      rfl
  rw [marks_add, silent, zero_add]
  exact consistent.marking

/-- Timers, queues and tasks in flight are consistent in every run. -/
theorem reachable_consistent [Fintype Thread]
    {guard : Thread → TimerTask → TimerChoice Thread → TimerWorld Thread → Prop}
    {machine : Machine (TimerWorld Thread) Thread TimerTask}
    (reachable : system.Reachable (Machine.onExec guard) machine) :
    Consistent machine.client machine.flight := by
  refine Machine.reachable_flight client_prompt Consistent ?_ ?_ reachable
  · rintro _ rfl
    exact consistent_initial
  · intro machine next _ step consistent
    cases step with
    | executes before _ _ executed after =>
        rw [before] at consistent
        rw [after]
        exact consistent.executes (exec_executes executed)
    | arrives same brought after =>
        rw [same, after]
        exact consistent.arrives brought

end TimerWorld

end Benet
