import Benet.Timer.Executes
import Benet.EventLoop.Marks

/-!
# Where a timer is

What the tasks in flight and the queues say about a timer, and what the functions
of a queue do to its entries. `Consistent` puts the two together: a timer that is
held is in exactly one place, in the functor of `AddTimer`, in `timers_` under its
expiration, or in the batch of one expiry pass.
-/

namespace Benet

open EventLoop Semantics

/-- What a task in flight says about a timer: it will insert it, it will run its
callback, or it holds it in the batch of a pass. -/
inductive TimerMark where
  | adding (timer : TimerPtr)
  | waiting (timer : TimerPtr)
  | batched (timer : TimerPtr)
deriving DecidableEq

namespace TimerMark

def timer : TimerMark → TimerPtr
  | .adding timer | .waiting timer | .batched timer => timer

/-- Where the timer is then. -/
def Places (place : TimerPlace) : TimerMark → Prop
  | .adding _ => place = .functor
  | .waiting _ => place = .due
  | .batched _ => place = .due ∨ place = .ran

end TimerMark

def TimerTask.marks : TimerTask → Multiset TimerMark
  | .addTimer timer => {.adding timer}
  | .callExpired pass =>
      (pass.rest.map fun entry => .waiting entry.second : List TimerMark) +
        (pass.expired.map fun entry => .batched entry.second : List TimerMark)
  | .user | .addTimerReturns _ | .cancelTimer _ | .readCallback => 0

namespace TimerWorld

variable {Thread : Type}

/-- The mark says the truth about a timer of the loop. -/
def Marked (world : TimerWorld Thread) (fact : Thread × TimerMark) : Prop :=
  ∃ object, world.heap fact.2.timer = some object ∧ object.loop = fact.1 ∧
    fact.2.Places object.place

/-- The timer of the entry is in the queue of the loop and expires at its time. -/
def Queued (world : TimerWorld Thread) (loop : Thread) (entry : TimerEntry) : Prop :=
  ∃ object, world.heap entry.second = some object ∧ object.loop = loop ∧
    object.place = .timers ∧ object.expiration = entry.first

/-- The places of the timers agree with the tasks in flight and with the queues,
and no assertion but the one on the cut has failed. -/
structure Consistent (world : TimerWorld Thread) (flight : Multiset (Located Thread TimerTask)) :
    Prop where
  marking : Marking world.Marked (marks TimerTask.marks flight)
  entries : ∀ loop entry, entry ∈ (world.queues loop).timers ↔ world.Queued loop entry
  asserted : ∀ loop, ∀ failed ∈ (world.queues loop).failedAssertions, failed = .cutAfterNow

section Facts

variable {world next : TimerWorld Thread} {timer : TimerPtr} {object : Timer Thread}
  {fact : Thread × TimerMark} {loop : Thread} {entry : TimerEntry}

/-- When a mark is true of a timer that exists. -/
theorem marked_iff (live : world.heap fact.2.timer = some object) :
    world.Marked fact ↔ object.loop = fact.1 ∧ fact.2.Places object.place := by
  simp [Marked, live]

/-- When a timer that exists is queued under an entry. -/
theorem queued_iff (live : world.heap entry.second = some object) :
    world.Queued loop entry ↔
      object.loop = loop ∧ object.place = .timers ∧ object.expiration = entry.first := by
  simp [Queued, live]

/-- Facts about a timer depend on the timer only. -/
theorem marked_congr (same : next.heap fact.2.timer = world.heap fact.2.timer) :
    next.Marked fact ↔ world.Marked fact := by
  simp [Marked, same]

/-- Whether a timer is queued depends on the timer only. -/
theorem queued_congr (same : next.heap entry.second = world.heap entry.second) :
    next.Queued loop entry ↔ world.Queued loop entry := by
  simp [Queued, same]

/-- A change that keeps the loop, the place and the expiration of a timer. -/
theorem heap_kept {change : Timer Thread → Timer Thread} (timer : TimerPtr)
    (Kept : Timer Thread → Prop) (kept : ∀ object, Kept (change object) ↔ Kept object)
    (other : TimerPtr) :
    (∃ object, (world.modifyTimer timer change).heap other = some object ∧ Kept object) ↔
      ∃ object, world.heap other = some object ∧ Kept object := by
  by_cases same : other = timer
  · subst same
    cases live : world.heap other <;> simp [modifyTimer, live, kept]
  · simp [modifyTimer, Function.update_of_ne same]

/-- A change that leaves loop and place alone changes no mark. -/
theorem marked_modifyTimer {change : Timer Thread → Timer Thread} (timer : TimerPtr)
    (loops : ∀ object, (change object).loop = object.loop)
    (places : ∀ object, (change object).place = object.place) :
    (world.modifyTimer timer change).Marked fact ↔ world.Marked fact :=
  heap_kept timer (fun object => object.loop = fact.1 ∧ fact.2.Places object.place)
    (by simp [loops, places]) _

/-- A change that leaves loop, place and expiration alone takes no timer out of its queue. -/
theorem queued_modifyTimer {change : Timer Thread → Timer Thread} (timer : TimerPtr)
    (loops : ∀ object, (change object).loop = object.loop)
    (places : ∀ object, (change object).place = object.place)
    (expirations : ∀ object, (change object).expiration = object.expiration) :
    (world.modifyTimer timer change).Queued loop entry ↔ world.Queued loop entry :=
  heap_kept timer (fun object => object.loop = loop ∧ object.place = .timers ∧
    object.expiration = entry.first) (by simp [loops, places, expirations]) _

/-- After a change of one timer the facts about it are read off the new value. -/
theorem marked_update {changed : Timer Thread}
    (heap : next.heap = Function.update world.heap timer (some changed)) :
    next.Marked fact ↔
      (fact.2.timer = timer ∧ changed.loop = fact.1 ∧ fact.2.Places changed.place) ∨
        (fact.2.timer ≠ timer ∧ world.Marked fact) := by
  by_cases same : fact.2.timer = timer
  · have live : next.heap fact.2.timer = some changed := by rw [heap, same, Function.update_self]
    simp [marked_iff live, same]
  · have kept : next.heap fact.2.timer = world.heap fact.2.timer := by
      rw [heap, Function.update_of_ne same]
    simp [marked_congr kept, same]

/-- A timer of the loop moves, and the marks `old` about it are no longer true. -/
theorem marked_moved {changed : Timer Thread} {old : Multiset TimerMark}
    (live : world.heap timer = some object)
    (heap : next.heap = Function.update world.heap timer (some changed))
    (sameLoop : changed.loop = object.loop)
    (given : ∀ mark : TimerMark, mark.timer = timer →
      (mark.Places changed.place ↔ mark.Places object.place ∧ mark ∉ old))
    (about : ∀ mark ∈ old, mark.timer = timer) :
    next.Marked fact ↔ world.Marked fact ∧ fact ∉ old.map (object.loop, ·) := by
  obtain ⟨loop, mark⟩ := fact
  have inOld : (loop, mark) ∈ old.map (object.loop, ·) ↔ mark ∈ old ∧ object.loop = loop := by
    simp [and_comm]
  rw [marked_update heap, inOld]
  by_cases same : mark.timer = timer
  · have live' : world.heap mark.timer = some object := same ▸ live
    have before : world.Marked (loop, mark) ↔ object.loop = loop ∧ mark.Places object.place :=
      marked_iff live'
    simp only [same, sameLoop, given mark same, before]
    tauto
  · have foreign : mark ∉ old := fun member => same (about mark member)
    simp [same, foreign]

/-- What is queued after one timer was changed. -/
theorem queued_update {changed : Timer Thread}
    (heap : next.heap = Function.update world.heap timer (some changed)) :
    next.Queued loop entry ↔
      (entry.second = timer ∧ changed.loop = loop ∧ changed.place = .timers ∧
        changed.expiration = entry.first) ∨ (entry.second ≠ timer ∧ world.Queued loop entry) := by
  by_cases same : entry.second = timer
  · have live : next.heap entry.second = some changed := by rw [heap, same, Function.update_self]
    simp [queued_iff live, same]
  · have kept : next.heap entry.second = world.heap entry.second := by
      rw [heap, Function.update_of_ne same]
    simp [queued_congr kept, same]

end Facts

end TimerWorld

/-- An entry is its expiration and its timer. -/
theorem TimerEntry.eq_mk {entry : TimerEntry} {when_ : TimePoint} {timer : TimerPtr} :
    entry = ⟨when_, timer⟩ ↔ entry.second = timer ∧ when_ = entry.first := by
  rw [TimerEntry.ext_iff, and_comm, eq_comm]
  simp [eq_comm]

/-- A restart leaves the timer with its loop. -/
theorem Timer.restart_loop {Thread : Type} (now : TimePoint) (timer : Timer Thread) :
    (timer.restart now).loop = timer.loop := by
  unfold Timer.restart
  split <;> rfl

namespace TimerQueue

variable {queue : TimerQueue} {now when_ : TimePoint} {timer : TimerPtr}

@[simp] theorem addTimer_timers :
    (queue.addTimer now when_ timer).timers = queue.timers.insert (.mk when_ timer) := by
  unfold addTimer
  dsimp only
  split <;> rfl

/-- The assertion of `insert` holds for a timer that is not there. -/
theorem insert_failedAssertions (absent : .mk when_ timer ∉ queue.timers) :
    (queue.insert when_ timer).1.failedAssertions = queue.failedAssertions := by
  simp [insert, assert, absent]

/-- Adding a timer that is not there fails no assertion. -/
theorem addTimer_failedAssertions (absent : .mk when_ timer ∉ queue.timers) :
    (queue.addTimer now when_ timer).failedAssertions = queue.failedAssertions := by
  rw [← insert_failedAssertions absent, addTimer]
  dsimp only
  split <;> rfl

/-- Cancelling a timer that is in the queue erases it. -/
theorem cancelTimer_found (found : .mk when_ timer ∈ queue.timers) :
    (queue.cancelTimer when_ timer).timers = queue.timers.erase (.mk when_ timer) ∧
      (queue.cancelTimer when_ timer).failedAssertions = queue.failedAssertions := by
  have one := Data.OrderedSet.length_erase found
  have difference : (queue.timers.toList.length -
      (queue.timers.erase (.mk when_ timer)).toList.length == 1) = true := by
    rw [beq_iff_eq]
    omega
  rw [cancelTimer, if_pos found]
  exact ⟨rfl, by simp [assert, difference]⟩

/-- Cancelling a timer that is not in the queue leaves the queue alone. -/
theorem cancelTimer_absent (absent : .mk when_ timer ∉ queue.timers) :
    (queue.cancelTimer when_ timer).timers = queue.timers ∧
      (queue.cancelTimer when_ timer).failedAssertions = queue.failedAssertions := by
  rw [cancelTimer, if_neg absent]
  split <;> exact ⟨rfl, rfl⟩

/-- A pass marks the timers of its batch as due. -/
theorem mem_marks_expiryPass (queue : TimerQueue) (now : TimePoint) (mark : TimerMark) :
    mark ∈ (TimerTask.callExpired (queue.expiryPass now)).marks ↔
      mark.timer ∈ (queue.expired now).map (·.second) ∧ mark.Places .due := by
  cases mark <;>
    simp [TimerTask.marks, expiryPass, ExpiryPass.expired, TimerMark.timer, TimerMark.Places]

/-- A batch of different timers marks none twice. -/
theorem nodup_marks_expiryPass (distinct : ((queue.expired now).map (·.second)).Nodup) :
    (TimerTask.callExpired (queue.expiryPass now)).marks.Nodup := by
  have waiting : Function.Injective TimerMark.waiting := fun _ _ same => by cases same; rfl
  have batched : Function.Injective TimerMark.batched := fun _ _ same => by cases same; rfl
  refine Multiset.nodup_add.mpr ⟨?_, ?_, Multiset.disjoint_left.mpr ?_⟩
  · have nodup := distinct.map waiting
    rw [List.map_map] at nodup
    exact Multiset.coe_nodup.mpr nodup
  · have nodup := distinct.map batched
    rw [List.map_map] at nodup
    exact Multiset.coe_nodup.mpr nodup
  · intro mark inWaiting inBatched
    obtain ⟨_, -, rfl⟩ := List.mem_map.mp (Multiset.mem_coe.mp inWaiting)
    obtain ⟨_, -, same⟩ := List.mem_map.mp (Multiset.mem_coe.mp inBatched)
    cases same

/-- The beginning of a pass fails no other assertion than that on the cut. -/
theorem beginPass_asserted {readAt : TimePoint}
    (asserted : ∀ failed ∈ queue.failedAssertions, failed = .cutAfterNow) :
    ∀ failed ∈ (queue.beginPass now readAt).failedAssertions, failed = .cutAfterNow := by
  intro failed member
  simp only [beginPass, assert] at member
  split at member
  · exact asserted failed member
  · rcases List.mem_append.mp member with before | new
    · exact asserted failed before
    · exact List.mem_singleton.mp new

end TimerQueue

namespace TimerWorld

variable {Thread : Type} [DecidableEq Thread] {world next : TimerWorld Thread} {thread : Thread}
  {timer : TimerPtr} {object changed : Timer Thread}

/-- The entries after a change of one timer and of the queue of its loop. -/
theorem entries_update
    (entries : ∀ loop entry, entry ∈ (world.queues loop).timers ↔ world.Queued loop entry)
    (live : world.heap timer = some object)
    (heap : next.heap = Function.update world.heap timer (some changed))
    (own : object.loop = thread) (sameLoop : changed.loop = object.loop)
    (others : ∀ loop, loop ≠ thread → next.queues loop = world.queues loop)
    (timers : ∀ entry, entry ∈ (next.queues thread).timers ↔
      (entry.second = timer ∧ changed.place = .timers ∧ changed.expiration = entry.first) ∨
        (entry.second ≠ timer ∧ entry ∈ (world.queues thread).timers)) (loop : Thread)
    (entry : TimerEntry) :
    entry ∈ (next.queues loop).timers ↔ next.Queued loop entry := by
  rw [queued_update heap, sameLoop, own]
  by_cases same : loop = thread
  · subst same
    rw [timers, entries]
    simp
  · -- The timer is not of this loop, before and after.
    rw [others loop same, entries]
    by_cases about : entry.second = timer
    · rw [queued_iff (about ▸ live), own]
      simp [about, Ne.symm same]
    · simp [about]

omit [DecidableEq Thread] in
/-- A timer is queued once. -/
theorem Queued.unique {loop other : Thread} {entry entry' : TimerEntry}
    (queued : world.Queued loop entry) (queued' : world.Queued other entry')
    (same : entry.second = entry'.second) : loop = other ∧ entry = entry' := by
  obtain ⟨object, live, own, -, expires⟩ := queued
  rw [same] at live
  obtain ⟨own', -, expires'⟩ := (queued_iff live).mp queued'
  exact ⟨own.symm.trans own', TimerEntry.ext (expires.symm.trans expires') same⟩

end TimerWorld

end Benet
