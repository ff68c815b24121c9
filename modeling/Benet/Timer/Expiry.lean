import Benet.Timer.Model

/-!
# What an expiry pass takes out

The read callback cuts `timers_` at `lower_bound({now, nullptr})`. No pointer is
below the null pointer, so the cut leaves an entry with expiration exactly `now`
in the queue, although it is due, and then the assertion on `tmp_end` fails.
-/

namespace Benet

namespace TimerQueue

variable {now : TimePoint} {entry : TimerEntry} {queue : TimerQueue}

private theorem lt_anchor : entry < anchor now ↔ entry.first < now := by
  rw [TimerEntry.lt_iff]
  constructor
  · rintro (below | ⟨-, null⟩)
    · exact below
    · exact absurd null (Nat.not_lt_zero _)
  · exact .inl

private theorem anchor_le : anchor now ≤ entry ↔ now ≤ entry.first := by
  rw [← not_lt, lt_anchor, not_lt]

@[simp] theorem mem_expired : entry ∈ queue.expired now ↔ entry ∈ queue.timers ∧ entry.first < now := by
  rw [expired, Data.OrderedSet.mem_before, lt_anchor]

/-- A pass leaves the timers that do not expire before it. -/
theorem mem_beginPass_timers {readAt : TimePoint} :
    entry ∈ (queue.beginPass now readAt).timers ↔ entry ∈ queue.timers ∧ now ≤ entry.first := by
  rw [← anchor_le]
  exact Data.OrderedSet.mem_from

/-- The first entry that stays is the least of those from `now` on, so it is later
than `now` just when all of them are. -/
theorem cutAfterNow_iff : queue.cutAfterNow now = true ↔ ∀ entry ∈ queue.timers, entry.first ≠ now := by
  have stays : ∀ entry, entry ∈ queue.timers.lowerBound (anchor now) ↔
      entry ∈ queue.timers ∧ now ≤ entry.first := by
    intro entry
    rw [Data.OrderedSet.mem_lowerBound, anchor_le]
  have sorted : (queue.timers.lowerBound (anchor now)).Pairwise (· < ·) :=
    Data.OrderedSet.sorted_lowerBound
  unfold cutAfterNow
  cases cut : queue.timers.lowerBound (anchor now) with
  | nil =>
      rw [cut] at stays
      simp only [List.head?_nil, true_iff]
      intro entry member same
      exact absurd ((stays entry).mpr ⟨member, same.ge⟩) List.not_mem_nil
  | cons tmpEnd later =>
      rw [cut] at stays sorted
      simp only [List.head?_cons, decide_eq_true_eq]
      constructor
      · intro after entry member same
        have inCut := (stays entry).mpr ⟨member, same.ge⟩
        have atLeast : tmpEnd ≤ entry := by
          rcases List.mem_cons.mp inCut with rfl | inLater
          · exact le_rfl
          · exact ((List.pairwise_cons.mp sorted).1 entry inLater).le
        have times : tmpEnd.first ≤ entry.first := TimerEntry.first_le atLeast
        exact absurd (after.trans_le times) same.not_gt
      · intro none
        obtain ⟨member, notBefore⟩ := (stays tmpEnd).mp List.mem_cons_self
        exact lt_of_le_of_ne notBefore (none tmpEnd member).symm

/-- A pass at `now` moves exactly the entries that are due to the batch, leaves
the others, and its assertion holds. -/
def TakesAllDue (now readAt : TimePoint) (queue : TimerQueue) : Prop :=
  (∀ entry, entry ∈ queue.expired now ↔ entry ∈ queue.timers ∧ entry.first ≤ now) ∧
  (∀ entry, entry ∈ (queue.beginPass now readAt).timers ↔
    entry ∈ queue.timers ∧ now < entry.first) ∧
  (queue.beginPass now readAt).failedAssertions = queue.failedAssertions

/-- The assertion at the beginning of a pass holds exactly where the cut is after `now`. -/
theorem beginPass_failedAssertions (now readAt : TimePoint) (queue : TimerQueue) :
    (queue.beginPass now readAt).failedAssertions = queue.failedAssertions ↔
      queue.cutAfterNow now = true := by
  unfold beginPass assert
  split <;> simp_all

/-- The pass takes everything that is due just when nothing expires at the very
time of its clock reading. -/
theorem takesAllDue_iff (now readAt : TimePoint) (queue : TimerQueue) :
    queue.TakesAllDue now readAt ↔ ∀ entry ∈ queue.timers, entry.first ≠ now := by
  constructor
  · rintro ⟨-, -, kept⟩
    exact cutAfterNow_iff.mp ((beginPass_failedAssertions now readAt queue).mp kept)
  · intro none
    refine ⟨fun entry => ?_, fun entry => ?_, ?_⟩
    · rw [mem_expired]
      constructor
      · exact fun ⟨member, before⟩ => ⟨member, before.le⟩
      · exact fun ⟨member, due⟩ => ⟨member, lt_of_le_of_ne due (none entry member)⟩
    · rw [mem_beginPass_timers]
      constructor
      · exact fun ⟨member, from_⟩ => ⟨member, lt_of_le_of_ne from_ (none entry member).symm⟩
      · exact fun ⟨member, after⟩ => ⟨member, after.le⟩
    · exact (beginPass_failedAssertions now readAt queue).mpr (cutAfterNow_iff.mpr none)

/-- A queue with one timer, which expires at `5`. -/
def oneTimerAtFive : TimerQueue := (TimerQueue.addTimer 1 5 1 {})

/-- A pass at `5` leaves the timer that expires at `5`, and its assertion fails. -/
theorem pass_at_expiration_leaves_timer :
    TimerEntry.mk 5 1 ∈ oneTimerAtFive.timers ∧
      oneTimerAtFive.expired 5 = [] ∧
      (oneTimerAtFive.beginPass 5 5).failedAssertions = [.cutAfterNow] ∧
      ¬ oneTimerAtFive.TakesAllDue 5 5 := by
  refine ⟨by decide +kernel, by decide +kernel, by decide +kernel, ?_⟩
  rintro ⟨-, -, kept⟩
  exact absurd kept (by decide +kernel)

/-- A pass at `6` takes it. -/
theorem pass_after_expiration_takes_timer :
    (∀ entry ∈ oneTimerAtFive.timers, entry.first ≠ 6) ∧ oneTimerAtFive.TakesAllDue 6 6 ∧
      oneTimerAtFive.expired 6 = [.mk 5 1] := by
  have none : ∀ entry ∈ oneTimerAtFive.timers.toList, entry.first ≠ 6 := by decide +kernel
  exact ⟨none, (takesAllDue_iff 6 6 oneTimerAtFive).mpr none, by decide +kernel⟩

end TimerQueue

end Benet
