import Benet.EventLoop.Transition

/-!
# The handover of a loop thread

`EventLoopThread::Start` makes a thread that runs an `EventLoop` on its own stack, and
returns the loop's address as soon as that is published. The creating thread may then
call `Stop` before the new thread has entered `EventLoop::Start`, and the destructor
reads `loop_` without the mutex, so that the loop may be gone when it calls `Stop`.
`EventLoopThread.handover_safe_iff` says when these two windows are harmless.

The loop is that of `Loop`, with all that other threads may do to it. A failed assertion
is recorded and the function goes on, as in a build without assertions.
-/

namespace Benet.EventLoop

open Semantics

section Loop

variable {Thread Task : Type} {loop next : Loop Thread Task} {user : Task}
  {polled : Option (List (Active Task))} {calls : List (Call Thread Task)}

/-- Nothing in `Start` touches `quitting_`. -/
theorem Loop.Moves.quitting (moves : loop.Moves user polled next calls) :
    next.quitting = loop.quitting := by
  cases moves <;> rfl

/-- `Start` is left only where `quitting_` is set. -/
theorem Loop.Moves.returned (moves : loop.Moves user polled next calls)
    (before : loop.phase = .returned → loop.quitting = true) (after : next.phase = .returned) :
    next.quitting = true := by
  cases moves with
  | outside => exact before after
  | leave phase quitting => exact quitting
  | iterate | poll | handled | wakeup | channel | swap | batched | begin | released | release
  | finish => cases after

/-- How many statements of `Start` a stopped loop has before it when nothing more is posted
to it and `Poll` returns nothing. -/
def Loop.toReturn (loop : Loop Thread Task) : Nat :=
  match loop.phase with
  | .idle | .returned => 0
  | .head => 1
  | .finish => 2
  | .release rest => 3 + rest.length
  | .batch finished rest => 4 + finished.length + 2 * rest.length
  | .swap => 5 + 2 * loop.pendings.length
  | .events rest => 6 + 2 * loop.pendings.length + rest.length
  | .poll => 7 + 2 * loop.pendings.length

/-- A stopped loop that polls nothing comes closer to its return with every statement. -/
theorem Loop.Moves.toReturn_lt (moves : loop.Moves user (some []) next calls)
    (quitting : loop.quitting = true) (entered : loop.phase ≠ .idle)
    (inside : loop.phase ≠ .returned) : next.toReturn < loop.toReturn := by
  cases moves with
  | outside phase => exact absurd phase (not_or.mpr ⟨entered, inside⟩)
  | iterate _ running => simp [quitting] at running
  | poll phase returned =>
      cases returned
      simp [Loop.toReturn, phase]
  | leave phase | handled phase | wakeup phase | channel phase | batched phase | begin phase
  | released phase | release phase | finish phase =>
      simp only [Loop.toReturn, Loop.resetWakeup, phase, List.length_append, List.length_cons,
        List.length_nil]
      omega
  | swap phase =>
      simp only [Loop.toReturn, Loop.swapPendings, phase, List.length_nil]
      omega

/-- A move is always possible when `Poll` returns. -/
theorem Loop.exists_advance (loop : Loop Thread Task) (user : Task) :
    ∃ next calls, loop.advance user (some []) = some (next, calls) := by
  unfold Loop.advance
  split
  case h_3 => split <;> exact ⟨_, _, rfl⟩
  all_goals exact ⟨_, _, rfl⟩

end Loop

/-- Where the entry function of the new thread stands: before the statement it names. -/
inductive EntryPoint where
  /-- the thread has not been made -/
  | unborn
  /-- `EventLoop loop;` -/
  | construct
  | initCallback
  /-- `loop_ = &loop;` under the mutex -/
  | publish
  /-- `cond_.notify_one();` -/
  | notify
  /-- `loop.Start();` -/
  | start
  /-- in `EventLoop::Start`, up to `loop_ = nullptr;` under the mutex -/
  | running
  /-- the end of the scope of `loop` -/
  | destroy
  | finished
deriving DecidableEq, Repr

/-- The entry function has not come to `EventLoop::Start`. -/
def EntryPoint.beforeStart : EntryPoint → Bool
  | .unborn | .construct | .initCallback | .publish | .notify | .start => true
  | _ => false

/-- The entry function has published the loop and not taken it back. -/
def EntryPoint.offers : EntryPoint → Bool
  | .notify | .start | .running => true
  | _ => false

/-- Where the creating thread stands. -/
inductive CreatorPoint where
  /-- before `EventLoopThread::Start` -/
  | start
  /-- in the loop of `Start` that waits for `loop_` -/
  | wait
  /-- `Start` has returned -/
  | returned
  /-- in its own call of `Stop`, between the store and the wakeup -/
  | stopping
  | stopped
  /-- in the destructor, at `if (loop_ != nullptr)` -/
  | test
  /-- at the second read of `loop_`, for the call -/
  | load
  /-- before the call of `Stop` on the loop that was read -/
  | stop
  /-- the second read has found a null pointer -/
  | stopNull
  /-- in the destructor's call of `Stop`, between the store and the wakeup -/
  | wake
  /-- at `thread_.join()` -/
  | join
  | gone
deriving DecidableEq, Repr

/-- An `EventLoopThread` with the two threads. `loop` is the object on the stack of the
new thread, from `construct` until it is `finished`. -/
structure EventLoopThread (Thread Task : Type) where
  loop : Loop Thread Task := {}
  /-- `loop_` is not null -/
  published : Bool := false
  entry : EntryPoint := .unborn
  creator : CreatorPoint := .start
  /-- history: how often the creating thread has called `Stop` -/
  stops : Nat := 0
  /-- history: how often `EventLoop::Start` was entered against its assertions -/
  failedAssertions : Nat := 0
deriving DecidableEq, Repr

namespace EventLoopThread

variable {Thread Task : Type}

/-- What happens next: a statement of the entry function, with what `Poll` returns in it;
a statement of the creating thread, which after `Start` calls `Stop` or goes on to the
destructor; or one of the two accesses that some call of `QueueInLoop` makes to the
loop. -/
inductive Event (Thread Task : Type) where
  | entry (polled : List (Active Task))
  | creator (callsStop : Bool)
  | push (pending : Pending Thread Task)
  | wakeAfterPush (inLoopThread : Bool)
deriving DecidableEq, Repr

/-- Entering `EventLoop::Start`. -/
def enterStart (state : EventLoopThread Thread Task) : EventLoopThread Thread Task :=
  match state.loop.enter with
  | some loop => { state with loop, entry := .running }
  | none => { state with
      loop := { state.loop with phase := .head, running := true }
      entry := .running
      failedAssertions := state.failedAssertions + 1 }

/-- The next statement of the entry function. The tasks that the loop runs act on it only
through `QueueInLoop`. -/
def stepEntry (user : Task) (polled : List (Active Task)) (state : EventLoopThread Thread Task) :
    Option (EventLoopThread Thread Task) :=
  match state.entry with
  | .unborn | .finished => none
  | .construct => some { state with entry := .initCallback }
  | .initCallback => some { state with entry := .publish }
  | .publish => some { state with published := true, entry := .notify }
  | .notify => some { state with entry := .start }
  | .start => some state.enterStart
  | .running =>
      match state.loop.phase with
      | .returned => some { state with published := false, entry := .destroy }
      | _ => (state.loop.advance user (some polled)).map fun (loop, _) => { state with loop }
  | .destroy => some { state with entry := .finished }

/-- The call of `EventLoop::Stop` up to its store. -/
def callStop (state : EventLoopThread Thread Task) : EventLoopThread Thread Task :=
  { state with loop := state.loop.quit, stops := state.stops + 1 }

/-- The rest of `EventLoop::Stop`, on another thread than the loop's. -/
def finishStop (state : EventLoopThread Thread Task) : EventLoopThread Thread Task :=
  { state with loop := state.loop.wakeAfterStop false }

/-- The next statement of the creating thread. -/
def stepCreator (callsStop : Bool) (state : EventLoopThread Thread Task) :
    Option (EventLoopThread Thread Task) :=
  match state.creator with
  | .start => some { state with entry := .construct, creator := .wait }
  | .wait =>
      -- `wait_for` ends after 128 ms at the latest, and the test is made again
      if state.published then some { state with creator := .returned } else some state
  | .returned =>
      if callsStop then some { state.callStop with creator := .stopping }
      else some { state with creator := .test }
  | .stopping => some { state.finishStop with creator := .stopped }
  | .stopped => some { state with creator := .test }
  | .test => some { state with creator := if state.published then .load else .join }
  | .load => some { state with creator := if state.published then .stop else .stopNull }
  | .stop => some { state.callStop with creator := .wake }
  | .wake => some { state.finishStop with creator := .join }
  | .join => if state.entry = .finished then some { state with creator := .gone } else none
  | .stopNull | .gone => none

/-- The loop is there for others to post to. -/
def alive (state : EventLoopThread Thread Task) : Bool :=
  match state.entry with
  | .unborn | .construct | .finished => false
  | _ => true

def step (user : Task) (state : EventLoopThread Thread Task) :
    Event Thread Task → Option (EventLoopThread Thread Task)
  | .entry polled => state.stepEntry user polled
  | .creator callsStop => state.stepCreator callsStop
  | .push pending =>
      if state.alive then some { state with loop := state.loop.push pending } else none
  | .wakeAfterPush inLoopThread =>
      if state.alive then some { state with loop := state.loop.wakeAfterPush inLoopThread }
      else none

/-- All interleavings. -/
abbrev system (user : Task) : LabelledSystem (EventLoopThread Thread Task) (Event Thread Task) where
  Initial state := state = {}
  step := step user

/-- The creating thread stands still. -/
def creatorWaits (_ : EventLoopThread Thread Task) : Event Thread Task → Prop
  | .creator _ => False
  | _ => True

/-- What holds between any two statements: where the two threads stand, and what the loop
and the history say about it. -/
structure Orderly (state : EventLoopThread Thread Task) : Prop where
  idle : state.entry.beforeStart = true →
    state.loop.phase = .idle ∧ state.loop.running = false
  entered : state.entry.beforeStart = false → state.loop.phase ≠ .idle
  stored : state.loop.quitting = true ↔ 0 < state.stops
  left : state.loop.phase = .returned → state.loop.quitting = true
  leaving : state.entry = .destroy ∨ state.entry = .finished → state.loop.phase = .returned
  published : state.published = state.entry.offers
  unborn : state.creator = .start → state.entry = .unborn
  waiting : state.creator = .start ∨ state.creator = .wait ∨ state.creator = .returned →
    state.stops = 0
  handed : state.creator ≠ .start → state.creator ≠ .wait →
    state.entry.offers = true ∨ state.entry = .destroy ∨ state.entry = .finished

/-- Whether its assertions hold or not, `EventLoop::Start` goes on to its loop. -/
private theorem enterStart_fields (state : EventLoopThread Thread Task) :
    state.enterStart.loop = { state.loop with phase := .head, running := true } ∧
      state.enterStart.entry = .running ∧ state.enterStart.creator = state.creator ∧
      state.enterStart.published = state.published ∧ state.enterStart.stops = state.stops := by
  unfold enterStart
  split
  case h_1 loop entered =>
    obtain ⟨-, -, rfl⟩ := Loop.enter_eq entered
    exact ⟨rfl, rfl, rfl, rfl, rfl⟩
  case h_2 => exact ⟨rfl, rfl, rfl, rfl, rfl⟩

namespace Orderly

variable {state next : EventLoopThread Thread Task} {user : Task}

/-- The new thread enters `EventLoop::Start`. -/
theorem enterStart (orderly : state.Orderly) (point : state.entry = .start) :
    state.enterStart.Orderly := by
  obtain ⟨loop, entry, creator, published, stops⟩ := enterStart_fields state
  constructor <;> simp only [loop, entry, creator, published, stops]
  · simp [EntryPoint.beforeStart]
  · simp
  · exact orderly.stored
  · simp
  · simp
  · rw [orderly.published, point]
    rfl
  · intro before
    simp [orderly.unborn before] at point
  · exact orderly.waiting
  · simp [EntryPoint.offers]

/-- A statement of the entry function before `EventLoop::Start`. -/
theorem moveEntry (orderly : state.Orderly) {entry : EntryPoint} {published : Bool}
    (born : state.entry ≠ .unborn) (before : state.entry.beforeStart = true)
    (after : entry.beforeStart = true)
    (forward : state.entry.offers = true → entry.offers = true)
    (offered : published = entry.offers) :
    Orderly { state with entry, published } where
  idle _ := orderly.idle before
  entered contrary := by simp [after] at contrary
  stored := orderly.stored
  left := orderly.left
  leaving := by rintro (rfl | rfl) <;> cases after
  published := offered
  unborn atStart := absurd (orderly.unborn atStart) born
  waiting := orderly.waiting
  handed started returned := by
    rcases orderly.handed started returned with offers | point | point
    · exact .inl (forward offers)
    · simp [point, EntryPoint.beforeStart] at before
    · simp [point, EntryPoint.beforeStart] at before

/-- A statement of the entry function after `EventLoop::Start`. -/
theorem leave (orderly : state.Orderly) {entry : EntryPoint}
    {published : Bool} (returned : state.loop.phase = .returned)
    (after : entry = .destroy ∨ entry = .finished) (born : state.entry ≠ .unborn)
    (hidden : published = false) : Orderly { state with entry, published } where
  idle before := by rcases after with rfl | rfl <;> cases before
  entered _ := by simp [returned]
  stored := orderly.stored
  left := orderly.left
  leaving _ := returned
  published := by rcases after with rfl | rfl <;> exact hidden
  unborn atStart := absurd (orderly.unborn atStart) born
  waiting := orderly.waiting
  handed _ _ := .inr after

/-- A move of the loop inside `EventLoop::Start`. -/
theorem advance (orderly : state.Orderly) (point : state.entry = .running)
    {polled : Option (List (Active Task))} {loop : Loop Thread Task}
    {calls : List (Call Thread Task)} (moves : state.loop.Moves user polled loop calls) :
    Orderly { state with loop } where
  idle before := by simp [point, EntryPoint.beforeStart] at before
  entered before idle := orderly.entered before (moves.eq_of_idle idle ▸ idle)
  stored := by
    dsimp only
    rw [moves.quitting]
    exact orderly.stored
  left := moves.returned orderly.left
  leaving after := by simp [point] at after
  published := orderly.published
  unborn := orderly.unborn
  waiting := orderly.waiting
  handed := orderly.handed

/-- A statement of the entry function keeps the order. -/
theorem stepEntry (orderly : state.Orderly) {polled : List (Active Task)}
    (stepped : state.stepEntry user polled = some next) : next.Orderly := by
  unfold EventLoopThread.stepEntry at stepped
  split at stepped
  case h_1 | h_2 => cases stepped
  case h_3 point | h_4 point | h_5 point | h_6 point =>
    cases stepped
    refine orderly.moveEntry ?_ ?_ rfl ?_ ?_ <;>
      simp [orderly.published, point, EntryPoint.beforeStart, EntryPoint.offers]
  case h_7 point =>
    cases stepped
    exact orderly.enterStart point
  case h_8 point =>
    split at stepped
    case h_1 returned =>
      cases stepped
      exact orderly.leave returned (.inl rfl) (by simp [point]) rfl
    case h_2 =>
      obtain ⟨⟨loop, calls⟩, advanced, rfl⟩ := Option.map_eq_some_iff.mp stepped
      exact orderly.advance point (Loop.advance_moves advanced)
  case h_9 point =>
    cases stepped
    refine orderly.leave (orderly.leaving (.inl point)) (.inr rfl) ?_ ?_ <;>
      simp [orderly.published, point, EntryPoint.offers]

/-- The creating thread goes on; the loop is touched at most by `Stop`. -/
theorem moveCreator (orderly : state.Orderly) {creator : CreatorPoint} (later : creator ≠ .start)
    (unstopped : creator = .wait ∨ creator = .returned → state.stops = 0)
    (handed : creator ≠ .wait → state.entry.offers = true ∨ state.entry = .destroy ∨
      state.entry = .finished) :
    Orderly { state with creator } where
  idle := orderly.idle
  entered := orderly.entered
  stored := orderly.stored
  left := orderly.left
  leaving := orderly.leaving
  published := orderly.published
  unborn atStart := absurd atStart later
  waiting := by
    rintro (atStart | waits)
    · exact absurd atStart later
    · exact unstopped waits
  handed _ := handed

/-- The creating thread stores `quitting_`. -/
theorem callStop (orderly : state.Orderly) {creator : CreatorPoint}
    (handed : state.entry.offers = true ∨ state.entry = .destroy ∨
      state.entry = .finished) (later : creator ≠ .start ∧ creator ≠ .wait ∧ creator ≠ .returned) :
    Orderly { state.callStop with creator } where
  idle := orderly.idle
  entered := orderly.entered
  stored := by simp [EventLoopThread.callStop, Loop.quit]
  left _ := rfl
  leaving := orderly.leaving
  published := orderly.published
  unborn atStart := absurd atStart later.1
  waiting := by
    rintro (point | point | point)
    · exact absurd point later.1
    · exact absurd point later.2.1
    · exact absurd point later.2.2
  handed _ _ := handed

/-- Posting to the loop touches its queue and its eventfd only. -/
theorem touch (orderly : state.Orderly) {loop : Loop Thread Task}
    (phase : loop.phase = state.loop.phase) (running : loop.running = state.loop.running)
    (quitting : loop.quitting = state.loop.quitting) : Orderly { state with loop } where
  idle := by simpa only [phase, running] using orderly.idle
  entered := by simpa only [phase] using orderly.entered
  stored := by simpa only [quitting] using orderly.stored
  left := by simpa only [phase, quitting] using orderly.left
  leaving := by simpa only [phase] using orderly.leaving
  published := orderly.published
  unborn := orderly.unborn
  waiting := orderly.waiting
  handed := orderly.handed

/-- The creating thread writes to the eventfd. -/
theorem finishStop (orderly : state.Orderly) : state.finishStop.Orderly := by
  refine orderly.touch ?_ ?_ ?_ <;> simp [Loop.wakeAfterStop, Loop.wakeIf_eq]

/-- `std::thread` in `EventLoopThread::Start`. -/
theorem create (orderly : state.Orderly) (point : state.creator = .start) :
    Orderly { state with entry := .construct, creator := .wait } where
  idle _ := orderly.idle (by simp [orderly.unborn point, EntryPoint.beforeStart])
  entered contrary := by cases contrary
  stored := orderly.stored
  left := orderly.left
  leaving contrary := by simp at contrary
  published := by simp [orderly.published, orderly.unborn point, EntryPoint.offers]
  unborn contrary := by cases contrary
  waiting _ := orderly.waiting (.inl point)
  handed _ contrary := absurd rfl contrary

/-- A statement of the creating thread keeps the order. -/
theorem stepCreator (orderly : state.Orderly) {callsStop : Bool}
    (stepped : state.stepCreator callsStop = some next) : next.Orderly := by
  unfold EventLoopThread.stepCreator at stepped
  split at stepped
  case h_1 point =>
    cases stepped
    exact orderly.create point
  case h_2 point =>
    split at stepped
    case isTrue published =>
      cases stepped
      refine orderly.moveCreator (by simp) (fun _ => ?_) fun _ => .inl ?_
      · exact orderly.waiting (.inr (.inl point))
      · rw [← orderly.published, published]
    case isFalse =>
      cases stepped
      exact orderly
  case h_3 point =>
    have handed := orderly.handed (by simp [point]) (by simp [point])
    split at stepped
    case isTrue =>
      cases stepped
      exact orderly.callStop handed (by simp)
    case isFalse =>
      cases stepped
      exact orderly.moveCreator (by simp) (by simp) fun _ => handed
  case h_4 point =>
    cases stepped
    exact orderly.finishStop.moveCreator (by simp) (by simp) fun _ =>
      orderly.handed (by simp [point]) (by simp [point])
  case h_8 point =>
    cases stepped
    exact orderly.callStop (orderly.handed (by simp [point]) (by simp [point])) (by simp)
  case h_9 point =>
    cases stepped
    exact orderly.finishStop.moveCreator (by simp) (by simp) fun _ =>
      orderly.handed (by simp [point]) (by simp [point])
  case h_5 point =>
    cases stepped
    exact orderly.moveCreator (by simp) (by simp) fun _ =>
      orderly.handed (by simp [point]) (by simp [point])
  case h_6 point | h_7 point =>
    cases stepped
    refine orderly.moveCreator ?_ ?_ fun _ => orderly.handed (by simp [point]) (by simp [point])
    · split <;> simp
    · split <;> simp
  case h_10 point =>
    split at stepped
    case isTrue =>
      cases stepped
      exact orderly.moveCreator (by simp) (by simp) fun _ =>
        orderly.handed (by simp [point]) (by simp [point])
    case isFalse => cases stepped
  case h_11 | h_12 => cases stepped

/-- One event keeps the order. -/
theorem step (orderly : state.Orderly) {event : Event Thread Task}
    (stepped : state.step user event = some next) : next.Orderly := by
  cases event with
  | entry polled => exact orderly.stepEntry stepped
  | creator callsStop => exact orderly.stepCreator stepped
  | push pending =>
      simp only [EventLoopThread.step] at stepped
      split at stepped
      case isTrue =>
        cases stepped
        exact orderly.touch rfl rfl rfl
      case isFalse => cases stepped
  | wakeAfterPush inLoopThread =>
      simp only [EventLoopThread.step] at stepped
      split at stepped
      case isTrue =>
        cases stepped
        refine orderly.touch ?_ ?_ ?_ <;> simp [Loop.wakeAfterPush, Loop.wakeIf_eq]
      case isFalse => cases stepped

/-- Before `EventLoopThread::Start` everything is in order. -/
theorem initial : ({} : EventLoopThread Thread Task).Orderly := by
  constructor <;> simp [EntryPoint.beforeStart, EntryPoint.offers]

end Orderly

variable {state next : EventLoopThread Thread Task} {user : Task}

/-- Everything is in order in every interleaving. -/
theorem reachable_orderly
    {guard : EventLoopThread Thread Task → Event Thread Task → Prop}
    (reachable : (system user).Reachable guard state) : state.Orderly := by
  refine reachable.invariant Orderly ?_ fun _ _ _ _ orderly _ stepped => orderly.step stepped
  rintro _ rfl
  exact .initial

/-- While the creating thread stands still, it calls `Stop` no more. -/
theorem stops_of_creatorWaits {event : Event Thread Task} (waits : creatorWaits state event)
    (stepped : state.step user event = some next) : next.stops = state.stops := by
  cases event with
  | creator => exact waits.elim
  | push | wakeAfterPush =>
      simp only [step] at stepped
      split at stepped
      case isTrue => cases stepped; rfl
      case isFalse => cases stepped
  | entry polled =>
      simp only [step, stepEntry] at stepped
      split at stepped
      case h_1 | h_2 => cases stepped
      case h_3 | h_4 | h_5 | h_6 | h_9 => cases stepped; rfl
      case h_7 =>
        cases stepped
        exact (enterStart_fields state).2.2.2.2
      case h_8 =>
        split at stepped
        case h_1 => cases stepped; rfl
        case h_2 =>
          obtain ⟨_, -, rfl⟩ := Option.map_eq_some_iff.mp stepped
          rfl

/-- The entry function can come to its end while the creating thread stands still. -/
def CanEnd (user : Task) (state : EventLoopThread Thread Task) : Prop :=
  ∃ events finish, (system user).Steps creatorWaits state events finish ∧ finish.entry = .finished

namespace CanEnd

/-- Where the entry function can end after a statement, it can end before it. -/
theorem step (stepped : state.stepEntry user [] = some next) (ends : CanEnd user next) :
    CanEnd user state := by
  obtain ⟨events, finish, steps, finished⟩ := ends
  have waits : creatorWaits state (.entry []) := trivial
  exact ⟨_, finish, .cons waits stepped steps, finished⟩

/-- The loop thread makes a move for which `Poll` returns nothing. -/
theorem advance {loop : Loop Thread Task} {calls : List (Call Thread Task)}
    (point : state.entry = .running) (inside : state.loop.phase ≠ .returned)
    (advanced : state.loop.advance user (some []) = some (loop, calls))
    (ends : CanEnd user { state with loop }) : CanEnd user state := by
  refine step ?_ ends
  simp only [stepEntry, point]
  rw [advanced]
  rfl

/-- When `EventLoop::Start` has returned, the entry function can end. -/
theorem of_returned (point : state.entry = .running) (phase : state.loop.phase = .returned) :
    CanEnd user state := by
  have cleared : state.stepEntry user [] =
      some { state with published := false, entry := .destroy } := by
    simp only [stepEntry, point, phase]
  have destroyed : stepEntry user [] { state with published := false, entry := .destroy } =
      some { state with published := false, entry := .finished } := rfl
  exact step cleared (step destroyed ⟨[], _, .refl, rfl⟩)

/-- A stopped loop comes to the end of `EventLoop::Start`, from wherever it is inside. -/
theorem of_running (point : state.entry = .running) (entered : state.loop.phase ≠ .idle)
    (quitting : state.loop.quitting = true) : CanEnd user state := by
  induction size : state.loop.toReturn using Nat.strong_induction_on generalizing state with
  | _ size shorter =>
      by_cases returned : state.loop.phase = .returned
      · exact of_returned point returned
      · obtain ⟨loop, calls, advanced⟩ := state.loop.exists_advance user
        have moves := Loop.advance_moves advanced
        have less := moves.toReturn_lt quitting entered returned
        refine advance point returned advanced (shorter _ (size ▸ less) point ?_ ?_ rfl)
        · exact fun idle => entered (moves.eq_of_idle idle ▸ idle)
        · exact moves.quitting.trans quitting

/-- A loop that is stopped before it is started can end. -/
theorem of_start (point : state.entry = .start) (quitting : state.loop.quitting = true) :
    CanEnd user state := by
  have entered : state.stepEntry user [] = some state.enterStart := by
    simp only [stepEntry, point]
  obtain ⟨loop, running, -⟩ := enterStart_fields state
  refine step entered (of_running running ?_ ?_)
  · simp [loop]
  · simpa [loop] using quitting

/-- From the publication of the loop on, nothing keeps a stopped loop from its end. -/
theorem of_handed (orderly : state.Orderly)
    (handed : state.entry.offers = true ∨ state.entry = .destroy ∨
      state.entry = .finished) (quitting : state.loop.quitting = true) : CanEnd user state := by
  cases point : state.entry with
  | unborn | construct | initCallback | publish => simp [point, EntryPoint.offers] at handed
  | notify =>
      have notified : state.stepEntry user [] = some { state with entry := .start } := by
        simp only [stepEntry, point]
      exact step notified (of_start rfl quitting)
  | start => exact of_start point quitting
  | running =>
      exact of_running point (orderly.entered (by simp [point, EntryPoint.beforeStart])) quitting
  | destroy =>
      have destroyed : state.stepEntry user [] = some { state with entry := .finished } := by
        simp only [stepEntry, point]
      exact step destroyed ⟨[], _, .refl, rfl⟩
  | finished => exact ⟨[], state, .refl, point⟩

end CanEnd

/-- A loop that was not stopped has not been destroyed. -/
theorem Orderly.not_finished (orderly : state.Orderly) (unstopped : state.stops = 0) :
    state.entry ≠ .finished := by
  intro finished
  have quitting := orderly.left (orderly.leaving (.inr finished))
  have stopped := orderly.stored.mp quitting
  omega

/-- In every interleaving: where the new thread comes to `EventLoop::Start`, the assertions
there hold if and only if the creating thread has not called `Stop` yet; the call of
`Stop` that it makes itself is on a living loop; and the one that the destructor is about
to make is on a living loop, however long it takes to make it, if and only if it is the
first. -/
theorem handover_safe_iff (reachable : (system user).Reachable LabelledSystem.unguarded state) :
    (state.entry = .start →
      (state.loop.running = false ∧ state.loop.quitting = false ↔ state.stops = 0)) ∧
    (state.creator = .returned → state.entry ≠ .finished) ∧
    (state.creator = .stop →
      ((∀ events finish, (system user).Steps creatorWaits state events finish →
        finish.entry ≠ .finished) ↔ state.stops = 0)) := by
  have orderly := reachable_orderly reachable
  refine ⟨fun point => ?_, fun point => ?_, fun point => ⟨fun living => ?_, fun first => ?_⟩⟩
  · have unstopped : state.loop.quitting = false ↔ state.stops = 0 := by
      rw [← Bool.not_eq_true, orderly.stored, Nat.not_lt, Nat.le_zero]
    rw [unstopped]
    exact and_iff_right (orderly.idle (by simp [point, EntryPoint.beforeStart])).2
  · exact orderly.not_finished (orderly.waiting (.inr (.inr point)))
  · by_contra stopped
    have quitting := orderly.stored.mpr (Nat.pos_of_ne_zero stopped)
    have handed := orderly.handed (by simp [point]) (by simp [point])
    obtain ⟨events, finish, steps, finished⟩ := CanEnd.of_handed orderly handed quitting
    exact living events finish steps finished
  · intro events finish steps
    have kept : finish.Orderly ∧ finish.stops = 0 := by
      refine steps.preserves (fun state => state.Orderly ∧ state.stops = 0) ?_ ⟨orderly, first⟩
      rintro _ _ _ ⟨orderly, none⟩ waits stepped
      exact ⟨orderly.step stepped, (stops_of_creatorWaits waits stepped).trans none⟩
    exact kept.1.not_finished kept.2

section Schedules

/-- `EventLoopThread::Start` from its beginning to its end. -/
def starting : List (Event TwoThreads Nat) :=
  [.creator false, .entry [], .entry [], .entry [], .creator false]

/-- The destructor follows at once, and has read `loop_` twice when the new thread comes to
`EventLoop::Start`. -/
def destroying : List (Event TwoThreads Nat) :=
  starting ++ [.creator false, .creator false, .creator false, .entry []]

/-- The destructor's `Stop` waits while the new thread comes to `EventLoop::Start`: the assertions
hold, and the loop lives when it is called. -/
theorem handover_safe_destroying :
    ∃ state : EventLoopThread TwoThreads Nat, state.entry = .start ∧ state.creator = .stop ∧
      (state.loop.running = false ∧ state.loop.quitting = false) ∧
      ∀ events finish, (system 0).Steps creatorWaits state events finish →
        finish.entry ≠ .finished := by
  let state := ((system 0).run LabelledSystem.unguarded {} destroying).get (by decide)
  have reachable : (system 0).Reachable LabelledSystem.unguarded state :=
    LabelledSystem.run_reachable rfl (Option.some_get _).symm
  obtain ⟨asserted, -, living⟩ := handover_safe_iff reachable
  exact ⟨state, by decide, by decide, (asserted (by decide)).mpr (by decide),
    (living (by decide)).mpr (by decide)⟩

/-- `Stop` is called as soon as `EventLoopThread::Start` has returned, before the new
thread has come to `EventLoop::Start`. -/
def stoppingEarly : List (Event TwoThreads Nat) := starting ++ [.creator true, .entry []]

/-- The loop runs when `Stop` is called. The destructor still reads its address twice; then
the loop returns from its `Poll` and the entry function comes to its end. -/
def stoppingTwice : List (Event TwoThreads Nat) :=
  starting ++ [.entry [], .entry [], .entry [], .creator true, .creator false, .creator false,
    .creator false, .creator false] ++ List.replicate 9 (.entry [])

/-- In the first run an assertion of `EventLoop::Start` fails; in the second one the
destructor calls `Stop` on a destroyed loop. -/
theorem handover_fails :
    (∃ state : EventLoopThread TwoThreads Nat,
      (system 0).Reachable LabelledSystem.unguarded state ∧ state.entry = .start ∧
        state.loop.quitting = true ∧ state.enterStart.failedAssertions = 1) ∧
    ∃ state : EventLoopThread TwoThreads Nat,
      (system 0).Reachable LabelledSystem.unguarded state ∧ state.creator = .stop ∧
        state.entry = .finished := by
  let early := ((system 0).run LabelledSystem.unguarded {} stoppingEarly).get (by decide)
  let twice := ((system 0).run LabelledSystem.unguarded {} stoppingTwice).get (by decide)
  refine ⟨⟨early, ?_, by decide, by decide, by decide⟩, ⟨twice, ?_, by decide, by decide⟩⟩
  · exact LabelledSystem.run_reachable rfl (Option.some_get _).symm
  · exact LabelledSystem.run_reachable rfl (Option.some_get _).symm

end Schedules

end EventLoopThread

end Benet.EventLoop
