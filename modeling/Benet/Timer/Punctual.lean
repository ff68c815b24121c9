import Benet.Timer.Cancelled
import Benet.Timer.Comeback

/-!
# Timers fire on time

Whatever the readings of the clock and whatever the callbacks add and cancel: a callback
is run in a pass that is later than the expiration of its timer, in the order of the
expirations, once for a timer that does not repeat and at intervals for one that does.
The invariant says of each callback that was run where its timer can be now.
-/

namespace Benet

open EventLoop Semantics

namespace TimerWorld

variable {Thread : Type}

/-- What is true of a timer of the loop after its callback was run. If it is to be run again, it
repeats and expires an interval later; while it is in the batch of the pass that has run it,
no earlier pass was later. -/
def Rested (world : TimerWorld Thread) (flight : Multiset (Located Thread TimerTask))
    (loop : Thread) (firing : Firing) (object : Timer Thread) : Prop :=
  match object.place with
  | .functor => False
  | .timers => object.isRepeat = true ∧ firing.now + object.interval.nanos ≤ object.expiration
  | .due => object.isRepeat = true ∧ firing.now + object.interval.nanos ≤ object.expiration ∧
      firing.pass + 1 < (world.queues loop).passes
  | .ran => ∀ pass, (loop, .callExpired pass) ∈ flight → firing.now ≤ pass.now
  | .released => True

/-- Two callbacks of one timer are run in different passes, an interval apart. -/
def Apart (world : TimerWorld Thread) (earlier later : Firing) : Prop :=
  earlier.entry.second = later.entry.second → earlier.pass < later.pass ∧
    ∃ object, world.heap later.entry.second = some object ∧ object.isRepeat = true ∧
      earlier.now + object.interval.nanos ≤ later.now

/-- Two callbacks of one pass are run in the order of the expirations. -/
def InOrder (earlier later : Firing) : Prop :=
  earlier.pass = later.pass → earlier.entry.first ≤ later.entry.first

structure Punctual (world : TimerWorld Thread) (flight : Multiset (Located Thread TimerTask)) :
    Prop where
  rested : ∀ loop, ∀ firing ∈ (world.queues loop).firings, ∃ object,
    world.heap firing.entry.second = some object ∧ object.loop = loop ∧
      world.Rested flight loop firing object
  apart : ∀ loop, (world.queues loop).firings.Pairwise world.Apart
  ordered : ∀ loop, (world.queues loop).firings.Pairwise InOrder

/-- It stays true while the timer stays where it is and its loop is in the same pass. -/
theorem Rested.kept {world next : TimerWorld Thread} {loop : Thread} {firing : Firing}
    {object changed : Timer Thread} {flight following : Multiset (Located Thread TimerTask)}
    (rested : world.Rested flight loop firing object) (place : changed.place = object.place)
    (interval : changed.interval = object.interval)
    (expiration : changed.expiration = object.expiration)
    (passes : (world.queues loop).passes ≤ (next.queues loop).passes)
    (running : object.place = .ran → ∀ pass, (loop, .callExpired pass) ∈ following →
      ∃ before, before.now = pass.now ∧ (loop, .callExpired before) ∈ flight) :
    next.Rested following loop firing changed := by
  unfold Rested Timer.isRepeat at rested ⊢
  rw [place, interval, expiration]
  split at rested
  case h_1 => exact rested
  case h_2 => exact rested
  case h_3 => exact ⟨rested.1, rested.2.1, rested.2.2.trans_le passes⟩
  case h_4 ran =>
    intro pass inFollowing
    obtain ⟨before, now, was⟩ := running ran pass inFollowing
    exact now ▸ rested before was
  case h_5 => trivial

section Steps

variable [DecidableEq Thread] {world next : TimerWorld Thread} {thread loop : Thread}
  {object : Timer Thread} {task : TimerTask} {choice : TimerChoice Thread}
  {flight rest : Multiset (Located Thread TimerTask)} {calls : List (Call Thread TimerTask)}

/-- A pass that is running after a step has begun with it or was running before. -/
theorem Executes.running_pass (executes : Executes thread choice world task next calls)
    {pass : ExpiryPass} (running : (loop, .callExpired pass) ∈ Call.flights thread calls + rest) :
    (loop = thread ∧ task = .readCallback) ∨ ∃ before, before.now = pass.now ∧
      (loop, .callExpired before) ∈ ({(thread, task)} + rest : Multiset (Located Thread TimerTask)) := by
  rcases Multiset.mem_add.mp running with called | waiting
  · obtain ⟨rfl, ⟨rfl, -⟩ | ⟨before, entry, later, rfl, -, rfl⟩⟩ := executes.called_pass called
    · exact .inl ⟨rfl, rfl⟩
    · exact .inr ⟨before, rfl, mem_first _ _⟩
  · exact .inr ⟨pass, rfl, Multiset.mem_add.mpr (.inr waiting)⟩

/-- After a callback the loop is in the same pass, if it is in one. -/
theorem Executes.same_now {executed pass : ExpiryPass}
    (executes : Executes thread choice world (.callExpired executed) next calls)
    (orderly : Orderly world ({(thread, .callExpired executed)} + rest))
    (running : (thread, .callExpired pass) ∈ Call.flights thread calls + rest) :
    executed.now = pass.now := by
  rcases executes.running_pass running with ⟨-, begins⟩ | ⟨before, now, was⟩
  · cases begins
  · exact pass_unique orderly.calling (mem_first _ _) was ▸ now

/-- What was true of a timer after its callback stays true. -/
theorem Rested.executes {firing : Firing} (orderly : Orderly world ({(thread, task)} + rest))
    (alone : task = .readCallback → ∀ pass, (thread, .callExpired pass) ∉ rest)
    (executes : Executes thread choice world task next calls)
    (live : world.heap firing.entry.second = some object) (own : object.loop = loop)
    (begun : firing.pass < (world.queues loop).passes)
    (rested : world.Rested ({(thread, task)} + rest) loop firing object) :
    ∃ changed, next.heap firing.entry.second = some changed ∧ changed.loop = loop ∧
      next.Rested (Call.flights thread calls + rest) loop firing changed := by
  have moves := executes.moves orderly.consistent firing.entry.second
  rw [live] at moves
  generalize next.heap firing.entry.second = after at moves ⊢
  cases moves with
  | stays =>
      have grows : (world.queues loop).passes ≤ (next.queues loop).passes := by
        rw [executes.passes_eq]
        exact Nat.le_add_right _ _
      refine ⟨_, rfl, own, rested.kept rfl rfl rfl grows fun ran pass running => ?_⟩
      rcases executes.running_pass running with ⟨same, begins⟩ | before
      · exact absurd begins (orderly.not_begins alone live (.inr ran) (own.trans same))
      · exact before
  | inserted _ place => simp [Rested, place] at rested
  | erased => exact ⟨_, rfl, own, trivial⟩
  | taken ofThread place =>
      simp only [Rested, place] at rested
      refine ⟨_, rfl, own, rested.1, rested.2, ?_⟩
      rw [executes.passes_eq, if_pos ⟨own.symm.trans ofThread, rfl⟩]
      omega
  | @run _ executed entry later ofThread place due same =>
      simp only [Rested, place] at rested
      refine ⟨_, rfl, own, fun pass running => ?_⟩
      obtain ⟨object', live', -, -, expires, early⟩ := orderly.next_due due
      rw [same] at live'
      cases live.symm.trans live'
      rw [← own, ofThread] at running
      calc firing.now
          ≤ firing.now + object.interval.nanos := Int.le_add_of_nonneg_right (Int.natCast_nonneg _)
        _ ≤ object.expiration := rested.2.1
        _ = entry.first := expires
        _ ≤ executed.now := early.le
        _ = pass.now := executes.same_now orderly running
  | @updated _ pass ofThread place done =>
      simp only [Rested, place] at rested
      have notLater : firing.now ≤ pass.now := by
        refine rested pass ?_
        rw [← own, ofThread]
        exact mem_first _ _
      refine ⟨_, rfl, ?_⟩
      unfold Timer.endPass
      split_ifs with restarts
      · have repeats : object.isRepeat = true := (Bool.and_eq_true_iff.mp restarts).1
        refine ⟨(object.restart_loop _).trans own, ?_⟩
        simp only [Rested, Timer.isRepeat, Timer.restart_interval]
        refine ⟨repeats, ?_⟩
        rw [object.restart_expiration _ repeats]
        exact Int.add_le_add_right notLater _
      · exact ⟨own, trivial⟩

/-- A relation between the callbacks that were run and the next one. -/
theorem Executes.pairwise_firings {Related : Firing → Firing → Prop}
    (executes : Executes thread choice world task next calls)
    (before : (world.queues loop).firings.Pairwise Related)
    (new : ∀ firing ∈ (world.queues loop).firings, ∀ pass entry later,
      loop = thread → task = .callExpired pass → pass.rest = entry :: later →
        Related firing ⟨pass.number, pass.now, entry⟩) :
    (next.queues loop).firings.Pairwise Related := by
  have atMostOne : task.firings.Pairwise Related := by
    cases task with
    | callExpired pass => cases due : pass.rest <;> simp [TimerTask.firings, due]
    | user | addTimer | addTimerReturns | cancelTimer | readCallback => exact .nil
  rw [executes.firings_append]
  split_ifs with own
  · refine List.pairwise_append.mpr ⟨before, atMostOne, fun firing member added isNew => ?_⟩
    obtain ⟨pass, entry, later, isPass, due, rfl⟩ := TimerTask.mem_firings.mp isNew
    exact new firing member pass entry later own isPass due
  · rwa [List.append_nil]

/-- Every step keeps the timers on time. -/
theorem Punctual.executes (punctual : Punctual world ({(thread, task)} + rest))
    (orderly : Orderly world ({(thread, task)} + rest))
    (alone : task = .readCallback → ∀ pass, (thread, .callExpired pass) ∉ rest)
    (executes : Executes thread choice world task next calls) :
    Punctual next (Call.flights thread calls + rest) where
  rested loop firing member := by
    rw [executes.firings_append] at member
    rcases List.mem_append.mp member with before | new
    · obtain ⟨object, live, own, rested⟩ := punctual.rested loop firing before
      exact rested.executes orderly alone executes live own
        (orderly.recorded.begun loop firing before)
    split_ifs at new with own
    · obtain ⟨pass, entry, later, rfl, due, rfl⟩ := TimerTask.mem_firings.mp new
      subst own
      obtain ⟨object, live, own, place, -⟩ := orderly.next_due due
      have moves := executes.moves orderly.consistent entry.second
      rw [live] at moves
      dsimp only
      generalize next.heap entry.second = after at moves ⊢
      cases moves with
      | stays untouched => simp [TimerTask.handles, due] at untouched
      | run =>
          refine ⟨_, rfl, own, fun running inFlight => ?_⟩
          exact (executes.same_now orderly inFlight).le
      | updated _ _ done => simp [due] at done
    · cases new
  apart loop := by
    have kept : (world.queues loop).firings.Pairwise next.Apart := by
      refine (punctual.apart loop).imp fun {earlier later} apart same => ?_
      obtain ⟨passes, object, live, repeats, spaced⟩ := apart same
      have moves := executes.moves orderly.consistent later.entry.second
      rw [live] at moves
      obtain ⟨changed, after, -, interval, -⟩ := moves.forward
      exact ⟨passes, changed, after, by rw [Timer.isRepeat, interval]; exact repeats,
        interval ▸ spaced⟩
    refine executes.pairwise_firings kept ?_
    rintro firing member pass entry later rfl rfl due same
    -- The timer of the next callback is due, so it has rested.
    obtain ⟨object, live, -, rested⟩ := punctual.rested _ firing member
    obtain ⟨object', live', -, place, expires, early⟩ := orderly.next_due due
    rw [same] at live
    cases live.symm.trans live'
    simp only [Rested, place] at rested
    obtain ⟨repeats, interval, passed⟩ := rested
    have record := orderly.recorded.passes _ pass (mem_first _ _)
    have moves := executes.moves orderly.consistent entry.second
    rw [live] at moves
    obtain ⟨changed, after, -, sameInterval, -⟩ := moves.forward
    refine ⟨by have := record.current; dsimp only; omega, changed, after, ?_, ?_⟩
    · rw [Timer.isRepeat, sameInterval]
      exact repeats
    · rw [sameInterval]
      exact interval.trans (expires.trans_le early.le)
  ordered loop := by
    refine executes.pairwise_firings (punctual.ordered loop) ?_
    rintro firing member pass entry later rfl rfl due same
    have record := orderly.recorded.passes _ pass (mem_first _ _)
    have inFront : firing.entry ∈ pass.ran := record.recorded firing member same
    have sorted : (pass.ran ++ pass.rest).Pairwise (· < ·) := record.sorted
    have before := (List.pairwise_append.mp sorted).2.2 _ inFront entry (by simp [due])
    exact TimerEntry.first_le before.le

/-- What arrives brings no pass. -/
theorem Punctual.arrives {arrived : Multiset (Located Thread TimerTask)}
    (punctual : Punctual world flight) (brought : client.Arrives world arrived) :
    Punctual world (arrived + flight) := by
  refine ⟨fun loop firing member => ?_, punctual.apart, punctual.ordered⟩
  obtain ⟨object, live, own, rested⟩ := punctual.rested loop firing member
  refine ⟨object, live, own, rested.kept rfl rfl rfl le_rfl fun _ pass running => ?_⟩
  rcases Multiset.mem_add.mp running with new | before
  · exact absurd new (arrives_no_pass brought)
  · exact ⟨pass, rfl, before⟩

end Steps

variable [DecidableEq Thread]

/-- `CancelTimer` does not run for the timer on the thread of the loop. -/
def sparing (loop : Thread) (timer : TimerPtr) (thread : Thread) (task : TimerTask)
    (_ : TimerChoice Thread) (_ : TimerWorld Thread) : Prop :=
  thread = loop → task ≠ .cancelTimer timer

instance (loop : Thread) (timer : TimerPtr) (thread : Thread) (task : TimerTask)
    (choice : TimerChoice Thread) (world : TimerWorld Thread) :
    Decidable (sparing loop timer thread task choice world) :=
  inferInstanceAs (Decidable (thread = loop → task ≠ .cancelTimer timer))

variable [Fintype Thread] {machine next later : Machine (TimerWorld Thread) Thread TimerTask}
  {label : Label Thread (TimerChoice Thread)} {labels : List (Label Thread (TimerChoice Thread))}
  {timer : TimerPtr}

/-- Every timer is on time in every run. -/
theorem reachable_punctual
    {guard : Machine (TimerWorld Thread) Thread TimerTask → Label Thread (TimerChoice Thread) → Prop}
    (reachable : system.Reachable guard machine) : Punctual machine.client machine.flight := by
  refine reachable.invariant (fun machine => Punctual machine.client machine.flight) ?_ ?_
  · rintro _ ⟨_, rfl, rfl⟩
    exact ⟨by simp, by simp, by simp⟩
  · intro machine label next reached punctual _ stepped
    cases reachable_runStep reached stepped with
    | executes _ before orderly alone executes after =>
        rw [before] at punctual
        exact after ▸ punctual.executes orderly alone executes
    | arrives same brought after =>
        rw [same, after]
        exact punctual.arrives brought

/-- The history of the timers in a state. -/
structure OnTime (machine : Machine (TimerWorld Thread) Thread TimerTask) : Prop where
  /-- a callback is run by the loop of its timer -/
  own : ∀ loop, ∀ firing ∈ (machine.client.queues loop).firings, ∃ object,
    machine.client.heap firing.entry.second = some object ∧ object.loop = loop
  /-- a timer that does not repeat is run at most once -/
  once : ∀ timer object, machine.client.heap timer = some object → object.isRepeat = false →
    ∀ loop, ((machine.client.queues loop).firingsOf timer).length ≤ 1
  /-- one that repeats is run at most once in a pass, and an interval passes between two runs -/
  spaced : ∀ timer object, machine.client.heap timer = some object → object.isRepeat = true →
    ∀ loop, ((machine.client.queues loop).firingsOf timer).Pairwise fun (earlier later : Firing) =>
      earlier.pass < later.pass ∧ earlier.now + object.interval.nanos ≤ later.now
  /-- a pass runs its callbacks in the order of the expirations -/
  ordered : ∀ loop, (machine.client.queues loop).firings.Pairwise fun (earlier later : Firing) =>
    earlier.pass = later.pass → earlier.entry.first ≤ later.entry.first

omit [DecidableEq Thread] in
/-- What the invariant says about the callbacks that have run. -/
theorem Punctual.onTime (punctual : Punctual machine.client machine.flight) : OnTime machine := by
  have apart : ∀ {timer object}, machine.client.heap timer = some object → ∀ loop,
      ((machine.client.queues loop).firingsOf timer).Pairwise fun (earlier later : Firing) =>
        object.isRepeat = true ∧ earlier.pass < later.pass ∧
          earlier.now + object.interval.nanos ≤ later.now := by
    intro timer object live loop
    refine List.Pairwise.imp_of_mem ?_ ((punctual.apart loop).filter _)
    intro earlier later isEarlier isLater apart
    have ofEarlier : earlier.entry.second = timer := by simpa using (List.mem_filter.mp isEarlier).2
    have ofLater : later.entry.second = timer := by simpa using (List.mem_filter.mp isLater).2
    obtain ⟨passes, found, isFound, repeats, interval⟩ := apart (ofEarlier.trans ofLater.symm)
    rw [ofLater] at isFound
    cases live.symm.trans isFound
    exact ⟨repeats, passes, interval⟩
  refine ⟨fun loop firing member => ?_, fun timer object live notRepeat loop => ?_,
    fun timer object live _ loop => (apart live loop).imp And.right, punctual.ordered⟩
  · obtain ⟨object, live, own, -⟩ := punctual.rested loop firing member
    exact ⟨object, live, own⟩
  · have alone := apart live loop
    rcases firings : (machine.client.queues loop).firingsOf timer with _ | ⟨first, _ | ⟨second, rest⟩⟩
    · simp
    · simp
    · rw [firings] at alone
      have repeats := ((List.pairwise_cons.mp alone).1 second List.mem_cons_self).1
      rw [notRepeat] at repeats
      cases repeats

/-- From the beginning of a pass on, a timer that is not cancelled is not in
`canceling_timers_`. -/
theorem spared_not_canceling {choice : TimerChoice Thread}
    (reachable : system.Reachable LabelledSystem.unguarded machine)
    (executing : machine.executing label = some (.readCallback, choice))
    (stepped : machine.step client label = some next)
    (steps : system.Steps (Machine.onExec (sparing label.thread timer)) next labels later) :
    timer ∉ (later.client.queues label.thread).cancelingTimers := by
  have begun : timer ∉ (next.client.queues label.thread).cancelingTimers := by
    obtain ⟨calls, rest, executes, -⟩ := reachable_executing reachable executing stepped
    rw [executes.begins_canceling]
    simp
  refine (reachable.step trivial stepped).preserves
    (fun later => timer ∉ (later.client.queues label.thread).cancelingTimers)
    (fun _ _ _ => trivial) ?_ steps begun
  intro before step after reached absent admitted stepped
  cases reachable_runStep reached stepped with
  | executes executing _ _ _ executes =>
      intro member
      rcases executes.canceling_new member with already | ⟨own, cancels⟩
      · exact absent already
      · exact admitted _ executing own.symm cancels
  | arrives same => exact same ▸ absent

/-- In every state of every run the callbacks were run on time. A step that runs a callback does
so when the pass is not before the expiration of the timer. And if from the beginning of a
pass on no `CancelTimer` has run for a timer, then the end of a pass that has run its callback
puts the timer into the queue again, an interval after the pass, if it repeats. -/
theorem timers_fire_on_time (reachable : system.Reachable LabelledSystem.unguarded machine) :
    OnTime machine ∧
    (∀ label next, machine.step client label = some next → ∀ loop,
      (next.client.queues loop).firings = (machine.client.queues loop).firings ∨
      ∃ firing object, (next.client.queues loop).firings =
          (machine.client.queues loop).firings ++ [firing] ∧
        machine.client.heap firing.entry.second = some object ∧
        object.expiration = firing.entry.first ∧ object.expiration ≤ firing.now) ∧
    ∀ label choice next timer labels later end_ choice' pass last,
      machine.executing label = some (.readCallback, choice) →
      machine.step client label = some next →
      system.Steps (Machine.onExec (sparing label.thread timer)) next labels later →
      later.executing end_ = some (.callExpired pass, choice') → end_.thread = label.thread →
      pass.rest = [] → later.step client end_ = some last →
      ∀ entry ∈ pass.ran, entry.second = timer →
        ∀ object, later.client.heap timer = some object → object.isRepeat = true →
          ⟨pass.now + object.interval.nanos, timer⟩ ∈ (last.client.queues label.thread).timers ∧
          ∃ restarted, last.client.heap timer = some restarted ∧
            restarted.expiration = pass.now + object.interval.nanos := by
  refine ⟨(reachable_punctual reachable).onTime, fun label next stepped loop => ?_, ?_⟩
  · cases reachable_runStep reachable stepped with
    | arrives same => exact .inl (by rw [same])
    | @executes task choice calls rest _ _ orderly _ executes =>
        rw [executes.firings_append]
        split_ifs with own
        · cases task with
          | callExpired pass =>
              cases due : pass.rest with
              | nil => simp [TimerTask.firings, due]
              | cons entry later =>
                  obtain ⟨object, live, -, -, expires, early⟩ := orderly.next_due due
                  refine .inr ⟨⟨pass.number, pass.now, entry⟩, object, ?_, live, expires,
                    expires.trans_le early.le⟩
                  simp [TimerTask.firings, due]
          | user | addTimer | addTimerReturns | cancelTimer | readCallback =>
              simp [TimerTask.firings]
        · simp
  · intro label choice next timer labels later end_ choice' pass last begins stepped steps ends
      sameThread done finished entry member about object live repeats
    have reached : system.Reachable LabelledSystem.unguarded later :=
      (reachable.step trivial stepped).steps (steps.weaken fun _ _ _ => trivial)
    have absent := spared_not_canceling reachable begins stepped steps
    obtain ⟨calls, rest, executes, orderly, -⟩ := reachable_executing reached ends finished
    subst about
    rw [sameThread] at executes orderly
    have restarted := (executes.restarts_iff orderly.consistent done member live).mpr
      ⟨⟨object, live, repeats⟩, absent⟩
    refine ⟨restarted, ?_⟩
    have consistent := (reachable_orderly (reached.step trivial finished)).consistent
    obtain ⟨changed, after, -, -, expires⟩ := (consistent.entries _ _).mp restarted
    exact ⟨changed, after, expires⟩

/-- A timer that repeats was run in a pass at `6`, and the timerfd is readable again. -/
def repeatOnce : List (Label TwoThreads (TimerChoice TwoThreads)) :=
  turns 0 1 ++ adding 7 4 ⟨true, 3⟩ ++ turns 0 1 ++ startToPass ++
    [turn 0 { now := 6, readAt := 6 }] ++ turns 0 9 ++
    [turn 0 { actives := [.channel .readCallback] }] ++ turns 0 1

/-- A repeating timer is run at `6`, restarted for `9` and run again at `10`. -/
theorem timers_fire_on_time_repeatOnce :
    ∃ machine last : Machine (TimerWorld TwoThreads) TwoThreads TimerTask,
      system.Reachable LabelledSystem.unguarded machine ∧ OnTime machine ∧
      (machine.client.queues 0).firingsOf 7 = [⟨0, 6, ⟨4, 7⟩⟩] ∧
      (last.client.queues 0).firingsOf 7 = [⟨0, 6, ⟨4, 7⟩⟩, ⟨1, 10, ⟨9, 7⟩⟩] ∧
      ⟨13, 7⟩ ∈ (last.client.queues 0).timers := by
  let machine := (system.run LabelledSystem.unguarded noTimers repeatOnce).get (by decide +kernel)
  let next := (machine.step client (turn 0 { now := 10, readAt := 10 })).get (by decide +kernel)
  let later := (system.run (Machine.onExec (sparing 0 7)) next (turns 0 2)).get (by decide +kernel)
  let last := (later.step client (turn 0 {})).get (by decide +kernel)
  have reachable : system.Reachable LabelledSystem.unguarded machine :=
    LabelledSystem.run_reachable noTimers_initial (Option.some_get _).symm
  have begins : machine.executing (turn 0 { now := 10, readAt := 10 }) =
      some (.readCallback, { now := 10, readAt := 10 }) := by decide +kernel
  have stepped : machine.step client (turn 0 { now := 10, readAt := 10 }) = some next :=
    (Option.some_get _).symm
  have steps : system.Steps (Machine.onExec (sparing 0 7)) next (turns 0 2) later :=
    LabelledSystem.run_steps (Option.some_get _).symm
  let pass : ExpiryPass := ⟨1, 10, [⟨9, 7⟩], []⟩
  have ends : later.executing (turn 0 {}) = some (.callExpired pass, {}) := by decide +kernel
  have finished : later.step client (turn 0 {}) = some last := (Option.some_get _).symm
  let object : Timer TwoThreads := ⟨9, ⟨true, 3⟩, .ran, 0, true, false⟩
  have live : later.client.heap 7 = some object := by decide +kernel
  obtain ⟨onTime, -, restarts⟩ := timers_fire_on_time reachable
  have again := (restarts _ _ next 7 _ later (turn 0 {}) _ pass last begins stepped steps ends
    rfl rfl finished ⟨9, 7⟩ List.mem_cons_self rfl object live rfl).1
  have thirteen : pass.now + object.interval.nanos = 13 := rfl
  rw [thirteen, turn_thread] at again
  exact ⟨machine, last, reachable, onTime, by decide +kernel, by decide +kernel, again⟩

end TimerWorld

end Benet
