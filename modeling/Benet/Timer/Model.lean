import Benet.Data.OrderedSet
import Benet.EventLoop.Machine
import Mathlib.Data.Prod.Lex
import Mathlib.Data.Int.Order.Basic

/-!
# Timers, the timer queue and the timerfd

`Timer` and `TimerQueue` with one queue for every loop, as a client of the event
loop machine. `AddTimer` and `CancelTimer` pass a functor to `RunInLoop`; the
read callback of the timerfd takes the expired entries out, runs their callbacks
one after the other and then restarts the repeating ones. A callback is user code
and may add and cancel any timers.

Times are nanoseconds of `TimeClock`, and the clock of the timerfd moves with it. A
timer is named by its address, `0` is the null pointer, and an address is not used
twice in a run.
-/

namespace Benet

open EventLoop

/-- `TimePoint`, in nanoseconds. -/
abbrev TimePoint : Type := Int

/-- `TimerPtr`: the address of the timer. -/
abbrev TimerPtr : Type := Nat

/-- `TimerEntry`: `std::pair<TimePoint, TimerPtr>` -/
@[ext] structure TimerEntry where
  first : TimePoint
  second : TimerPtr
deriving DecidableEq, Repr

namespace TimerEntry

/-- The lexicographic order of pairs. -/
instance : LinearOrder TimerEntry :=
  LinearOrder.lift' (fun entry => toLex (entry.first, entry.second)) fun entry entry' same => by
    obtain ⟨sameFirst, sameSecond⟩ := Prod.mk.inj same
    exact TimerEntry.ext sameFirst sameSecond

/-- Entries are compared by expiration, then by timer. -/
theorem lt_iff {entry entry' : TimerEntry} :
    entry < entry' ↔ entry.first < entry'.first ∨
      entry.first = entry'.first ∧ entry.second < entry'.second :=
  Prod.Lex.toLex_lt_toLex

/-- A later entry has no earlier expiration. -/
theorem first_le {entry entry' : TimerEntry} (le : entry ≤ entry') :
    entry.first ≤ entry'.first :=
  Prod.Lex.monotone_fst _ _ le

end TimerEntry

/-- What the code uses of the argument `double interval`: the comparison
`interval > 0.0`, and `static_cast<TimePoint::rep>(interval_ * 1e9)`, which is
used only where the comparison holds. -/
structure Interval where
  positive : Bool
  nanos : Nat
deriving DecidableEq, Repr

/-- Who holds the strong reference to a timer: the functor of `AddTimer` that has
not run, the queue, the batch of an expiry pass before or after the timer's
callback was run, or nobody but the environment. -/
inductive TimerPlace where
  | functor
  | timers
  | due
  | ran
  | released
deriving DecidableEq, Repr

/-- A `Timer`. The last three fields are history: the loop whose queue made it,
whether `AddTimer` has returned its handle, and whether a functor of
`CancelTimer` has run for it on its loop. -/
structure Timer (Thread : Type) where
  expiration : TimePoint
  interval : Interval
  place : TimerPlace := .functor
  loop : Thread
  returned : Bool := false
  cancelled : Bool := false
deriving DecidableEq, Repr

namespace Timer

/-- `Timer::InvalidTimePoint` -/
def invalidTimePoint : TimePoint := 0

variable {Thread : Type}

/-- `repeat_(interval > 0.0)` -/
def isRepeat (timer : Timer Thread) : Bool := timer.interval.positive

def restart (now : TimePoint) (timer : Timer Thread) : Timer Thread :=
  if timer.isRepeat then { timer with expiration := now + timer.interval.nanos }
  else { timer with expiration := invalidTimePoint }

end Timer

/-- `timespec` -/
structure Timespec where
  sec : Int
  nsec : Int
deriving DecidableEq, Repr

/-- The timerfd: when its expiration that was not read yet is due, and (history)
the time of the last `timerfd_settime`. -/
structure Timerfd where
  expires : Option TimePoint := none
  armedAt : Option TimePoint := none
deriving DecidableEq, Repr

/-- `how_long_from_now` -/
def howLongFromNow (now time : TimePoint) : Timespec :=
  if time ≤ now then ⟨0, 1⟩
  else
    let diff := time - now
    let s := diff.tdiv 1000000000
    let n := diff - s * 1000000000
    ⟨s, n⟩

namespace Timerfd

/-- `timerfd_settime`: a zero value disarms, and an expiration that was not read
is discarded. -/
def settime (now : TimePoint) (value : Timespec) (_ : Timerfd) : Timerfd where
  expires := if value = ⟨0, 0⟩ then none else some (now + (value.sec * 1000000000 + value.nsec))
  armedAt := some now

/-- `set_timerfd` -/
def setTimerfd (now exp : TimePoint) (timerfd : Timerfd) : Timerfd :=
  timerfd.settime now (howLongFromNow now exp)

/-- `reset_timerfd`: the read consumes an expiration that has happened and fails
otherwise. -/
def resetTimerfd (now : TimePoint) (timerfd : Timerfd) : Timerfd :=
  if timerfd.expires.any (· ≤ now) then { timerfd with expires := none } else timerfd

end Timerfd

/-- The assertions of the timer queue: `tmp_end == timers_.end() || now <
tmp_end->first`, `result.second` and `n == 1`. -/
inductive TimerAssertion where
  | cutAfterNow
  | inserted
  | erasedOne
deriving DecidableEq, Repr

/-- A callback that an expiry pass has run: the number of the pass, its `now`,
and the entry. -/
structure Firing where
  pass : Nat
  now : TimePoint
  entry : TimerEntry
deriving DecidableEq

/-- A `TimerQueue`. The fields after `timerfd` are history: the assertions that
did not hold, the number of passes begun, and the callbacks run. -/
structure TimerQueue where
  timers : Data.OrderedSet TimerEntry := ∅
  callingExpiredTimers : Bool := false
  cancelingTimers : Data.OrderedSet TimerPtr := ∅
  timerfd : Timerfd := {}
  failedAssertions : List TimerAssertion := []
  passes : Nat := 0
  firings : List Firing := []

namespace TimerQueue

/-- Evaluate an assertion. -/
def assert (condition : Bool) (assertion : TimerAssertion) (queue : TimerQueue) : TimerQueue :=
  if condition then queue
  else { queue with failedAssertions := queue.failedAssertions ++ [assertion] }

/-- The first test of `insert`: the queue is empty, or `when < it->first`. -/
def earliestChanged (when_ : TimePoint) (queue : TimerQueue) : Bool :=
  match queue.timers.first? with
  | none => true
  | some entry => when_ < entry.first

/-- `TimerQueue::insert` for a timer with the expiration `when_`. -/
def insert (when_ : TimePoint) (timer : TimerPtr) (queue : TimerQueue) : TimerQueue × Bool :=
  let entry := TimerEntry.mk when_ timer
  ({ queue.assert (entry ∉ queue.timers) .inserted with
    timers := queue.timers.insert entry }, queue.earliestChanged when_)

def setTimerfd (now exp : TimePoint) (queue : TimerQueue) : TimerQueue :=
  { queue with timerfd := queue.timerfd.setTimerfd now exp }

/-- The functor of `AddTimer` on the queue. -/
def addTimer (now when_ : TimePoint) (timer : TimerPtr) (queue : TimerQueue) : TimerQueue :=
  let (queue, earliestChanged) := queue.insert when_ timer
  if earliestChanged then queue.setTimerfd now when_ else queue

/-- The functor of `CancelTimer` on the queue, for a timer that is still there. -/
def cancelTimer (expiration : TimePoint) (timer : TimerPtr) (queue : TimerQueue) : TimerQueue :=
  let entry := TimerEntry.mk expiration timer
  if entry ∈ queue.timers then
    let timers := queue.timers.erase entry
    let n := queue.timers.toList.length - timers.toList.length
    { queue.assert (n == 1) .erasedOne with timers }
  else if queue.callingExpiredTimers then
    { queue with cancelingTimers := queue.cancelingTimers.insert timer }
  else queue

/-- `TimerEntry anchor(now, nullptr)` -/
def anchor (now : TimePoint) : TimerEntry := .mk now 0

/-- The entries that a pass at `now` takes out: those before `tmp_end`. -/
def expired (now : TimePoint) (queue : TimerQueue) : List TimerEntry :=
  queue.timers.before (anchor now)

/-- The assertion on `tmp_end`. -/
def cutAfterNow (now : TimePoint) (queue : TimerQueue) : Bool :=
  match (queue.timers.lowerBound (anchor now)).head? with
  | none => true
  | some tmpEnd => now < tmpEnd.first

/-- The read callback up to the first `Run()`. -/
def beginPass (now readAt : TimePoint) (queue : TimerQueue) : TimerQueue :=
  { queue.assert (queue.cutAfterNow now) .cutAfterNow with
    timers := queue.timers.from_ (anchor now)
    callingExpiredTimers := true
    cancelingTimers := ∅
    timerfd := queue.timerfd.resetTimerfd readAt
    passes := queue.passes + 1 }

/-- `Run()` of one expired timer. -/
def fire (firing : Firing) (queue : TimerQueue) : TimerQueue :=
  { queue with firings := queue.firings ++ [firing] }

/-- `calling_expired_timers_.store(false)` -/
def stopCalling (queue : TimerQueue) : TimerQueue :=
  { queue with callingExpiredTimers := false }

end TimerQueue

/-- The read callback while it runs the callbacks: the number of the pass
(history), `now`, and `expired_timer` split into what the loop over it has run
and what it has still to run. -/
structure ExpiryPass where
  number : Nat
  now : TimePoint
  ran : List TimerEntry := []
  rest : List TimerEntry
deriving DecidableEq

/-- `expired_timer` -/
def ExpiryPass.expired (pass : ExpiryPass) : List TimerEntry := pass.ran ++ pass.rest

/-- One turn of the loop over `expired_timer` later. -/
def ExpiryPass.next (entry : TimerEntry) (rest : List TimerEntry) (pass : ExpiryPass) :
    ExpiryPass :=
  { pass with ran := pass.ran ++ [entry], rest }

/-- The pass that a queue begins at `now`. -/
def TimerQueue.expiryPass (now : TimePoint) (queue : TimerQueue) : ExpiryPass where
  number := queue.passes
  now := now
  rest := queue.expired now

/-- The tasks of the timers: user code, the functors of `AddTimer` and
`CancelTimer`, the return of `AddTimer` to its caller, the read callback of the
timerfd, and its loop over the expired timers. -/
inductive TimerTask where
  | user
  | addTimer (timer : TimerPtr)
  | addTimerReturns (timer : TimerPtr)
  | cancelTimer (timer : TimerPtr)
  | readCallback
  | callExpired (pass : ExpiryPass)
deriving DecidableEq

/-- One action of user code. The address of a new timer is the allocator's
choice. -/
inductive TimerAction (Thread : Type) where
  | leave
  | addTimer (loop : Thread) (timer : TimerPtr) (when_ : TimePoint) (interval : Interval)
  | cancelTimer (loop : Thread) (timer : TimerPtr)
  | runInLoop (loop : Thread)
  | queueInLoop (loop : Thread)
  | stop (loop : Thread)
deriving DecidableEq

/-- The environment's answers: the next action of user code, the readings of the
clock in a function and at the read of the timerfd, whether a timer that nobody
here holds can still be locked, and what `Poll` returns. -/
structure TimerChoice (Thread : Type) where
  action : TimerAction Thread := .leave
  now : TimePoint := 1
  readAt : TimePoint := 1
  locked : Bool := false
  actives : List (Active TimerTask) := []
deriving DecidableEq

/-- All timers, by address, and the queue of every loop. -/
structure TimerWorld (Thread : Type) where
  heap : TimerPtr → Option (Timer Thread) := fun _ => none
  queues : Thread → TimerQueue := fun _ => {}

namespace TimerWorld

variable {Thread : Type} [DecidableEq Thread]

/-- Put a new timer at an address. -/
def allocate (timer : TimerPtr) (object : Timer Thread) (world : TimerWorld Thread) :
    TimerWorld Thread :=
  { world with heap := Function.update world.heap timer (some object) }

/-- Change one timer. -/
def modifyTimer (timer : TimerPtr) (change : Timer Thread → Timer Thread)
    (world : TimerWorld Thread) : TimerWorld Thread :=
  { world with heap := Function.update world.heap timer ((world.heap timer).map change) }

/-- Move a timer to another holder. -/
def moveTo (place : TimerPlace) (timer : TimerPtr) (world : TimerWorld Thread) :
    TimerWorld Thread :=
  world.modifyTimer timer fun timer => { timer with place }

/-- Change one queue. -/
def modifyQueue (loop : Thread) (change : TimerQueue → TimerQueue) (world : TimerWorld Thread) :
    TimerWorld Thread :=
  { world with queues := Function.update world.queues loop (change (world.queues loop)) }

/-- What a step leaves behind and the calls it then makes. -/
abbrev Result (Thread : Type) : Type := TimerWorld Thread × List (Call Thread TimerTask)

/-- One action of user code; after it the user code goes on. A timer can be
cancelled once its handle was returned. -/
def act (world : TimerWorld Thread) : TimerAction Thread → Option (Result Thread)
  | .leave => some (world, [])
  | .addTimer loop timer when_ interval =>
      if timer ≠ 0 ∧ world.heap timer = none then
        some (world.allocate timer { expiration := when_, interval, loop },
          [.runInLoop loop (.addTimer timer), .task (.addTimerReturns timer), .task .user])
      else none
  | .cancelTimer loop timer =>
      if (world.heap timer).any Timer.returned then
        some (world, [.runInLoop loop (.cancelTimer timer), .task .user])
      else none
  | .runInLoop loop => some (world, [.runInLoop loop .user, .task .user])
  | .queueInLoop loop => some (world, [.queueInLoop loop .user, .task .user])
  | .stop loop => some (world, [.stop loop, .task .user])

/-- The functor of `AddTimer`. -/
def addTimer (loop : Thread) (now : TimePoint) (timer : TimerPtr) (world : TimerWorld Thread) :
    Option (TimerWorld Thread) :=
  (world.heap timer).map fun object =>
    (world.modifyQueue loop (·.addTimer now object.expiration timer)).moveTo .timers timer

/-- `timer_wk.lock()` succeeds while somebody holds the timer. -/
def lock (locked : Bool) (object : Timer Thread) : Bool :=
  object.place ≠ .released || locked

/-- The functor of `CancelTimer`. -/
def cancelTimer (loop : Thread) (locked : Bool) (timer : TimerPtr) (world : TimerWorld Thread) :
    Option (TimerWorld Thread) :=
  (world.heap timer).map fun object =>
    let marked := world.modifyTimer timer fun object =>
      { object with cancelled := object.cancelled || object.loop = loop }
    if lock locked object then
      let entry := TimerEntry.mk object.expiration timer
      let queued := entry ∈ (world.queues loop).timers
      let cancelled := marked.modifyQueue loop (·.cancelTimer object.expiration timer)
      if queued then cancelled.moveTo .released timer else cancelled
    else marked

/-- The read callback up to the first `Run()`. -/
def readCallback (loop : Thread) (now readAt : TimePoint) (world : TimerWorld Thread) :
    Result Thread :=
  let queue := world.queues loop
  ((queue.expired now).foldl (fun world entry => world.moveTo .due entry.second)
      (world.modifyQueue loop (·.beginPass now readAt)),
    [.task (.callExpired (queue.expiryPass now))])

/-- `timer->Restart(now)` and `insert(timer)`. -/
def restart (loop : Thread) (now : TimePoint) (timer : TimerPtr) (object : Timer Thread)
    (world : TimerWorld Thread) : TimerWorld Thread :=
  ((world.modifyTimer timer (·.restart now)).modifyQueue loop
    fun queue => (queue.insert (object.restart now).expiration timer).1).moveTo .timers timer

/-- One turn of the loop over the expired timers after their callbacks: a repeating
timer that was not cancelled is restarted. The batch gives up its reference in any
case. -/
def updateExpired (loop : Thread) (now : TimePoint) (world : TimerWorld Thread)
    (entry : TimerEntry) : TimerWorld Thread :=
  match world.heap entry.second with
  | none => world
  | some object =>
      if !object.isRepeat then world.moveTo .released entry.second
      else if entry.second ∈ (world.queues loop).cancelingTimers then
        world.moveTo .released entry.second
      else world.restart loop now entry.second object

/-- `next_expired_time`, read through the pointer of the first entry. -/
def nextExpiredTime (loop : Thread) (world : TimerWorld Thread) : TimePoint :=
  match (world.queues loop).timers.first? with
  | none => Timer.invalidTimePoint
  | some entry => ((world.heap entry.second).map Timer.expiration).getD Timer.invalidTimePoint

/-- Arm the timerfd for the first entry, unless its time is the invalid one. -/
def rearm (loop : Thread) (now : TimePoint) (world : TimerWorld Thread) : TimerWorld Thread :=
  if world.nextExpiredTime loop ≠ Timer.invalidTimePoint then
    world.modifyQueue loop (·.setTimerfd now (world.nextExpiredTime loop))
  else world

/-- The read callback after the last `Run()`. `now` is a new reading. -/
def finishPass (loop : Thread) (now : TimePoint) (pass : ExpiryPass)
    (world : TimerWorld Thread) : TimerWorld Thread :=
  (pass.expired.foldl (updateExpired loop pass.now)
    (world.modifyQueue loop TimerQueue.stopCalling)).rearm loop now

/-- One turn of the loop over the expired timers, or what comes after it. -/
def callExpired (loop : Thread) (now : TimePoint) (pass : ExpiryPass)
    (world : TimerWorld Thread) : Result Thread :=
  match pass.rest with
  | [] => (world.finishPass loop now pass, [])
  | entry :: rest =>
      ((world.modifyQueue loop (·.fire ⟨pass.number, pass.now, entry⟩)).moveTo .ran entry.second,
        [.task .user, .task (.callExpired (pass.next entry rest))])

/-- Execute a task. -/
def exec (thread : Thread) (task : TimerTask) (choice : TimerChoice Thread)
    (world : TimerWorld Thread) : Option (Result Thread) :=
  match task with
  | .user => world.act choice.action
  | .addTimer timer => (world.addTimer thread choice.now timer).map (·, [])
  | .addTimerReturns timer =>
      some (world.modifyTimer timer fun object => { object with returned := true }, [])
  | .cancelTimer timer => (world.cancelTimer thread choice.locked timer).map (·, [])
  | .readCallback => some (world.readCallback thread choice.now choice.readAt)
  | .callExpired pass => some (world.callExpired thread choice.now pass)

/-- The channels that `Poll` may return: the eventfd, the timerfd, and channels of
the user. -/
def pollable : Active TimerTask → Bool
  | .wakeup | .channel .user | .channel .readCallback => true
  | .channel _ => false

/-- The timers as a client of the event loop machine. -/
def client : Client (TimerWorld Thread) Thread TimerTask (TimerChoice Thread) where
  user := .user
  exec := exec
  poll _ choice _ := if choice.actives.all pollable then some choice.actives else none

/-- All runs, from no timers at all. -/
abbrev system : Semantics.LabelledSystem (Machine (TimerWorld Thread) Thread TimerTask)
    (Label Thread (TimerChoice Thread)) :=
  Machine.system client fun world => world = {}

section Schedules

/-- Two threads without timers; both loops are still to be started. -/
def noTimers : Machine (TimerWorld TwoThreads) TwoThreads TimerTask where
  client := {}

/-- The run starts without timers. -/
theorem noTimers_initial : system.Initial noTimers :=
  ⟨_, rfl, rfl⟩

/-- The next step of a thread. -/
def turn (thread : TwoThreads) (choice : TimerChoice TwoThreads) :
    Label TwoThreads (TimerChoice TwoThreads) :=
  ⟨thread, .proceed choice⟩

@[simp] theorem turn_thread (thread : TwoThreads) (choice : TimerChoice TwoThreads) :
    (turn thread choice).thread = thread := rfl

/-- Steps of a thread that need no answer. -/
def turns (thread : TwoThreads) (count : Nat) : List (Label TwoThreads (TimerChoice TwoThreads)) :=
  List.replicate count (turn thread {})

/-- User code on thread `0` adds a timer to the queue of its own loop at time `1`. -/
def adding (timer : TimerPtr) (when_ : TimePoint) (interval : Interval) :
    List (Label TwoThreads (TimerChoice TwoThreads)) :=
  [turn 0 { action := .addTimer 0 timer when_ interval }] ++ turns 0 3

/-- Loop `0` is started, and `Poll` finds its timerfd readable. -/
def startToPass : List (Label TwoThreads (TimerChoice TwoThreads)) :=
  [⟨0, .start⟩] ++ turns 0 1 ++ [turn 0 { actives := [.channel .readCallback] }] ++ turns 0 1

end Schedules

end TimerWorld

end Benet
