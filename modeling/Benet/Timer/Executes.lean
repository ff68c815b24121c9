import Benet.Timer.Expiry
import Benet.EventLoop.Stacks

/-!
# What a step of the timers can do

`TimerWorld.Executes` lists by constructors every way in which a task of the
timers can go, and the lemmas before it say which timer and which queue a
function changes.
-/

namespace Benet

open EventLoop Semantics

namespace TimerWorld

variable {Thread : Type}

section Heap

variable {world : TimerWorld Thread} {timer other : TimerPtr} {object : Timer Thread}
  {change : Timer Thread → Timer Thread}

/-- The heap after a timer was changed. -/
theorem modifyTimer_heap (live : world.heap timer = some object) :
    (world.modifyTimer timer change).heap =
      Function.update world.heap timer (some (change object)) := by
  simp [modifyTimer, live]

@[simp] theorem modifyTimer_queues : (world.modifyTimer timer change).queues = world.queues := rfl

@[simp] theorem moveTo_queues (place : TimerPlace) :
    (world.moveTo place timer).queues = world.queues := rfl

@[simp] theorem allocate_queues : (world.allocate timer object).queues = world.queues := rfl

/-- The heap after a timer was moved. -/
theorem moveTo_heap (place : TimerPlace) (live : world.heap timer = some object) :
    (world.moveTo place timer).heap =
      Function.update world.heap timer (some { object with place }) :=
  modifyTimer_heap live

/-- Moving the timers of a batch moves each of them and no other. -/
theorem foldl_moveTo_heap (place : TimerPlace) (batch : List TimerEntry)
    (world : TimerWorld Thread) (timer : TimerPtr) :
    (batch.foldl (fun world entry => world.moveTo place entry.second) world).heap timer =
      if timer ∈ batch.map (·.second) then (world.heap timer).map ({ · with place })
      else world.heap timer := by
  induction batch generalizing world with
  | nil => simp
  | cons entry batch ih =>
      rw [List.foldl_cons, ih, List.map_cons]
      by_cases same : timer = entry.second
      · subst same
        -- Moving a timer twice to one place is moving it once.
        cases live : world.heap entry.second <;> simp [moveTo, modifyTimer, live]
      · have tail : timer ∈ entry.second :: batch.map (·.second) ↔ timer ∈ batch.map (·.second) := by
          simp [same]
        have untouched : (world.moveTo place entry.second).heap timer = world.heap timer :=
          Function.update_of_ne same _ _
        rw [if_congr tail rfl rfl, untouched]

private theorem foldl_moveTo_queues (place : TimerPlace) (batch : List TimerEntry)
    (world : TimerWorld Thread) :
    (batch.foldl (fun world entry => world.moveTo place entry.second) world).queues =
      world.queues := by
  induction batch generalizing world with
  | nil => rfl
  | cons entry batch ih => rw [List.foldl_cons, ih, moveTo_queues]

end Heap

variable [DecidableEq Thread] {world : TimerWorld Thread} {loop other : Thread}

@[simp] theorem modifyQueue_heap (change : TimerQueue → TimerQueue) :
    (world.modifyQueue loop change).heap = world.heap := rfl

@[simp] theorem modifyQueue_own (change : TimerQueue → TimerQueue) :
    (world.modifyQueue loop change).queues loop = change (world.queues loop) :=
  Function.update_self _ _ _

/-- The queues of other loops are not changed. -/
theorem modifyQueue_other (change : TimerQueue → TimerQueue) (different : other ≠ loop) :
    (world.modifyQueue loop change).queues other = world.queues other :=
  Function.update_of_ne different _ _

/-- The read callback begins a pass in the queue of its loop. -/
theorem readCallback_queues (world : TimerWorld Thread) (loop : Thread) (now readAt : TimePoint) :
    (world.readCallback loop now readAt).1.queues =
      (world.modifyQueue loop (·.beginPass now readAt)).queues :=
  foldl_moveTo_queues .due _ _

/-- The timer is marked as cancelled if it belongs to the loop. -/
def markCancelled (loop : Thread) (timer : TimerPtr) (world : TimerWorld Thread) :
    TimerWorld Thread :=
  world.modifyTimer timer fun object =>
    { object with cancelled := object.cancelled || object.loop = loop }

/-- The heap after a timer was cancelled. -/
theorem markCancelled_heap {timer : TimerPtr} {object : Timer Thread}
    (live : world.heap timer = some object) :
    (world.markCancelled loop timer).heap = Function.update world.heap timer
      (some { object with cancelled := object.cancelled || object.loop = loop }) :=
  modifyTimer_heap live

/-- The timer that `CancelTimer` takes out of the queue. -/
theorem erased_heap {timer : TimerPtr} {object : Timer Thread} (loop : Thread)
    (change : TimerQueue → TimerQueue) (live : world.heap timer = some object) :
    (((world.markCancelled loop timer).modifyQueue loop change).moveTo .released timer).heap =
      Function.update world.heap timer (some { object with
        cancelled := object.cancelled || object.loop = loop, place := .released }) := by
  have marked : ((world.markCancelled loop timer).modifyQueue loop change).heap timer =
      some { object with cancelled := object.cancelled || object.loop = loop } := by
    rw [modifyQueue_heap, markCancelled_heap live, Function.update_self]
  rw [moveTo_heap .released marked, modifyQueue_heap, markCancelled_heap live,
    Function.update_idem]

/-- The heap after a timer was restarted. -/
theorem restart_heap {timer : TimerPtr} {object : Timer Thread} (loop : Thread) (now : TimePoint)
    (live : world.heap timer = some object) :
    (world.restart loop now timer object).heap = Function.update world.heap timer
      (some { object.restart now with place := .timers }) := by
  have restarted : ((world.modifyTimer timer (·.restart now)).modifyQueue loop
      fun queue => (queue.insert (object.restart now).expiration timer).1).heap timer =
        some (object.restart now) := by
    rw [modifyQueue_heap, modifyTimer_heap live, Function.update_self]
  rw [restart, moveTo_heap .timers restarted, modifyQueue_heap, modifyTimer_heap live,
    Function.update_idem]

/-- A restarted timer is inserted into the queue of its loop. -/
theorem restart_own (now : TimePoint) (timer : TimerPtr) (object : Timer Thread) :
    (world.restart loop now timer object).queues loop =
      ((world.queues loop).insert (object.restart now).expiration timer).1 := by
  rw [restart, moveTo_queues, modifyQueue_own, modifyTimer_queues]

/-- A restart leaves the queues of other loops alone. -/
theorem restart_other (now : TimePoint) (timer : TimerPtr) (object : Timer Thread)
    (different : other ≠ loop) :
    (world.restart loop now timer object).queues other = world.queues other := by
  rw [restart, moveTo_queues, modifyQueue_other _ different, modifyTimer_queues]

@[simp] theorem rearm_heap (now : TimePoint) : (world.rearm loop now).heap = world.heap := by
  unfold rearm
  split <;> rfl

section Kept

variable {Value : Type} (field : TimerQueue → Value) {thread : Thread}

/-- What the change of one queue keeps there, it keeps in all. -/
theorem modifyQueue_kept {change : TimerQueue → TimerQueue}
    (kept : loop = thread → ∀ queue, field (change queue) = field queue) :
    field ((world.modifyQueue thread change).queues loop) = field (world.queues loop) := by
  by_cases same : loop = thread
  · subst same
    rw [modifyQueue_own, kept rfl]
  · rw [modifyQueue_other _ same]

private theorem restart_kept (kept : loop = thread → ∀ queue when_ timer,
      field (TimerQueue.insert when_ timer queue).1 = field queue)
    (now : TimePoint) (timer : TimerPtr) (object : Timer Thread) :
    field ((world.restart thread now timer object).queues loop) = field (world.queues loop) := by
  rw [restart, moveTo_queues, modifyQueue_kept field fun same queue => kept same queue _ _,
    modifyTimer_queues]

/-- The end of a pass for one timer keeps what an insertion keeps. -/
theorem updateExpired_kept (kept : loop = thread → ∀ queue when_ timer,
      field (TimerQueue.insert when_ timer queue).1 = field queue)
    (now : TimePoint) (entry : TimerEntry) :
    field ((world.updateExpired thread now entry).queues loop) = field (world.queues loop) := by
  unfold updateExpired
  split
  case h_1 => rfl
  case h_2 object live =>
    split_ifs
    · rfl
    · rfl
    · exact restart_kept field kept now _ object

/-- The end of a pass keeps what an insertion keeps. -/
theorem foldl_updateExpired_kept (kept : loop = thread → ∀ queue when_ timer,
      field (TimerQueue.insert when_ timer queue).1 = field queue)
    (now : TimePoint) (batch : List TimerEntry) :
    field ((batch.foldl (updateExpired thread now) world).queues loop) =
      field (world.queues loop) := by
  induction batch generalizing world with
  | nil => rfl
  | cons entry batch ih => rw [List.foldl_cons, ih, updateExpired_kept field kept]

/-- Arming the timerfd keeps what `set_timerfd` keeps. -/
theorem rearm_kept (kept : loop = thread → ∀ queue now exp,
      field (TimerQueue.setTimerfd now exp queue) = field queue) (now : TimePoint) :
    field ((world.rearm thread now).queues loop) = field (world.queues loop) := by
  unfold rearm
  split
  · exact modifyQueue_kept field fun same queue => kept same queue _ _
  · rfl

end Kept

/-- The effects of the tasks of the timers. -/
inductive Executes (thread : Thread) (choice : TimerChoice Thread) (world : TimerWorld Thread) :
    TimerTask → TimerWorld Thread → List (Call Thread TimerTask) → Prop where
  | leaves : Executes thread choice world .user world []
  | posts {call} (posted : ∃ loop, call = .runInLoop loop .user ∨ call = .queueInLoop loop .user ∨
      call = .stop loop) :
      Executes thread choice world .user world [call, .task .user]
  | adds {loop timer when_ interval} (notNull : timer ≠ 0) (free : world.heap timer = none) :
      Executes thread choice world .user
        (world.allocate timer { expiration := when_, interval, loop })
        [.runInLoop loop (.addTimer timer), .task (.addTimerReturns timer), .task .user]
  | cancels {loop timer object} (live : world.heap timer = some object)
      (returned : object.returned = true) :
      Executes thread choice world .user world
        [.runInLoop loop (.cancelTimer timer), .task .user]
  | inserts {timer object} (live : world.heap timer = some object) :
      Executes thread choice world (.addTimer timer)
        ((world.modifyQueue thread (·.addTimer choice.now object.expiration timer)).moveTo
          .timers timer) []
  | returns {timer} :
      Executes thread choice world (.addTimerReturns timer)
        (world.modifyTimer timer fun object => { object with returned := true }) []
  | expired {timer object} (live : world.heap timer = some object)
      (released : object.place = .released) :
      Executes thread choice world (.cancelTimer timer) (world.markCancelled thread timer) []
  | erases {timer object} (live : world.heap timer = some object)
      (found : .mk object.expiration timer ∈ (world.queues thread).timers) :
      Executes thread choice world (.cancelTimer timer)
        (((world.markCancelled thread timer).modifyQueue thread
          (·.cancelTimer object.expiration timer)).moveTo .released timer) []
  | misses {timer object} (live : world.heap timer = some object)
      (absent : .mk object.expiration timer ∉ (world.queues thread).timers) :
      Executes thread choice world (.cancelTimer timer)
        ((world.markCancelled thread timer).modifyQueue thread
          (·.cancelTimer object.expiration timer)) []
  | begins :
      Executes thread choice world .readCallback
        (world.readCallback thread choice.now choice.readAt).1
        [.task (.callExpired ((world.queues thread).expiryPass choice.now))]
  | fires {pass entry rest} (due : pass.rest = entry :: rest) :
      Executes thread choice world (.callExpired pass)
        ((world.modifyQueue thread (·.fire ⟨pass.number, pass.now, entry⟩)).moveTo .ran entry.second)
        [.task .user, .task (.callExpired (pass.next entry rest))]
  | finishes {pass} (done : pass.rest = []) :
      Executes thread choice world (.callExpired pass)
        (world.finishPass thread choice.now pass) []

variable {thread : Thread} {choice : TimerChoice Thread} {next : TimerWorld Thread}
  {calls : List (Call Thread TimerTask)}

/-- An action of user code is an executed task. -/
theorem act_executes (acted : world.act choice.action = some (next, calls)) :
    Executes thread choice world .user next calls := by
  unfold act at acted
  split at acted
  case h_1 => cases acted; exact .leaves
  case h_4 loop _ => cases acted; exact .posts ⟨loop, .inl rfl⟩
  case h_5 loop _ => cases acted; exact .posts ⟨loop, .inr (.inl rfl)⟩
  case h_6 loop _ => cases acted; exact .posts ⟨loop, .inr (.inr rfl)⟩
  case h_2 loop timer when_ interval _ =>
    split at acted
    case isTrue allowed =>
      cases acted
      exact .adds allowed.1 allowed.2
    case isFalse => cases acted
  case h_3 loop timer _ =>
    split at acted
    case isTrue allowed =>
      cases acted
      obtain ⟨object, live, returned⟩ := (Option.any_eq_true _ _).mp allowed
      exact .cancels live returned
    case isFalse => cases acted

private theorem cancelTimer_executes {timer : TimerPtr}
    (cancelled : world.cancelTimer thread choice.locked timer = some next) :
    Executes thread choice world (.cancelTimer timer) next [] := by
  obtain ⟨object, live, result⟩ := Option.map_eq_some_iff.mp cancelled
  subst result
  dsimp only
  split
  case isTrue =>
    split
    case isTrue found => exact .erases live found
    case isFalse absent => exact .misses live absent
  case isFalse unlocked =>
    refine .expired live ?_
    simp only [lock, Bool.or_eq_true, decide_eq_true_eq, not_or, not_not] at unlocked
    exact unlocked.1

/-- `exec` has one of the effects. -/
theorem exec_executes {task : TimerTask}
    (executed : world.exec thread task choice = some (next, calls)) :
    Executes thread choice world task next calls := by
  cases task with
  | user => exact act_executes executed
  | addTimer timer =>
      obtain ⟨added, inserted, result⟩ := Option.map_eq_some_iff.mp executed
      cases result
      obtain ⟨object, live, result⟩ := Option.map_eq_some_iff.mp inserted
      subst result
      exact .inserts live
  | addTimerReturns timer =>
      cases executed
      exact .returns
  | cancelTimer timer =>
      obtain ⟨_, cancelled, result⟩ := Option.map_eq_some_iff.mp executed
      cases result
      exact cancelTimer_executes cancelled
  | readCallback =>
      cases executed
      exact .begins
  | callExpired pass =>
      simp only [exec, callExpired, Option.some.injEq] at executed
      split at executed
      case h_1 done =>
        cases executed
        exact .finishes done
      case h_2 entry rest due =>
        cases executed
        exact .fires due

/-- No task of the timers has to be treated as urgent. -/
theorem client_prompt :
    (client : Client (TimerWorld Thread) Thread TimerTask (TimerChoice Thread)).Prompt
      fun _ => False where
  user := id
  poll _ _ _ := id
  exec {_ _ _ _ _ calls} _ := by
    refine .of_plain fun call _ => ?_
    cases call <;> simp [Call.Plain]

/-- `Poll` and the machine bring in user code and the read callback only. -/
theorem arrives_task {arrived : Multiset (Located Thread TimerTask)}
    (brought : client.Arrives world arrived) {located : Located Thread TimerTask}
    (member : located ∈ arrived) : located.2 = .user ∨ located.2 = .readCallback := by
  cases brought with
  | none => simp at member
  | user =>
      rw [Multiset.mem_singleton] at member
      exact .inl (congrArg Prod.snd member)
  | @polled thread choice active returned =>
      simp only [client, Option.ite_none_right_eq_some, Option.some.injEq,
        List.all_eq_true] at returned
      obtain ⟨allowed, rfl⟩ := returned
      obtain ⟨handler, inActives, rfl⟩ := Active.mem_flights.mp member
      have isPollable := allowed _ inActives
      cases handler <;> simp_all [pollable]

/-- A loop is passed user code and the functors of `AddTimer` and `CancelTimer`;
the channels are the timerfd's and the user's. -/
theorem client_carries :
    (client : Client (TimerWorld Thread) Thread TimerTask (TimerChoice Thread)).Carries
      (fun task => task ≠ .readCallback ∧ ∀ pass, task ≠ .callExpired pass)
      (fun task => task = .user ∨ task = .readCallback) where
  exec {thread body choice world next calls} executed := by
    intro call member
    cases exec_executes executed with
    | posts posted =>
        obtain ⟨loop, rfl | rfl | rfl⟩ := posted <;>
          simp only [List.mem_cons, List.not_mem_nil, or_false] at member <;>
          rcases member with rfl | rfl <;> simp [Call.Posts]
    | adds | cancels | begins | fires =>
        simp only [List.mem_cons, List.not_mem_nil, or_false] at member
        rcases member with rfl | rfl | rfl <;> simp [Call.Posts]
    | leaves | inserts | returns | expired | erases | misses | finishes => cases member
  poll {thread choice world active} returned := by
    intro handler member
    have brought : client.Arrives world (Active.flights thread active) := .polled returned
    exact arrives_task brought (Active.mem_flights.mpr ⟨handler, member, rfl⟩)

/-- Nothing calls the read callback of the timerfd but the loop. -/
theorem client_roots :
    (client : Client (TimerWorld Thread) Thread TimerTask (TimerChoice Thread)).Roots
      (· = .readCallback) where
  exec {thread body choice world next calls} executed := by
    intro call member
    cases exec_executes executed with
    | posts posted =>
        obtain ⟨loop, rfl | rfl | rfl⟩ := posted <;>
          simp only [List.mem_cons, List.not_mem_nil, or_false] at member <;>
          rcases member with rfl | rfl <;> simp [Call.Plain]
    | adds | cancels | begins | fires =>
        simp only [List.mem_cons, List.not_mem_nil, or_false] at member
        rcases member with rfl | rfl | rfl <;> simp [Call.Plain]
    | leaves | inserts | returns | expired | erases | misses | finishes => cases member

end TimerWorld

end Benet
