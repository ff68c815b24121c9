import Benet.Timer.Moves

/-!
# The expiry passes of a loop

A loop is in at most one pass and knows it, and what it takes down of the callbacks it
has run agrees with the pass: the batch of a pass is sorted and due, its timers keep
their expirations, and the callbacks of the pass that were run are those of the entries
behind it.
-/

namespace Benet

open EventLoop Semantics

/-- The task is the rest of an expiry pass. -/
def TimerTask.passes : TimerTask → Multiset Unit
  | .callExpired _ => {()}
  | .user | .addTimer _ | .addTimerReturns _ | .cancelTimer _ | .readCallback => 0

/-- Running a callback leaves the batch of the pass as it is. -/
theorem ExpiryPass.expired_next {pass : ExpiryPass} {entry : TimerEntry} {rest : List TimerEntry}
    (due : pass.rest = entry :: rest) : (pass.next entry rest).expired = pass.expired := by
  simp [ExpiryPass.expired, ExpiryPass.next, due]

namespace TimerWorld

variable {Thread : Type}

/-- `calling_expired_timers_` of the loop. -/
def Calling (world : TimerWorld Thread) (fact : Thread × Unit) : Prop :=
  (world.queues fact.1).callingExpiredTimers = true

section Calling

variable {world next : TimerWorld Thread} {thread loop : Thread} {task : TimerTask}
  {choice : TimerChoice Thread} {calls : List (Call Thread TimerTask)} {pass other : ExpiryPass}
  {flight rest : Multiset (Located Thread TimerTask)}

private theorem pass_mem_marks :
    (loop, ()) ∈ marks TimerTask.passes flight ↔ ∃ pass, (loop, .callExpired pass) ∈ flight := by
  rw [mem_marks]
  constructor
  · rintro ⟨task, member, isPass⟩
    cases task with
    | callExpired pass => exact ⟨pass, member⟩
    | user | addTimer | addTimerReturns | cancelTimer | readCallback =>
        simp [TimerTask.passes] at isPass
  · rintro ⟨pass, member⟩
    exact ⟨_, member, by simp [TimerTask.passes]⟩

/-- `calling_expired_timers_` is set exactly while a pass is in flight. -/
theorem calling_iff (calling : Marking world.Calling (marks TimerTask.passes flight)) :
    (world.queues loop).callingExpiredTimers = true ↔ ∃ pass, (loop, .callExpired pass) ∈ flight := by
  rw [← pass_mem_marks, calling.mem]
  rfl

private theorem calling_rest
    (calling : Marking world.Calling (marks TimerTask.passes ({(thread, task)} + rest))) :
    Marking world.Calling (task.passes.map (thread, ·) + marks TimerTask.passes rest) := by
  rwa [marks_add, marks_singleton] at calling

/-- A loop is in no other pass than the one it executes. -/
theorem pass_alone
    (calling : Marking world.Calling (marks TimerTask.passes ({(thread, .callExpired pass)} + rest)))
    (other : ExpiryPass) : (thread, .callExpired other) ∉ rest := by
  have own : (thread, ()) ∈ (TimerTask.callExpired pass).passes.map (thread, ·) := by
    simp [TimerTask.passes]
  intro member
  exact (calling_rest calling).not_mem_rest own (pass_mem_marks.mpr ⟨other, member⟩)

/-- A loop is in one pass at most. -/
theorem pass_unique (calling : Marking world.Calling (marks TimerTask.passes flight))
    (first : (loop, .callExpired pass) ∈ flight) (second : (loop, .callExpired other) ∈ flight) :
    other = pass := by
  obtain ⟨rest, rfl⟩ := Multiset.exists_cons_of_mem first
  rw [← Multiset.singleton_add] at calling
  rcases Multiset.mem_cons.mp second with same | member
  · cases same
    rfl
  · exact absurd member (pass_alone calling other)

/-- A step that neither begins nor ends a pass. -/
theorem calling_plain
    (calling : Marking world.Calling (marks TimerTask.passes ({(thread, task)} + rest)))
    (same : marks TimerTask.passes (Call.flights thread calls) = task.passes.map (thread, ·))
    (kept : ∀ loop, (next.queues loop).callingExpiredTimers =
      (world.queues loop).callingExpiredTimers) :
    Marking next.Calling (marks TimerTask.passes (Call.flights thread calls + rest)) := by
  rw [marks_add, same]
  exact (calling_rest calling).keep fun fact => by rw [Calling, Calling, kept]

variable [DecidableEq Thread]

/-- The read callback begins the only pass of its loop. -/
theorem calling_begins
    (calling : Marking world.Calling (marks TimerTask.passes ({(thread, .readCallback)} + rest)))
    (alone : ∀ pass, (thread, .callExpired pass) ∉ rest) (now readAt : TimePoint) :
    Marking (world.readCallback thread now readAt).1.Calling (marks TimerTask.passes
      (Call.flights thread [.task (.callExpired ((world.queues thread).expiryPass now))] + rest)) := by
  have others := calling_rest calling
  rw [TimerTask.passes, Multiset.map_zero, zero_add] at others
  have called : marks TimerTask.passes (Call.flights thread
      [.task (.callExpired ((world.queues thread).expiryPass now))]) = {(thread, ())} := by
    simp [Call.flight, TimerTask.passes]
  rw [marks_add, called]
  refine others.acquire (Multiset.nodup_singleton _) ?_ ?_
  · intro fact new held
    rw [Multiset.mem_singleton.mp new] at held
    obtain ⟨pass, member⟩ := (calling_iff others).mp held
    exact alone pass member
  · rintro ⟨loop, ⟨⟩⟩
    rw [Multiset.mem_singleton, Prod.mk.injEq, Calling, readCallback_queues, Calling]
    by_cases same : loop = thread
    · subst same
      simp [TimerQueue.beginPass]
    · simp [same, modifyQueue_other]

/-- The end of a pass clears `calling_expired_timers_`. -/
theorem calling_finishes
    (calling : Marking world.Calling (marks TimerTask.passes ({(thread, .callExpired pass)} + rest)))
    (now : TimePoint) :
    Marking (world.finishPass thread now pass).Calling
      (marks TimerTask.passes (Call.flights thread [] + rest)) := by
  rw [Call.flights_nil, zero_add]
  refine (calling_rest calling).release ?_
  rintro ⟨loop, ⟨⟩⟩
  rw [Calling, finishPass, rearm_kept TimerQueue.callingExpiredTimers fun _ _ _ _ => rfl,
    foldl_updateExpired_kept TimerQueue.callingExpiredTimers (by simp), Calling]
  by_cases same : loop = thread
  · subst same
    simp [TimerQueue.stopCalling, TimerTask.passes]
  · simp [same, modifyQueue_other, TimerTask.passes]

/-- Every step keeps a loop in at most one pass. -/
theorem Executes.calling (executes : Executes thread choice world task next calls)
    (alone : task = .readCallback → ∀ pass, (thread, .callExpired pass) ∉ rest)
    (calling : Marking world.Calling (marks TimerTask.passes ({(thread, task)} + rest))) :
    Marking next.Calling (marks TimerTask.passes (Call.flights thread calls + rest)) := by
  cases executes with
  | leaves | returns | expired => exact calling_plain calling rfl fun _ => rfl
  | posts posted =>
      refine calling_plain calling ?_ fun _ => rfl
      obtain ⟨loop, rfl | rfl | rfl⟩ := posted <;> simp [Call.flight, TimerTask.passes]
  | adds | cancels =>
      exact calling_plain calling (by simp [Call.flight, TimerTask.passes]) fun _ => rfl
  | inserts | erases | misses =>
      exact calling_plain calling rfl fun _ =>
        modifyQueue_kept TimerQueue.callingExpiredTimers (by simp)
  | begins => exact calling_begins calling (alone rfl) choice.now choice.readAt
  | fires =>
      exact calling_plain calling (by simp [Call.flight, TimerTask.passes]) fun _ =>
        modifyQueue_kept TimerQueue.callingExpiredTimers fun _ _ => rfl
  | finishes => exact calling_finishes calling choice.now

omit [DecidableEq Thread] in
/-- A timer of a batch is held by a pass of its loop. -/
theorem Consistent.pass_of_batched {timer : TimerPtr} {object : Timer Thread}
    (consistent : Consistent world flight) (live : world.heap timer = some object)
    (batched : object.place = .due ∨ object.place = .ran) :
    ∃ pass, (object.loop, .callExpired pass) ∈ flight := by
  have marked : (object.loop, .batched timer) ∈ marks TimerTask.marks flight :=
    (consistent.marking.mem _).mpr ⟨object, live, rfl, batched⟩
  obtain ⟨task, member, carried⟩ := (mem_marks _).mp marked
  cases task with
  | callExpired pass => exact ⟨pass, member⟩
  | user | addTimer | addTimerReturns | cancelTimer | readCallback =>
      simp [TimerTask.marks] at carried

end Calling

section Record

variable {world next : TimerWorld Thread} {thread loop : Thread} {task : TimerTask}
  {choice : TimerChoice Thread} {calls : List (Call Thread TimerTask)} {pass : ExpiryPass}
  {flight rest : Multiset (Located Thread TimerTask)}

/-- A running pass of a loop, and what the loop has taken down of it. -/
structure PassRecord (world : TimerWorld Thread) (loop : Thread) (pass : ExpiryPass) : Prop where
  current : pass.number + 1 = (world.queues loop).passes
  sorted : pass.expired.Pairwise (· < ·)
  early : ∀ entry ∈ pass.expired, entry.first < pass.now
  /-- the timers of the batch have the expirations under which they were queued -/
  keyed : ∀ entry ∈ pass.expired, ∃ object, world.heap entry.second = some object ∧
    object.loop = loop ∧ object.expiration = entry.first
  recorded : ∀ firing ∈ (world.queues loop).firings, firing.pass = pass.number →
    firing.entry ∈ pass.ran
  fired : ∀ entry ∈ pass.ran, ⟨pass.number, pass.now, entry⟩ ∈ (world.queues loop).firings

/-- The callbacks that were run are of passes that have begun, and the running passes are
taken down. -/
structure Recorded (world : TimerWorld Thread) (flight : Multiset (Located Thread TimerTask)) :
    Prop where
  begun : ∀ loop, ∀ firing ∈ (world.queues loop).firings, firing.pass < (world.queues loop).passes
  passes : ∀ loop pass, (loop, .callExpired pass) ∈ flight → world.PassRecord loop pass

variable [DecidableEq Thread]

/-- A step calls a new pass or goes on with the one it executes. -/
theorem Executes.called_pass (executes : Executes thread choice world task next calls)
    (called : (loop, .callExpired pass) ∈ Call.flights thread calls) :
    loop = thread ∧ ((task = .readCallback ∧ pass = (world.queues thread).expiryPass choice.now) ∨
      ∃ before entry later, task = .callExpired before ∧ before.rest = entry :: later ∧
        pass = before.next entry later) := by
  cases executes with
  | leaves | inserts | returns | expired | erases | misses | finishes => simp at called
  | posts posted => obtain ⟨loop, rfl | rfl | rfl⟩ := posted <;> simp [Call.flight] at called
  | adds | cancels => simp [Call.flight] at called
  | begins =>
      simp only [Call.flights_cons, Call.flight, Call.flights_nil, add_zero,
        Multiset.mem_singleton, Prod.mk.injEq, TimerTask.callExpired.injEq] at called
      exact ⟨called.1, .inl ⟨rfl, called.2⟩⟩
  | @fires before entry later due =>
      have isNext : loop = thread ∧ pass = before.next entry later := by
        simpa [Call.flight] using called
      exact ⟨isNext.1, .inr ⟨before, entry, later, rfl, due, isNext.2⟩⟩

/-- A pass is not concerned when its loop executes something else. -/
theorem PassRecord.beside (record : world.PassRecord loop pass)
    (consistent : Consistent world ({(thread, task)} + rest))
    (executes : Executes thread choice world task next calls)
    (other : loop = thread → task ≠ .readCallback ∧ ∀ executed, task ≠ .callExpired executed) :
    next.PassRecord loop pass := by
  have passes : (next.queues loop).passes = (world.queues loop).passes := by
    rw [executes.passes_eq, if_neg fun begins => (other begins.1).1 begins.2, add_zero]
  have firings : (next.queues loop).firings = (world.queues loop).firings := by
    rw [executes.firings_append]
    split_ifs with own
    · have none : task.firings = [] := List.eq_nil_iff_forall_not_mem.mpr fun firing member => by
        obtain ⟨executed, -, -, isPass, -⟩ := TimerTask.mem_firings.mp member
        exact (other own).2 executed isPass
      rw [none, List.append_nil]
    · rw [List.append_nil]
  refine ⟨passes ▸ record.current, record.sorted, record.early, fun entry member => ?_,
    firings ▸ record.recorded, firings ▸ record.fired⟩
  obtain ⟨object, live, own, expires⟩ := record.keyed entry member
  have moves := executes.moves consistent entry.second
  rw [live] at moves
  obtain ⟨object', after, sameLoop, same⟩ := moves.keyed fun executed isPass _ ofThread =>
    (other (own.symm.trans ofThread)).2 executed isPass
  exact ⟨object', after, sameLoop.trans own, same.trans expires⟩

/-- The pass that the read callback begins. -/
theorem PassRecord.begins (consistent : Consistent world ({(thread, .readCallback)} + rest))
    (recorded : Recorded world ({(thread, .readCallback)} + rest))
    (executes : Executes thread choice world .readCallback next calls) :
    next.PassRecord thread ((world.queues thread).expiryPass choice.now) where
  current := by
    rw [executes.passes_eq, if_pos ⟨rfl, rfl⟩]
    rfl
  sorted := (world.queues thread).timers.sorted_before
  early entry member := (TimerQueue.mem_expired.mp member).2
  keyed entry member := by
    obtain ⟨object, live, own, -, expires⟩ :=
      (consistent.entries thread entry).mp (TimerQueue.mem_expired.mp member).1
    have moves := executes.moves consistent entry.second
    rw [live] at moves
    obtain ⟨object', after, sameLoop, same⟩ := moves.keyed (by simp)
    exact ⟨object', after, sameLoop.trans own, same.trans expires⟩
  recorded firing member same := by
    -- No callback has the number of a pass that begins now.
    rw [executes.firings_append, if_pos rfl, TimerTask.firings, List.append_nil] at member
    exact absurd same (recorded.begun thread firing member).ne
  fired entry member := by cases member

/-- The pass after it has run one more callback. -/
theorem PassRecord.fires {entry : TimerEntry} {later : List TimerEntry}
    (record : world.PassRecord thread pass)
    (consistent : Consistent world ({(thread, .callExpired pass)} + rest))
    (executes : Executes thread choice world (.callExpired pass) next calls)
    (due : pass.rest = entry :: later) : next.PassRecord thread (pass.next entry later) := by
  have firings : (next.queues thread).firings =
      (world.queues thread).firings ++ [⟨pass.number, pass.now, entry⟩] := by
    rw [executes.firings_append, if_pos rfl, TimerTask.firings, due]
    rfl
  have batch := ExpiryPass.expired_next due
  refine ⟨?_, batch ▸ record.sorted, batch ▸ record.early, batch ▸ fun other member => ?_, ?_, ?_⟩
  · rw [executes.passes_eq, if_neg (by simp)]
    exact record.current
  · obtain ⟨object, live, own, expires⟩ := record.keyed other member
    have moves := executes.moves consistent other.second
    rw [live] at moves
    obtain ⟨object', after, sameLoop, same⟩ := moves.keyed fun executed isPass done => by
      cases isPass
      simp [due] at done
    exact ⟨object', after, sameLoop.trans own, same.trans expires⟩
  · intro firing member same
    rw [firings] at member
    rcases List.mem_append.mp member with before | new
    · exact List.mem_append_left _ (record.recorded firing before same)
    · rw [List.mem_singleton.mp new]
      exact List.mem_append_right _ List.mem_cons_self
  · intro other member
    rw [firings]
    rcases List.mem_append.mp member with before | new
    · exact List.mem_append_left _ (record.fired other before)
    · rw [List.mem_singleton.mp new]
      exact List.mem_append_right _ List.mem_cons_self

/-- The timers are in their places, a loop is in at most one pass, and the passes are taken
down. -/
structure Orderly (world : TimerWorld Thread) (flight : Multiset (Located Thread TimerTask)) :
    Prop where
  consistent : Consistent world flight
  calling : Marking world.Calling (marks TimerTask.passes flight)
  recorded : Recorded world flight

omit [DecidableEq Thread] in
/-- While a timer is in a batch, its loop does not begin a pass. -/
theorem Orderly.not_begins {timer : TimerPtr} {object : Timer Thread}
    (orderly : Orderly world ({(thread, task)} + rest))
    (alone : task = .readCallback → ∀ pass, (thread, .callExpired pass) ∉ rest)
    (live : world.heap timer = some object) (batched : object.place = .due ∨ object.place = .ran) :
    object.loop = thread → task ≠ .readCallback := by
  rintro rfl rfl
  obtain ⟨pass, running⟩ := orderly.consistent.pass_of_batched live batched
  rcases Multiset.mem_add.mp running with same | elsewhere
  · cases Multiset.mem_singleton.mp same
  · exact alone rfl pass elsewhere

omit [DecidableEq Thread] in
/-- The timer of the next callback is due. -/
theorem Orderly.next_due {pass : ExpiryPass} {entry : TimerEntry} {later : List TimerEntry}
    (orderly : Orderly world ({(thread, .callExpired pass)} + rest))
    (due : pass.rest = entry :: later) :
    ∃ object, world.heap entry.second = some object ∧ object.loop = thread ∧
      object.place = .due ∧ object.expiration = entry.first ∧ entry.first < pass.now := by
  have waiting : TimerMark.waiting entry.second ∈ (TimerTask.callExpired pass).marks := by
    simp [TimerTask.marks, due]
  obtain ⟨object, live, own, place⟩ := orderly.consistent.marked _ waiting
  have record := orderly.recorded.passes thread pass (mem_first _ _)
  have inBatch : entry ∈ pass.expired := by simp [ExpiryPass.expired, due]
  obtain ⟨object', live', -, expires⟩ := record.keyed entry inBatch
  cases live.symm.trans live'
  exact ⟨object, live, own, place, expires, record.early entry inBatch⟩

/-- Every step keeps the record. -/
theorem Executes.recorded (executes : Executes thread choice world task next calls)
    (orderly : Orderly world ({(thread, task)} + rest))
    (alone : task = .readCallback → ∀ pass, (thread, .callExpired pass) ∉ rest) :
    Recorded next (Call.flights thread calls + rest) := by
  obtain ⟨consistent, calling, recorded⟩ := orderly
  refine ⟨fun loop firing member => ?_, fun loop pass member => ?_⟩
  · rw [executes.passes_eq]
    refine Nat.lt_add_right _ ?_
    rw [executes.firings_append] at member
    rcases List.mem_append.mp member with before | new
    · exact recorded.begun loop firing before
    split_ifs at new with own
    · obtain ⟨pass, -, -, rfl, -, rfl⟩ := TimerTask.mem_firings.mp new
      subst own
      exact Nat.lt_of_succ_le (recorded.passes loop pass (mem_first _ _)).current.le
    · cases new
  · rcases Multiset.mem_add.mp member with called | waiting
    · obtain ⟨rfl, ⟨rfl, rfl⟩ | ⟨before, entry, later, rfl, due, rfl⟩⟩ := executes.called_pass called
      · exact .begins consistent recorded executes
      · exact (recorded.passes loop before (mem_first _ _)).fires consistent executes due
    · refine (recorded.passes loop pass (Multiset.mem_add.mpr (.inr waiting))).beside consistent
        executes ?_
      rintro rfl
      refine ⟨fun begins => alone begins pass waiting, ?_⟩
      rintro executed rfl
      exact pass_alone calling pass waiting

/-- An executed task keeps the passes in order. -/
theorem Orderly.executes (orderly : Orderly world ({(thread, task)} + rest))
    (alone : task = .readCallback → ∀ pass, (thread, .callExpired pass) ∉ rest)
    (executes : Executes thread choice world task next calls) :
    Orderly next (Call.flights thread calls + rest) where
  consistent := orderly.consistent.executes executes
  calling := executes.calling alone orderly.calling
  recorded := executes.recorded orderly alone

/-- No pass arrives from outside. -/
theorem arrives_no_pass {arrived : Multiset (Located Thread TimerTask)}
    (brought : client.Arrives world arrived) : (loop, .callExpired pass) ∉ arrived := by
  intro member
  rcases arrives_task brought member with user | readCallback
  · cases user
  · cases readCallback

/-- What arrives from outside keeps the passes in order. -/
theorem Orderly.arrives {arrived : Multiset (Located Thread TimerTask)}
    (orderly : Orderly world flight) (brought : client.Arrives world arrived) :
    Orderly world (arrived + flight) := by
  refine ⟨orderly.consistent.arrives brought, ?_, orderly.recorded.begun, fun loop pass member => ?_⟩
  · have none : marks TimerTask.passes arrived = 0 :=
      Multiset.eq_zero_of_forall_notMem fun ⟨loop, ⟨⟩⟩ member => by
        obtain ⟨pass, running⟩ := pass_mem_marks.mp member
        exact arrives_no_pass brought running
    rw [marks_add, none, zero_add]
    exact orderly.calling
  · rcases Multiset.mem_add.mp member with new | before
    · exact absurd new (arrives_no_pass brought)
    · exact orderly.recorded.passes loop pass before

end Record

section Runs

variable [DecidableEq Thread] [Fintype Thread]
  {machine next : Machine (TimerWorld Thread) Thread TimerTask}
  {label : Label Thread (TimerChoice Thread)}

/-- The rest of a pass is on the stack of its loop. -/
theorem pass_on_stack
    {guard : Machine (TimerWorld Thread) Thread TimerTask → Label Thread (TimerChoice Thread) → Prop}
    (reachable : system.Reachable guard machine) {loop : Thread} {pass : ExpiryPass}
    (member : (loop, .callExpired pass) ∈ machine.flight) :
    .task (.callExpired pass) ∈ machine.calls loop :=
  (Machine.reachable_carries client_carries reachable).on_stack (fun posted => posted.2 pass rfl)
    (by simp) member

/-- A pass in flight is on the stack of its loop's thread. -/
theorem pass_mem_calls
    {guard : Machine (TimerWorld Thread) Thread TimerTask → Label Thread (TimerChoice Thread) → Prop}
    (reachable : system.Reachable guard machine) {loop : Thread} {pass : ExpiryPass} :
    .task (.callExpired pass) ∈ machine.calls loop ↔ (loop, .callExpired pass) ∈ machine.flight :=
  ⟨Machine.task_mem_flight, pass_on_stack reachable⟩

/-- The read callback begins on an empty stack, so no pass of its loop is running. -/
theorem readCallback_alone
    {guard : Machine (TimerWorld Thread) Thread TimerTask → Label Thread (TimerChoice Thread) → Prop}
    (reachable : system.Reachable guard machine) {thread : Thread}
    {stack : List (Call Thread TimerTask)}
    (top : machine.calls thread = .task .readCallback :: stack) (pass : ExpiryPass) :
    (thread, .callExpired pass) ∉ machine.flight := by
  intro member
  have onStack := pass_on_stack reachable member
  have alone := Machine.root_alone client_roots reachable rfl
    (show .task .readCallback ∈ machine.calls thread by rw [top]; exact List.mem_cons_self)
  rw [alone] at onStack
  simp at onStack

/-- One step of a run: a task is executed in an orderly state, or the timers stay as they are
and user code or the read callback arrives. -/
inductive RunStep (machine : Machine (TimerWorld Thread) Thread TimerTask)
    (label : Label Thread (TimerChoice Thread))
    (next : Machine (TimerWorld Thread) Thread TimerTask) : Prop where
  | executes {task choice calls rest} (executing : machine.executing label = some (task, choice))
      (before : machine.flight = {(label.thread, task)} + rest)
      (orderly : Orderly machine.client ({(label.thread, task)} + rest))
      (alone : task = .readCallback → ∀ pass, (label.thread, .callExpired pass) ∉ rest)
      (executes : Executes label.thread choice machine.client task next.client calls)
      (after : next.flight = Call.flights label.thread calls + rest)
  | arrives {arrived} (same : next.client = machine.client)
      (brought : client.Arrives machine.client arrived) (after : next.flight = arrived + machine.flight)

/-- A step of a run, in the cases that the invariants distinguish. -/
theorem Orderly.runStep
    {guard : Machine (TimerWorld Thread) Thread TimerTask → Label Thread (TimerChoice Thread) → Prop}
    (orderly : Orderly machine.client machine.flight) (reachable : system.Reachable guard machine)
    (stepped : system.step machine label = some next) : RunStep machine label next := by
  cases (Machine.step_transition stepped).flightStep with
  | @executes thread choice body stack calls _ outside top executed after =>
      have before := Machine.flight_top top
      refine .executes (by simp [Machine.executing, outside, top]) before (before ▸ orderly) ?_
        (exec_executes executed) after
      rintro rfl pass member
      refine readCallback_alone reachable top pass ?_
      rw [before]
      exact Multiset.mem_add.mpr (.inr member)
  | arrives same brought after => exact .arrives same brought after

/-- The passes are in order in every run. -/
theorem reachable_orderly
    {guard : Machine (TimerWorld Thread) Thread TimerTask → Label Thread (TimerChoice Thread) → Prop}
    (reachable : system.Reachable guard machine) : Orderly machine.client machine.flight := by
  refine reachable.invariant (fun machine => Orderly machine.client machine.flight) ?_ ?_
  · rintro _ ⟨_, rfl, rfl⟩
    rw [Machine.flight_initial]
    exact ⟨consistent_initial, ⟨Multiset.nodup_zero, by simp [Calling]⟩, by simp, by simp⟩
  · intro machine label next reached orderly _ stepped
    cases orderly.runStep reached stepped with
    | executes _ _ orderly alone executes after => exact after ▸ orderly.executes alone executes
    | arrives same brought after =>
        rw [same, after]
        exact orderly.arrives brought

/-- A step of a run that executes a given task. -/
theorem reachable_executing
    {guard : Machine (TimerWorld Thread) Thread TimerTask → Label Thread (TimerChoice Thread) → Prop}
    (reachable : system.Reachable guard machine) {task : TimerTask} {choice : TimerChoice Thread}
    (executing : machine.executing label = some (task, choice))
    (stepped : machine.step client label = some next) :
    ∃ calls rest, Executes label.thread choice machine.client task next.client calls ∧
      Orderly machine.client ({(label.thread, task)} + rest) ∧
      machine.flight = {(label.thread, task)} + rest ∧
      next.flight = Call.flights label.thread calls + rest := by
  obtain ⟨calls, rest, executed, before, after⟩ := Machine.executing_flight executing stepped
  exact ⟨calls, rest, exec_executes executed, before ▸ reachable_orderly reachable, before, after⟩

/-- Every step of a run is of this kind. -/
theorem reachable_runStep
    {guard : Machine (TimerWorld Thread) Thread TimerTask → Label Thread (TimerChoice Thread) → Prop}
    (reachable : system.Reachable guard machine)
    (stepped : system.step machine label = some next) : RunStep machine label next :=
  (reachable_orderly reachable).runStep reachable stepped

end Runs

end TimerWorld

end Benet
