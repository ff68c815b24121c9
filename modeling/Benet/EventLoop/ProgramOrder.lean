import Benet.EventLoop.FunctorQueue
import Benet.EventLoop.Stacks
import Benet.Semantics.Observation

/-!
# `RunInLoop` keeps the program order of every thread

A function that has to run in a loop's thread is called there at once or passed to
`RunInLoop`. For a class of such functions an observer keeps account of who has issued which
of them to which loop and of what was executed. Direct calls overtake the queue, but never a
function that was issued by the same thread: for every thread and every loop, what has been
executed is a prefix of what was issued (`Machine.Accounted.executed_prefix`).
-/

namespace Benet.EventLoop

open Semantics

variable {State Thread Task Choice : Type}

/-- A task that a thread has issued to a loop. -/
structure Issue (Thread Task : Type) where
  issuer : Thread
  loop : Thread
  task : Task
deriving DecidableEq, Repr

/-- The account of an observer. `origin` is the issuer of the task on top of a thread's
stack: the poster of a functor that comes from the queue, and else the thread itself. -/
structure Account (Thread Task : Type) where
  issued : List (Issue Thread Task) := []
  executed : List (Issue Thread Task) := []
  origin : Thread → Thread := id

/-- The task of the class that a call issues. -/
def Call.issue (Ordered : Task → Bool) (thread : Thread) : Call Thread Task → Option (Issue Thread Task)
  | .task body => if Ordered body then some ⟨thread, thread, body⟩ else none
  | .runInLoop loop functor => if Ordered functor then some ⟨thread, loop, functor⟩ else none
  | .queueInLoop _ _ | .stop _ => none

/-- Only the first call may issue a task of the class, and not through `QueueInLoop`. -/
def Call.Issues (Ordered : Task → Bool) : List (Call Thread Task) → Prop
  | [] => True
  | first :: rest =>
      (∀ loop functor, first = .queueInLoop loop functor → Ordered functor = false) ∧
        ∀ call ∈ rest, call.Plain (Ordered · = true)

/-- The client treats the tasks of the class in this way. -/
structure Client.Issues (client : Client State Thread Task Choice) (Ordered : Task → Bool) :
    Prop where
  user : Ordered client.user = false
  poll : ∀ {thread choice state active}, client.poll thread choice state = some active →
    ∀ handler, .channel handler ∈ active → Ordered handler = false
  exec : ∀ {thread body choice state next calls},
    client.exec thread body choice state = some (next, calls) → Call.Issues Ordered calls

/-- The task of the class on top of a stack. -/
def Call.top (Ordered : Task → Bool) (origin thread : Thread) :
    List (Call Thread Task) → List (Issue Thread Task)
  | .task body :: _ => if Ordered body then [⟨origin, thread, body⟩] else []
  | .runInLoop loop functor :: _ => if Ordered functor then [⟨thread, loop, functor⟩] else []
  | _ => []

section Stacks

variable {Ordered : Task → Bool} {origin thread : Thread} {calls rest : List (Call Thread Task)}

/-- Calls without ordered tasks have no issue on top. -/
theorem Call.top_plain (plain : ∀ call ∈ calls, call.Plain (Ordered · = true)) :
    Call.top Ordered origin thread calls = [] := by
  cases calls with
  | nil => rfl
  | cons first below =>
      have first := (List.forall_mem_cons.mp plain).1
      cases first' : ‹Call Thread Task› <;> simp_all [Call.top, Call.Plain]

/-- A call without ordered tasks issues nothing. -/
theorem Call.issue_plain {call : Call Thread Task} (plain : call.Plain (Ordered · = true)) :
    call.issue Ordered thread = none := by
  cases call <;> simp_all [Call.issue, Call.Plain]

/-- What a task issues is then on top of the stack. -/
theorem Call.Issues.top (issues : Call.Issues Ordered calls)
    (plain : ∀ call ∈ rest, call.Plain (Ordered · = true)) :
    Call.top Ordered thread thread (calls ++ rest) =
      calls.filterMap (Call.issue Ordered thread) := by
  cases calls with
  | nil => exact Call.top_plain plain
  | cons first below =>
      have none : below.filterMap (Call.issue Ordered thread) = [] :=
        List.filterMap_eq_nil_iff.mpr fun call member => Call.issue_plain (issues.2 call member)
      cases first <;> simp [Call.top, Call.issue, List.filterMap_cons, none] <;> split <;> simp_all

/-- Plain calls below change nothing about what is issued. -/
theorem Call.Issues.append (issues : Call.Issues Ordered calls)
    (plain : ∀ call ∈ rest, call.Plain (Ordered · = true)) : Call.Issues Ordered (calls ++ rest) := by
  cases calls with
  | nil =>
      cases rest with
      | nil => trivial
      | cons first below =>
          obtain ⟨first, below⟩ := List.forall_mem_cons.mp plain
          refine ⟨?_, below⟩
          rintro loop functor rfl
          exact Bool.eq_false_iff.mpr first
  | cons first below =>
      refine ⟨issues.1, fun call member => ?_⟩
      exact (List.mem_append.mp member).elim (issues.2 call) (plain call)

/-- Plain calls issue nothing. -/
theorem Call.Issues.of_plain (plain : ∀ call ∈ rest, call.Plain (Ordered · = true)) :
    Call.Issues Ordered rest := by
  have none : Call.Issues Ordered ([] : List (Call Thread Task)) := trivial
  exact none.append plain

end Stacks

/-- What is left of the batch and of the queue is still to be run. -/
theorem Loop.mem_functors_of_unrun {loop : Loop Thread Task} {pending : Pending Thread Task}
    (member : pending ∈ loop.phase.unrun ++ loop.pendings) : pending ∈ loop.functors := by
  unfold Loop.functors
  unfold Phase.unrun at member
  split at member <;> simp_all

variable [DecidableEq Thread]

/-- The tasks that one thread has issued to one loop. -/
def Issue.between (issuer loop : Thread) (issues : List (Issue Thread Task)) : List Task :=
  (issues.filter fun issue => issue.issuer = issuer ∧ issue.loop = loop).map Issue.task

namespace Issue

variable {issuer loop : Thread}

@[simp] theorem between_nil : between issuer loop ([] : List (Issue Thread Task)) = [] := rfl

@[simp] theorem between_append (first second : List (Issue Thread Task)) :
    between issuer loop (first ++ second) = between issuer loop first ++ between issuer loop second := by
  simp [between]

private theorem between_eq_nil {issues : List (Issue Thread Task)}
    (foreign : ∀ issue ∈ issues, issue.issuer ≠ issuer ∨ issue.loop ≠ loop) :
    between issuer loop issues = [] := by
  rw [between, List.map_eq_nil_iff, List.filter_eq_nil_iff]
  intro issue member
  simpa [imp_iff_not_or] using foreign issue member

end Issue

section Top

variable {Ordered : Task → Bool} {origin thread issuer loop : Thread}
  {calls : List (Call Thread Task)}

omit [DecidableEq Thread] in
/-- What is on top of a stack has come to its thread, or was issued by it. -/
theorem Call.mem_top {issue : Issue Thread Task}
    (member : issue ∈ Call.top Ordered origin thread calls) :
    issue.issuer = origin ∧ issue.loop = thread ∨ issue.issuer = thread := by
  unfold Call.top at member
  split at member
  case h_1 =>
    split at member
    · exact .inl (by simp [List.mem_singleton.mp member])
    · cases member
  case h_2 =>
    split at member
    · exact .inr (by simp [List.mem_singleton.mp member])
    · cases member
  case h_3 => cases member

/-- A function that is called at once was issued for the calling thread. -/
theorem Call.between_top_task {body : Task} (notLoop : loop ≠ thread) :
    Issue.between issuer loop (Call.top Ordered origin thread (.task body :: calls)) = [] := by
  refine Issue.between_eq_nil fun issue member => .inr fun same => notLoop (same.symm.trans ?_)
  simp only [Call.top] at member
  split at member
  · rw [List.mem_singleton.mp member]
  · cases member

end Top

namespace Machine

/-- The functor that the loop of the thread takes from its batch. -/
def beginning (machine : Machine State Thread Task) (thread : Thread) :
    Option (Pending Thread Task) :=
  match (machine.loops thread).phase with
  | .batch _ (pending :: _) => some pending
  | _ => none

/-- Keep account of the tasks of a class. -/
def account (client : Client State Thread Task Choice) (Ordered : Task → Bool) :
    Observer (Machine State Thread Task) (Label Thread Choice) (Account Thread Task) where
  blank := {}
  note machine label _ account :=
    let thread := label.thread
    match machine.inside thread, machine.calls thread, label.action with
    | none, .task body :: _, .proceed choice =>
        let calls := ((client.exec thread body choice machine.client).map Prod.snd).getD []
        { issued := account.issued ++ calls.filterMap (Call.issue Ordered thread)
          executed := account.executed ++
            if Ordered body then [⟨account.origin thread, thread, body⟩] else []
          origin := Function.update account.origin thread thread }
    | none, .runInLoop _ _ :: _, .proceed _ =>
        { account with origin := Function.update account.origin thread thread }
    | none, [], .proceed _ =>
        { account with
          origin := Function.update account.origin thread
            ((machine.beginning thread).elim thread Pending.poster) }
    | _, _, _ => account

/-- The task of the class on top of a thread's stack. -/
def onTop (Ordered : Task → Bool) (machine : Machine State Thread Task)
    (account : Account Thread Task) (thread : Thread) : List (Issue Thread Task) :=
  Call.top Ordered (account.origin thread) thread (machine.calls thread)

/-- Where the issued tasks are: a thread's own ones on top of its stack or executed, those for
other loops on top of its stack or posted, and of these the started ones executed or on top
of the loop's stack. -/
structure Accounted (Ordered : Task → Bool) (machine : Machine State Thread Task)
    (account : Account Thread Task) : Prop where
  own : ∀ loop, Issue.between loop loop account.issued =
    Issue.between loop loop account.executed ++
      Issue.between loop loop (machine.onTop Ordered account loop)
  posted : ∀ thread loop, thread ≠ loop → Issue.between thread loop account.issued =
    (machine.posted thread loop).filter Ordered ++
      Issue.between thread loop (machine.onTop Ordered account thread)
  started : ∀ thread loop, thread ≠ loop →
    Issue.between thread loop account.executed ++
        Issue.between thread loop (machine.onTop Ordered account loop) =
      (postedBy thread (machine.loops loop).started).filter Ordered
  unposted : ∀ loop, (machine.posted loop loop).filter Ordered = []

variable {client : Client State Thread Task Choice} {Initial : State → Prop}
  {guard : Machine State Thread Task → Label Thread Choice → Prop} {Ordered : Task → Bool}
  {machine next : Machine State Thread Task} {account after : Account Thread Task}

/-- On every stack only the first call may be for a task of the class. -/
theorem reachable_issues (issues : client.Issues Ordered)
    (reachable : (system client Initial).Reachable guard machine) (thread : Thread) :
    Call.Issues Ordered (machine.calls thread) := by
  have stable : StackStable client Initial guard fun _ _ calls => Call.Issues Ordered calls := by
    refine ⟨fun _ => trivial, ?_, ?_, ?_, ?_, id⟩
    · intro machine thread body choice state calls rest _ _ _ executed holds
      exact (issues.exec executed).append holds.2
    · intro thread phase functor rest holds
      refine ⟨?_, holds.2⟩
      rintro loop pushed ⟨⟩
    · intro thread phase call rest holds
      exact .of_plain holds.2
    · intro machine thread choice loop calls _ moves _
      cases moves <;> simp [Call.Issues]
  exact reachable_stack stable reachable thread

/-- No handler of a polled channel is an ordered task. -/
theorem reachable_unordered_handlers (issues : client.Issues Ordered)
    (reachable : (system client Initial).Reachable guard machine) {thread : Thread} {handler : Task}
    (active : .channel handler ∈ (machine.loops thread).actives) : Ordered handler = false := by
  have carries : client.Carries (fun _ => True) (Ordered · = false) :=
    ⟨fun _ call _ => by cases call <;> trivial, issues.poll⟩
  exact (reachable_carries carries reachable).actives thread handler active

namespace Accounted

variable (accounted : machine.Accounted Ordered account)

include accounted

/-- Steps that move no task of the class. -/
theorem congr (issued : after.issued = account.issued) (executed : after.executed = account.executed)
    (onTop : ∀ thread, next.onTop Ordered after thread = machine.onTop Ordered account thread)
    (posted : next.posted = machine.posted)
    (started : ∀ loop, (next.loops loop).started = (machine.loops loop).started) :
    next.Accounted Ordered after where
  own loop := by
    rw [issued, executed, onTop]
    exact accounted.own loop
  posted thread loop different := by
    rw [issued, onTop, posted]
    exact accounted.posted thread loop different
  started thread loop different := by
    rw [executed, onTop, started]
    exact accounted.started thread loop different
  unposted loop := by
    rw [posted]
    exact accounted.unposted loop

/-- A task leaves the top of the stack, and what it issues comes there. -/
theorem exec (thread : Thread)
    (others : ∀ other, other ≠ thread →
      next.onTop Ordered after other = machine.onTop Ordered account other)
    (issued : after.issued = account.issued ++ next.onTop Ordered after thread)
    (executed : after.executed = account.executed ++ machine.onTop Ordered account thread)
    (came : ∀ issue ∈ machine.onTop Ordered account thread, issue.loop = thread)
    (goes : ∀ issue ∈ next.onTop Ordered after thread, issue.issuer = thread)
    (posted : next.posted = machine.posted) (loops : next.loops = machine.loops) :
    next.Accounted Ordered after := by
  have old : ∀ {issuer loop}, loop ≠ thread →
      Issue.between issuer loop (machine.onTop Ordered account thread) = [] :=
    fun different => Issue.between_eq_nil fun issue member =>
      .inr fun same => different (same.symm.trans (came issue member))
  have new : ∀ {issuer loop}, issuer ≠ thread →
      Issue.between issuer loop (next.onTop Ordered after thread) = [] :=
    fun different => Issue.between_eq_nil fun issue member =>
      .inl fun same => different (same.symm.trans (goes issue member))
  constructor
  · intro loop
    rw [issued, executed, Issue.between_append, Issue.between_append]
    by_cases same : loop = thread
    · subst same
      rw [accounted.own loop]
    · rw [old same, new same, others loop same, List.append_nil, List.append_nil]
      exact accounted.own loop
  · intro issuer loop different
    rw [issued, posted, Issue.between_append]
    by_cases same : issuer = thread
    · subst same
      rw [accounted.posted issuer loop different, old different.symm, List.append_nil]
    · rw [new same, others issuer same, List.append_nil]
      exact accounted.posted issuer loop different
  · intro issuer loop different
    rw [executed, loops, Issue.between_append]
    by_cases same : loop = thread
    · subst same
      rw [new different, List.append_nil]
      exact accounted.started issuer loop different
    · rw [old same, others loop same, List.append_nil]
      exact accounted.started issuer loop different
  · rw [posted]
    exact accounted.unposted

/-- A task leaves the top of the stack for another loop. -/
theorem post (thread : Thread)
    (others : ∀ other, other ≠ thread →
      next.onTop Ordered after other = machine.onTop Ordered account other)
    (popped : next.onTop Ordered after thread = [])
    (issued : after.issued = account.issued) (executed : after.executed = account.executed)
    (away : ∀ issue ∈ machine.onTop Ordered account thread,
      issue.issuer = thread ∧ issue.loop ≠ thread)
    (posted : ∀ issuer loop, (next.posted issuer loop).filter Ordered =
      (machine.posted issuer loop).filter Ordered ++
        Issue.between issuer loop (machine.onTop Ordered account thread))
    (loops : next.loops = machine.loops) : next.Accounted Ordered after := by
  have foreign : ∀ {issuer loop}, issuer ≠ thread ∨ loop = thread →
      Issue.between issuer loop (machine.onTop Ordered account thread) = [] := by
    rintro issuer loop (notIssuer | rfl) <;> refine Issue.between_eq_nil fun issue member => ?_
    · exact .inl fun same => notIssuer (same.symm.trans (away issue member).1)
    · exact .inr (away issue member).2
  constructor
  · intro loop
    rw [issued, executed]
    by_cases same : loop = thread
    · subst same
      rw [popped, accounted.own loop, foreign (.inr rfl)]
      rfl
    · rw [others loop same]
      exact accounted.own loop
  · intro issuer loop different
    rw [issued, posted, accounted.posted issuer loop different]
    by_cases same : issuer = thread
    · subst same
      rw [popped, Issue.between_nil, List.append_nil]
    · rw [others issuer same, foreign (.inl same), List.append_nil]
  · intro issuer loop different
    rw [executed, loops, ← accounted.started issuer loop different]
    by_cases same : loop = thread
    · subst same
      rw [popped, foreign (.inr rfl)]
      rfl
    · rw [others loop same]
  · intro loop
    rw [posted, accounted.unposted loop]
    by_cases same : loop = thread
    · exact foreign (.inr same)
    · exact foreign (.inl same)

/-- A loop begins with a functor from its batch. -/
theorem begin {loop : Thread} {finished rest : List (Pending Thread Task)}
    {pending : Pending Thread Task} (idle : machine.calls loop = [])
    (phase : (machine.loops loop).phase = .batch finished (pending :: rest))
    (invariant : machine.QueueInvariant) :
    ((machine.modifyLoop loop fun _ => { machine.loops loop with
        phase := .batch (finished ++ [pending]) rest
        started := (machine.loops loop).started ++ [pending] }).setCalls loop
          [.task pending.functor]).Accounted Ordered
      { account with origin := Function.update account.origin loop pending.poster } := by
  have empty : machine.onTop Ordered account loop = [] := by
    rw [onTop, idle]
    rfl
  -- a loop does not post tasks of the class to itself
  have foreign : Ordered pending.functor = true → pending.poster ≠ loop := by
    rintro isOrdered rfl
    have posts := invariant.posts pending.poster pending.poster
    have queued : pending ∈ (machine.loops pending.poster).pushed := by
      rw [← (invariant.queue pending.poster).conserved]
      simp [phase, Phase.unrun]
    have member : pending.functor ∈ machine.posted pending.poster pending.poster := by
      rw [← posts]
      refine List.mem_append_left _ (List.mem_map_of_mem (List.mem_filter.mpr ⟨queued, ?_⟩))
      simp
    have ordered := List.mem_filter.mpr ⟨member, isOrdered⟩
    rw [accounted.unposted pending.poster] at ordered
    cases ordered
  constructor
  · intro target
    by_cases same : target = loop
    · subst same
      have none : Issue.between target target (Call.top Ordered pending.poster target
          [.task pending.functor]) = [] := by
        by_cases isOrdered : Ordered pending.functor = true
        · simpa [Call.top, isOrdered, Issue.between] using foreign isOrdered
        · simp [Call.top, isOrdered]
      simp only [onTop, setCalls_calls, Function.update_self]
      rw [none, accounted.own target, empty]
      rfl
    · simpa [onTop, Function.update_of_ne same] using accounted.own target
  · intro issuer target different
    by_cases same : issuer = loop
    · subst same
      simp only [onTop, setCalls_calls, Function.update_self]
      rw [Call.between_top_task different.symm, accounted.posted issuer target different, empty]
      rfl
    · simpa [onTop, Function.update_of_ne same] using accounted.posted issuer target different
  · intro issuer target different
    by_cases same : target = loop
    · subst same
      have before := accounted.started issuer target different
      rw [empty, Issue.between_nil, List.append_nil] at before
      simp only [onTop, setCalls_calls, setCalls_loops, modifyLoop_loops, Function.update_self]
      rw [before, postedBy_append, List.filter_append]
      congr 1
      by_cases isOrdered : Ordered pending.functor = true
      · by_cases poster : pending.poster = issuer <;>
          simp [Call.top, isOrdered, Issue.between, postedBy, poster]
      · by_cases poster : pending.poster = issuer <;>
          simp [Call.top, isOrdered, postedBy, poster]
    · simpa [onTop, Function.update_of_ne same] using accounted.started issuer target different
  · exact accounted.unposted

end Accounted

omit [DecidableEq Thread] in
/-- A stack without calls of the class has nothing of it on top. -/
private theorem onTop_nil {thread : Thread}
    (plain : ∀ call ∈ machine.calls thread, call.Plain (Ordered · = true)) :
    machine.onTop Ordered account thread = [] :=
  Call.top_plain plain

/-- A step of one thread leaves the tops of the other stacks alone. -/
private theorem onTop_other {thread other : Thread} {stack : List (Call Thread Task)}
    (different : other ≠ thread) (calls : next.calls = Function.update machine.calls thread stack)
    (origin : after.origin other = account.origin other) :
    next.onTop Ordered after other = machine.onTop Ordered account other := by
  rw [onTop, onTop, calls, origin, Function.update_of_ne different]

namespace Accounted

variable (accounted : machine.Accounted Ordered account)

include accounted

/-- The thread takes a call from its stack that has nothing to do with the class. -/
theorem plain {thread : Thread} {stack : List (Call Thread Task)}
    (before : ∀ call ∈ machine.calls thread, call.Plain (Ordered · = true))
    (stackPlain : ∀ call ∈ stack, call.Plain (Ordered · = true))
    (calls : next.calls = Function.update machine.calls thread stack)
    (issued : after.issued = account.issued) (executed : after.executed = account.executed)
    (origin : ∀ other, other ≠ thread → after.origin other = account.origin other)
    (posted : next.posted = machine.posted)
    (started : ∀ loop, (next.loops loop).started = (machine.loops loop).started) :
    next.Accounted Ordered after := by
  refine accounted.congr issued executed (fun other => ?_) posted started
  by_cases same : other = thread
  · subst same
    rw [onTop_nil before]
    refine onTop_nil fun call member => stackPlain call ?_
    rwa [calls, Function.update_self] at member
  · exact onTop_other same calls (origin other same)

/-- A change of a loop that starts nothing. -/
theorem modifyLoop {loop : Thread} {change : Loop Thread Task → Loop Thread Task}
    (started : (change (machine.loops loop)).started = (machine.loops loop).started)
    (calls : next.calls = machine.calls) (posted : next.posted = machine.posted)
    (loops : next.loops = (machine.modifyLoop loop change).loops) :
    next.Accounted Ordered account := by
  refine accounted.congr rfl rfl (fun other => by rw [onTop, onTop, calls]) posted fun other => ?_
  rw [loops, modifyLoop_loops]
  by_cases same : other = loop
  · subst same
    rw [Function.update_self, started]
  · rw [Function.update_of_ne same]

end Accounted

section Notes

variable {thread : Thread} {choice : Choice} {rest : List (Call Thread Task)}
  {label : Label Thread Choice}

/-! What the observer notes of the transitions. -/

/-- The account of an executed task: it is done, and what it issues is written down. -/
theorem note_exec {body : Task} {calls : List (Call Thread Task)} {state : State}
    (outside : machine.inside thread = none) (top : machine.calls thread = .task body :: rest)
    (executed : client.exec thread body choice machine.client = some (state, calls)) :
    (Machine.account client Ordered).note machine ⟨thread, .proceed choice⟩ next account =
      { issued := account.issued ++ calls.filterMap (Call.issue Ordered thread)
        executed := account.executed ++
          if Ordered body then [⟨account.origin thread, thread, body⟩] else []
        origin := Function.update account.origin thread thread } := by
  simp [Machine.account, outside, top, executed]

private theorem note_runInLoop {loop : Thread} {functor : Task}
    (outside : machine.inside thread = none)
    (top : machine.calls thread = .runInLoop loop functor :: rest) :
    (Machine.account client Ordered).note machine ⟨thread, .proceed choice⟩ next account =
      { account with origin := Function.update account.origin thread thread } := by
  simp [Machine.account, outside, top]

private theorem note_idle (outside : machine.inside thread = none)
    (idle : machine.calls thread = []) :
    (Machine.account client Ordered).note machine ⟨thread, .proceed choice⟩ next account =
      { account with
        origin := Function.update account.origin thread
          ((machine.beginning thread).elim thread Pending.poster) } := by
  simp [Machine.account, outside, idle]

private theorem note_other (other : machine.inside label.thread ≠ none ∨ label.action = .start ∨
    (∃ loop functor rest, machine.calls label.thread = .queueInLoop loop functor :: rest) ∨
      ∃ loop rest, machine.calls label.thread = .stop loop :: rest) :
    (Machine.account client Ordered).note machine label next account = account := by
  rcases other with inside | start | ⟨loop, functor, rest, top⟩ | ⟨loop, rest, top⟩
  · obtain ⟨point, inside⟩ := Option.ne_none_iff_exists'.mp inside
    simp [Machine.account, inside]
  · simp [Machine.account, start]
  · simp [Machine.account, top]
  · simp [Machine.account, top]

/-- The account changes only when a task is executed. -/
theorem note_cases (Ordered : Task → Bool) (account : Account Thread Task)
    (stepped : machine.step client label = some next) :
    next.client = machine.client ∧
        ((Machine.account client Ordered).note machine label next account).issued =
          account.issued ∧
        ((Machine.account client Ordered).note machine label next account).executed =
          account.executed ∨
      ∃ body choice calls, machine.executing label = some (body, choice) ∧
        client.exec label.thread body choice machine.client = some (next.client, calls) ∧
        ((Machine.account client Ordered).note machine label next account).issued =
          account.issued ++ calls.filterMap (Call.issue Ordered label.thread) ∧
        ((Machine.account client Ordered).note machine label next account).executed =
          account.executed ++ if Ordered body then
            [⟨account.origin label.thread, label.thread, body⟩] else [] := by
  cases step_transition stepped with
  | @exec thread choice body rest state calls outside top executed =>
      right
      rw [note_exec outside top executed]
      exact ⟨body, choice, calls, by simp [executing, outside, top], executed, rfl, rfl⟩
  | runHere outside top =>
      left
      rw [note_runInLoop outside top]
      exact ⟨rfl, rfl, rfl⟩
  | @post thread choice loop functor call rest outside top posts =>
      left
      rcases posts with ⟨rfl, -⟩ | rfl
      · rw [note_runInLoop outside top]
        exact ⟨rfl, rfl, rfl⟩
      · rw [note_other (.inr (.inr (.inl ⟨loop, functor, rest, top⟩)))]
        exact ⟨rfl, rfl, rfl⟩
  | @stop thread choice loop rest outside top =>
      left
      rw [note_other (.inr (.inr (.inr ⟨loop, rest, top⟩)))]
      exact ⟨rfl, rfl, rfl⟩
  | pushBack inside | wakeAfterPush inside | wakeAfterStop inside =>
      left
      rw [note_other (.inl (by simp [inside]))]
      exact ⟨rfl, rfl, rfl⟩
  | advance outside idle =>
      left
      rw [note_idle outside idle]
      exact ⟨rfl, rfl, rfl⟩
  | enter =>
      left
      rw [note_other (.inr (.inl rfl))]
      exact ⟨rfl, rfl, rfl⟩

end Notes

/-- An executed task keeps the account right. -/
theorem Accounted.note_exec {thread : Thread} {choice : Choice} {body : Task}
    {rest calls : List (Call Thread Task)} {state : State}
    (accounted : machine.Accounted Ordered account) (outside : machine.inside thread = none)
    (top : machine.calls thread = .task body :: rest)
    (executed : client.exec thread body choice machine.client = some (state, calls))
    (issues : Call.Issues Ordered calls)
    (plain : ∀ call ∈ rest, call.Plain (Ordered · = true)) :
    Accounted Ordered ({ machine with client := state }.setCalls thread (calls ++ rest))
      ((Machine.account client Ordered).note machine ⟨thread, .proceed choice⟩ next account) := by
  rw [Machine.note_exec outside top executed]
  refine accounted.exec thread (fun other different => ?_) ?_ ?_ ?_ ?_ rfl rfl
  · exact onTop_other different rfl (Function.update_of_ne different _ _)
  · simp [onTop, issues.top plain]
  · simp [onTop, top, Call.top]
  · intro issue member
    simp only [onTop, top, Call.top] at member
    split at member
    · rw [List.mem_singleton.mp member]
    · cases member
  · intro issue member
    simp only [onTop, setCalls_calls, Function.update_self] at member
    rcases Call.mem_top member with ⟨own, -⟩ | own <;> exact own

/-- `RunInLoop` for another loop, or `QueueInLoop`. -/
theorem Accounted.note_post {thread loop : Thread} {choice : Choice} {functor : Task}
    {call : Call Thread Task} {rest : List (Call Thread Task)}
    (accounted : machine.Accounted Ordered account) (outside : machine.inside thread = none)
    (top : machine.calls thread = call :: rest)
    (posts : call = .runInLoop loop functor ∧ thread ≠ loop ∨ call = .queueInLoop loop functor)
    (issues : Call.Issues Ordered (call :: rest)) :
    Accounted Ordered ((machine.setCalls thread rest).enterQueueInLoop thread loop functor)
      ((Machine.account client Ordered).note machine ⟨thread, .proceed choice⟩ next account) := by
  have popped : ∀ after : Account Thread Task, onTop Ordered
      ((machine.setCalls thread rest).enterQueueInLoop thread loop functor) after thread = [] :=
    fun after => onTop_nil (by simpa using issues.2)
  have added : ∀ issuer target,
      (((machine.setCalls thread rest).enterQueueInLoop thread loop functor).posted issuer
        target).filter Ordered = (machine.posted issuer target).filter Ordered ++
          if issuer = thread ∧ target = loop then [functor].filter Ordered else [] := by
    intro issuer target
    by_cases poster : issuer = thread
    · subst poster
      by_cases here : target = loop
      · subst here
        simp
      · simp [here]
    · simp [poster]
  rcases posts with ⟨rfl, different⟩ | rfl
  · rw [note_runInLoop outside top]
    have before : machine.onTop Ordered account thread =
        ([functor].filter Ordered).map (Issue.mk thread loop) := by
      rw [onTop, top, Call.top, List.filter_singleton]
      cases Ordered functor <;> rfl
    refine accounted.post thread (fun other different => ?_) (popped _) rfl rfl ?_ ?_ rfl
    · exact onTop_other different rfl (Function.update_of_ne different _ _)
    · intro issue member
      rw [before] at member
      obtain ⟨_, -, rfl⟩ := List.mem_map.mp member
      exact ⟨rfl, different.symm⟩
    · intro issuer target
      rw [added, before, Issue.between, List.filter_map, List.map_map]
      congr 1
      split
      case isTrue both => simp [both.1, both.2, Function.comp_def]
      case isFalse other =>
        have none : ¬ (thread = issuer ∧ loop = target) := fun both => other ⟨both.1.symm, both.2.symm⟩
        simp [Function.comp_def, none]
  · rw [note_other (.inr (.inr (.inl ⟨loop, functor, rest, top⟩)))]
    have unordered := issues.1 loop functor rfl
    have before : machine.onTop Ordered account thread = [] := by
      rw [onTop, top]
      rfl
    refine accounted.post thread (fun other different => onTop_other different rfl rfl) (popped _)
      rfl rfl ?_ ?_ rfl
    · rw [before]
      exact fun _ member => nomatch member
    · intro issuer target
      rw [added, before]
      simp [unordered]

/-- Every transition keeps the account. -/
theorem Accounted.transition (accounted : machine.Accounted Ordered account)
    (issues : client.Issues Ordered)
    (reachable : (system client Initial).Reachable guard machine) {label : Label Thread Choice}
    (stepped : machine.step client label = some next) :
    next.Accounted Ordered ((Machine.account client Ordered).note machine label next account) := by
  have issuing : ∀ {thread call rest}, machine.calls thread = call :: rest →
      Call.Issues Ordered (call :: rest) := by
    intro thread call rest top
    rw [← top]
    exact reachable_issues issues reachable thread
  cases step_transition stepped with
  | exec outside top executed =>
      exact accounted.note_exec outside top executed (issues.exec executed) (issuing top).2
  | @runHere thread choice functor rest outside top =>
      rw [note_runInLoop outside top]
      refine accounted.congr rfl rfl (fun other => ?_) rfl fun _ => rfl
      by_cases same : other = thread
      · subst same
        simp [onTop, Call.top, top]
      · exact onTop_other same rfl (Function.update_of_ne same _ _)
  | post outside top posts => exact accounted.note_post outside top posts (issuing top)
  | @stop thread choice loop rest outside top =>
      rw [note_other (.inr (.inr (.inr ⟨loop, rest, top⟩)))]
      have plain := (issuing top).2
      have popped : (machine.setCalls thread rest).Accounted Ordered account := by
        refine accounted.plain ?_ plain rfl rfl rfl (fun _ _ => rfl) rfl fun _ => rfl
        rw [top]
        exact List.forall_mem_cons.mpr ⟨trivial, plain⟩
      exact popped.modifyLoop rfl rfl rfl rfl
  | pushBack inside =>
      rw [note_other (.inl (by simp [inside]))]
      exact accounted.modifyLoop rfl rfl rfl rfl
  | wakeAfterPush inside | wakeAfterStop inside =>
      rw [note_other (.inl (by simp [inside]))]
      refine accounted.modifyLoop ?_ rfl rfl rfl
      simp [Loop.wakeAfterPush, Loop.wakeAfterStop, Loop.wakeIf_eq]
  | @advance thread choice loop calls outside idle moves =>
      rw [note_idle outside idle]
      have others : (∀ call ∈ calls, call.Plain (Ordered · = true)) →
          loop.started = (machine.loops thread).started → ∀ origin,
          ((machine.modifyLoop thread fun _ => loop).setCalls thread calls).Accounted Ordered
            { account with origin := Function.update account.origin thread origin } := by
        intro plain started origin
        have moved : (machine.modifyLoop thread fun _ => loop).Accounted Ordered account :=
          accounted.modifyLoop started rfl rfl rfl
        refine moved.plain (by simp [idle]) plain rfl rfl rfl (fun other different => ?_) rfl
          fun _ => rfl
        exact Function.update_of_ne different _ _
      cases moves with
      | @begin finished pending rest phase =>
          have begins : machine.beginning thread = some pending := by simp [beginning, phase]
          rw [begins]
          exact accounted.begin idle phase (reachable_queueInvariant reachable)
      | @channel handler rest phase =>
          have active : .channel handler ∈ (machine.loops thread).actives := by
            rw [Loop.actives, phase]
            exact List.mem_cons_self
          have unordered := reachable_unordered_handlers issues reachable active
          exact others (by simp [Call.Plain, unordered]) rfl _
      | outside | release => exact others (by simp [Call.Plain, issues.user]) rfl _
      | leave | iterate | poll | handled | wakeup | swap | batched | released | finish =>
          exact others (by simp) rfl _
  | enter =>
      rw [note_other (.inr (.inl rfl))]
      exact accounted.modifyLoop rfl rfl rfl rfl

/-- The machine of a client with the account of the tasks of a class. -/
abbrev accountedSystem (client : Client State Thread Task Choice) (Initial : State → Prop)
    (Ordered : Task → Bool) :
    LabelledSystem (Machine State Thread Task × Account Thread Task) (Label Thread Choice) :=
  (system client Initial).observed (Machine.account client Ordered)

/-- The account is right in every state of a run. -/
theorem reachable_accounted (issues : client.Issues Ordered)
    (reachable : (accountedSystem client Initial Ordered).Reachable
      (LabelledSystem.beside guard) (machine, account)) :
    (system client Initial).Reachable guard machine ∧ machine.Accounted Ordered account := by
  refine reachable.observed_invariant (Accounted Ordered) ?_ ?_
  · rintro _ ⟨state, -, rfl⟩
    constructor <;> intros <;> rfl
  · intro machine label next account reached accounted _ stepped
    exact accounted.transition issues reached stepped

/-- What has been executed is a prefix of what was issued, for every thread and every loop. -/
theorem Accounted.executed_prefix (accounted : machine.Accounted Ordered account)
    (invariant : machine.QueueInvariant) (thread loop : Thread) :
    Issue.between thread loop account.executed <+: Issue.between thread loop account.issued := by
  by_cases same : thread = loop
  · subst same
    rw [accounted.own thread]
    exact List.prefix_append _ _
  · have begun : postedBy thread (machine.loops loop).started <+: machine.posted thread loop := by
      rw [← invariant.posts thread loop, ← (invariant.queue loop).conserved, List.append_assoc,
        postedBy_append, List.append_assoc]
      exact List.prefix_append _ _
    calc Issue.between thread loop account.executed
        <+: (postedBy thread (machine.loops loop).started).filter Ordered := by
          rw [← accounted.started thread loop same]
          exact List.prefix_append _ _
      _ <+: (machine.posted thread loop).filter Ordered := begun.filter Ordered
      _ <+: Issue.between thread loop account.issued := by
          rw [accounted.posted thread loop same]
          exact List.prefix_append _ _

omit [DecidableEq Thread] in
private theorem waits_of_onTop {thread : Thread} {issue : Issue Thread Task}
    (member : issue ∈ machine.onTop Ordered account thread) :
    machine.Waits (issue.loop, issue.task) ∧ Ordered issue.task = true := by
  rw [onTop] at member
  unfold Call.top at member
  split at member
  case h_1 body rest top =>
    split at member
    case isTrue isOrdered =>
      obtain rfl := List.mem_singleton.mp member
      have first : .task body ∈ machine.calls thread := top ▸ List.mem_cons_self
      exact ⟨.call first (Multiset.mem_singleton_self _), isOrdered⟩
    case isFalse => cases member
  case h_2 loop functor rest top =>
    split at member
    case isTrue isOrdered =>
      obtain rfl := List.mem_singleton.mp member
      exact ⟨.call (top ▸ List.mem_cons_self) (Multiset.mem_singleton_self _), isOrdered⟩
    case isFalse => cases member
  case h_3 => cases member

private theorem waits_of_entering {thread loop : Thread} {functor : Task}
    (member : functor ∈ machine.entering thread loop) : machine.Waits (loop, functor) := by
  unfold entering at member
  split at member
  case h_1 target pushed inside =>
    split at member
    case isTrue same =>
      subst same
      obtain rfl := List.mem_singleton.mp member
      exact .inside inside
    case isFalse => cases member
  case h_2 => cases member

/-- When no task of the class is in flight to the loop, everything issued was executed. -/
theorem Accounted.executed_all [Fintype Thread] (accounted : machine.Accounted Ordered account)
    (invariant : machine.QueueInvariant) {loop : Thread}
    (none : ∀ task, (loop, task) ∈ machine.flight → Ordered task = false) (thread : Thread) :
    Issue.between thread loop account.executed = Issue.between thread loop account.issued := by
  have untopped : ∀ owner, Issue.between thread loop (machine.onTop Ordered account owner) = [] := by
    refine fun owner => Issue.between_eq_nil fun issue member => .inr ?_
    rintro rfl
    obtain ⟨waits, isOrdered⟩ := waits_of_onTop member
    rw [none _ (mem_flight_of_waits waits)] at isOrdered
    cases isOrdered
  by_cases same : thread = loop
  · subst same
    rw [accounted.own thread, untopped, List.append_nil]
  · have unordered : ∀ functor, machine.Waits (loop, functor) → Ordered functor = false :=
      fun functor waits => none functor (mem_flight_of_waits waits)
    have waiting : (postedBy thread ((machine.loops loop).phase.unrun ++
        (machine.loops loop).pendings)).filter Ordered = [] := by
      refine List.filter_eq_nil_iff.mpr fun functor member => ?_
      obtain ⟨pending, queued, rfl⟩ := List.mem_map.mp member
      have functors := Loop.mem_functors_of_unrun (List.mem_filter.mp queued).1
      simp [unordered _ (.functor functors)]
    have entering : (machine.entering thread loop).filter Ordered = [] := by
      refine List.filter_eq_nil_iff.mpr fun functor member => ?_
      simp [unordered functor (waits_of_entering member)]
    rw [accounted.posted thread loop same, untopped, ← invariant.posts thread loop,
      ← (invariant.queue loop).conserved, List.append_assoc, postedBy_append, List.filter_append,
      List.filter_append, waiting, entering, ← accounted.started thread loop same, untopped]
    simp

end Machine

end Benet.EventLoop
