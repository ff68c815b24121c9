import Benet.EventLoop.Flight

/-!
# Urgent tasks and the induction over guarded runs

Some tasks are the continuation of the task that made them: they are its first
call, and nothing else can run on the same thread in between. `Client.Prompt`
says that a client treats the tasks of a class in this way; then, while one of
them waits, its thread executes no other task. `Machine.reachable_flight` is the
induction over guarded runs in terms of the tasks in flight, with this fact at
hand.
-/

namespace Benet.EventLoop

open Semantics

variable {State Thread Task Choice : Type} {Urgent : Task → Prop}

/-- The call does not carry an urgent task. -/
def Call.Plain (Urgent : Task → Prop) : Call Thread Task → Prop
  | .task body => ¬ Urgent body
  | .runInLoop _ functor | .queueInLoop _ functor => ¬ Urgent functor
  | .stop _ => True

/-- Only the first call may carry an urgent task, and it does not post it. -/
def Call.Prompt (Urgent : Task → Prop) : List (Call Thread Task) → Prop
  | [] => True
  | .task _ :: rest => ∀ call ∈ rest, call.Plain Urgent
  | first :: rest => ∀ call ∈ first :: rest, call.Plain Urgent

/-- The client makes urgent calls first and nowhere else. -/
structure Client.Prompt (client : Client State Thread Task Choice) (Urgent : Task → Prop) :
    Prop where
  user : ¬ Urgent client.user
  poll : ∀ {thread choice state active}, client.poll thread choice state = some active →
    ∀ handler, .channel handler ∈ active → ¬ Urgent handler
  exec : ∀ {thread body choice state next calls},
    client.exec thread body choice state = some (next, calls) → Call.Prompt Urgent calls

namespace Call

variable {calls rest : List (Call Thread Task)}

/-- Calls without urgent tasks are prompt. -/
theorem Prompt.of_plain (plain : ∀ call ∈ calls, call.Plain Urgent) : Prompt Urgent calls := by
  cases calls with
  | nil => trivial
  | cons first rest =>
      cases first with
      | task body => exact fun call member => plain call (List.mem_cons_of_mem _ member)
      | runInLoop | queueInLoop | stop => exact plain

/-- Below the first call nothing is urgent. -/
theorem Prompt.tail {first : Call Thread Task} (prompt : Prompt Urgent (first :: rest)) :
    ∀ call ∈ rest, call.Plain Urgent := by
  cases first with
  | task body => exact prompt
  | runInLoop | queueInLoop | stop =>
      exact fun call member => prompt call (List.mem_cons_of_mem _ member)

/-- Plain calls may follow prompt ones. -/
theorem Prompt.append (prompt : Prompt Urgent calls)
    (plain : ∀ call ∈ rest, call.Plain Urgent) : Prompt Urgent (calls ++ rest) := by
  have join : ∀ {front : List (Call Thread Task)}, (∀ call ∈ front, call.Plain Urgent) →
      ∀ call ∈ front ++ rest, call.Plain Urgent := by
    intro front frontPlain call member
    rcases List.mem_append.mp member with inFront | inRest
    · exact frontPlain call inFront
    · exact plain call inRest
  cases calls with
  | nil => exact .of_plain plain
  | cons first others =>
      cases first with
      | task body => exact join prompt
      | runInLoop | queueInLoop | stop => exact join prompt

/-- Plain calls stand for plain tasks only. -/
theorem plain_flight {thread : Thread} (plain : ∀ call ∈ calls, call.Plain Urgent)
    {located : Located Thread Task} (member : located ∈ Call.flights thread calls) :
    ¬ Urgent located.2 := by
  obtain ⟨call, inCalls, carried⟩ := (mem_flights thread).mp member
  have callPlain := plain call inCalls
  cases call <;> simp_all [Call.flight, Call.Plain]

/-- A first call that carries an urgent task calls it. -/
theorem Prompt.first {first : Call Thread Task} {thread other : Thread} {task : Task}
    (prompt : Prompt Urgent (first :: rest)) (urgent : Urgent task)
    (carried : (thread, task) ∈ first.flight other) : first = .task task ∧ thread = other := by
  cases first with
  | task body =>
      simp only [Call.flight, Multiset.mem_singleton, Prod.mk.injEq] at carried
      exact ⟨congrArg _ carried.2.symm, carried.1⟩
  | runInLoop loop functor | queueInLoop loop functor =>
      simp only [Call.flight, Multiset.mem_singleton, Prod.mk.injEq] at carried
      exact absurd (carried.2 ▸ urgent) (prompt _ List.mem_cons_self)
  | stop => simp [Call.flight] at carried

/-- An urgent task on the stack of another thread stays on that thread. -/
theorem Prompt.located {thread other : Thread} {task : Task} (prompt : Prompt Urgent calls)
    (urgent : Urgent task) (member : (thread, task) ∈ Call.flights other calls) :
    thread = other := by
  cases calls with
  | nil => simp at member
  | cons first rest =>
      rw [flights_cons, Multiset.mem_add] at member
      rcases member with here | later
      · exact (prompt.first urgent here).2
      · exact absurd urgent (plain_flight prompt.tail later)

end Call

/-- A loop thread makes at most one call per move, so the call is the first. -/
theorem Loop.Moves.prompt {user : Task} {polled : Option (List (Active Task))}
    {loop next : Loop Thread Task} {calls : List (Call Thread Task)}
    (moves : loop.Moves user polled next calls) : Call.Prompt Urgent calls := by
  cases moves <;> simp [Call.Prompt]

/-- What arrives from outside is not urgent. -/
theorem Client.Prompt.arrives {client : Client State Thread Task Choice} {state : State}
    {arrived : Multiset (Located Thread Task)} (prompt : client.Prompt Urgent)
    (brought : client.Arrives state arrived) {located : Located Thread Task}
    (member : located ∈ arrived) : ¬ Urgent located.2 := by
  cases brought with
  | none => simp at member
  | user =>
      rw [Multiset.mem_singleton] at member
      rw [member]
      exact prompt.user
  | polled returned =>
      obtain ⟨handler, inActives, rfl⟩ := Active.mem_flights.mp member
      exact prompt.poll returned handler inActives

/-- The thread is not about to push an urgent task. -/
def Inside.Plain (Urgent : Task → Prop) (point : Option (Inside Thread Task)) : Prop :=
  ∀ located ∈ Inside.flight point, ¬ Urgent located.2

/-- A point of a call that holds no functor is plain. -/
theorem Inside.Plain.of_none {point : Option (Inside Thread Task)}
    (none : Inside.flight point = 0) : Inside.Plain Urgent point := by
  simp [Inside.Plain, none]

/-- No urgent task waits in the loop of `thread`. -/
def Loop.Plain (Urgent : Task → Prop) (thread : Thread) (loop : Loop Thread Task) : Prop :=
  ∀ located ∈ loop.flight thread, ¬ Urgent located.2

/-- A functor that is not urgent may be pushed. -/
theorem Loop.Plain.push {loop : Loop Thread Task} {thread poster : Thread} {functor : Task}
    (loopPlain : Loop.Plain Urgent thread loop) (plain : ¬ Urgent functor) :
    Loop.Plain Urgent thread (loop.push ⟨poster, functor⟩) := by
  intro located member
  rw [Loop.flight_push, Multiset.mem_add, Multiset.mem_singleton] at member
  rcases member with pushed | waiting
  · rwa [pushed]
  · exact loopPlain located waiting

/-- What waits after a move of the loop has arrived with it or waited before. -/
theorem Loop.Plain.moves {client : Client State Thread Task Choice} {state : State}
    {thread : Thread} {choice : Choice} {loop next : Loop Thread Task}
    {calls : List (Call Thread Task)} (loopPlain : Loop.Plain Urgent thread loop)
    (prompt : client.Prompt Urgent)
    (moves : loop.Moves client.user (client.poll thread choice state) next calls) :
    Loop.Plain Urgent thread next := by
  obtain ⟨arrived, brought, balance⟩ := moves.flight
  intro located member
  have before : located ∈ arrived + loop.flight thread := by
    rw [← balance]
    exact Multiset.mem_add.mpr (.inr member)
  rcases Multiset.mem_add.mp before with new | waiting
  · exact prompt.arrives brought new
  · exact loopPlain located waiting

namespace Machine

variable {client : Client State Thread Task Choice} {machine next : Machine State Thread Task}

/-- Urgent tasks wait on top of a stack, outside every call, and nowhere else. -/
structure UrgentOnTop (Urgent : Task → Prop) (machine : Machine State Thread Task) : Prop where
  calls : ∀ thread, Call.Prompt Urgent (machine.calls thread)
  below : ∀ thread, machine.inside thread ≠ none →
    ∀ call ∈ machine.calls thread, call.Plain Urgent
  inside : ∀ thread, Inside.Plain Urgent (machine.inside thread)
  loops : ∀ thread, Loop.Plain Urgent thread (machine.loops thread)

variable [DecidableEq Thread]

namespace UrgentOnTop

/-- A thread outside every call may get any stack whose first call is prompt. -/
theorem setCalls (onTop : machine.UrgentOnTop Urgent) {thread : Thread}
    {stack : List (Call Thread Task)} (outside : machine.inside thread = none)
    (prompt : Call.Prompt Urgent stack) : (machine.setCalls thread stack).UrgentOnTop Urgent where
  calls := (Function.forall_update_iff _ fun _ => Call.Prompt Urgent).mpr
    ⟨prompt, fun other _ => onTop.calls other⟩
  below other isInside := by
    have different : other ≠ thread := by
      rintro rfl
      exact isInside outside
    rw [setCalls_calls, Function.update_of_ne different]
    exact onTop.below other isInside
  inside := onTop.inside
  loops := onTop.loops

/-- A thread above plain calls may move to any point that pushes nothing urgent. -/
theorem setInside (onTop : machine.UrgentOnTop Urgent) {thread : Thread}
    {point : Option (Inside Thread Task)} (plain : Inside.Plain Urgent point)
    (below : point ≠ none → ∀ call ∈ machine.calls thread, call.Plain Urgent) :
    (machine.setInside thread point).UrgentOnTop Urgent where
  calls := onTop.calls
  below := (Function.forall_update_iff _ fun other point => point ≠ none →
    ∀ call ∈ machine.calls other, call.Plain Urgent).mpr ⟨below, fun other _ => onTop.below other⟩
  inside := (Function.forall_update_iff _ fun _ => Inside.Plain Urgent).mpr
    ⟨plain, fun other _ => onTop.inside other⟩
  loops := onTop.loops

/-- A loop may be changed into a plain one. -/
theorem modifyLoop (onTop : machine.UrgentOnTop Urgent) (loop : Thread)
    (change : Loop Thread Task → Loop Thread Task)
    (plain : Loop.Plain Urgent loop (change (machine.loops loop))) :
    (machine.modifyLoop loop change).UrgentOnTop Urgent where
  calls := onTop.calls
  below := onTop.below
  inside := onTop.inside
  loops := (Function.forall_update_iff _ (Loop.Plain Urgent)).mpr
    ⟨plain, fun other _ => onTop.loops other⟩

/-- A functor that is not urgent may be passed to `QueueInLoop` where the stack is plain. -/
theorem enterQueueInLoop (onTop : machine.UrgentOnTop Urgent) {thread loop : Thread}
    {functor : Task} (plain : ¬ Urgent functor)
    (below : ∀ call ∈ machine.calls thread, call.Plain Urgent) :
    (machine.enterQueueInLoop thread loop functor).UrgentOnTop Urgent := by
  have pushes : Inside.Plain Urgent (some (.pushBack loop functor)) := by
    intro located member
    rw [Inside.flight, Multiset.mem_singleton] at member
    rwa [member]
  have entered := onTop.setInside pushes fun _ => below
  exact ⟨entered.calls, entered.below, entered.inside, entered.loops⟩

/-- One transition keeps urgent tasks on top of their stacks. -/
theorem transition (prompt : client.Prompt Urgent)
    (onTop : machine.UrgentOnTop Urgent) {label : Label Thread Choice}
    (transition : Transition client machine label next) : next.UrgentOnTop Urgent := by
  cases transition with
  | @exec thread choice body rest state emitted outside top executed =>
      have rest := Call.Prompt.tail (top ▸ onTop.calls thread)
      have sameStacks : UrgentOnTop Urgent { machine with client := state } :=
        ⟨onTop.calls, onTop.below, onTop.inside, onTop.loops⟩
      exact sameStacks.setCalls outside ((prompt.exec executed).append rest)
  | @runHere thread choice functor rest outside top =>
      exact onTop.setCalls outside (Call.Prompt.tail (top ▸ onTop.calls thread))
  | @post thread choice loop functor call rest outside top posts =>
      have first : Call.Prompt Urgent (call :: rest) := top ▸ onTop.calls thread
      have plain : ¬ Urgent functor := by
        rcases posts with ⟨rfl, -⟩ | rfl <;> exact first _ List.mem_cons_self
      have popped := onTop.setCalls outside (.of_plain first.tail)
      exact popped.enterQueueInLoop plain (by simpa using first.tail)
  | @stop thread choice loop rest outside top =>
      have tail := Call.Prompt.tail (top ▸ onTop.calls thread)
      have popped := onTop.setCalls outside (.of_plain tail)
      have stopped := popped.modifyLoop loop Loop.quit (popped.loops loop)
      exact stopped.setInside (.of_none rfl) fun _ => by simpa using tail
  | @pushBack thread choice loop functor inside =>
      have plain := onTop.inside thread (loop, functor) (by simp [inside, Inside.flight])
      have pushed := onTop.modifyLoop loop (Loop.push ⟨thread, functor⟩)
        ((onTop.loops loop).push plain)
      exact pushed.setInside (.of_none rfl) fun _ => onTop.below thread (by simp [inside])
  | @wakeAfterPush thread choice loop inside =>
      have woken := onTop.modifyLoop loop (Loop.wakeAfterPush (thread = loop))
        (by simpa [Loop.Plain] using onTop.loops loop)
      exact woken.setInside (.of_none rfl) fun isInside => absurd rfl isInside
  | @wakeAfterStop thread choice loop inside =>
      have woken := onTop.modifyLoop loop (Loop.wakeAfterStop (thread = loop))
        (by simpa [Loop.Plain] using onTop.loops loop)
      exact woken.setInside (.of_none rfl) fun isInside => absurd rfl isInside
  | @advance thread choice loop emitted outside idle moved =>
      have advanced := onTop.modifyLoop thread (fun _ => loop)
        ((onTop.loops thread).moves prompt moved)
      exact advanced.setCalls outside moved.prompt
  | @enter thread outside idle phase quitting =>
      refine onTop.modifyLoop thread _ ?_
      have kept := onTop.loops thread
      simpa [Loop.Plain, Loop.flight, phase, Phase.flight] using kept

end UrgentOnTop

/-- Urgent tasks are on top of their stacks in every run. -/
theorem reachable_urgentOnTop {Initial : State → Prop}
    {guard : Machine State Thread Task → Label Thread Choice → Prop}
    (prompt : client.Prompt Urgent)
    (reachable : (system client Initial).Reachable guard machine) : machine.UrgentOnTop Urgent := by
  refine reachable.invariant (UrgentOnTop Urgent) ?_ ?_
  · rintro _ ⟨state, -, rfl⟩
    constructor <;> simp [Call.Prompt, Inside.Plain, Inside.flight, Loop.Plain, Loop.flight,
      Phase.flight, Pending.flights]
  · intro machine label next _ onTop _ stepped
    exact onTop.transition prompt (step_transition stepped)

/-- The task that a transition executes, with the environment's answers. -/
def executing (machine : Machine State Thread Task) (label : Label Thread Choice) :
    Option (Task × Choice) :=
  match machine.inside label.thread, machine.calls label.thread, label.action with
  | none, .task body :: _, .proceed choice => some (body, choice)
  | _, _, _ => none

omit [DecidableEq Thread] in
/-- The thread is then not inside a library call, and the task is its next call. -/
theorem executing_top {label : Label Thread Choice} {body : Task} {choice : Choice}
    (executed : machine.executing label = some (body, choice)) :
    ∃ stack, machine.inside label.thread = none ∧ machine.calls label.thread = .task body :: stack ∧
      label.action = .proceed choice := by
  unfold executing at executed
  split at executed
  case h_1 stack chosen outside top action =>
    cases executed
    exact ⟨stack, outside, top, action⟩
  case h_2 => cases executed

/-- What the transition does then: the calls that the task makes replace it. -/
theorem executing_step {label : Label Thread Choice} {body : Task} {choice : Choice}
    (executed : machine.executing label = some (body, choice))
    (stepped : machine.step client label = some next) :
    ∃ stack state calls, machine.calls label.thread = .task body :: stack ∧
      client.exec label.thread body choice machine.client = some (state, calls) ∧
      next = { machine with client := state }.setCalls label.thread (calls ++ stack) := by
  obtain ⟨stack, outside, top, action⟩ := executing_top executed
  simp only [step, outside, top, action, call] at stepped
  obtain ⟨⟨state, calls⟩, ran, result⟩ := Option.bind_eq_some_iff.mp stepped
  cases result
  exact ⟨stack, state, calls, top, ran, rfl⟩

/-- A step that executes a task is a step of the client. -/
theorem executing_exec {label : Label Thread Choice} {body : Task} {choice : Choice}
    (executed : machine.executing label = some (body, choice))
    (stepped : machine.step client label = some next) :
    ∃ calls, client.exec label.thread body choice machine.client = some (next.client, calls) := by
  obtain ⟨stack, state, calls, -, ran, rfl⟩ := executing_step executed stepped
  exact ⟨calls, ran⟩

/-- The guard on transitions that constrains which tasks are executed in which
states of the client. -/
def onExec (guard : Thread → Task → Choice → State → Prop) (machine : Machine State Thread Task)
    (label : Label Thread Choice) : Prop :=
  ∀ executed ∈ machine.executing label,
    guard label.thread executed.1 executed.2 machine.client

instance (guard : Thread → Task → Choice → State → Prop)
    [∀ thread body choice state, Decidable (guard thread body choice state)]
    (machine : Machine State Thread Task) (label : Label Thread Choice) :
    Decidable (machine.onExec guard label) :=
  inferInstanceAs (Decidable (∀ executed ∈ machine.executing label, _))

omit [DecidableEq Thread] in
/-- Runs without a guard are runs under a guard that admits everything. -/
theorem onExec_of_unguarded (machine : Machine State Thread Task) (label : Label Thread Choice)
    (_ : LabelledSystem.unguarded machine label) : machine.onExec (fun _ _ _ _ => True) label :=
  fun _ _ => trivial

variable [Fintype Thread]

/-- Apart from the first call of its stack, no urgent task waits for a thread. -/
theorem UrgentOnTop.not_beside (onTop : machine.UrgentOnTop Urgent) {thread : Thread}
    {first : Call Thread Task} {stack : List (Call Thread Task)}
    (top : machine.calls thread = first :: stack) {task : Task} (urgent : Urgent task) :
    (thread, task) ∉ Call.flights thread stack + machine.flightBeside thread := by
  intro member
  have onStack := Call.Prompt.tail (top ▸ onTop.calls thread)
  simp only [flightBeside, insideFlight, loopFlight, Multiset.mem_add, Multiset.mem_sum,
    Finset.mem_erase, Finset.mem_univ, true_and, and_true] at member
  rcases member with own | ((⟨other, different, elsewhere⟩ | ⟨other, waiting⟩) | ⟨other, waiting⟩)
  · exact Call.plain_flight onStack own urgent
  · exact different ((onTop.calls other).located urgent elsewhere).symm
  · exact onTop.inside other _ waiting urgent
  · exact onTop.loops other _ waiting urgent

/-- An urgent task in flight is the next call of its thread. -/
theorem UrgentOnTop.head (onTop : machine.UrgentOnTop Urgent) {thread : Thread} {task : Task}
    (urgent : Urgent task) (member : (thread, task) ∈ machine.flight) :
    (machine.calls thread).head? = some (.task task) := by
  rw [flight_eq_beside thread machine] at member
  cases top : machine.calls thread with
  | nil =>
      rw [top, Call.flights_nil, zero_add] at member
      simp only [flightBeside, insideFlight, loopFlight, Multiset.mem_add, Multiset.mem_sum,
        Finset.mem_erase, Finset.mem_univ, true_and, and_true] at member
      rcases member with (⟨other, different, elsewhere⟩ | ⟨other, waiting⟩) | ⟨other, waiting⟩
      · exact absurd ((onTop.calls other).located urgent elsewhere).symm different
      · exact absurd urgent (onTop.inside other _ waiting)
      · exact absurd urgent (onTop.loops other _ waiting)
  | cons first stack =>
      rw [top, Call.flights_cons, add_assoc, Multiset.mem_add] at member
      rcases member with here | beside
      · have prompt : Call.Prompt Urgent (first :: stack) := top ▸ onTop.calls thread
        simp [(prompt.first urgent here).1]
      · exact absurd beside (onTop.not_beside top urgent)

/-- One transition of a guarded run in terms of the tasks in flight. When a task
is executed, no other urgent task waits for the same thread. -/
inductive GuardedStep (client : Client State Thread Task Choice) (Urgent : Task → Prop)
    (guard : Thread → Task → Choice → State → Prop) (machine next : Machine State Thread Task) :
    Prop where
  | executes {thread body choice calls rest}
      (before : machine.flight = {(thread, body)} + rest)
      (admitted : guard thread body choice machine.client)
      (unhurried : ∀ task, Urgent task → (thread, task) ∉ rest)
      (executed : client.exec thread body choice machine.client = some (next.client, calls))
      (after : next.flight = Call.flights thread calls + rest)
  | arrives {arrived} (same : next.client = machine.client)
      (brought : client.Arrives machine.client arrived)
      (after : next.flight = arrived + machine.flight)

/-- Every step of the machine is one of the steps that a client sees. -/
theorem guardedStep {Initial : State → Prop} {guard : Thread → Task → Choice → State → Prop}
    {past : Machine State Thread Task → Label Thread Choice → Prop} (prompt : client.Prompt Urgent)
    (reachable : (system client Initial).Reachable past machine)
    {label : Label Thread Choice} (admitted : machine.onExec guard label)
    (stepped : (system client Initial).step machine label = some next) :
    GuardedStep client Urgent guard machine next := by
  cases (step_transition stepped).flightStep with
  | @executes thread choice body stack calls _ outside top executed after =>
      have before := flight_top top
      refine .executes before (admitted (body, choice) (by simp [executing, outside, top])) ?_
        executed after
      exact fun task urgent => (reachable_urgentOnTop prompt reachable).not_beside top urgent
  | arrives same brought after => exact .arrives same brought after

/-- The guard that admits what this transition executes and nothing else. -/
def executedBy (machine : Machine State Thread Task) (label : Label Thread Choice) (thread : Thread)
    (body : Task) (choice : Choice) (_ : State) : Prop :=
  thread = label.thread ∧ machine.executing label = some (body, choice)

omit [DecidableEq Thread] [Fintype Thread] in
/-- The guard that describes one step admits it. -/
theorem onExec_executedBy (label : Label Thread Choice) :
    machine.onExec (machine.executedBy label) label :=
  fun _ executed => ⟨rfl, executed⟩

/-- The induction over guarded runs in terms of the tasks in flight. -/
theorem reachable_flight {Initial : State → Prop}
    {guard : Thread → Task → Choice → State → Prop} (prompt : client.Prompt Urgent)
    (Holds : State → Multiset (Located Thread Task) → Prop)
    (initial : ∀ state, Initial state → Holds state 0)
    (preserved : ∀ machine next, (system client Initial).Reachable (onExec guard) machine →
      GuardedStep client Urgent guard machine next → Holds machine.client machine.flight →
      Holds next.client next.flight)
    (reachable : (system client Initial).Reachable (onExec guard) machine) :
    Holds machine.client machine.flight := by
  refine reachable.invariant (fun machine => Holds machine.client machine.flight) ?_ ?_
  · rintro _ ⟨state, valid, rfl⟩
    rw [flight_initial]
    exact initial state valid
  · intro machine label next reached holds admitted stepped
    exact preserved machine next reached (guardedStep prompt reached admitted stepped) holds

/-- What a transition that executes a task does to the tasks in flight. -/
theorem executing_flight {label : Label Thread Choice} {body : Task} {choice : Choice}
    (executed : machine.executing label = some (body, choice))
    (stepped : machine.step client label = some next) :
    ∃ calls rest, client.exec label.thread body choice machine.client = some (next.client, calls) ∧
      machine.flight = {(label.thread, body)} + rest ∧
      next.flight = Call.flights label.thread calls + rest := by
  obtain ⟨stack, state, calls, top, ran, rfl⟩ := executing_step executed stepped
  refine ⟨calls, Call.flights label.thread stack + machine.flightBeside label.thread, ran,
    flight_top top, ?_⟩
  rw [flight_setCalls, Call.flights_append, add_assoc]
  rfl

/-- A task that is about to be executed is in flight. -/
theorem executing_mem_flight {label : Label Thread Choice} {body : Task} {choice : Choice}
    (executed : machine.executing label = some (body, choice)) :
    (label.thread, body) ∈ machine.flight := by
  obtain ⟨stack, -, top, -⟩ := executing_top executed
  rw [flight_top top]
  exact mem_first _ _

end Machine

end Benet.EventLoop
