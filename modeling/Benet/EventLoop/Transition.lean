import Benet.EventLoop.Machine

/-!
# What one transition can do

`Machine.step_transition` and `Loop.advance_moves` say once, by constructors,
everything a transition can change. Results about runs split on these two
relations and never unfold the step function again.
-/

namespace Benet.EventLoop

variable {State Thread Task Choice : Type}

/-- The moves of a loop thread inside `Start`, one for each of its statements. -/
inductive Loop.Moves (user : Task) (polled : Option (List (Active Task)))
    (loop : Loop Thread Task) : Loop Thread Task → List (Call Thread Task) → Prop where
  | outside (phase : loop.phase = .idle ∨ loop.phase = .returned) :
      Moves user polled loop loop [.task user]
  | leave (phase : loop.phase = .head) (quitting : loop.quitting = true) :
      Moves user polled loop { loop with phase := .returned, running := false } []
  | iterate (phase : loop.phase = .head) (quitting : loop.quitting = false) :
      Moves user polled loop { loop with phase := .poll } []
  | poll {active} (phase : loop.phase = .poll) (returned : polled = some active)
      (readable : active.any Active.isWakeup = true → 0 < loop.wakeupCount) :
      Moves user polled loop { loop with phase := .events active, eventHanding := true } []
  | handled (phase : loop.phase = .events []) :
      Moves user polled loop
        { loop with phase := .swap, eventHanding := false, callingPendings := true } []
  | wakeup {rest} (phase : loop.phase = .events (.wakeup :: rest)) :
      Moves user polled loop { loop.resetWakeup with phase := .events rest } []
  | channel {handler rest} (phase : loop.phase = .events (.channel handler :: rest)) :
      Moves user polled loop { loop with phase := .events rest } [.task handler]
  | swap (phase : loop.phase = .swap) : Moves user polled loop loop.swapPendings []
  | batched {finished} (phase : loop.phase = .batch finished []) :
      Moves user polled loop { loop with phase := .release finished } []
  | begin {finished pending rest} (phase : loop.phase = .batch finished (pending :: rest)) :
      Moves user polled loop { loop with
        phase := .batch (finished ++ [pending]) rest
        started := loop.started ++ [pending] } [.task pending.functor]
  | released (phase : loop.phase = .release []) :
      Moves user polled loop { loop with phase := .finish } []
  | release {pending rest} (phase : loop.phase = .release (pending :: rest)) :
      Moves user polled loop { loop with phase := .release rest } [.task user]
  | finish (phase : loop.phase = .finish) :
      Moves user polled loop { loop with
        phase := .head
        callingPendings := false
        iterations := loop.iterations + 1 } []

/-- `advance` performs one of the moves. -/
theorem Loop.advance_moves {user : Task} {polled : Option (List (Active Task))}
    {loop next : Loop Thread Task} {calls : List (Call Thread Task)}
    (advanced : loop.advance user polled = some (next, calls)) :
    loop.Moves user polled next calls := by
  unfold Loop.advance at advanced
  split at advanced
  case h_1 phase => cases advanced; exact .outside (.inl phase)
  case h_2 phase => cases advanced; exact .outside (.inr phase)
  case h_3 phase =>
    split at advanced
    case isTrue quitting => cases advanced; exact .leave phase quitting
    case isFalse quitting =>
      cases advanced
      exact .iterate phase (Bool.eq_false_iff.mpr quitting)
  case h_4 phase =>
    obtain ⟨active, returned, accepted⟩ := Option.bind_eq_some_iff.mp advanced
    split at accepted
    case isTrue => cases accepted
    case isFalse readable =>
      cases accepted
      refine .poll phase returned fun wakeup => ?_
      simp only [wakeup, Bool.true_and, beq_iff_eq] at readable
      omega
  case h_5 phase => cases advanced; exact .handled phase
  case h_6 phase => cases advanced; exact .wakeup phase
  case h_7 phase => cases advanced; exact .channel phase
  case h_8 phase => cases advanced; exact .swap phase
  case h_9 phase => cases advanced; exact .batched phase
  case h_10 phase => cases advanced; exact .begin phase
  case h_11 phase => cases advanced; exact .released phase
  case h_12 phase => cases advanced; exact .release phase
  case h_13 phase => cases advanced; exact .finish phase

/-- No statement of `Start` leads back to the time before it. -/
theorem Loop.Moves.eq_of_idle {user : Task} {polled : Option (List (Active Task))}
    {loop next : Loop Thread Task} {calls : List (Call Thread Task)}
    (moves : loop.Moves user polled next calls) (idle : next.phase = .idle) : next = loop := by
  cases moves with
  | outside => rfl
  | leave | iterate | poll | handled | wakeup | channel | swap | batched | begin | released
  | release | finish => cases idle

/-- Entering `Start` needs a loop that was never started and not stopped. -/
theorem Loop.enter_eq {loop next : Loop Thread Task} (entered : loop.enter = some next) :
    loop.phase = .idle ∧ loop.quitting = false ∧
      next = { loop with phase := .head, running := true } := by
  unfold Loop.enter at entered
  split at entered
  case h_1 phase _ quitting => cases entered; exact ⟨phase, quitting, rfl⟩
  case h_2 => cases entered

/-- A property of one loop that everything that can happen to the loop keeps:
pushes, the store of `Stop`, writes to the eventfd, the moves of its thread and
the entry into `Start`. -/
structure Loop.Stable (user : Task) (Holds : Loop Thread Task → Prop) : Prop where
  quit : ∀ {loop}, Holds loop → Holds loop.quit
  push : ∀ {loop} pending, Holds loop → Holds (loop.push pending)
  wake : ∀ {loop} needed, Holds loop → Holds (loop.wakeIf needed)
  moves : ∀ {loop polled moved calls}, Holds loop →
    Loop.Moves user polled loop moved calls → Holds moved
  enter : ∀ {loop}, Holds loop → loop.phase = .idle →
    Holds { loop with phase := .head, running := true }

/-- Waking is a change of the count alone, whether it takes place or not. -/
theorem Loop.wakeIf_eq (needed : Bool) (loop : Loop Thread Task) :
    loop.wakeIf needed = { loop with wakeupCount := loop.wakeupCount + needed.toNat } := by
  cases needed <;> rfl

variable [DecidableEq Thread]

namespace Machine

section Fields

variable (machine : Machine State Thread Task) (thread loop : Thread) (functor : Task)

@[simp] theorem setCalls_client (calls) : (machine.setCalls thread calls).client = machine.client :=
  rfl

@[simp] theorem setCalls_loops (calls) : (machine.setCalls thread calls).loops = machine.loops :=
  rfl

@[simp] theorem setCalls_calls (calls) :
    (machine.setCalls thread calls).calls = Function.update machine.calls thread calls := rfl

@[simp] theorem setCalls_inside (calls) : (machine.setCalls thread calls).inside = machine.inside :=
  rfl

@[simp] theorem setCalls_posted (calls) : (machine.setCalls thread calls).posted = machine.posted :=
  rfl

/-- Not changing the calls of a thread is no change. -/
theorem setCalls_self : machine.setCalls thread (machine.calls thread) = machine := by
  simp [setCalls]

@[simp] theorem setInside_client (point) :
    (machine.setInside thread point).client = machine.client := rfl

@[simp] theorem setInside_loops (point) :
    (machine.setInside thread point).loops = machine.loops := rfl

@[simp] theorem setInside_calls (point) :
    (machine.setInside thread point).calls = machine.calls := rfl

@[simp] theorem setInside_inside (point) :
    (machine.setInside thread point).inside = Function.update machine.inside thread point := rfl

@[simp] theorem setInside_posted (point) :
    (machine.setInside thread point).posted = machine.posted := rfl

@[simp] theorem modifyLoop_client (change) :
    (machine.modifyLoop loop change).client = machine.client := rfl

@[simp] theorem modifyLoop_loops (change) :
    (machine.modifyLoop loop change).loops =
      Function.update machine.loops loop (change (machine.loops loop)) := rfl

@[simp] theorem modifyLoop_calls (change) :
    (machine.modifyLoop loop change).calls = machine.calls := rfl

@[simp] theorem modifyLoop_inside (change) :
    (machine.modifyLoop loop change).inside = machine.inside := rfl

@[simp] theorem modifyLoop_posted (change) :
    (machine.modifyLoop loop change).posted = machine.posted := rfl

@[simp] theorem enterQueueInLoop_client :
    (machine.enterQueueInLoop thread loop functor).client = machine.client := rfl

@[simp] theorem enterQueueInLoop_loops :
    (machine.enterQueueInLoop thread loop functor).loops = machine.loops := rfl

@[simp] theorem enterQueueInLoop_calls :
    (machine.enterQueueInLoop thread loop functor).calls = machine.calls := rfl

@[simp] theorem enterQueueInLoop_inside :
    (machine.enterQueueInLoop thread loop functor).inside =
      Function.update machine.inside thread (some (.pushBack loop functor)) := rfl

@[simp] theorem enterQueueInLoop_posted :
    (machine.enterQueueInLoop thread loop functor).posted =
      Function.update machine.posted thread (Function.update (machine.posted thread) loop
        (machine.posted thread loop ++ [functor])) := rfl

end Fields

section Positions

variable {machine : Machine State Thread Task} {thread other : Thread}
  {point : Option (Inside Thread Task)} {position : Inside Thread Task}

/-- A thread at a position that the one that moves does not go to was there before. -/
theorem inside_of_setInside (arrived : point ≠ some position)
    (inside : (machine.setInside thread point).inside other = some position) :
    machine.inside other = some position := by
  have elsewhere : other ≠ thread := by
    rintro rfl
    exact arrived (by simpa using inside)
  simpa [elsewhere] using inside

/-- A thread at a position that the one that moves does not come from stays there. -/
theorem setInside_of_inside (left : machine.inside thread ≠ some position)
    (inside : machine.inside other = some position) :
    (machine.setInside thread point).inside other = some position := by
  have elsewhere : other ≠ thread := by
    rintro rfl
    exact left inside
  simpa [elsewhere] using inside

end Positions

/-- The transitions of the machine: a client task, the calls of the event loop
and the points inside them, and the moves of a loop thread without a call. -/
inductive Transition (client : Client State Thread Task Choice)
    (machine : Machine State Thread Task) :
    Label Thread Choice → Machine State Thread Task → Prop where
  | exec {thread choice body rest state calls}
      (outside : machine.inside thread = none)
      (top : machine.calls thread = .task body :: rest)
      (executed : client.exec thread body choice machine.client = some (state, calls)) :
      Transition client machine ⟨thread, .proceed choice⟩
        ({ machine with client := state }.setCalls thread (calls ++ rest))
  | runHere {thread choice functor rest}
      (outside : machine.inside thread = none)
      (top : machine.calls thread = .runInLoop thread functor :: rest) :
      Transition client machine ⟨thread, .proceed choice⟩
        (machine.setCalls thread (.task functor :: rest))
  | post {thread choice loop functor next rest}
      (outside : machine.inside thread = none)
      (top : machine.calls thread = next :: rest)
      (posts : next = .runInLoop loop functor ∧ thread ≠ loop ∨
        next = .queueInLoop loop functor) :
      Transition client machine ⟨thread, .proceed choice⟩
        ((machine.setCalls thread rest).enterQueueInLoop thread loop functor)
  | stop {thread choice loop rest}
      (outside : machine.inside thread = none)
      (top : machine.calls thread = .stop loop :: rest) :
      Transition client machine ⟨thread, .proceed choice⟩
        (((machine.setCalls thread rest).modifyLoop loop Loop.quit).setInside thread
          (some (.wakeAfterStop loop)))
  | pushBack {thread choice loop functor}
      (inside : machine.inside thread = some (.pushBack loop functor)) :
      Transition client machine ⟨thread, .proceed choice⟩
        ((machine.modifyLoop loop (Loop.push ⟨thread, functor⟩)).setInside thread
          (some (.wakeAfterPush loop)))
  | wakeAfterPush {thread choice loop}
      (inside : machine.inside thread = some (.wakeAfterPush loop)) :
      Transition client machine ⟨thread, .proceed choice⟩
        ((machine.modifyLoop loop (Loop.wakeAfterPush (thread = loop))).setInside thread none)
  | wakeAfterStop {thread choice loop}
      (inside : machine.inside thread = some (.wakeAfterStop loop)) :
      Transition client machine ⟨thread, .proceed choice⟩
        ((machine.modifyLoop loop (Loop.wakeAfterStop (thread = loop))).setInside thread none)
  | advance {thread choice loop calls}
      (outside : machine.inside thread = none) (idle : machine.calls thread = [])
      (moves : (machine.loops thread).Moves client.user
        (client.poll thread choice machine.client) loop calls) :
      Transition client machine ⟨thread, .proceed choice⟩
        ((machine.modifyLoop thread fun _ => loop).setCalls thread calls)
  | enter {thread}
      (outside : machine.inside thread = none) (idle : machine.calls thread = [])
      (phase : (machine.loops thread).phase = .idle)
      (quitting : (machine.loops thread).quitting = false) :
      Transition client machine ⟨thread, .start⟩
        (machine.modifyLoop thread fun loop => { loop with phase := .head, running := true })

/-- Every computed step is one of the transitions. -/
theorem step_transition {client : Client State Thread Task Choice}
    {machine next : Machine State Thread Task} {label : Label Thread Choice}
    (stepped : machine.step client label = some next) :
    Transition client machine label next := by
  obtain ⟨thread, action⟩ := label
  unfold step at stepped
  dsimp only at stepped
  split at stepped
  case h_1 point _ inside =>
    cases stepped
    cases point with
    | pushBack => exact .pushBack inside
    | wakeAfterPush => exact .wakeAfterPush inside
    | wakeAfterStop => exact .wakeAfterStop inside
  case h_2 call rest choice outside top =>
    cases call with
    | task body =>
        obtain ⟨⟨state, calls⟩, executed, result⟩ := Option.bind_eq_some_iff.mp stepped
        cases result
        exact .exec outside top executed
    | runInLoop loop functor =>
        simp only [Machine.call] at stepped
        split at stepped
        case isTrue same =>
          cases stepped
          subst same
          exact .runHere outside top
        case isFalse other =>
          cases stepped
          exact .post outside top (.inl ⟨rfl, other⟩)
    | queueInLoop loop functor =>
        cases stepped
        exact .post outside top (.inr rfl)
    | stop loop =>
        cases stepped
        exact .stop outside top
  case h_3 choice outside idle =>
    obtain ⟨⟨loop, calls⟩, advanced, result⟩ := Option.bind_eq_some_iff.mp stepped
    cases result
    exact .advance outside idle (Loop.advance_moves advanced)
  case h_4 outside idle =>
    obtain ⟨loop, entered, result⟩ := Option.bind_eq_some_iff.mp stepped
    cases result
    obtain ⟨phase, quitting, rfl⟩ := Loop.enter_eq entered
    exact .enter outside idle phase quitting
  case h_5 => cases stepped

/-- Every transition keeps a stable property of one loop. -/
theorem Transition.loop_preserves {client : Client State Thread Task Choice}
    {machine next : Machine State Thread Task} {label : Label Thread Choice}
    {Holds : Loop Thread Task → Prop} (transition : Transition client machine label next)
    (stable : Loop.Stable client.user Holds) (loop : Thread)
    (holds : Holds (machine.loops loop)) : Holds (next.loops loop) := by
  have update : ∀ (target : Thread) (change : Loop Thread Task → Loop Thread Task),
      (loop = target → Holds (change (machine.loops loop))) →
        Holds (Function.update machine.loops target (change (machine.loops target)) loop) := by
    intro target change changed
    by_cases same : loop = target
    · subst same
      simpa using changed rfl
    · simpa [same] using holds
  cases transition with
  | exec | runHere | post => exact holds
  | stop => exact update _ _ fun _ => stable.quit holds
  | pushBack => exact update _ _ fun _ => stable.push _ holds
  | wakeAfterPush => exact update _ _ fun _ => stable.wake _ holds
  | wakeAfterStop => exact update _ _ fun _ => stable.wake _ holds
  | @advance thread choice moved calls _ _ moved' =>
      refine update thread (fun _ => moved) ?_
      rintro rfl
      exact stable.moves holds moved'
  | @enter thread _ _ phase =>
      refine update thread (fun loop => { loop with phase := .head, running := true }) ?_
      rintro rfl
      exact stable.enter holds phase

/-- So does a whole execution. -/
theorem steps_loop_preserves {client : Client State Thread Task Choice} {Initial : State → Prop}
    {guard : Machine State Thread Task → Label Thread Choice → Prop}
    {start finish : Machine State Thread Task} {labels : List (Label Thread Choice)}
    {Holds : Loop Thread Task → Prop} (stable : Loop.Stable client.user Holds) (loop : Thread)
    (steps : (system client Initial).Steps guard start labels finish)
    (holds : Holds (start.loops loop)) : Holds (finish.loops loop) :=
  steps.preserves (fun machine => Holds (machine.loops loop))
    (fun _ _ _ kept _ stepped => (step_transition stepped).loop_preserves stable loop kept) holds

end Machine

end Benet.EventLoop
