import Benet.EventLoop.Urgent
import Benet.Semantics.Blindness

/-!
# The fields of a loop that only its own thread accesses

Of an `EventLoop` other threads access `pendings_`, under its mutex, `quitting_` and the
eventfd. They are blind for the rest, and a step of theirs is blind for whatever the client's
functions are blind for (`Machine.step_withOwn`).
-/

namespace Benet.EventLoop

open Semantics

variable {State Thread Task Choice : Type}

/-- The fields of an `EventLoop` that belong to its thread: the position inside `Start`, with
what is left of `active_channels_` and `tmp_pendings`, and the flags. -/
structure Loop.Own (Thread Task : Type) where
  phase : Phase Thread Task
  running : Bool
  eventHanding : Bool
  callingPendings : Bool

def Loop.withOwn (own : Loop.Own Thread Task) (loop : Loop Thread Task) : Loop Thread Task :=
  { loop with
    phase := own.phase
    running := own.running
    eventHanding := own.eventHanding
    callingPendings := own.callingPendings }

namespace Machine

variable [DecidableEq Thread]

/-- Change the state of the client and the fields that belong to the thread `owner`. -/
def withOwn (owner : Thread) (own : Loop.Own Thread Task) (change : State → State)
    (machine : Machine State Thread Task) : Machine State Thread Task :=
  { machine with
    client := change machine.client
    loops := Function.update machine.loops owner ((machine.loops owner).withOwn own) }

variable {client : Client State Thread Task Choice} {machine : Machine State Thread Task}
  {owner thread : Thread} {own : Loop.Own Thread Task} {change : State → State}

private theorem withOwn_loops_other (other : thread ≠ owner) :
    (machine.withOwn owner own change).loops thread = machine.loops thread :=
  Function.update_of_ne other _ _

private theorem withOwn_modifyLoop {loop : Thread} {move : Loop Thread Task → Loop Thread Task}
    (blind : loop = owner →
      move ((machine.loops owner).withOwn own) = (move (machine.loops owner)).withOwn own) :
    (machine.withOwn owner own change).modifyLoop loop move =
      (machine.modifyLoop loop move).withOwn owner own change := by
  by_cases same : loop = owner
  · subst same
    simp [withOwn, modifyLoop, blind rfl]
  · simp only [withOwn, modifyLoop, Function.update_of_ne same,
      Function.update_of_ne (Ne.symm same), Function.update_comm same]

/-- The rest of `QueueInLoop` and `Stop` in another thread. -/
private theorem resume_withOwn (other : thread ≠ owner) (point : Inside Thread Task) :
    (machine.withOwn owner own change).resume thread point =
      (machine.resume thread point).withOwn owner own change := by
  cases point with
  | pushBack loop functor =>
      have moved : (machine.withOwn owner own change).modifyLoop loop (Loop.push ⟨thread, functor⟩) =
          (machine.modifyLoop loop (Loop.push ⟨thread, functor⟩)).withOwn owner own change :=
        withOwn_modifyLoop fun _ => rfl
      simp only [resume, moved]
      rfl
  | wakeAfterPush loop =>
      have moved : (machine.withOwn owner own change).modifyLoop loop
          (Loop.wakeAfterPush (thread = loop)) =
          (machine.modifyLoop loop (Loop.wakeAfterPush (thread = loop))).withOwn owner own
            change := by
        -- only the thread itself reads `calling_pendings_` here
        refine withOwn_modifyLoop ?_
        rintro rfl
        simp [Loop.wakeAfterPush, Loop.wakeIf, other, Loop.setWakeup, Loop.withOwn]
      simp only [resume, moved]
      rfl
  | wakeAfterStop loop =>
      have moved : (machine.withOwn owner own change).modifyLoop loop
          (Loop.wakeAfterStop (thread = loop)) =
          (machine.modifyLoop loop (Loop.wakeAfterStop (thread = loop))).withOwn owner own
            change := by
        refine withOwn_modifyLoop ?_
        rintro rfl
        simp [Loop.wakeAfterStop, Loop.wakeIf, other, Loop.setWakeup, Loop.withOwn]
      simp only [resume, moved]
      rfl

/-- The next call of another thread. -/
private theorem call_withOwn {choice : Choice} {rest : List (Call Thread Task)}
    {next : Call Thread Task}
    (exec : ∀ body, next = .task body →
      client.exec thread body choice (change machine.client) =
        (client.exec thread body choice machine.client).map fun result => (change result.1, result.2)) :
    (machine.withOwn owner own change).call client thread choice rest next =
      (machine.call client thread choice rest next).map (withOwn owner own change) := by
  cases next with
  | task body =>
      have executed : client.exec thread body choice (machine.withOwn owner own change).client =
          (client.exec thread body choice machine.client).map fun result => (change result.1, result.2) :=
        exec body rfl
      simp only [call, executed]
      cases client.exec thread body choice machine.client <;> rfl
  | runInLoop loop functor =>
      simp only [call]
      split <;> rfl
  | queueInLoop => rfl
  | stop loop =>
      have moved : ((machine.setCalls thread rest).withOwn owner own change).modifyLoop loop
          Loop.quit =
          ((machine.setCalls thread rest).modifyLoop loop Loop.quit).withOwn owner own change :=
        withOwn_modifyLoop fun _ => rfl
      exact congrArg (fun machine => some (setInside thread (some (.wakeAfterStop loop)) machine))
        moved

/-- A step of another thread is blind for the own fields of a loop and for every change that
the client's functions are blind for. -/
theorem step_withOwn {label : Label Thread Choice} (other : label.thread ≠ owner)
    (exec : ∀ body choice, machine.executing label = some (body, choice) →
      client.exec label.thread body choice (change machine.client) =
        (client.exec label.thread body choice machine.client).map fun result => (change result.1, result.2))
    (poll : ∀ choice, client.poll label.thread choice (change machine.client) =
      client.poll label.thread choice machine.client) :
    (machine.withOwn owner own change).step client label =
      (machine.step client label).map (withOwn owner own change) := by
  obtain ⟨thread, action⟩ := label
  have loops : (machine.withOwn owner own change).loops thread = machine.loops thread :=
    withOwn_loops_other other
  have moved (loop : Loop Thread Task) :
      (machine.withOwn owner own change).modifyLoop thread (fun _ => loop) =
        (machine.modifyLoop thread fun _ => loop).withOwn owner own change :=
    withOwn_modifyLoop fun same => absurd same other
  have inside : (machine.withOwn owner own change).inside = machine.inside := rfl
  have calls : (machine.withOwn owner own change).calls = machine.calls := rfl
  have state : (machine.withOwn owner own change).client = change machine.client := rfl
  unfold step
  simp only [inside, calls, loops, moved, state, poll]
  cases point : machine.inside thread with
  | some position =>
      cases action with
      | start => rfl
      | proceed choice => exact congrArg some (resume_withOwn other position)
  | none =>
      cases stack : machine.calls thread with
      | cons next rest =>
          cases action with
          | start => rfl
          | proceed choice =>
              refine call_withOwn fun body top => exec body choice ?_
              simp [executing, point, stack, top]
      | nil =>
          cases action with
          | start =>
              dsimp only
              cases (machine.loops thread).enter <;> rfl
          | proceed choice =>
              dsimp only
              cases (machine.loops thread).advance client.user
                (client.poll thread choice machine.client) <;> rfl

end Machine

end Benet.EventLoop
