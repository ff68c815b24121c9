import Benet.Semantics.Execution
import Mathlib.Logic.Function.Basic
import Mathlib.Data.Fintype.Basic

/-!
# The event loop and its threads

`EventLoop::Start`, `Stop`, `RunInLoop` and `QueueInLoop` as one machine. Every
thread owns at most one loop, so a loop is named by its thread and
`IsInLoopThread()` is an equality of names. What the loops run is left open: a
`Client` supplies the tasks, what executing a task does, and what `Poll` may
return, so a result about the machine holds for every program built on it.

One transition performs at most one access to data that another thread can see
(`pendings_` under its mutex, `quitting_`, the eventfd, the client's shared
state). A thread's unfinished work is its stack of `Call`s and, while it is in
the middle of one, the point `Inside` it; the loop's own position inside `Start`
is its `Phase`.
-/

namespace Benet.EventLoop

/-- An entry of `active_channels_`: the loop's own wakeup channel, or a channel
of the client together with the task that handles it. -/
inductive Active (Task : Type) where
  | wakeup
  | channel (handler : Task)
deriving DecidableEq, Repr

/-- Whether the entry is the eventfd's channel. -/
def Active.isWakeup {Task : Type} : Active Task → Bool
  | .wakeup => true
  | .channel _ => false

/-- A functor in `pendings_`. The poster is history only: no transition reads it. -/
structure Pending (Thread Task : Type) where
  poster : Thread
  functor : Task
deriving DecidableEq, Repr

/-- A call that a thread has still to make. -/
inductive Call (Thread Task : Type) where
  | task (body : Task)
  | runInLoop (loop : Thread) (functor : Task)
  | queueInLoop (loop : Thread) (functor : Task)
  | stop (loop : Thread)
deriving DecidableEq, Repr

/-- A point inside `QueueInLoop` (before the push, and between the push and the
wakeup) or inside `Stop` (between the store and the wakeup) where other threads
may run. -/
inductive Inside (Thread Task : Type) where
  | pushBack (loop : Thread) (functor : Task)
  | wakeAfterPush (loop : Thread)
  | wakeAfterStop (loop : Thread)
deriving DecidableEq, Repr

/-- Where the loop thread stands inside `Start`. `batch` keeps the functors of
`tmp_pendings` that have run, because they are destroyed only after the last one
has returned; `release` is that destruction. -/
inductive Phase (Thread Task : Type) where
  | idle
  | head
  | poll
  | events (rest : List (Active Task))
  | swap
  | batch (finished rest : List (Pending Thread Task))
  | release (rest : List (Pending Thread Task))
  | finish
  | returned
deriving DecidableEq, Repr

/-- An `EventLoop`. The fields after `wakeupCount` are history: how many
iterations of `Start` were completed, every functor ever pushed, those whose
execution from the queue has begun, and how many had been pushed at the last
swap. -/
structure Loop (Thread Task : Type) where
  phase : Phase Thread Task := .idle
  running : Bool := false
  quitting : Bool := false
  eventHanding : Bool := false
  callingPendings : Bool := false
  pendings : List (Pending Thread Task) := []
  wakeupCount : Nat := 0
  iterations : Nat := 0
  pushed : List (Pending Thread Task) := []
  started : List (Pending Thread Task) := []
  swapped : Nat := 0
deriving DecidableEq, Repr

/-- The program that runs on the loops. `user` is code the machine may enter on
its own: a thread outside `Start`, or the destructor of a finished functor. -/
structure Client (State Thread Task Choice : Type) where
  user : Task
  exec : Thread → Task → Choice → State → Option (State × List (Call Thread Task))
  poll : Thread → Choice → State → Option (List (Active Task))

/-- The answers of the environment to the free client. -/
abbrev FreeChoice (Thread Task : Type) : Type := List (Call Thread Task) × List (Active Task)

/-- The client that leaves everything to the schedule: the choice lists the calls
a task makes and the channels `Poll` returns. -/
def Client.free {Thread Task : Type} (user : Task) :
    Client Unit Thread Task (FreeChoice Thread Task) where
  user := user
  exec _ _ choice state := some (state, choice.1)
  poll _ choice _ := some choice.2

namespace Loop

variable {Thread Task : Type}

/-- `set_wakeup`: the eventfd counts the writes since it was last read. -/
def setWakeup (loop : Loop Thread Task) : Loop Thread Task :=
  { loop with wakeupCount := loop.wakeupCount + 1 }

/-- `reset_wakeup`: one read takes the whole count. -/
def resetWakeup (loop : Loop Thread Task) : Loop Thread Task :=
  { loop with wakeupCount := 0 }

/-- `pendings_.push_back` under `pendings_mutex_`. -/
def push (pending : Pending Thread Task) (loop : Loop Thread Task) : Loop Thread Task :=
  { loop with
    pendings := loop.pendings ++ [pending]
    pushed := loop.pushed ++ [pending] }

/-- `tmp_pendings.swap(pendings_)` under `pendings_mutex_`. -/
def swapPendings (loop : Loop Thread Task) : Loop Thread Task :=
  { loop with
    phase := .batch [] loop.pendings
    pendings := []
    swapped := loop.pushed.length }

/-- Call `set_wakeup` under a condition. -/
def wakeIf (needed : Bool) (loop : Loop Thread Task) : Loop Thread Task :=
  if needed then loop.setWakeup else loop

/-- The tail of `QueueInLoop`: `if (!IsInLoopThread() || calling_pendings_)`. -/
def wakeAfterPush (inLoopThread : Bool) (loop : Loop Thread Task) : Loop Thread Task :=
  loop.wakeIf (!inLoopThread || loop.callingPendings)

/-- The tail of `Stop`: `if (!IsInLoopThread()) set_wakeup();`. -/
def wakeAfterStop (inLoopThread : Bool) (loop : Loop Thread Task) : Loop Thread Task :=
  loop.wakeIf (!inLoopThread)

/-- The store of `Stop`. -/
def quit (loop : Loop Thread Task) : Loop Thread Task := { loop with quitting := true }

/-- Entering `Start`; its two assertions stop the process when they fail. -/
def enter (loop : Loop Thread Task) : Option (Loop Thread Task) :=
  match loop.phase, loop.running, loop.quitting with
  | .idle, false, false => some { loop with phase := .head, running := true }
  | _, _, _ => none

/-- One step of the loop thread inside `Start`, with the calls it then has to
make before the next one. `polled` is what `Poll` returns if it is called
now; the eventfd is among the ready descriptors only while its count is
positive. -/
def advance (user : Task) (polled : Option (List (Active Task))) (loop : Loop Thread Task) :
    Option (Loop Thread Task × List (Call Thread Task)) :=
  match loop.phase with
  | .idle | .returned => some (loop, [.task user])
  | .head =>
      if loop.quitting then some ({ loop with phase := .returned, running := false }, [])
      else some ({ loop with phase := .poll }, [])
  | .poll => do
      let active ← polled
      if active.any Active.isWakeup && loop.wakeupCount == 0 then none
      else some ({ loop with phase := .events active, eventHanding := true }, [])
  | .events [] =>
      some ({ loop with phase := .swap, eventHanding := false, callingPendings := true }, [])
  | .events (.wakeup :: rest) => some ({ loop.resetWakeup with phase := .events rest }, [])
  | .events (.channel handler :: rest) =>
      some ({ loop with phase := .events rest }, [.task handler])
  | .swap => some (loop.swapPendings, [])
  | .batch finished [] => some ({ loop with phase := .release finished }, [])
  | .batch finished (pending :: rest) =>
      some ({ loop with
        phase := .batch (finished ++ [pending]) rest
        started := loop.started ++ [pending] }, [.task pending.functor])
  | .release [] => some ({ loop with phase := .finish }, [])
  | .release (_ :: rest) => some ({ loop with phase := .release rest }, [.task user])
  | .finish =>
      some ({ loop with
        phase := .head
        callingPendings := false
        iterations := loop.iterations + 1 }, [])

end Loop

/-- The whole process: the client's state, the loops, the calls each thread has
still to make, the call it is inside of, and (history) the functors each thread
posted to each loop, in its program order. -/
structure Machine (State Thread Task : Type) where
  client : State
  loops : Thread → Loop Thread Task := fun _ => {}
  calls : Thread → List (Call Thread Task) := fun _ => []
  inside : Thread → Option (Inside Thread Task) := fun _ => none
  posted : Thread → Thread → List Task := fun _ _ => []

/-- What the scheduler lets a thread do: enter `Start`, or continue with the
environment's answers fixed by `choice`. -/
inductive Action (Choice : Type) where
  | start
  | proceed (choice : Choice)
deriving DecidableEq, Repr

/-- A transition is one action of one thread. -/
structure Label (Thread Choice : Type) where
  thread : Thread
  action : Action Choice
deriving DecidableEq, Repr

/-- A thread continues; the schedule fixes the calls its task makes. -/
def Label.calls {Thread Task : Type} (thread : Thread) (calls : List (Call Thread Task)) :
    Label Thread (FreeChoice Thread Task) :=
  ⟨thread, .proceed (calls, [])⟩

/-- A thread continues; the schedule fixes what `Poll` returns. -/
def Label.polls {Thread Task : Type} (thread : Thread) (active : List (Active Task)) :
    Label Thread (FreeChoice Thread Task) :=
  ⟨thread, .proceed ([], active)⟩

variable {State Thread Task Choice : Type} [DecidableEq Thread]

namespace Machine

/-- Replace the calls a thread has still to make. -/
def setCalls (thread : Thread) (calls : List (Call Thread Task))
    (machine : Machine State Thread Task) : Machine State Thread Task :=
  { machine with calls := Function.update machine.calls thread calls }

/-- Move a thread to a point inside a call, or out of it. -/
def setInside (thread : Thread) (point : Option (Inside Thread Task))
    (machine : Machine State Thread Task) : Machine State Thread Task :=
  { machine with inside := Function.update machine.inside thread point }

/-- Change one loop. -/
def modifyLoop (loop : Thread) (change : Loop Thread Task → Loop Thread Task)
    (machine : Machine State Thread Task) : Machine State Thread Task :=
  { machine with loops := Function.update machine.loops loop (change (machine.loops loop)) }

/-- Enter `QueueInLoop`, directly or through `RunInLoop`. -/
def enterQueueInLoop (poster loop : Thread) (functor : Task)
    (machine : Machine State Thread Task) : Machine State Thread Task :=
  { machine with
    inside := Function.update machine.inside poster (some (.pushBack loop functor))
    posted := Function.update machine.posted poster
      (Function.update (machine.posted poster) loop (machine.posted poster loop ++ [functor])) }

/-- Make the next call of `thread`; `rest` comes after it. -/
def call (client : Client State Thread Task Choice) (thread : Thread) (choice : Choice)
    (rest : List (Call Thread Task)) (machine : Machine State Thread Task) :
    Call Thread Task → Option (Machine State Thread Task)
  | .task body => do
      let (state, calls) ← client.exec thread body choice machine.client
      some ({ machine with client := state }.setCalls thread (calls ++ rest))
  | .runInLoop loop functor =>
      if thread = loop then some (machine.setCalls thread (.task functor :: rest))
      else some ((machine.setCalls thread rest).enterQueueInLoop thread loop functor)
  | .queueInLoop loop functor =>
      some ((machine.setCalls thread rest).enterQueueInLoop thread loop functor)
  | .stop loop =>
      some (((machine.setCalls thread rest).modifyLoop loop Loop.quit).setInside thread
        (some (.wakeAfterStop loop)))

/-- Continue from a point inside a call. -/
def resume (thread : Thread) (machine : Machine State Thread Task) :
    Inside Thread Task → Machine State Thread Task
  | .pushBack loop functor =>
      (machine.modifyLoop loop (Loop.push ⟨thread, functor⟩)).setInside thread
        (some (.wakeAfterPush loop))
  | .wakeAfterPush loop =>
      (machine.modifyLoop loop (Loop.wakeAfterPush (thread = loop))).setInside thread none
  | .wakeAfterStop loop =>
      (machine.modifyLoop loop (Loop.wakeAfterStop (thread = loop))).setInside thread none

/-- One transition. A thread finishes the call it is inside of, then makes the
calls it has still to make; when there are none, the loop it owns moves on. -/
def step (client : Client State Thread Task Choice) (machine : Machine State Thread Task)
    (label : Label Thread Choice) : Option (Machine State Thread Task) :=
  let thread := label.thread
  match machine.inside thread, machine.calls thread, label.action with
  | some point, _, .proceed _ => some (machine.resume thread point)
  | none, next :: rest, .proceed choice => machine.call client thread choice rest next
  | none, [], .proceed choice => do
      let (loop, calls) ← (machine.loops thread).advance client.user
        (client.poll thread choice machine.client)
      some ((machine.modifyLoop thread fun _ => loop).setCalls thread calls)
  | none, [], .start => do
      let loop ← (machine.loops thread).enter
      some (machine.modifyLoop thread fun _ => loop)
  | _, _, .start => none

/-- The machine of a client as a labelled system; at first no loop runs. -/
def system (client : Client State Thread Task Choice) (Initial : State → Prop) :
    Semantics.LabelledSystem (Machine State Thread Task) (Label Thread Choice) where
  Initial machine := ∃ state, Initial state ∧ machine = { client := state }
  step := step client

end Machine

/-- The threads of the concrete runs: a loop thread `0` and another thread `1`. -/
inductive TwoThreads where
  | zero
  | one
deriving DecidableEq, Repr

instance : Fintype TwoThreads where
  elems := {.zero, .one}
  complete thread := by cases thread <;> simp

instance : OfNat TwoThreads 0 := ⟨.zero⟩

instance : OfNat TwoThreads 1 := ⟨.one⟩

namespace Machine

/-- Two threads of the free client, with numbers for tasks. -/
abbrev freeSystem : Semantics.LabelledSystem (Machine Unit TwoThreads Nat)
    (Label TwoThreads (FreeChoice TwoThreads Nat)) :=
  system (Client.free 0) fun _ => True

end Machine

end Benet.EventLoop
