import Benet.EventLoop.Latency
import Benet.Semantics.Continuation
import Mathlib.Data.Prod.Lex

/-!
# What a loop does eventually

In a run that goes on for ever a thread keeps moving when it is scheduled again and again
between two statements of `Start`: its functions return, and so does `Poll`. Every statement
brings the loop nearer to the end of the iteration, so it completes one iteration after the
other, executes what is pushed, and leaves `Start` when it is stopped.
-/

namespace Benet.EventLoop

open Semantics

variable {State Thread Task Choice : Type}

/-- What the loop has still to do in this iteration. -/
def Phase.rank : Phase Thread Task → ℕ ×ₗ ℕ
  | .idle => toLex (8, 0)
  | .head => toLex (7, 0)
  | .poll => toLex (6, 0)
  | .events rest => toLex (5, rest.length)
  | .swap => toLex (4, 0)
  | .batch _ rest => toLex (3, rest.length)
  | .release rest => toLex (2, rest.length)
  | .finish => toLex (1, 0)
  | .returned => toLex (0, 0)

/-- The loop thread is inside `Start`. -/
def Phase.InStart (phase : Phase Thread Task) : Prop :=
  phase ≠ .idle ∧ phase ≠ .returned

/-- Every statement of `Start` brings the end of the iteration nearer. -/
theorem Loop.Moves.progress {user : Task} {polled : Option (List (Active Task))}
    {loop next : Loop Thread Task} {calls : List (Call Thread Task)}
    (moves : loop.Moves user polled next calls) :
    ¬ loop.phase.InStart ∧ next = loop ∨ next.iterations = loop.iterations + 1 ∨
      next.iterations = loop.iterations ∧ next.phase.rank < loop.phase.rank := by
  cases moves with
  | outside phase => exact .inl ⟨fun inStart => not_or.mpr inStart phase, rfl⟩
  | finish => exact .inr (.inl rfl)
  | leave phase | iterate phase | poll phase | handled phase | wakeup phase | channel phase
  | swap phase | batched phase | begin phase | released phase | release phase =>
      refine .inr (.inr ⟨rfl, ?_⟩)
      simp [phase, Phase.rank, Loop.swapPendings, Prod.Lex.toLex_lt_toLex]

/-- A move leads out of `Start` only at its end. -/
theorem Loop.Moves.inStart {user : Task} {polled : Option (List (Active Task))}
    {loop next : Loop Thread Task} {calls : List (Call Thread Task)}
    (moves : loop.Moves user polled next calls) (inStart : loop.phase.InStart) :
    next.phase.InStart ∨ next.phase = .returned ∧ loop.quitting = true := by
  cases moves with
  | outside phase => exact absurd phase (not_or.mpr inStart)
  | leave _ quitting => exact .inr ⟨rfl, quitting⟩
  | iterate | poll | handled | wakeup | channel | swap | batched | begin | released | release
  | finish => exact .inl ⟨nofun, nofun⟩

/-- Iterations are never taken back. -/
theorem Loop.iterations_stable {user : Task} (count : Nat) :
    Loop.Stable user fun loop : Loop Thread Task => count ≤ loop.iterations where
  quit reached := reached
  push _ reached := reached
  wake needed reached := by rwa [Loop.wakeIf_eq]
  moves reached moves := by
    rcases moves.progress with ⟨-, rfl⟩ | completed | ⟨same, -⟩ <;> omega
  enter reached _ := reached

/-- Nor is the call of `Start`. -/
theorem Loop.entered_stable {user : Task} :
    Loop.Stable user fun loop : Loop Thread Task => loop.phase ≠ .idle where
  quit entered := entered
  push _ entered := entered
  wake needed entered := by rwa [Loop.wakeIf_eq]
  moves entered moves idle := entered (moves.eq_of_idle idle ▸ idle)
  enter _ _ := nofun

/-- Nor is the store of `Stop`. -/
theorem Loop.quitting_stable {user : Task} :
    Loop.Stable user fun loop : Loop Thread Task => loop.quitting = true where
  quit _ := rfl
  push _ stopped := stopped
  wake needed stopped := by rwa [Loop.wakeIf_eq]
  moves stopped moves := by cases moves <;> exact stopped
  enter stopped _ := stopped

namespace Machine

/-- The thread is inside no call and has none to make. -/
def Quiet (machine : Machine State Thread Task) (thread : Thread) : Prop :=
  machine.inside thread = none ∧ machine.calls thread = []

variable [DecidableEq Thread] {client : Client State Thread Task Choice} {Initial : State → Prop}
  {guard : Machine State Thread Task → Label Thread Choice → Prop}
  {machine next : Machine State Thread Task} {label : Label Thread Choice}

/-- The position of a loop and its iterations change only by statements of its own thread. -/
theorem Transition.position (transition : Transition client machine label next) (loop : Thread) :
    ((next.loops loop).phase = (machine.loops loop).phase ∧
      (next.loops loop).iterations = (machine.loops loop).iterations) ∧
        ¬ (label.thread = loop ∧ machine.Quiet loop) ∨
    label.thread = loop ∧ machine.Quiet loop ∧
      ((∃ polled calls, (machine.loops loop).Moves client.user polled (next.loops loop) calls) ∨
        (machine.loops loop).phase = .idle ∧ (next.loops loop).phase = .head ∧
          (next.loops loop).iterations = (machine.loops loop).iterations) := by
  have update : ∀ (target : Thread) (change : Loop Thread Task → Loop Thread Task),
      (∀ loop, (change loop).phase = loop.phase ∧ (change loop).iterations = loop.iterations) →
        (Function.update machine.loops target (change (machine.loops target)) loop).phase =
          (machine.loops loop).phase ∧
        (Function.update machine.loops target (change (machine.loops target)) loop).iterations =
          (machine.loops loop).iterations := by
    intro target change changed
    by_cases same : loop = target
    · subst same
      simpa using changed _
    · simp [same]
  cases transition with
  | exec _ top | runHere _ top | post _ top =>
      exact .inl ⟨⟨rfl, rfl⟩, by rintro ⟨rfl, -, none⟩; simp [none] at top⟩
  | stop _ top =>
      exact .inl ⟨update _ _ fun _ => ⟨rfl, rfl⟩, by rintro ⟨rfl, -, none⟩; simp [none] at top⟩
  | pushBack inside =>
      exact .inl ⟨update _ _ fun _ => ⟨rfl, rfl⟩, by rintro ⟨rfl, none, -⟩; simp [none] at inside⟩
  | wakeAfterPush inside | wakeAfterStop inside =>
      refine .inl ⟨update _ _ fun _ => ?_, by rintro ⟨rfl, none, -⟩; simp [none] at inside⟩
      simp [Loop.wakeAfterPush, Loop.wakeAfterStop, Loop.wakeIf_eq]
  | @advance thread choice moved calls outside idle moves =>
      by_cases same : thread = loop
      · subst same
        exact .inr ⟨rfl, ⟨outside, idle⟩, .inl ⟨_, calls, by simpa using moves⟩⟩
      · refine .inl ⟨?_, fun both => same both.1⟩
        simp [Ne.symm same]
  | @enter thread outside idle phase =>
      by_cases same : thread = loop
      · subst same
        exact .inr ⟨rfl, ⟨outside, idle⟩, .inr ⟨phase, by simp⟩⟩
      · refine .inl ⟨?_, fun both => same both.1⟩
        simp [Ne.symm same]

/-- The thread is scheduled again and again while it is inside no call: the functions that it
executes return, and so does `Poll`. -/
def KeepsMoving (continuation : Continuation (system client Initial) guard) (thread : Thread) :
    Prop :=
  ∀ index, ∃ later, index ≤ later ∧ (continuation.label later).thread = thread ∧
    (continuation.state later).Quiet thread

section Progress

variable {continuation : Continuation (system client Initial) guard} {loop : Thread} {first : Nat}

/-- A loop in `Start` completes its iteration or returns. -/
theorem completes_or_returns (moving : KeepsMoving continuation loop)
    (inStart : ((continuation.state first).loops loop).phase.InStart) :
    ∃ index, first ≤ index ∧
      (((continuation.state (index + 1)).loops loop).iterations =
          ((continuation.state index).loops loop).iterations + 1 ∨
        ((continuation.state (index + 1)).loops loop).phase = .returned) := by
  have position (index : Nat) :=
    (step_transition (continuation.transition index)).position loop
  refine continuation.eventually (fun machine => (machine.loops loop).phase.rank) ?_ ?_
  · intro index _ neither
    obtain ⟨same, -⟩ := not_or.mp neither
    rcases position index with ⟨⟨phase, -⟩, -⟩ | ⟨-, -, ⟨polled, calls, moves⟩ | ⟨idle, head, -⟩⟩
    · rw [phase]
    · rcases moves.progress with ⟨-, stays⟩ | completed | ⟨-, falls⟩
      · rw [stays]
      · exact absurd completed same
      · exact falls.le
    · rw [idle, head]
      simp [Phase.rank, Prod.Lex.toLex_le_toLex]
  · intro never index later
    have always : ∀ index, first ≤ index →
        ((continuation.state index).loops loop).phase.InStart := by
      intro index since
      refine continuation.preserves since (fun machine => (machine.loops loop).phase.InStart) ?_
        inStart
      intro middle between inside
      obtain ⟨-, notReturned⟩ := not_or.mp (never middle between)
      rcases position middle with ⟨⟨phase, -⟩, -⟩ | ⟨-, -, ⟨_, _, moves⟩ | ⟨idle, -, -⟩⟩
      · rwa [phase]
      · exact (moves.inStart inside).resolve_right fun left => notReturned left.1
      · exact absurd idle inside.1
    obtain ⟨next, after, scheduled, quiet⟩ := moving index
    have since := later.trans after
    obtain ⟨same, -⟩ := not_or.mp (never next since)
    refine ⟨next, after, ?_⟩
    rcases position next with ⟨-, unscheduled⟩ | ⟨-, -, ⟨_, _, moves⟩ | ⟨idle, -, -⟩⟩
    · exact absurd ⟨scheduled, quiet⟩ unscheduled
    · rcases moves.progress with ⟨outside, -⟩ | completed | ⟨-, falls⟩
      · exact absurd (always next since) outside
      · exact absurd completed same
      · exact falls
    · exact absurd idle (always next since).1

/-- A loop that is not stopped stays in `Start`. -/
theorem stays_inStart (inStart : ((continuation.state first).loops loop).phase.InStart)
    (running : ∀ index, first ≤ index → ((continuation.state index).loops loop).quitting = false)
    {index : Nat} (since : first ≤ index) :
    ((continuation.state index).loops loop).phase.InStart := by
  refine continuation.preserves since (fun machine => (machine.loops loop).phase.InStart) ?_ inStart
  intro middle between inside
  rcases (step_transition (continuation.transition middle)).position loop with
    ⟨⟨phase, -⟩, -⟩ | ⟨-, -, ⟨_, _, moves⟩ | ⟨idle, -, -⟩⟩
  · rwa [phase]
  · rcases moves.inStart inside with stays | ⟨-, quitting⟩
    · exact stays
    · rw [running middle between] at quitting
      cases quitting
  · exact absurd idle inside.1

private theorem iterations_le {earlier later : Nat} (order : earlier ≤ later) :
    ((continuation.state earlier).loops loop).iterations ≤
      ((continuation.state later).loops loop).iterations := by
  obtain ⟨labels, steps⟩ := continuation.steps order
  exact steps_loop_preserves (Loop.iterations_stable _) loop steps le_rfl

/-- A loop that is not stopped completes as many iterations as one likes. -/
theorem iterations_unbounded (moving : KeepsMoving continuation loop)
    (inStart : ((continuation.state first).loops loop).phase.InStart)
    (running : ∀ index, first ≤ index → ((continuation.state index).loops loop).quitting = false)
    (count : Nat) :
    ∃ index, first ≤ index ∧ ((continuation.state first).loops loop).iterations + count ≤
      ((continuation.state index).loops loop).iterations := by
  induction count with
  | zero => exact ⟨first, le_rfl, le_rfl⟩
  | succ count inductionHypothesis =>
      obtain ⟨index, since, completed⟩ := inductionHypothesis
      have inside := stays_inStart inStart running since
      obtain ⟨next, after, one | returned⟩ := completes_or_returns moving inside
      · have order : ((continuation.state index).loops loop).iterations ≤
            ((continuation.state next).loops loop).iterations := iterations_le after
        exact ⟨next + 1, by omega, by omega⟩
      · exact absurd returned (stays_inStart inStart running (by omega)).2

/-- A loop that keeps moving and is not stopped executes everything that is pushed. -/
theorem started_eventually
    (reachable : (system client Initial).Reachable guard (continuation.state 0))
    (moving : KeepsMoving continuation loop)
    (inStart : ((continuation.state first).loops loop).phase.InStart)
    (running : ∀ index, first ≤ index → ((continuation.state index).loops loop).quitting = false) :
    ∃ index, first ≤ index ∧ ((continuation.state first).loops loop).pushed <+:
      ((continuation.state index).loops loop).started := by
  obtain ⟨index, since, completed⟩ := iterations_unbounded moving inStart running 2
  obtain ⟨labels, steps⟩ := continuation.steps since
  have past := continuation.reachable reachable first
  exact ⟨index, since, steps_started past steps (Nat.le_succ _) (by simp) completed⟩

/-- A loop that keeps moving and is stopped leaves `Start`. -/
theorem returns_eventually (moving : KeepsMoving continuation loop)
    (inStart : ((continuation.state first).loops loop).phase.InStart)
    (stopped : ((continuation.state first).loops loop).quitting = true) :
    ∃ index, first ≤ index ∧ ((continuation.state index).loops loop).phase = .returned := by
  by_contra none
  have never : ∀ index, first ≤ index →
      ((continuation.state index).loops loop).phase ≠ .returned :=
    fun index since returned => none ⟨index, since, returned⟩
  have winds (index : Nat) (since : first ≤ index) :
      ((continuation.state index).loops loop).Winds
        ((continuation.state first).loops loop).iterations := by
    obtain ⟨labels, steps⟩ := continuation.steps since
    exact steps_loop_preserves Loop.Winds.stable loop steps ⟨stopped, .inl le_rfl⟩
  -- one iteration can still be completed, but not a second one
  obtain ⟨one, since, completed | returned⟩ := completes_or_returns moving inStart
  · have inside : ((continuation.state (one + 1)).loops loop).phase.InStart := by
      obtain ⟨labels, steps⟩ := continuation.steps (Nat.le_succ_of_le since)
      exact ⟨steps_loop_preserves Loop.entered_stable loop steps inStart.1, never _ (by omega)⟩
    obtain ⟨two, after, again | returned⟩ := completes_or_returns moving inside
    · have order : ((continuation.state (one + 1)).loops loop).iterations ≤
          ((continuation.state two).loops loop).iterations := iterations_le after
      have begun : ((continuation.state first).loops loop).iterations ≤
          ((continuation.state one).loops loop).iterations := iterations_le since
      rcases (winds (two + 1) (by omega)).iterations with few | ⟨last, -⟩ <;> omega
    · exact never _ (by omega) returned
  · exact never _ (by omega) returned

end Progress

end Machine

end Benet.EventLoop
