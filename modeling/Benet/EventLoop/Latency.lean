import Benet.EventLoop.Stop

/-!
# How long a functor waits

A functor that has been pushed waits for the next swap, and the batch of a swap is run to its
end in the same iteration. It is therefore executed before the loop has completed two more
iterations, whatever functors are pushed meanwhile, and before it has completed one if
`pendings_` is still to be swapped in this one. After `Stop` at most one iteration is completed.
-/

namespace Benet.EventLoop

open Semantics

variable {State Thread Task Choice : Type}

/-- `pendings_` was swapped in this iteration. -/
def Phase.swapped : Phase Thread Task → Prop
  | .batch _ _ | .release _ | .finish => True
  | _ => False

namespace Loop

/-- The first `count` pushes are taken by the swap of iteration `turn`. -/
structure Serves (count turn : Nat) (loop : Loop Thread Task) : Prop where
  law : loop.QueueLaw
  pushed : count ≤ loop.pushed.length
  taken : loop.iterations = turn → loop.phase.swapped → count ≤ loop.swapped
  ran : turn < loop.iterations → count ≤ loop.started.length

/-- A stopped loop that had completed `turn` iterations when it was stopped. -/
structure Winds (turn : Nat) (loop : Loop Thread Task) : Prop where
  quitting : loop.quitting = true
  iterations : loop.iterations ≤ turn ∨
    loop.iterations = turn + 1 ∧ (loop.phase = .head ∨ loop.phase = .returned)

variable {count turn : Nat} {loop next : Loop Thread Task} {user : Task}
  {polled : Option (List (Active Task))} {calls : List (Call Thread Task)}

/-- A statement of `Start` keeps the progress on the functors. -/
theorem Serves.moves (serves : loop.Serves count turn)
    (moves : loop.Moves user polled next calls) : next.Serves count turn := by
  have law := serves.law.moves moves
  obtain ⟨before, pushed, taken, ran⟩ := serves
  cases moves with
  | outside => exact ⟨law, pushed, taken, ran⟩
  | leave | iterate | poll | handled | wakeup | channel => exact ⟨law, pushed, nofun, ran⟩
  | swap => exact ⟨law, pushed, fun _ _ => pushed, ran⟩
  | batched phase | released phase | release phase =>
      exact ⟨law, pushed, fun now _ => taken now (by simp [phase, Phase.swapped]), ran⟩
  | begin phase =>
      refine ⟨law, pushed, fun now _ => taken now (by simp [phase, Phase.swapped]), fun late => ?_⟩
      have started := ran late
      simp only [List.length_append]
      omega
  | finish phase =>
      -- the batch of this iteration is at its end
      refine ⟨law, pushed, nofun, fun late => ?_⟩
      have all : loop.started.length = loop.swapped := by
        simpa [phase, Phase.unrun] using before.batch
      rcases Nat.lt_succ_iff_lt_or_eq.mp late with earlier | now
      · exact ran earlier
      · have swapped := taken now.symm (by simp [phase, Phase.swapped])
        dsimp only
        omega

/-- Whatever happens to the loop keeps the progress on the functors. -/
theorem Serves.stable : Stable user fun loop : Loop Thread Task => loop.Serves count turn where
  quit serves := ⟨(QueueLaw.stable user).quit serves.law, serves.pushed, serves.taken, serves.ran⟩
  push pending serves := by
    refine ⟨serves.law.push pending, ?_, serves.taken, serves.ran⟩
    have pushed := serves.pushed
    simp only [Loop.push, List.length_append]
    omega
  wake needed serves := by
    have law := serves.law.wakeIf needed
    rw [Loop.wakeIf_eq] at law ⊢
    exact ⟨law, serves.pushed, serves.taken, serves.ran⟩
  moves serves moves := serves.moves moves
  enter serves phase :=
    ⟨(QueueLaw.stable user).enter serves.law phase, serves.pushed, nofun, serves.ran⟩

/-- A statement of `Start` keeps the winding up after `Stop`. -/
theorem Winds.moves (winds : loop.Winds turn) (moves : loop.Moves user polled next calls) :
    next.Winds turn := by
  obtain ⟨quitting, iterations⟩ := winds
  cases moves with
  | outside => exact ⟨quitting, iterations⟩
  | iterate _ running =>
      rw [quitting] at running
      cases running
  | leave => exact ⟨quitting, iterations.imp_right fun last => ⟨last.1, .inr rfl⟩⟩
  | poll phase | handled phase | wakeup phase | channel phase | swap phase | batched phase
  | begin phase | released phase | release phase =>
      exact ⟨quitting, .inl (iterations.resolve_right (by simp [phase]))⟩
  | finish phase =>
      have before : loop.iterations ≤ turn := iterations.resolve_right (by simp [phase])
      refine ⟨quitting, ?_⟩
      rcases before.lt_or_eq with earlier | last
      · exact .inl earlier
      · exact .inr ⟨by rw [last], .inl rfl⟩

/-- Whatever happens to the loop keeps the winding up after `Stop`. -/
theorem Winds.stable : Stable user fun loop : Loop Thread Task => loop.Winds turn where
  quit winds := ⟨rfl, winds.iterations⟩
  push _ winds := ⟨winds.quitting, winds.iterations⟩
  wake needed winds := by
    rw [Loop.wakeIf_eq]
    exact ⟨winds.quitting, winds.iterations⟩
  moves winds moves := winds.moves moves
  enter winds phase :=
    ⟨winds.quitting, .inl (winds.iterations.resolve_right (by simp [phase]))⟩

end Loop

variable [DecidableEq Thread]

namespace Machine

variable {client : Client State Thread Task Choice} {Initial : State → Prop}
  {guard : Machine State Thread Task → Label Thread Choice → Prop}
  {before after : Machine State Thread Task} {labels : List (Label Thread Choice)}
  {loop : Thread}

/-- What had been pushed is executed when the iteration of the next swap is completed. -/
theorem steps_started (reachable : (system client Initial).Reachable guard before)
    (steps : (system client Initial).Steps guard before labels after) {turn : Nat}
    (begun : (before.loops loop).iterations ≤ turn)
    (ahead : (before.loops loop).iterations = turn → ¬ (before.loops loop).phase.swapped)
    (completed : turn < (after.loops loop).iterations) :
    (before.loops loop).pushed <+: (after.loops loop).started := by
  have law := (reachable_queueInvariant reachable).queue loop
  have serves : (before.loops loop).Serves (before.loops loop).pushed.length turn :=
    ⟨law, le_rfl, fun now swapped => absurd swapped (ahead now), fun late => by omega⟩
  have served := steps_loop_preserves Loop.Serves.stable loop steps serves
  have grown : (before.loops loop).pushed <+: (after.loops loop).pushed :=
    steps_loop_preserves (Loop.pushed_stable _) loop steps List.prefix_rfl
  have ran : (after.loops loop).started <+: (after.loops loop).pushed := by
    rw [← served.law.conserved, List.append_assoc]
    exact List.prefix_append _ _
  exact List.prefix_of_prefix_length_le grown ran (served.ran completed)

/-- The delay of a functor, for every program and every run: what has been pushed to a loop is
executed, in order, before the loop has completed two more iterations, and before it has
completed one more if it has not swapped `pendings_` in this one. A loop that was stopped
completes at most one more iteration. -/
theorem functors_wait_two_iterations
    (reachable : (system client Initial).Reachable guard before)
    (steps : (system client Initial).Steps guard before labels after) (loop : Thread) :
    ((before.loops loop).iterations + 2 ≤ (after.loops loop).iterations →
      (before.loops loop).pushed <+: (after.loops loop).started) ∧
    (¬ (before.loops loop).phase.swapped →
      (before.loops loop).iterations + 1 ≤ (after.loops loop).iterations →
      (before.loops loop).pushed <+: (after.loops loop).started) ∧
    ((before.loops loop).quitting = true →
      (after.loops loop).iterations ≤ (before.loops loop).iterations + 1) := by
  refine ⟨fun later => ?_, fun ahead later => ?_, fun quitting => ?_⟩
  · exact steps_started reachable steps (Nat.le_succ _) (by simp) later
  · exact steps_started reachable steps le_rfl (fun _ => ahead) later
  · have winds : (before.loops loop).Winds (before.loops loop).iterations :=
      ⟨quitting, .inl le_rfl⟩
    rcases (steps_loop_preserves Loop.Winds.stable loop steps winds).iterations with done | last
    · exact done.trans (Nat.le_succ _)
    · exact last.1.le

/-- The loop is in the middle of a batch when thread `1` queues `7`, which is then run in the
second iteration. -/
def queueInBatch : List (Label TwoThreads (FreeChoice TwoThreads Nat)) :=
  [⟨0, .start⟩, .polls 0 [], .polls 0 [], .polls 0 [], .polls 0 [],
    .calls 1 [], .calls 1 [.queueInLoop 0 7], .calls 1 [], .calls 1 [], .calls 1 []]

/-- The loop completes two iterations. -/
def twoIterations : List (Label TwoThreads (FreeChoice TwoThreads Nat)) :=
  List.replicate 14 (.polls 0 [])

/-- A functor that is queued during a batch has been started two iterations later. -/
theorem functors_wait_two_iterations_queueInBatch :
    ∃ before after : Machine Unit TwoThreads Nat,
      (before.loops 0).pushed = [⟨1, 7⟩] ∧ (before.loops 0).iterations = 0 ∧
      (after.loops 0).iterations = 2 ∧ (before.loops 0).pushed <+: (after.loops 0).started := by
  let before := (freeSystem.run LabelledSystem.unguarded { client := () } queueInBatch).get
    (by decide)
  let after := (freeSystem.run LabelledSystem.unguarded before twoIterations).get (by decide)
  have reachable : freeSystem.Reachable LabelledSystem.unguarded before :=
    LabelledSystem.run_reachable ⟨(), trivial, rfl⟩ (Option.some_get _).symm
  have steps : freeSystem.Steps LabelledSystem.unguarded before twoIterations after :=
    LabelledSystem.run_steps (Option.some_get _).symm
  have iterations : (after.loops 0).iterations = 2 := by decide
  refine ⟨before, after, by decide, by decide, iterations, ?_⟩
  exact (functors_wait_two_iterations reachable steps 0).1 (by decide)

end Machine

end Benet.EventLoop
