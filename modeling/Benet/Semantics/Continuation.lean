import Benet.Semantics.Execution
import Mathlib.Order.WellFounded

/-!
# Runs that go on for ever

A continuation is an infinite execution of a labelled system. Something happens in it
eventually if a rank that never rises before it keeps falling: `Continuation.eventually` is the
rule of progress, for ranks in any well-founded order.
-/

namespace Benet.Semantics

universe u v w

variable {State : Type u} {Label : Type v}

/-- An infinite execution, each of its transitions admitted by `guard`. -/
structure Continuation (system : LabelledSystem State Label) (guard : State → Label → Prop) where
  state : Nat → State
  label : Nat → Label
  admitted : ∀ index, guard (state index) (label index)
  transition : ∀ index, system.step (state index) (label index) = some (state (index + 1))

namespace Continuation

variable {system : LabelledSystem State Label} {guard : State → Label → Prop}
  (continuation : Continuation system guard)

/-- Any two of its states are joined by an execution. -/
theorem steps {first last : Nat} (order : first ≤ last) :
    ∃ labels, system.Steps guard (continuation.state first) labels (continuation.state last) := by
  induction last, order using Nat.le_induction with
  | base => exact ⟨[], .refl⟩
  | succ index _ inductionHypothesis =>
      obtain ⟨labels, prior⟩ := inductionHypothesis
      exact ⟨labels ++ [continuation.label index],
        prior.step (continuation.admitted index) (continuation.transition index)⟩

/-- All states of a run that starts in a reachable one are reachable. -/
theorem reachable (start : system.Reachable guard (continuation.state 0)) (index : Nat) :
    system.Reachable guard (continuation.state index) := by
  obtain ⟨labels, steps⟩ := continuation.steps (Nat.zero_le index)
  exact start.steps steps

/-- What every transition keeps is kept. -/
theorem preserves {first last : Nat} (order : first ≤ last) (Holds : State → Prop)
    (preserved : ∀ index, first ≤ index → Holds (continuation.state index) →
      Holds (continuation.state (index + 1)))
    (holds : Holds (continuation.state first)) : Holds (continuation.state last) := by
  induction last, order using Nat.le_induction with
  | base => exact holds
  | succ index later inductionHypothesis => exact preserved index later inductionHypothesis

/-- What holds at first and not in the end is lost in some transition. -/
theorem exists_loss {first last : Nat} (order : first ≤ last) (Holds : State → Prop)
    (holds : Holds (continuation.state first)) (lost : ¬ Holds (continuation.state last)) :
    ∃ index, first ≤ index ∧ Holds (continuation.state index) ∧
      ¬ Holds (continuation.state (index + 1)) := by
  by_contra none
  refine lost (continuation.preserves order Holds (fun index later kept => ?_) holds)
  by_contra gone
  exact none ⟨index, later, kept, gone⟩

/-- The rule of progress. As long as it has not happened, the rank of the state does not rise,
and it keeps falling. -/
theorem eventually {Rank : Type w} [LinearOrder Rank] [WellFoundedLT Rank] (rank : State → Rank)
    {Happens : Nat → Prop} {first : Nat}
    (keeps : ∀ index, first ≤ index → ¬ Happens index →
      rank (continuation.state (index + 1)) ≤ rank (continuation.state index))
    (falls : (∀ index, first ≤ index → ¬ Happens index) → ∀ index, first ≤ index →
      ∃ later, index ≤ later ∧
        rank (continuation.state (later + 1)) < rank (continuation.state later)) :
    ∃ index, first ≤ index ∧ Happens index := by
  by_contra none
  have never : ∀ index, first ≤ index → ¬ Happens index :=
    fun index later happens => none ⟨index, later, happens⟩
  have descends : ∀ value index, first ≤ index → rank (continuation.state index) ≠ value := by
    intro value
    induction value using WellFoundedLT.induction with
    | ind value inductionHypothesis =>
        rintro index later rfl
        obtain ⟨next, after, falling⟩ := falls never index later
        have below : rank (continuation.state next) ≤ rank (continuation.state index) := by
          refine continuation.preserves after
            (fun state => rank state ≤ rank (continuation.state index)) ?_ le_rfl
          intro middle between reached
          have since := later.trans between
          exact (keeps middle since (never middle since)).trans reached
        exact inductionHypothesis _ (falling.trans_le below) (next + 1) (by omega) rfl
  exact descends _ first le_rfl rfl

/-- Put one transition in front. -/
def cons {start : State} {label : Label} (admitted : guard start label)
    (transition : system.step start label = some (continuation.state 0)) :
    Continuation system guard where
  state index := index.casesOn start continuation.state
  label index := index.casesOn label continuation.label
  admitted index := by
    cases index with
    | zero => exact admitted
    | succ index => exact continuation.admitted index
  transition index := by
    cases index with
    | zero => exact transition
    | succ index => exact continuation.transition index

/-- What happens infinitely often in a continuation of the last state of an execution happens
infinitely often in a continuation of the first. -/
theorem exists_of_steps (Happens : State → Label → Prop) {start finish : State}
    {labels : List Label} (steps : system.Steps guard start labels finish)
    (later : ∃ continuation : Continuation system guard, continuation.state 0 = finish ∧
      ∀ index, ∃ later, index ≤ later ∧
        Happens (continuation.state later) (continuation.label later)) :
    ∃ continuation : Continuation system guard, continuation.state 0 = start ∧
      ∀ index, ∃ later, index ≤ later ∧
        Happens (continuation.state later) (continuation.label later) := by
  induction steps with
  | refl => exact later
  | step _ admitted transition inductionHypothesis =>
      obtain ⟨continuation, rfl, often⟩ := later
      refine inductionHypothesis ⟨continuation.cons admitted transition, rfl, fun index => ?_⟩
      obtain ⟨later, since, happens⟩ := often index
      exact ⟨later + 1, by omega, happens⟩

/-- A state in which something can happen that leads to such a state again has a continuation
in which it always happens. -/
theorem exists_forever (Holds : State → Prop) (Happens : State → Label → Prop)
    (enabled : ∀ state, Holds state → ∃ label next, guard state label ∧
      system.step state label = some next ∧ Happens state label ∧ Holds next)
    {start : State} (holds : Holds start) :
    ∃ continuation : Continuation system guard, continuation.state 0 = start ∧
      ∀ index, Happens (continuation.state index) (continuation.label index) ∧
        Holds (continuation.state index) := by
  choose label next admitted transition happens kept using enabled
  let walk : Nat → { state // Holds state } := fun index =>
    index.rec ⟨start, holds⟩ fun _ state => ⟨next state.1 state.2, kept state.1 state.2⟩
  exact ⟨{
    state := fun index => (walk index).1
    label := fun index => label (walk index).1 (walk index).2
    admitted := fun index => admitted _ _
    transition := fun index => transition _ _ }, rfl, fun index => ⟨happens _ _, (walk index).2⟩⟩

end Continuation

end Benet.Semantics
