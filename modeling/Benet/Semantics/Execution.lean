import Mathlib.Data.List.Basic

/-!
# Guarded executions of a labelled system

A system is a computed step function over an explicit label; the label resolves
every choice of the scheduler and of the environment. `LabelledSystem.Steps`
carries a guard on the state each transition leaves, so that a result about
"every run whose steps meet a condition" and a result about every run are two
instances of one relation.
-/

namespace Benet.Semantics

universe u v

/-- A labelled system with computed transitions. `step` is `none` where the
label is not enabled. -/
structure LabelledSystem (State : Type u) (Label : Type v) where
  Initial : State → Prop
  step : State → Label → Option State

namespace LabelledSystem

variable {State : Type u} {Label : Type v}

/-- The guard that admits every transition. -/
def unguarded : State → Label → Prop := fun _ _ => True

instance (state : State) (label : Label) : Decidable (unguarded state label) :=
  .isTrue trivial

/-- Zero or more transitions, each admitted by `guard` in the state it leaves. -/
inductive Steps (system : LabelledSystem State Label) (guard : State → Label → Prop) :
    State → List Label → State → Prop where
  | refl {state} : Steps system guard state [] state
  | step {start labels state label next}
      (prior : Steps system guard start labels state)
      (admitted : guard state label)
      (transition : system.step state label = some next) :
      Steps system guard start (labels ++ [label]) next

variable {system : LabelledSystem State Label} {guard : State → Label → Prop}

/-- Compose two executions that meet in one state. -/
theorem Steps.trans {start middle finish : State} {first second : List Label}
    (front : system.Steps guard start first middle)
    (back : system.Steps guard middle second finish) :
    system.Steps guard start (first ++ second) finish := by
  induction back with
  | refl =>
      rw [List.append_nil]
      exact front
  | step _ admitted transition extended =>
      rw [← List.append_assoc]
      exact .step extended admitted transition

/-- Put one transition in front of an execution. -/
theorem Steps.cons {start next finish : State} {label : Label} {labels : List Label}
    (admitted : guard start label) (transition : system.step start label = some next)
    (rest : system.Steps guard next labels finish) :
    system.Steps guard start (label :: labels) finish :=
  Steps.trans (.step .refl admitted transition) rest

/-- A guarded execution is an execution under every weaker guard. -/
theorem Steps.weaken {weaker : State → Label → Prop} {start finish : State}
    {labels : List Label} (implied : ∀ state label, guard state label → weaker state label)
    (steps : system.Steps guard start labels finish) :
    system.Steps weaker start labels finish := by
  induction steps with
  | refl => exact .refl
  | step _ admitted transition weakened =>
      exact .step weakened (implied _ _ admitted) transition

/-- A property kept by every admitted transition is kept by an execution. -/
theorem Steps.preserves {start finish : State} {labels : List Label} (Holds : State → Prop)
    (preserved : ∀ state label next, Holds state → guard state label →
      system.step state label = some next → Holds next)
    (steps : system.Steps guard start labels finish) (holds : Holds start) :
    Holds finish := by
  induction steps with
  | refl => exact holds
  | step _ admitted transition kept =>
      exact preserved _ _ _ kept admitted transition

/-- States at the end of some guarded execution from an initial state. -/
def Reachable (system : LabelledSystem State Label) (guard : State → Label → Prop)
    (state : State) : Prop :=
  ∃ start labels, system.Initial start ∧ system.Steps guard start labels state

/-- Initial states are reachable. -/
theorem Reachable.initial {state : State} (initial : system.Initial state) :
    system.Reachable guard state :=
  ⟨state, [], initial, .refl⟩

/-- A permitted step leads to a reachable state. -/
theorem Reachable.step {state next : State} {label : Label}
    (reachable : system.Reachable guard state) (admitted : guard state label)
    (transition : system.step state label = some next) :
    system.Reachable guard next := by
  obtain ⟨start, labels, initial, steps⟩ := reachable
  exact ⟨start, labels ++ [label], initial, .step steps admitted transition⟩

/-- Permitted steps lead to a reachable state. -/
theorem Reachable.steps {state finish : State} {labels : List Label}
    (reachable : system.Reachable guard state)
    (suffix : system.Steps guard state labels finish) :
    system.Reachable guard finish := by
  obtain ⟨start, labels, initial, steps⟩ := reachable
  exact ⟨start, _, initial, steps.trans suffix⟩

/-- What can be reached under a guard can be reached under a weaker one. -/
theorem Reachable.weaken {weaker : State → Label → Prop} {state : State}
    (implied : ∀ state label, guard state label → weaker state label)
    (reachable : system.Reachable guard state) : system.Reachable weaker state := by
  obtain ⟨start, labels, initial, steps⟩ := reachable
  exact ⟨start, labels, initial, steps.weaken implied⟩

/-- The induction over runs: what holds initially and is kept by every admitted
transition out of a reachable state holds in every reachable state. -/
theorem Reachable.invariant {state : State} (Holds : State → Prop)
    (initial : ∀ state, system.Initial state → Holds state)
    (preserved : ∀ state label next, system.Reachable guard state → Holds state →
      guard state label → system.step state label = some next → Holds next)
    (reachable : system.Reachable guard state) : Holds state := by
  obtain ⟨start, labels, valid, steps⟩ := reachable
  induction steps with
  | refl => exact initial _ valid
  | step prior admitted transition kept =>
      exact preserved _ _ _ ⟨start, _, valid, prior⟩ kept admitted transition

/-- The induction for guards: one that a run's own guard implies in the states that the run
reaches. -/
theorem Reachable.implied {other : State → Label → Prop} {state : State}
    (implied : ∀ state label, system.Reachable guard state → guard state label → other state label)
    (reachable : system.Reachable guard state) : system.Reachable other state :=
  reachable.invariant (system.Reachable other) (fun _ initial => .initial initial)
    fun _ _ _ reached past admitted transition =>
      past.step (implied _ _ reached admitted) transition

/-- The same from a reachable state on, when the suffix has a stronger guard. -/
theorem Reachable.preserves {past : State → Label → Prop} {start finish : State}
    {labels : List Label} (reachable : system.Reachable past start) (Holds : State → Prop)
    (admits : ∀ state label, guard state label → past state label)
    (preserved : ∀ state label next, system.Reachable past state → Holds state →
      guard state label → system.step state label = some next → Holds next)
    (steps : system.Steps guard start labels finish) (holds : Holds start) : Holds finish := by
  have both : system.Reachable past finish ∧ Holds finish := by
    refine steps.preserves (fun state => system.Reachable past state ∧ Holds state) ?_
      ⟨reachable, holds⟩
    rintro state label next ⟨reached, kept⟩ admitted transition
    exact ⟨reached.step (admits _ _ admitted) transition,
      preserved _ _ _ reached kept admitted transition⟩
  exact both.2

section Executable

variable (system guard) [∀ state label, Decidable (guard state label)]

/-- Follow a schedule, checking the guard before every transition. -/
def run : State → List Label → Option State
  | state, [] => some state
  | state, label :: labels =>
      if guard state label then (system.step state label).bind (run · labels) else none

variable {system guard}

/-- A schedule that can be followed is an execution. -/
theorem run_steps {start finish : State} {labels : List Label}
    (followed : system.run guard start labels = some finish) :
    system.Steps guard start labels finish := by
  induction labels generalizing start with
  | nil =>
      cases followed
      exact .refl
  | cons label labels inductionHypothesis =>
      unfold run at followed
      split at followed
      case isTrue admitted =>
          obtain ⟨next, transition, rest⟩ := Option.bind_eq_some_iff.mp followed
          exact .cons admitted transition (inductionHypothesis rest)
      case isFalse => cases followed

/-- A schedule that can be followed leads to a reachable state. -/
theorem run_reachable {start finish : State} {labels : List Label}
    (initial : system.Initial start)
    (followed : system.run guard start labels = some finish) :
    system.Reachable guard finish :=
  (Reachable.initial initial).steps (run_steps followed)

end Executable

end LabelledSystem

end Benet.Semantics
