import Benet.Semantics.Execution

/-!
# Changes that transitions do not see

A transition is blind for a change of the state when it goes the same way from the changed
state and keeps the change: it neither reads nor writes what the change alters. A schedule of
blind transitions is blind (`LabelledSystem.run_blind`).
-/

namespace Benet.Semantics.LabelledSystem

universe u v

variable {State : Type u} {Label : Type v}

/-- The transition neither reads nor writes what the change alters. -/
def Blind (system : LabelledSystem State Label) (change : State → State) (state : State)
    (label : Label) : Prop :=
  system.step (change state) label = (system.step state label).map change

/-- Nor does a whole schedule, when its guard does not read it either. `Holds` is what makes
the transitions blind and is kept by them. -/
theorem run_blind {system : LabelledSystem State Label} {guard : State → Label → Prop}
    [∀ state label, Decidable (guard state label)] {change : State → State} (Holds : State → Prop)
    (admits : ∀ state label, guard (change state) label ↔ guard state label)
    (blind : ∀ state label, Holds state → guard state label → system.Blind change state label)
    (kept : ∀ state label next, Holds state → guard state label →
      system.step state label = some next → Holds next)
    {start : State} (holds : Holds start) (labels : List Label) :
    system.run guard (change start) labels = (system.run guard start labels).map change := by
  induction labels generalizing start with
  | nil => rfl
  | cons label labels inductionHypothesis =>
      unfold run
      by_cases admitted : guard start label
      · rw [if_pos admitted, if_pos ((admits start label).mpr admitted),
          blind start label holds admitted]
        cases stepped : system.step start label with
        | none => rfl
        | some next => exact inductionHypothesis (kept start label next holds admitted stepped)
      · rw [if_neg admitted, if_neg (mt (admits start label).mp admitted)]
        rfl

end Benet.Semantics.LabelledSystem
