import Benet.Semantics.Execution

/-!
# Observers of a labelled system

An observer keeps a record of a run beside the states: it sees every transition and the
system does not see the record. `LabelledSystem.observed` is the system with its record.
Every run can be observed (`Reachable.observed`), and what is observed is a run
(`Reachable.unobserved`), so a result about records is a result about runs. It is proved
with `Reachable.observed_invariant`.
-/

namespace Benet.Semantics

universe u v w

/-- What is noted of a transition, from the state it leaves to the one it reaches. -/
structure Observer (State : Type u) (Label : Type v) (Record : Type w) where
  blank : Record
  note : State → Label → State → Record → Record

namespace LabelledSystem

variable {State : Type u} {Label : Type v} {Record : Type w}

/-- The system together with the record of an observer. -/
def observed (system : LabelledSystem State Label) (observer : Observer State Label Record) :
    LabelledSystem (State × Record) Label where
  Initial observation := system.Initial observation.1 ∧ observation.2 = observer.blank
  step observation label := (system.step observation.1 label).map fun next =>
    (next, observer.note observation.1 label next observation.2)

/-- A guard that does not look at the record. -/
def beside (guard : State → Label → Prop) (observation : State × Record) (label : Label) : Prop :=
  guard observation.1 label

instance (guard : State → Label → Prop) [∀ state label, Decidable (guard state label)]
    (observation : State × Record) (label : Label) : Decidable (beside guard observation label) :=
  inferInstanceAs (Decidable (guard observation.1 label))

variable {system : LabelledSystem State Label} {observer : Observer State Label Record}
  {guard : State → Label → Prop}

/-- A step of the observed system is one of the system and one of the record. -/
theorem observed_step {state next : State} {record after : Record} {label : Label} :
    (system.observed observer).step (state, record) label = some (next, after) ↔
      system.step state label = some next ∧ after = observer.note state label next record := by
  simp only [LabelledSystem.observed, Option.map_eq_some_iff, Prod.mk.injEq]
  constructor
  · rintro ⟨_, transition, rfl, rfl⟩
    exact ⟨transition, rfl⟩
  · rintro ⟨transition, rfl⟩
    exact ⟨next, transition, rfl, rfl⟩

/-- The induction over observed runs. -/
theorem Reachable.observed_invariant (Holds : State → Record → Prop)
    (initial : ∀ state, system.Initial state → Holds state observer.blank)
    (preserved : ∀ state label next record, system.Reachable guard state → Holds state record →
      guard state label → system.step state label = some next →
        Holds next (observer.note state label next record))
    {observation : State × Record}
    (reachable : (system.observed observer).Reachable (beside guard) observation) :
    system.Reachable guard observation.1 ∧ Holds observation.1 observation.2 := by
  refine reachable.invariant (fun observation =>
    system.Reachable guard observation.1 ∧ Holds observation.1 observation.2) ?_ ?_
  · rintro ⟨state, record⟩ ⟨valid, rfl⟩
    exact ⟨.initial valid, initial state valid⟩
  · rintro ⟨state, record⟩ label ⟨next, after⟩ _ ⟨reached, holds⟩ admitted stepped
    obtain ⟨transition, rfl⟩ := observed_step.mp stepped
    exact ⟨reached.step admitted transition,
      preserved state label next record reached holds admitted transition⟩

/-- What is observed is a run. -/
theorem Reachable.unobserved {observation : State × Record}
    (reachable : (system.observed observer).Reachable (beside guard) observation) :
    system.Reachable guard observation.1 :=
  (reachable.observed_invariant (fun _ _ => True) (fun _ _ => trivial)
    fun _ _ _ _ _ _ _ _ => trivial).1

/-- Every run has a record. -/
theorem Reachable.observed {state : State} (reachable : system.Reachable guard state) :
    ∃ record, (system.observed observer).Reachable (beside guard) (state, record) := by
  refine reachable.invariant (fun state =>
    ∃ record, (system.observed observer).Reachable (beside guard) (state, record)) ?_ ?_
  · exact fun state valid => ⟨observer.blank, .initial ⟨valid, rfl⟩⟩
  · rintro state label next _ ⟨record, reached⟩ admitted transition
    exact ⟨_, reached.step admitted (observed_step.mpr ⟨transition, rfl⟩)⟩

end LabelledSystem

end Benet.Semantics
