import Mathlib.Data.Finset.Card
import Mathlib.Data.Fintype.Card
import Mathlib.Data.List.FinRange

/-!
# Tables with a fixed number of slots

A table gives out its lowest free slot until none is left. `used` counts the slots that
are given out; taking and freeing move the count by one, and a table refuses exactly when
it is full.
-/

namespace Benet.Data

/-- Each slot is free or has an owner. -/
structure SlotTable (Owner : Type) (limit : Nat) where
  owner : Fin limit → Option Owner

namespace SlotTable

variable {Owner : Type} {limit : Nat}

def lowestFree (table : SlotTable Owner limit) : Option (Fin limit) :=
  (List.finRange limit).find? fun slot => (table.owner slot).isNone

def assign (table : SlotTable Owner limit) (slot : Fin limit) (owner : Option Owner) :
    SlotTable Owner limit :=
  ⟨Function.update table.owner slot owner⟩

/-- Take the lowest free slot, if there is one. -/
def take (table : SlotTable Owner limit) (owner : Owner) :
    Option (Fin limit × SlotTable Owner limit) :=
  table.lowestFree.map fun slot => (slot, table.assign slot (some owner))

def free (table : SlotTable Owner limit) (slot : Fin limit) : SlotTable Owner limit :=
  table.assign slot none

/-- The slots that have an owner. -/
def taken (table : SlotTable Owner limit) : Finset (Fin limit) :=
  Finset.univ.filter fun slot => (table.owner slot).isSome

def used (table : SlotTable Owner limit) : Nat := table.taken.card

variable {table next : SlotTable Owner limit} {slot other : Fin limit} {owner : Owner}

@[simp] theorem mem_taken : slot ∈ table.taken ↔ (table.owner slot).isSome = true := by
  simp [taken]

@[simp] theorem assign_self (owner : Option Owner) :
    (table.assign slot owner).owner slot = owner := by
  simp [assign]

/-- Assigning one slot leaves the others alone. -/
theorem assign_other {owner : Option Owner} (different : other ≠ slot) :
    (table.assign slot owner).owner other = table.owner other := by
  simp [assign, different]

/-- The lowest free slot is free. -/
theorem lowestFree_eq_some (found : table.lowestFree = some slot) : table.owner slot = none := by
  simpa using List.find?_some found

/-- There is no free slot exactly when all have an owner. -/
theorem lowestFree_eq_none :
    table.lowestFree = none ↔ ∀ slot, (table.owner slot).isSome = true := by
  simp [lowestFree, List.find?_eq_none, Option.isSome_iff_ne_none]

/-- No more slots are used than there are. -/
theorem used_le (table : SlotTable Owner limit) : table.used ≤ limit := by
  simpa [used] using table.taken.card_le_univ

/-- All slots are used exactly when all have an owner. -/
theorem used_eq_limit : table.used = limit ↔ ∀ slot, (table.owner slot).isSome = true := by
  have full : table.used = limit ↔ table.taken = Finset.univ := by
    rw [← Finset.card_eq_iff_eq_univ, Fintype.card_fin]
    rfl
  rw [full, Finset.eq_univ_iff_forall]
  simp

/-- Assigning a free slot uses one more. -/
theorem used_assign_some (unowned : table.owner slot = none) :
    (table.assign slot (some owner)).used = table.used + 1 := by
  have grown : (table.assign slot (some owner)).taken = insert slot table.taken := by
    ext other
    by_cases same : other = slot
    · simp [same]
    · simp [same, assign_other same]
  rw [used, grown, Finset.card_insert_of_notMem (by simp [unowned])]
  rfl

/-- Freeing a slot uses one less. -/
theorem used_free (owned : table.owner slot = some owner) :
    (table.free slot).used + 1 = table.used := by
  have shrunk : (table.free slot).taken = table.taken.erase slot := by
    ext other
    by_cases same : other = slot
    · simp [same, free]
    · simp [same, free, assign_other same]
  rw [used, shrunk]
  exact Finset.card_erase_add_one (by simp [owned])

/-- What a successful `take` does. -/
theorem take_eq_some (took : table.take owner = some (slot, next)) :
    table.owner slot = none ∧ next = table.assign slot (some owner) ∧
      next.used = table.used + 1 := by
  obtain ⟨found, lowest, result⟩ := Option.map_eq_some_iff.mp took
  cases result
  have unowned := lowestFree_eq_some lowest
  exact ⟨unowned, rfl, used_assign_some unowned⟩

/-- A table refuses exactly when it is full. -/
theorem take_eq_none : table.take owner = none ↔ table.used = limit := by
  rw [take, Option.map_eq_none_iff, lowestFree_eq_none, used_eq_limit]

end SlotTable

end Benet.Data
