import Mathlib.Data.List.Basic
import Mathlib.Order.Lattice

/-!
# Ordered sets

A set that keeps its elements in increasing order, as a tree based set
container does. The order is a field of the structure, so the first element is
the least one and a cut of the list at a bound is a cut of the set.
-/

namespace Benet.Data

/-- A set of elements, listed in increasing order. -/
@[ext] structure OrderedSet (α : Type) [LinearOrder α] where
  toList : List α
  sorted : toList.Pairwise (· < ·)
deriving DecidableEq

namespace OrderedSet

variable {α : Type} [LinearOrder α]

instance : Membership α (OrderedSet α) :=
  ⟨fun set a => a ∈ set.toList⟩

instance (a : α) (set : OrderedSet α) : Decidable (a ∈ set) :=
  inferInstanceAs (Decidable (a ∈ set.toList))

instance : EmptyCollection (OrderedSet α) :=
  ⟨⟨[], .nil⟩⟩

/-- The elements below `bound`, in order. -/
def before (bound : α) (set : OrderedSet α) : List α :=
  set.toList.takeWhile (· < bound)

/-- The elements from the lower bound of `bound` on, in order. -/
def lowerBound (bound : α) (set : OrderedSet α) : List α :=
  set.toList.dropWhile (· < bound)

/-- The least element. -/
def first? (set : OrderedSet α) : Option α :=
  set.toList.head?

section Cut

variable {bound a : α} {elements : List α}

private theorem mem_takeWhile (sorted : elements.Pairwise (· < ·)) :
    a ∈ elements.takeWhile (· < bound) ↔ a ∈ elements ∧ a < bound := by
  induction elements with
  | nil => simp
  | cons least rest ih =>
      obtain ⟨above, sorted⟩ := List.pairwise_cons.mp sorted
      by_cases below : least < bound
      · rw [List.takeWhile_cons_of_pos (by simpa using below), List.mem_cons, List.mem_cons,
          ih sorted]
        grind
      · -- Everything after an element that is not below the bound is above it.
        rw [List.takeWhile_cons_of_neg (by simpa using below)]
        grind

private theorem mem_dropWhile (sorted : elements.Pairwise (· < ·)) :
    a ∈ elements.dropWhile (· < bound) ↔ a ∈ elements ∧ bound ≤ a := by
  induction elements with
  | nil => simp
  | cons least rest ih =>
      obtain ⟨above, sorted⟩ := List.pairwise_cons.mp sorted
      by_cases below : least < bound
      · rw [List.dropWhile_cons_of_pos (by simpa using below), ih sorted, List.mem_cons]
        grind
      · rw [List.dropWhile_cons_of_neg (by simpa using below)]
        grind

end Cut

variable {set : OrderedSet α} {a b bound : α}

@[simp] theorem mem_toList : a ∈ set.toList ↔ a ∈ set :=
  Iff.rfl

@[simp] theorem not_mem_empty : a ∉ (∅ : OrderedSet α) :=
  List.not_mem_nil

/-- No element is in the set twice. -/
theorem nodup (set : OrderedSet α) : set.toList.Nodup :=
  set.sorted.imp ne_of_lt

@[simp] theorem mem_before : a ∈ set.before bound ↔ a ∈ set ∧ a < bound :=
  mem_takeWhile set.sorted

@[simp] theorem mem_lowerBound : a ∈ set.lowerBound bound ↔ a ∈ set ∧ bound ≤ a :=
  mem_dropWhile set.sorted

/-- The part below a bound is sorted. -/
theorem sorted_before : (set.before bound).Pairwise (· < ·) :=
  set.sorted.sublist (List.takeWhile_sublist _)

/-- The part from a bound on is sorted. -/
theorem sorted_lowerBound : (set.lowerBound bound).Pairwise (· < ·) :=
  set.sorted.sublist (List.dropWhile_sublist _)

/-- What is left when the elements below `bound` are taken out. -/
def from_ (bound : α) (set : OrderedSet α) : OrderedSet α :=
  ⟨set.lowerBound bound, sorted_lowerBound⟩

@[simp] theorem mem_from : a ∈ set.from_ bound ↔ a ∈ set ∧ bound ≤ a :=
  mem_lowerBound

/-- Put an element at its place. An element that is there already stays as it is. -/
def insert (a : α) (set : OrderedSet α) : OrderedSet α :=
  if present : a ∈ set then set
  else
    { toList := set.before a ++ a :: set.lowerBound a
      sorted := by
        have absent : ∀ b ∈ set, b ≠ a := fun b member same => present (same ▸ member)
        refine List.pairwise_append.mpr
          ⟨sorted_before, List.pairwise_cons.mpr ⟨?_, sorted_lowerBound⟩, ?_⟩
        · intro b member
          obtain ⟨member, below⟩ := mem_lowerBound.mp member
          exact lt_of_le_of_ne below (absent b member).symm
        · intro b lower c upper
          have below := (mem_before.mp lower).2
          rcases List.mem_cons.mp upper with rfl | upper
          · exact below
          · exact lt_of_lt_of_le below (mem_lowerBound.mp upper).2 }

/-- Take one element out. -/
def erase (a : α) (set : OrderedSet α) : OrderedSet α :=
  ⟨set.toList.filter (· ≠ a), set.sorted.filter _⟩

@[simp] theorem mem_insert : b ∈ set.insert a ↔ b = a ∨ b ∈ set := by
  unfold insert
  split
  next present =>
    constructor
    · exact Or.inr
    · rintro (rfl | member)
      · exact present
      · exact member
  next =>
    change b ∈ set.before a ++ a :: set.lowerBound a ↔ _
    simp only [List.mem_append, List.mem_cons, mem_before, mem_lowerBound]
    grind

@[simp] theorem mem_erase : b ∈ set.erase a ↔ b ∈ set ∧ b ≠ a := by
  change b ∈ set.toList.filter (· ≠ a) ↔ _
  simp

/-- Erasing a member removes one element. -/
theorem length_erase (member : a ∈ set) :
    (set.erase a).toList.length + 1 = set.toList.length := by
  have same : (set.erase a).toList = set.toList.erase a := by
    rw [set.nodup.erase_eq_filter]
    exact List.filter_congr fun b _ => by
      rw [Bool.eq_iff_iff]
      simp
  rw [same]
  exact List.length_erase_add_one member

/-- The first element is the least. -/
theorem first?_eq_some : set.first? = some a ↔ a ∈ set ∧ ∀ b ∈ set, a ≤ b := by
  obtain ⟨elements, sorted⟩ := set
  change elements.head? = some a ↔ a ∈ elements ∧ ∀ b ∈ elements, a ≤ b
  cases elements with
  | nil => simp
  | cons least rest =>
      have above := (List.pairwise_cons.mp sorted).1
      simp only [List.head?_cons, Option.some.injEq, List.mem_cons]
      constructor
      · rintro rfl
        exact ⟨.inl rfl, by rintro b (rfl | member); exacts [le_rfl, (above b member).le]⟩
      · rintro ⟨rfl | member, least_le⟩
        · rfl
        · exact le_antisymm (above a member).le (least_le least (.inl rfl))

/-- Only the empty set has no first element. -/
theorem first?_eq_none : set.first? = none ↔ ∀ a, a ∉ set := by
  change set.toList.head? = none ↔ ∀ a, a ∉ set.toList
  rw [List.head?_eq_none_iff, List.eq_nil_iff_forall_not_mem]

end OrderedSet

end Benet.Data
