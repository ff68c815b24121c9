import Mathlib.Data.List.Basic

/-!
# Slices of a sequence and writes into it

A contiguous block of storage is a list. `slice` reads the cells between two
indices and `overwrite` replaces a run of cells; `copyForward` is the cell by
cell copy inside one block, which may overlap itself.
-/

namespace Benet.Data

variable {α : Type}

/-- The cells from index `first` up to, not including, index `last`. -/
def slice (cells : List α) (first last : Nat) : List α :=
  (cells.drop first).take (last - first)

/-- Replace the cells that start at `offset` by `values`. -/
def overwrite (cells : List α) (offset : Nat) (values : List α) : List α :=
  cells.take offset ++ values ++ cells.drop (offset + values.length)

/-- Write `values` at `offset`, unless a cell outside the block would be touched. -/
def write (cells : List α) (offset : Nat) (values : List α) : Option (List α) :=
  if offset + values.length ≤ cells.length then some (overwrite cells offset values) else none

/-- Copy `count` cells one after the other, the first one first. A cell outside
the block makes the copy fail. -/
def copyForward (cells : List α) (source target : Nat) : Nat → Option (List α)
  | 0 => some cells
  | count + 1 => do
      let value ← cells[source]?
      if target < cells.length then
        copyForward (cells.set target value) (source + 1) (target + 1) count
      else none

/-- Fill several blocks one after the other with `values`, as far as these go. -/
def scatter : List (List α) → List α → List (List α)
  | [], _ => []
  | block :: blocks, values =>
      overwrite block 0 (values.take block.length) :: scatter blocks (values.drop block.length)

/-- Change the number of cells, filling new ones with `fill`. -/
def resize (cells : List α) (size : Nat) (fill : α) : List α :=
  cells.take size ++ List.replicate (size - cells.length) fill

section Slice

variable {cells values : List α} {first middle last offset : Nat}

/-- A slice inside the cells has the length that its ends say. -/
theorem length_slice (bound : last ≤ cells.length) :
    (slice cells first last).length = last - first := by
  simp only [slice, List.length_take, List.length_drop]
  omega

@[simp] theorem slice_self (cells : List α) (index : Nat) : slice cells index index = [] := by
  simp [slice]

/-- The slice at the middle of three parts. -/
theorem slice_middle (front middle back : List α) {size : Nat} (length : middle.length = size) :
    slice (front ++ middle ++ back) front.length (front.length + size) = middle := by
  rw [slice, List.append_assoc, List.drop_left, Nat.add_sub_cancel_left, ← length, List.take_left]

/-- Adjacent slices join. -/
theorem slice_append_slice (lower : first ≤ middle) (upper : middle ≤ last) :
    slice cells first middle ++ slice cells middle last = slice cells first last := by
  have length : last - first = (middle - first) + (last - middle) := by omega
  have start : middle = first + (middle - first) := by omega
  simp only [slice]
  rw [length, List.take_add, List.drop_drop, ← start]

/-- Dropping from a slice moves its first index. -/
theorem drop_slice (cells : List α) (first last count : Nat) :
    (slice cells first last).drop count = slice cells (first + count) last := by
  simp only [slice, List.drop_take, List.drop_drop]
  congr 1
  omega

/-- Taking from a slice moves its last index. -/
theorem take_slice {count : Nat} (bound : first + count ≤ last) :
    (slice cells first last).take count = slice cells first (first + count) := by
  simp only [slice, List.take_take]
  congr 1
  omega

/-- Overwriting inside the cells keeps their number. -/
theorem length_overwrite (bound : offset + values.length ≤ cells.length) :
    (overwrite cells offset values).length = cells.length := by
  simp only [overwrite, List.length_append, List.length_take, List.length_drop]
  omega

/-- A write that succeeds is inside the cells. -/
theorem write_eq_some {written : List α} (wrote : write cells offset values = some written) :
    offset + values.length ≤ cells.length ∧ written = overwrite cells offset values := by
  unfold write at wrote
  split at wrote
  case isTrue bound =>
    cases wrote
    exact ⟨bound, rfl⟩
  case isFalse => cases wrote

/-- A write keeps the number of cells. -/
theorem length_write {written : List α} (wrote : write cells offset values = some written) :
    written.length = cells.length := by
  obtain ⟨bound, rfl⟩ := write_eq_some wrote
  exact length_overwrite bound

/-- What has been written is read back. -/
theorem slice_overwrite (bound : offset + values.length ≤ cells.length) :
    slice (overwrite cells offset values) offset (offset + values.length) = values := by
  have front : (cells.take offset).length = offset := by
    simp only [List.length_take]
    omega
  simp only [slice, overwrite, List.append_assoc, Nat.add_sub_cancel_left]
  rw [List.drop_append_of_le_length (by omega), List.drop_of_length_le (by omega),
    List.nil_append, List.take_append_of_le_length (by omega), List.take_length]

/-- Cells before the written ones are unchanged. -/
theorem slice_overwrite_before (bound : offset + values.length ≤ cells.length)
    (before : last ≤ offset) :
    slice (overwrite cells offset values) first last = slice cells first last := by
  have front : (cells.take offset).length = offset := by
    simp only [List.length_take]
    omega
  by_cases order : first ≤ last
  · simp only [slice, overwrite, List.append_assoc]
    rw [List.drop_append_of_le_length (by omega), List.take_append_of_le_length (by simp; omega),
      List.drop_take, List.take_take]
    congr 1
    omega
  · have empty : last - first = 0 := by omega
    simp [slice, empty]

/-- Cells after the written ones are unchanged. -/
theorem slice_overwrite_after (bound : offset + values.length ≤ cells.length)
    (after : offset + values.length ≤ first) :
    slice (overwrite cells offset values) first last = slice cells first last := by
  have front : (cells.take offset ++ values).length = offset + values.length := by
    simp only [List.length_append, List.length_take]
    omega
  simp only [slice, overwrite]
  rw [List.drop_append, List.drop_of_length_le (by omega), List.nil_append, List.drop_drop, front]
  congr 2
  omega

/-- A block that is filled from its front on. -/
theorem overwrite_zero (cells values : List α) :
    overwrite cells 0 values = values ++ cells.drop values.length := by
  simp [overwrite]

/-- Filling the cells from an index on is a write at that index. -/
theorem take_append_overwrite_drop (cells values : List α) (offset : Nat) :
    cells.take offset ++ overwrite (cells.drop offset) 0 values = overwrite cells offset values := by
  rw [overwrite_zero, List.drop_drop, overwrite, List.append_assoc]

/-- Resized cells have the size asked for. -/
theorem length_resize (cells : List α) (size : Nat) (fill : α) :
    (resize cells size fill).length = size := by
  simp only [resize, List.length_append, List.length_take, List.length_replicate]
  omega

/-- Resizing keeps the cells that lie inside both sizes. -/
theorem slice_resize {size : Nat} {fill : α} (inside : last ≤ cells.length)
    (kept : last ≤ size) : slice (resize cells size fill) first last = slice cells first last := by
  have taken : (resize cells size fill).take last = cells.take last := by
    unfold resize
    rw [List.take_append_of_le_length (by simp only [List.length_take]; omega), List.take_take,
      Nat.min_eq_left kept]
  simp only [slice, ← List.drop_take, taken]

end Slice

/-- Writing one cell and then the ones behind it is one write. -/
private theorem overwrite_set {cells : List α} {offset : Nat} (value : α) (values : List α)
    (bound : offset < cells.length) :
    overwrite (cells.set offset value) (offset + 1) values =
      overwrite cells offset (value :: values) := by
  have taken : (cells.set offset value).take (offset + 1) = cells.take offset ++ [value] := by
    rw [List.take_add_one]
    simp [List.take_set_of_le, bound]
  have dropped : (cells.set offset value).drop (offset + 1 + values.length) =
      cells.drop (offset + 1 + values.length) :=
    List.drop_set_of_lt (by omega)
  simp only [overwrite, taken, dropped, List.length_cons, List.append_assoc, List.cons_append,
    List.nil_append]
  congr 4
  omega

/-- A copy keeps the number of cells. -/
theorem length_copyForward {cells copied : List α} {source target count : Nat}
    (done : copyForward cells source target count = some copied) : copied.length = cells.length := by
  induction count generalizing cells source target with
  | zero =>
      cases done
      rfl
  | succ count inductionHypothesis =>
      obtain ⟨value, -, rest⟩ := Option.bind_eq_some_iff.mp done
      split at rest
      · rw [inductionHypothesis rest, List.length_set]
      · cases rest

/-- A copy that has succeeded has stayed inside the block. -/
theorem copyForward_inside {cells copied : List α} {source target count : Nat}
    (done : copyForward cells source target count = some copied) :
    count = 0 ∨ source + count ≤ cells.length ∧ target + count ≤ cells.length := by
  induction count generalizing cells source target with
  | zero => exact .inl rfl
  | succ count inductionHypothesis =>
      obtain ⟨value, read, rest⟩ := Option.bind_eq_some_iff.mp done
      obtain ⟨sourceInside, -⟩ := List.getElem?_eq_some_iff.mp read
      split at rest
      case isTrue targetInside =>
        have later := inductionHypothesis rest
        rw [List.length_set] at later
        omega
      case isFalse => cases rest

/-- A forward copy to a lower index reproduces the source cells, even where the
two ranges overlap: a cell is overwritten only after it has been read. -/
theorem copyForward_eq {cells : List α} {source target count : Nat}
    (lower : target ≤ source) (bound : source + count ≤ cells.length) :
    copyForward cells source target count =
      some (overwrite cells target (slice cells source (source + count))) := by
  induction count generalizing cells source target with
  | zero => simp [copyForward, overwrite]
  | succ count inductionHypothesis =>
      have inside : source < cells.length := by omega
      have targetInside : target < cells.length := by omega
      have unread : slice (cells.set target cells[source]) (source + 1) (source + 1 + count) =
          slice cells (source + 1) (source + 1 + count) := by
        simp only [slice]
        rw [List.drop_set_of_lt (by omega)]
      have split : slice cells source (source + (count + 1)) =
          cells[source] :: slice cells (source + 1) (source + 1 + count) := by
        simp only [slice, Nat.add_sub_cancel_left]
        rw [List.drop_eq_getElem_cons inside, List.take_succ_cons]
      simp only [copyForward, List.getElem?_eq_getElem inside, Option.bind_eq_bind,
        Option.bind_some, targetInside, if_true]
      rw [inductionHypothesis (by omega) (by simp only [List.length_set]; omega), unread, split,
        overwrite_set _ _ targetInside]

end Benet.Data
