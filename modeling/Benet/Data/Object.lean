import Benet.Data.Slice

/-!
# Objects in memory

The representation of an object is a block of as many bytes as the object has. A
`Member` is a part of it at a fixed offset, as a structure type lays it out; the laws of
`get` and `set` are those of disjoint and of equal members.
-/

namespace Benet.Data

/-- `size` bytes. -/
abbrev Block (size : Nat) := {bytes : List UInt8 // bytes.length = size}

namespace Block

variable {size : Nat}

/-- As `memset` to zero leaves it. -/
def zero (size : Nat) : Block size := ⟨List.replicate size 0, List.length_replicate⟩

/-- The block with its first bytes replaced. -/
def fill (block : Block size) (values : List UInt8) (fits : values.length ≤ size) : Block size :=
  ⟨overwrite block.1 0 values, by rw [length_overwrite] <;> simp [block.2, fits]⟩

end Block

/-- `size` of the `total` bytes of an object, from an offset on. -/
structure Member (total size : Nat) where
  offset : Nat
  fits : offset + size ≤ total := by decide

namespace Member

variable {total size size' : Nat}

def get (member : Member total size) (block : Block total) : Block size :=
  ⟨slice block.1 member.offset (member.offset + size), by
    have bound := member.fits
    rw [length_slice (by rwa [block.2]), Nat.add_sub_cancel_left]⟩

def set (member : Member total size) (value : Block size) (block : Block total) : Block total :=
  ⟨overwrite block.1 member.offset value.1, by
    rw [length_overwrite, block.2]
    rw [value.2, block.2]
    exact member.fits⟩

@[simp] theorem get_set (member : Member total size) (value : Block size) (block : Block total) :
    member.get (member.set value block) = value := by
  have bound : member.offset + value.1.length ≤ block.1.length := by
    rw [value.2, block.2]
    exact member.fits
  have read := slice_overwrite bound
  rw [value.2] at read
  exact Subtype.ext read

/-- A member that lies before or behind the one that is set. -/
theorem get_set_of_disjoint {member : Member total size} {other : Member total size'}
    (disjoint : other.offset + size' ≤ member.offset ∨ member.offset + size ≤ other.offset)
    (value : Block size) (block : Block total) :
    other.get (member.set value block) = other.get block := by
  have bound : member.offset + value.1.length ≤ block.1.length := by
    rw [value.2, block.2]
    exact member.fits
  apply Subtype.ext
  rcases disjoint with before | behind
  · exact slice_overwrite_before bound before
  · exact slice_overwrite_after bound (by rwa [value.2])

/-- A member that the new first bytes contain. -/
theorem get_fill_inside {member : Member total size} {values front back : List UInt8}
    {value : Block size} (contained : values = front ++ value.1 ++ back)
    (offset : front.length = member.offset) (block : Block total) (fits : values.length ≤ total) :
    member.get (block.fill values fits) = value := by
  apply Subtype.ext
  simp only [get, Block.fill, overwrite_zero, ← offset]
  rw [contained, List.append_assoc (front ++ value.1)]
  exact slice_middle front value.1 _ value.2

/-- A member behind the new first bytes. -/
theorem get_fill_behind {member : Member total size} {values : List UInt8}
    (behind : values.length ≤ member.offset) (block : Block total) (fits : values.length ≤ total) :
    member.get (block.fill values fits) = member.get block := by
  apply Subtype.ext
  exact slice_overwrite_after (by simp [block.2, fits]) (by simpa using behind)

/-- Every member of a zeroed block is zero. -/
theorem get_zero (member : Member total size) : member.get (Block.zero total) = Block.zero size := by
  apply Subtype.ext
  have bound := member.fits
  simp only [get, Block.zero, slice, List.drop_replicate, List.take_replicate]
  congr 1
  omega

end Member

end Benet.Data
