import Mathlib.Data.List.Basic
import Mathlib.Algebra.Group.Nat.Defs

/-!
# Integers as bytes

The numeral of a number in a fixed number of bytes, and the two orders in which a
machine keeps it in memory. `store` and `load` are the object representation of an
integer; `htobe` and `betoh` convert between the host's order and big-endian order,
so that storing a converted integer lays its bytes out in big-endian order whatever
the host's order is.
-/

namespace Benet.Data

/-- The `size` lowest bytes of a number, the lowest one first. -/
def toBytes : Nat → Nat → List UInt8
  | 0, _ => []
  | size + 1, value => .ofNat value :: toBytes size (value / 256)

/-- The number with these bytes, the lowest one first. -/
def ofBytes : List UInt8 → Nat
  | [] => 0
  | byte :: rest => byte.toNat + 256 * ofBytes rest

@[simp] theorem length_toBytes (size value : Nat) : (toBytes size value).length = size := by
  induction size generalizing value with
  | zero => rfl
  | succ size inductionHypothesis => simp [toBytes, inductionHypothesis]

/-- Writing a number into `size` bytes keeps it modulo their range. -/
theorem ofBytes_toBytes (size value : Nat) :
    ofBytes (toBytes size value) = value % 256 ^ size := by
  induction size generalizing value with
  | zero => simp [toBytes, ofBytes, Nat.mod_one]
  | succ size inductionHypothesis =>
      have split : value % 256 ^ (size + 1) = value % 256 + 256 * (value / 256 % 256 ^ size) := by
        rw [Nat.pow_succ', Nat.mod_mul]
      rw [toBytes, ofBytes, inductionHypothesis, UInt8.toNat_ofNat', split]

/-- Bytes are determined by the number that they stand for. -/
theorem toBytes_ofBytes (bytes : List UInt8) : toBytes bytes.length (ofBytes bytes) = bytes := by
  induction bytes with
  | nil => rfl
  | cons byte rest inductionHypothesis =>
      have small : byte.toNat < 256 := byte.toNat_lt
      have low : UInt8.ofNat (byte.toNat + 256 * ofBytes rest) = byte := by
        apply UInt8.toNat_inj.mp
        rw [UInt8.toNat_ofNat']
        omega
      have high : (byte.toNat + 256 * ofBytes rest) / 256 = ofBytes rest := by omega
      rw [ofBytes, List.length_cons, toBytes, low, high, inductionHypothesis]

/-- The number in some bytes is in their range. -/
theorem ofBytes_lt (bytes : List UInt8) : ofBytes bytes < 256 ^ bytes.length := by
  have remainder := ofBytes_toBytes bytes.length (ofBytes bytes)
  rw [toBytes_ofBytes] at remainder
  rw [remainder]
  exact Nat.mod_lt _ (Nat.pow_pos (by decide))

/-- The order in which a machine keeps the bytes of an integer. -/
inductive ByteOrder where
  | little
  | big
deriving DecidableEq, Repr

namespace ByteOrder

variable {size : Nat}

/-- The bytes of an integer in memory. -/
def store (order : ByteOrder) (value : BitVec (8 * size)) : List UInt8 :=
  match order with
  | .little => toBytes size value.toNat
  | .big => (toBytes size value.toNat).reverse

/-- The integer that these bytes are in memory. -/
def load (order : ByteOrder) (size : Nat) (bytes : List UInt8) : BitVec (8 * size) :=
  match order with
  | .little => .ofNat _ (ofBytes bytes)
  | .big => .ofNat _ (ofBytes bytes.reverse)

/-- The same integer with its bytes in the opposite order. -/
def swapBytes (value : BitVec (8 * size)) : BitVec (8 * size) :=
  little.load size (big.store value)

/-- Host order to big-endian order. -/
def htobe (order : ByteOrder) (value : BitVec (8 * size)) : BitVec (8 * size) :=
  match order with
  | .little => swapBytes value
  | .big => value

/-- Big-endian order to host order. -/
def betoh (order : ByteOrder) (value : BitVec (8 * size)) : BitVec (8 * size) :=
  match order with
  | .little => swapBytes value
  | .big => value

@[simp] theorem length_store (order : ByteOrder) (value : BitVec (8 * size)) :
    (order.store value).length = size := by
  cases order <;> simp [store]

private theorem big_store (value : BitVec (8 * size)) :
    big.store value = (little.store value).reverse := rfl

private theorem big_load (bytes : List UInt8) :
    big.load size bytes = little.load size bytes.reverse := rfl

/-- What was stored is loaded in the same byte order. -/
theorem load_store (order : ByteOrder) (value : BitVec (8 * size)) :
    order.load size (order.store value) = value := by
  have whole : value.toNat % 256 ^ size = value.toNat :=
    Nat.mod_eq_of_lt (Nat.lt_of_lt_of_eq value.isLt (Nat.pow_mul 2 8 size))
  have low : little.load size (little.store value) = value := by
    rw [store, load, ofBytes_toBytes, whole, BitVec.ofNat_toNat, BitVec.setWidth_eq]
  cases order with
  | little => exact low
  | big => rw [big_load, big_store, List.reverse_reverse, low]

/-- What was loaded is stored as the same bytes. -/
theorem store_load (order : ByteOrder) {bytes : List UInt8} (length : bytes.length = size) :
    order.store (order.load size bytes) = bytes := by
  have low : ∀ bytes : List UInt8, bytes.length = size →
      little.store (little.load size bytes) = bytes := by
    rintro bytes rfl
    have whole : ofBytes bytes % 2 ^ (8 * bytes.length) = ofBytes bytes :=
      Nat.mod_eq_of_lt (Nat.lt_of_lt_of_eq (ofBytes_lt bytes) (Nat.pow_mul 2 8 _).symm)
    rw [store, load, BitVec.toNat_ofNat, whole, toBytes_ofBytes]
  cases order with
  | little => exact low bytes length
  | big => rw [big_load, big_store, low _ (by simpa using length), List.reverse_reverse]

/-- A converted integer is kept in big-endian order. -/
theorem store_htobe (order : ByteOrder) (value : BitVec (8 * size)) :
    order.store (order.htobe value) = big.store value := by
  cases order with
  | little => exact little.store_load (by simp)
  | big => rfl

/-- Converting back what was loaded reads the bytes in big-endian order. -/
theorem betoh_load (order : ByteOrder) {bytes : List UInt8} (length : bytes.length = size) :
    order.betoh (order.load size bytes) = big.load size bytes := by
  cases order with
  | little =>
      change little.load size (big.store (little.load size bytes)) = _
      rw [big_store, little.store_load length, big_load]
  | big => rfl

end ByteOrder

end Benet.Data
