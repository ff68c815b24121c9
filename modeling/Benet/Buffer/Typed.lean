import Benet.Buffer.WellFormed
import Benet.Data.Bytes
import Mathlib.Algebra.Group.Int.Defs

/-!
# Typed fields in a buffer

`AppendInt`, `PrependInt`, `PeekInt` and `RetrieveAsInt` of `buffer.h` at their four
types, on a host of either byte order. A template argument is an `IntType`, and an
integer of that type is its bit pattern, so the casts between signed and unsigned are
the identity; the functions of one type carry the signed integers.

Fields that were appended are read back unchanged by the matching calls, with any
later appends in between (`Buffer.typed_fields_round_trip`).
-/

namespace Benet

open Data

/-- The types that the templates of `Buffer` are used with. -/
inductive IntType where
  | int8
  | int16
  | int32
  | int64
deriving DecidableEq, Repr

def IntType.sizeof : IntType → Nat
  | .int8 => 1
  | .int16 => 2
  | .int32 => 4
  | .int64 => 8

/-- The bit patterns of a type. -/
abbrev IntType.Bits (type : IntType) : Type := BitVec (8 * type.sizeof)

/-- An integer in big-endian order. -/
abbrev IntType.bytes (type : IntType) (num : type.Bits) : List UInt8 := ByteOrder.big.store num

namespace Buffer

/-- The conversion of `AppendInt` and `PrependInt`; a single byte is left alone. -/
def toNetwork (order : ByteOrder) (type : IntType) (num : type.Bits) : type.Bits :=
  match type, num with
  | .int64, num | .int32, num | .int16, num => order.htobe num
  | .int8, num => num

/-- The conversion of `PeekInt`. -/
def fromNetwork (order : ByteOrder) (type : IntType) (val : type.Bits) : type.Bits :=
  match type, val with
  | .int64, val | .int32, val | .int16, val => order.betoh val
  | .int8, val => val

section Templates

variable (order : ByteOrder) (type : IntType)

def peekInt (buffer : Buffer) : Except Fault type.Bits := do
  check (type.sizeof ≤ buffer.readableBytes)
  let val := order.load type.sizeof
    (slice buffer.cells buffer.readerIndex (buffer.readerIndex + type.sizeof))
  .ok (fromNetwork order type val)

def retrieveAsInt (buffer : Buffer) : Except Fault (Buffer × type.Bits) := do
  let result ← buffer.peekInt order type
  let buffer ← buffer.retrieve type.sizeof
  .ok (buffer, result)

def appendInt (num : type.Bits) (buffer : Buffer) : Except Fault Buffer :=
  buffer.append (order.store (toNetwork order type num))

def prependInt (num : type.Bits) (buffer : Buffer) : Except Fault Buffer :=
  buffer.prepend (order.store (toNetwork order type num))

end Templates

section Members

variable (order : ByteOrder)

def retrieveAsInt64 (buffer : Buffer) : Except Fault (Buffer × Int64) :=
  Prod.map id Int64.ofBitVec <$> buffer.retrieveAsInt order .int64

def retrieveAsInt32 (buffer : Buffer) : Except Fault (Buffer × Int32) :=
  Prod.map id Int32.ofBitVec <$> buffer.retrieveAsInt order .int32

def retrieveAsInt16 (buffer : Buffer) : Except Fault (Buffer × Int16) :=
  Prod.map id Int16.ofBitVec <$> buffer.retrieveAsInt order .int16

def retrieveAsInt8 (buffer : Buffer) : Except Fault (Buffer × Int8) :=
  Prod.map id Int8.ofBitVec <$> buffer.retrieveAsInt order .int8

def appendInt64 (x : Int64) : Buffer → Except Fault Buffer := appendInt order .int64 x.toBitVec

def appendInt32 (x : Int32) : Buffer → Except Fault Buffer := appendInt order .int32 x.toBitVec

def appendInt16 (x : Int16) : Buffer → Except Fault Buffer := appendInt order .int16 x.toBitVec

def appendInt8 (x : Int8) : Buffer → Except Fault Buffer := appendInt order .int8 x.toBitVec

def prependInt64 (x : Int64) : Buffer → Except Fault Buffer := prependInt order .int64 x.toBitVec

def prependInt32 (x : Int32) : Buffer → Except Fault Buffer := prependInt order .int32 x.toBitVec

def prependInt16 (x : Int16) : Buffer → Except Fault Buffer := prependInt order .int16 x.toBitVec

def prependInt8 (x : Int8) : Buffer → Except Fault Buffer := prependInt order .int8 x.toBitVec

end Members

/-- A value that a program keeps in a buffer. -/
inductive Field where
  | int8 (x : Int8)
  | int16 (x : Int16)
  | int32 (x : Int32)
  | int64 (x : Int64)
  | string (bytes : List UInt8)
deriving DecidableEq, Repr

/-- What a program has to know of a field to read it. -/
inductive Format where
  | int8
  | int16
  | int32
  | int64
  | string (len : Nat)
deriving DecidableEq, Repr

/-- `size` bytes of the two's complement of an integer, the highest one first. -/
def bigEndian (size : Nat) (value : Int) : List UInt8 :=
  (toBytes size (value % 256 ^ size).toNat).reverse

namespace Field

/-- The bytes that stand for a field. -/
def encode : Field → List UInt8
  | .int8 x => bigEndian 1 x.toInt
  | .int16 x => bigEndian 2 x.toInt
  | .int32 x => bigEndian 4 x.toInt
  | .int64 x => bigEndian 8 x.toInt
  | .string bytes => bytes

def format : Field → Format
  | .int8 _ => .int8
  | .int16 _ => .int16
  | .int32 _ => .int32
  | .int64 _ => .int64
  | .string bytes => .string bytes.length

end Field

variable (order : ByteOrder)

def appendField (buffer : Buffer) : Field → Except Fault Buffer
  | .int8 x => buffer.appendInt8 order x
  | .int16 x => buffer.appendInt16 order x
  | .int32 x => buffer.appendInt32 order x
  | .int64 x => buffer.appendInt64 order x
  | .string bytes => buffer.append bytes

def prependField (buffer : Buffer) : Field → Except Fault Buffer
  | .int8 x => buffer.prependInt8 order x
  | .int16 x => buffer.prependInt16 order x
  | .int32 x => buffer.prependInt32 order x
  | .int64 x => buffer.prependInt64 order x
  | .string bytes => buffer.prepend bytes

def retrieveField (buffer : Buffer) : Format → Except Fault (Buffer × Field)
  | .int8 => Prod.map id Field.int8 <$> buffer.retrieveAsInt8 order
  | .int16 => Prod.map id Field.int16 <$> buffer.retrieveAsInt16 order
  | .int32 => Prod.map id Field.int32 <$> buffer.retrieveAsInt32 order
  | .int64 => Prod.map id Field.int64 <$> buffer.retrieveAsInt64 order
  | .string len => Prod.map id Field.string <$> buffer.retrieveAsString len

/-- One call of a program that writes and reads fields. -/
inductive Access where
  | append (field : Field)
  | retrieve (format : Format)
deriving DecidableEq, Repr

/-- The field that is written. -/
def Access.written : Access → Option Field
  | .append field => some field
  | .retrieve _ => none

/-- The format of the field that is read. -/
def Access.read : Access → Option Format
  | .append _ => none
  | .retrieve format => some format

private theorem filterMap_read_append (fields : List Field) :
    (fields.map Access.append).filterMap Access.read = [] := by
  simp [Access.read]

private theorem filterMap_written_append (fields : List Field) :
    (fields.map Access.append).filterMap Access.written = fields := by
  simp [List.filterMap_map, Function.comp_def, Access.written]

/-- The calls one after the other, with the fields that they return. -/
def runAccesses (buffer : Buffer) : List Access → Except Fault (Buffer × List Field)
  | [] => .ok (buffer, [])
  | .append field :: rest => do
      let buffer ← buffer.appendField order field
      buffer.runAccesses rest
  | .retrieve format :: rest => do
      let (buffer, field) ← buffer.retrieveField order format
      let (buffer, fields) ← buffer.runAccesses rest
      .ok (buffer, field :: fields)

section Encoding

/-- The bytes on the wire are the big-endian ones of the number. -/
theorem bigEndian_toInt (type : IntType) (num : type.Bits) :
    bigEndian type.sizeof num.toInt = type.bytes num := by
  have pattern : num.toNat = (num.toInt % 256 ^ type.sizeof).toNat := by
    have same := BitVec.toNat_ofInt (n := 8 * type.sizeof) num.toInt
    rwa [BitVec.ofInt_toInt, Nat.pow_mul, Int.natCast_pow] at same
  rw [bigEndian, ← pattern]
  rfl

/-- Whatever the host, an integer is written in big-endian order. -/
theorem store_toNetwork (type : IntType) (num : type.Bits) :
    order.store (toNetwork order type num) = type.bytes num := by
  cases type with
  | int64 | int32 | int16 => exact order.store_htobe num
  | int8 => cases order <;> rfl

/-- And it is read in big-endian order. -/
theorem fromNetwork_load (type : IntType) {bytes : List UInt8}
    (length : bytes.length = type.sizeof) :
    fromNetwork order type (order.load type.sizeof bytes) =
      ByteOrder.big.load type.sizeof bytes := by
  cases type with
  | int64 | int32 | int16 => exact order.betoh_load length
  | int8 =>
      obtain ⟨byte, rfl⟩ := List.length_eq_one_iff.mp length
      cases order <;> rfl

end Encoding

section Templates

variable {buffer : Buffer} (type : IntType)

/-- Appending an integer puts its bytes in network order behind the content. -/
theorem Wf.appendInt (wf : buffer.Wf) (num : type.Bits) :
    Yields (buffer.appendInt order type num) (buffer.content ++ type.bytes num) := by
  rw [Buffer.appendInt, store_toNetwork]
  exact wf.append _

/-- Prepending an integer puts its bytes in network order before the content. -/
theorem Wf.prependInt (wf : buffer.Wf) (num : type.Bits)
    (room : (type.bytes num).length ≤ buffer.prependableBytes) :
    Yields (buffer.prependInt order type num) (type.bytes num ++ buffer.content) := by
  rw [Buffer.prependInt, store_toNetwork]
  exact wf.prepend room

/-- An integer at the front of the readable bytes is taken off them. -/
theorem Wf.retrieveAsInt {type : IntType} (wf : buffer.Wf) {num : type.Bits} {rest : List UInt8}
    (front : buffer.content = type.bytes num ++ rest) :
    ∃ next, buffer.retrieveAsInt order type = .ok (next, num) ∧ next.Wf ∧ next.content = rest := by
  have enough : type.sizeof ≤ buffer.readableBytes := by
    rw [← wf.length_content, front]
    simp
  have stop : buffer.readerIndex + type.sizeof ≤ buffer.writerIndex := by
    have order := wf.reader
    simp only [readableBytes] at enough
    omega
  have bytes : slice buffer.cells buffer.readerIndex (buffer.readerIndex + type.sizeof) =
      type.bytes num := by
    rw [← take_slice stop, ← content, front]
    simp
  obtain ⟨next, retrieved, nextWf, nextContent⟩ := wf.retrieve enough
  refine ⟨next, ?_, nextWf, ?_⟩
  · simp only [Buffer.retrieveAsInt, peekInt, enough, decide_true, check_true, bytes]
    rw [fromNetwork_load order type (by simp), ByteOrder.load_store]
    simp [retrieved, bind, Except.bind]
  · rw [nextContent, front]
    simp

end Templates

namespace Field

private theorem encode_int8 (x : Int8) : (int8 x).encode = IntType.int8.bytes x.toBitVec :=
  bigEndian_toInt .int8 x.toBitVec

private theorem encode_int16 (x : Int16) : (int16 x).encode = IntType.int16.bytes x.toBitVec :=
  bigEndian_toInt .int16 x.toBitVec

private theorem encode_int32 (x : Int32) : (int32 x).encode = IntType.int32.bytes x.toBitVec :=
  bigEndian_toInt .int32 x.toBitVec

private theorem encode_int64 (x : Int64) : (int64 x).encode = IntType.int64.bytes x.toBitVec :=
  bigEndian_toInt .int64 x.toBitVec

end Field

section Fields

variable {buffer : Buffer}

/-- Appending a field puts its encoding behind the content. -/
theorem Wf.appendField (wf : buffer.Wf) (field : Field) :
    Yields (buffer.appendField order field) (buffer.content ++ field.encode) := by
  cases field with
  | int8 x =>
      rw [Field.encode_int8]
      exact wf.appendInt order .int8 x.toBitVec
  | int16 x =>
      rw [Field.encode_int16]
      exact wf.appendInt order .int16 x.toBitVec
  | int32 x =>
      rw [Field.encode_int32]
      exact wf.appendInt order .int32 x.toBitVec
  | int64 x =>
      rw [Field.encode_int64]
      exact wf.appendInt order .int64 x.toBitVec
  | string bytes => exact wf.append bytes

/-- Prepending a field puts its encoding before the content. -/
theorem Wf.prependField (wf : buffer.Wf) (field : Field)
    (room : field.encode.length ≤ buffer.prependableBytes) :
    Yields (buffer.prependField order field) (field.encode ++ buffer.content) := by
  cases field with
  | int8 x =>
      rw [Field.encode_int8] at room ⊢
      exact wf.prependInt order .int8 x.toBitVec room
  | int16 x =>
      rw [Field.encode_int16] at room ⊢
      exact wf.prependInt order .int16 x.toBitVec room
  | int32 x =>
      rw [Field.encode_int32] at room ⊢
      exact wf.prependInt order .int32 x.toBitVec room
  | int64 x =>
      rw [Field.encode_int64] at room ⊢
      exact wf.prependInt order .int64 x.toBitVec room
  | string bytes => exact wf.prepend room

/-- A field at the front of the readable bytes is taken off them. -/
theorem Wf.retrieveField (wf : buffer.Wf) (field : Field) {rest : List UInt8}
    (front : buffer.content = field.encode ++ rest) :
    ∃ next, buffer.retrieveField order field.format = .ok (next, field) ∧ next.Wf ∧
      next.content = rest := by
  cases field with
  | int8 x =>
      rw [Field.encode_int8] at front
      obtain ⟨next, retrieved, kept⟩ := wf.retrieveAsInt order front
      refine ⟨next, ?_, kept⟩
      simp only [Buffer.retrieveField, Field.format, retrieveAsInt8, retrieved]
      rfl
  | int16 x =>
      rw [Field.encode_int16] at front
      obtain ⟨next, retrieved, kept⟩ := wf.retrieveAsInt order front
      refine ⟨next, ?_, kept⟩
      simp only [Buffer.retrieveField, Field.format, retrieveAsInt16, retrieved]
      rfl
  | int32 x =>
      rw [Field.encode_int32] at front
      obtain ⟨next, retrieved, kept⟩ := wf.retrieveAsInt order front
      refine ⟨next, ?_, kept⟩
      simp only [Buffer.retrieveField, Field.format, retrieveAsInt32, retrieved]
      rfl
  | int64 x =>
      rw [Field.encode_int64] at front
      obtain ⟨next, retrieved, kept⟩ := wf.retrieveAsInt order front
      refine ⟨next, ?_, kept⟩
      simp only [Buffer.retrieveField, Field.format, retrieveAsInt64, retrieved]
      rfl
  | string bytes =>
      have enough : bytes.length ≤ buffer.readableBytes := by
        rw [← wf.length_content, front]
        simp [Field.encode]
      obtain ⟨next, retrieved, nextWf, nextContent⟩ := wf.retrieveAsString enough
      rw [front, Field.encode] at retrieved nextContent
      rw [List.take_left] at retrieved
      rw [List.drop_left] at nextContent
      refine ⟨next, ?_, nextWf, nextContent⟩
      simp [Buffer.retrieveField, Field.format, retrieved]

/-- The calls read the fields that are there, in order, and the fields that they write
follow what is left. -/
theorem Wf.runAccesses (wf : buffer.Wf) (accesses : List Access) (fields : List Field)
    {rest : List UInt8} (front : buffer.content = fields.flatMap Field.encode ++ rest)
    (reads : accesses.filterMap Access.read = fields.map Field.format) :
    ∃ next, buffer.runAccesses order accesses = .ok (next, fields) ∧ next.Wf ∧
      next.content = rest ++ (accesses.filterMap Access.written).flatMap Field.encode := by
  induction accesses generalizing buffer fields rest with
  | nil =>
      obtain rfl : fields = [] := by simpa using reads.symm
      exact ⟨buffer, rfl, wf, by simpa using front⟩
  | cons access accesses inductionHypothesis =>
      cases access with
      | append field =>
          obtain ⟨longer, appended, longerWf, longerContent⟩ := wf.appendField order field
          rw [front, List.append_assoc] at longerContent
          obtain ⟨next, run, nextWf, nextContent⟩ :=
            inductionHypothesis longerWf fields longerContent
              (by simpa [Access.read, List.filterMap_cons] using reads)
          refine ⟨next, ?_, nextWf, ?_⟩
          · rw [Buffer.runAccesses, appended]
            exact run
          · simpa [Access.written, List.filterMap_cons] using nextContent
      | retrieve format =>
          cases fields with
          | nil => simp [Access.read] at reads
          | cons field others =>
              obtain ⟨rfl, otherReads⟩ : format = field.format ∧
                  accesses.filterMap Access.read = others.map Field.format := by
                simpa [Access.read, List.filterMap_cons] using reads
              rw [List.flatMap_cons, List.append_assoc] at front
              obtain ⟨shorter, retrieved, shorterWf, shorterContent⟩ :=
                wf.retrieveField order field front
              obtain ⟨next, run, nextWf, nextContent⟩ :=
                inductionHypothesis shorterWf others shorterContent otherReads
              refine ⟨next, ?_, nextWf, ?_⟩
              · simp [Buffer.runAccesses, retrieved, run, bind, Except.bind]
              · simpa [Access.written, List.filterMap_cons] using nextContent

end Fields

/-- Typed fields round-trip through every well-formed buffer, on hosts of either byte
order. Appending fields adds their encodings to the readable bytes. After what was
there before is retrieved, the matching calls read the first of them back, with any
appends in between, and leave exactly the others and what was appended. A field that
was prepended is read back and the previous content is there again. -/
theorem typed_fields_round_trip {buffer : Buffer} (wf : buffer.Wf) :
    (∀ fields later, ∃ longer,
      buffer.runAccesses order ((fields ++ later).map .append) = .ok (longer, []) ∧
      longer.content = buffer.content ++ (fields ++ later).flatMap Field.encode ∧
      ∃ start, longer.retrieve buffer.content.length = .ok start ∧
        ∀ accesses, accesses.filterMap Access.read = fields.map Field.format →
          ∃ next, start.runAccesses order accesses = .ok (next, fields) ∧
            next.content = (later ++ accesses.filterMap Access.written).flatMap Field.encode) ∧
    (∀ field, field.encode.length ≤ buffer.prependableBytes →
      ∃ longer, buffer.prependField order field = .ok longer ∧
        longer.content = field.encode ++ buffer.content ∧
        ∃ next, longer.retrieveField order field.format = .ok (next, field) ∧
          next.content = buffer.content) := by
  refine ⟨fun fields later => ?_, fun field room => ?_⟩
  · obtain ⟨longer, appended, longerWf, content⟩ :=
      wf.runAccesses order ((fields ++ later).map .append) [] (List.nil_append _).symm
        (filterMap_read_append _)
    rw [filterMap_written_append] at content
    have enough : buffer.content.length ≤ longer.readableBytes := by
      rw [← longerWf.length_content, content]
      simp
    obtain ⟨start, retrieved, startWf, startContent⟩ := longerWf.retrieve enough
    rw [content, List.drop_left, List.flatMap_append] at startContent
    refine ⟨longer, appended, content, start, retrieved, fun accesses reads => ?_⟩
    obtain ⟨next, run, -, rest⟩ := startWf.runAccesses order accesses fields startContent reads
    exact ⟨next, run, by rw [rest, List.flatMap_append]⟩
  · obtain ⟨longer, prepended, longerWf, content⟩ := wf.prependField order field room
    obtain ⟨next, retrieved, -, restored⟩ := longerWf.retrieveField order field content
    exact ⟨longer, prepended, content, next, retrieved, restored⟩

/-- A negative integer and a string go through a buffer that has drifted and has to
make space, on a little-endian host; another field is appended in between. -/
theorem typed_fields_round_trip_drifted :
    ∃ buffer longer start next : Buffer, buffer.content = [7] ∧
      buffer.runAccesses .little [.append (.int16 (-2)), .append (.string [1, 2, 3])] =
        .ok (longer, []) ∧
      longer.content = [7, 255, 254, 1, 2, 3] ∧ longer.retrieve 1 = .ok start ∧
      start.runAccesses .little [.retrieve .int16, .append (.int8 5), .retrieve (.string 3)] =
        .ok (next, [.int16 (-2), .string [1, 2, 3]]) ∧
      next.content = [5] := by
  let buffer : Buffer := ⟨[0, 0, 0, 0, 0, 0, 0, 0, 0, 7], 9, 10⟩
  have wf : buffer.Wf := ⟨by decide, by decide, by decide⟩
  obtain ⟨longer, appended, content, start, retrieved, reads⟩ :=
    (typed_fields_round_trip .little wf).1 [.int16 (-2), .string [1, 2, 3]] []
  obtain ⟨next, run, rest⟩ :=
    reads [.retrieve .int16, .append (.int8 5), .retrieve (.string 3)] (by decide)
  exact ⟨buffer, longer, start, next, by decide, appended, content.trans (by decide), retrieved, run,
    rest.trans (by decide)⟩

end Buffer

end Benet
