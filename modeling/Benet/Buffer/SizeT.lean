import Benet.Buffer.ReadFd
import Mathlib.Data.UInt

/-!
# The sizes of the buffer as machine words

`SizedBuffer` is the buffer with its indices as `size_t`: sums and differences are taken
modulo `2^64`, and the vector refuses a size above `2^63 - 1` with an exception. The
three sums of `buffer.h` are not checked. `ensureWriteableBytes_safe_iff` says for which
lengths that is harmless, over every buffer that calls can lead to, those included that
a wrapped sum has already left without room for their own content, and those that a
failed `readv` has then left with the reader index behind the writer index.
-/

namespace Benet

open Data Semantics

structure SizedBuffer where
  /-- `buffer_` -/
  cells : List UInt8
  readerIndex : UInt64
  writerIndex : UInt64
deriving DecidableEq, Repr

namespace SizedBuffer

def kCheapPrepend : UInt64 := 8

def kExtraBufSize : UInt64 := 65536

/-- `max_size()` of the vector. -/
def maxSize : Nat := 2 ^ 63 - 1

/-- How a call ends. -/
inductive Outcome where
  | returns (buffer : SizedBuffer)
  /-- by `std::length_error`, with the buffer as a handler finds it -/
  | throws (buffer : SizedBuffer)
  | faults (fault : Fault)
deriving DecidableEq, Repr

namespace Outcome

def andThen (outcome : Outcome) (rest : SizedBuffer → Outcome) : Outcome :=
  match outcome with
  | .returns buffer => rest buffer
  | .throws buffer => .throws buffer
  | .faults fault => .faults fault

/-- The buffer that the call leaves behind, unless it has stopped the program. -/
def buffer? : Outcome → Option SizedBuffer
  | .returns buffer => some buffer
  | .throws buffer => some buffer
  | .faults _ => none

end Outcome

def check (condition : Bool) (rest : Outcome) : Outcome :=
  if condition then rest else .faults .assertion

/-- The sized constructor of the vector, and `resize`; `none` is the exception. -/
def resize (cells : List UInt8) (size : UInt64) : Option (List UInt8) :=
  if size.toNat ≤ maxSize then some (Data.resize cells size.toNat 0) else none

/-- The constructor; without a buffer it has thrown. -/
def create (initSize : UInt64) : Option SizedBuffer :=
  (resize [] (kCheapPrepend + initSize)).map (⟨·, kCheapPrepend, kCheapPrepend⟩)

section Operations

variable (buffer : SizedBuffer)

/-- `buffer_.size()` -/
def size : UInt64 := UInt64.ofNat buffer.cells.length

def readableBytes : UInt64 := buffer.writerIndex - buffer.readerIndex

def writableBytes : UInt64 := buffer.size - buffer.writerIndex

def prependableBytes : UInt64 := buffer.readerIndex

def content : List UInt8 :=
  slice buffer.cells buffer.readerIndex.toNat buffer.writerIndex.toNat

/-- Both sums of the condition and the one of the new size may wrap. -/
def makeSpace (len : UInt64) : Outcome :=
  if buffer.writableBytes + buffer.prependableBytes < len + kCheapPrepend then
    match resize buffer.cells (buffer.writerIndex + len) with
    | none => .throws buffer
    | some cells => .returns { buffer with cells }
  else
    let readable := buffer.readableBytes
    match copyForward buffer.cells buffer.readerIndex.toNat kCheapPrepend.toNat readable.toNat with
    | none => .faults .outOfRange
    | some cells => .returns ⟨cells, kCheapPrepend, kCheapPrepend + readable⟩

def ensureWriteableBytes (len : UInt64) : Outcome :=
  if buffer.writableBytes < len then buffer.makeSpace len else .returns buffer

def append (data : List UInt8) : Outcome :=
  (buffer.ensureWriteableBytes (UInt64.ofNat data.length)).andThen fun buffer =>
    match write buffer.cells buffer.writerIndex.toNat data with
    | none => .faults .outOfRange
    | some cells =>
        .returns { buffer with
          cells, writerIndex := buffer.writerIndex + UInt64.ofNat data.length }

def prepend (data : List UInt8) : Outcome :=
  let len := UInt64.ofNat data.length
  check (len ≤ buffer.prependableBytes) <|
    match write buffer.cells (buffer.readerIndex - len).toNat data with
    | none => .faults .outOfRange
    | some cells => .returns { buffer with cells, readerIndex := buffer.readerIndex - len }

def retrieve (len : UInt64) : Outcome :=
  check (len ≤ buffer.readableBytes) <|
    .returns { buffer with readerIndex := buffer.readerIndex + len }

/-- The pointer `end` is given as an index into the block. -/
def retrieveUntil (stop : UInt64) : Outcome :=
  check (buffer.readerIndex ≤ stop) <| check (stop ≤ buffer.writerIndex) <|
    buffer.retrieve (stop - buffer.readerIndex)

def retrieveAll : SizedBuffer :=
  { buffer with readerIndex := kCheapPrepend, writerIndex := kCheapPrepend }

/-- The string is made of the `len` bytes at `Peek()`, all of which have to exist. -/
def retrieveAsString (len : UInt64) : Outcome :=
  check (len ≤ buffer.readableBytes) <|
    if buffer.readerIndex.toNat + len.toNat ≤ buffer.cells.length then buffer.retrieve len
    else .faults .outOfRange

def retrieveAllAsString : Outcome :=
  buffer.retrieveAsString buffer.readableBytes

/-- What the blocks passed to `readv` hold together. -/
def readCapacity : Nat :=
  buffer.writableBytes.toNat +
    if buffer.writableBytes < kExtraBufSize then kExtraBufSize.toNat else 0

/-- `ReadFd` when `readv` delivers the bytes `received`, or fails. `extraBuf` is what the
array on the stack holds before the call, which does not initialise it. -/
def readFd (extraBuf : Vector UInt8 kExtraBufSize.toNat) (received : Option (List UInt8)) :
    Outcome :=
  match received with
  | none =>
      -- `n` is `-1` and the comparison is signed, so that a free tail which has wrapped
      -- passes for one that was filled: `n - writable` bytes of the array are appended
      if buffer.writableBytes.toInt64 < -1 then
        let len := -1 - buffer.writableBytes
        let filled := { buffer with writerIndex := buffer.size }
        if len ≤ kExtraBufSize then filled.append (extraBuf.toList.take len.toNat)
        else (filled.ensureWriteableBytes len).andThen fun _ => .faults .outOfRange
      else .returns buffer
  | some bytes =>
      let writable := buffer.writableBytes.toNat
      match write buffer.cells buffer.writerIndex.toNat (bytes.take writable) with
      | none => .faults .outOfRange
      | some cells =>
          if bytes.length ≤ writable then
            .returns { buffer with
              cells, writerIndex := buffer.writerIndex + UInt64.ofNat bytes.length }
          else
            append { buffer with cells, writerIndex := UInt64.ofNat cells.length }
              (bytes.drop writable)

end Operations

/-- One call on a buffer. -/
inductive Call where
  | append (data : List UInt8)
  | prepend (data : List UInt8)
  | retrieve (len : UInt64)
  | retrieveUntil (stop : UInt64)
  | retrieveAll
  | retrieveAsString (len : UInt64)
  | retrieveAllAsString
  | ensureWriteableBytes (len : UInt64)
  | readFd (extraBuf : Vector UInt8 kExtraBufSize.toNat) (received : Option (List UInt8))
deriving DecidableEq, Repr

namespace Call

def apply (buffer : SizedBuffer) : Call → Outcome
  | .append data => buffer.append data
  | .prepend data => buffer.prepend data
  | .retrieve len => buffer.retrieve len
  | .retrieveUntil stop => buffer.retrieveUntil stop
  | .retrieveAll => .returns buffer.retrieveAll
  | .retrieveAsString len => buffer.retrieveAsString len
  | .retrieveAllAsString => buffer.retrieveAllAsString
  | .ensureWriteableBytes len => buffer.ensureWriteableBytes len
  | .readFd extraBuf received => buffer.readFd extraBuf received

/-- `readv` fails when its blocks exceed `SSIZE_MAX` together, and otherwise takes no
more than they hold. Nothing is asked of the other calls: their assertions are part of
them. -/
def Permitted (buffer : SizedBuffer) : Call → Prop
  | .readFd _ (some bytes) => buffer.readCapacity ≤ maxSize ∧ bytes.length ≤ buffer.readCapacity
  | _ => True

instance (buffer : SizedBuffer) (call : Call) : Decidable (call.Permitted buffer) := by
  unfold Permitted
  split <;> infer_instance

def step (buffer : SizedBuffer) (call : Call) : Option SizedBuffer :=
  if call.Permitted buffer then (call.apply buffer).buffer? else none

end Call

/-- All sequences of calls on a buffer of any initial size, going on after an exception. -/
abbrev system : LabelledSystem SizedBuffer Call where
  Initial buffer := ∃ initSize, create initSize = some buffer
  step := Call.step

/-- The index order drawn above the class. -/
def Ordered (buffer : SizedBuffer) : Prop :=
  buffer.readerIndex ≤ buffer.writerIndex ∧ buffer.writerIndex ≤ buffer.size

instance (buffer : SizedBuffer) : Decidable buffer.Ordered :=
  inferInstanceAs (Decidable (_ ∧ _))

/-- The constructor has thrown, or it has made a buffer with its indices in order. -/
def CreateSafe (initSize : UInt64) : Prop :=
  ∀ buffer ∈ create initSize, buffer.Ordered

/-- `EnsureWriteableBytes` has thrown and changed nothing, or it has made the room
without touching the content. -/
def EnsureSafe (buffer : SizedBuffer) (len : UInt64) : Prop :=
  match buffer.ensureWriteableBytes len with
  | .throws after => after = buffer
  | .returns after =>
      after.Ordered ∧ after.content = buffer.content ∧ len ≤ after.writableBytes
  | .faults _ => False

instance (initSize : UInt64) : Decidable (CreateSafe initSize) :=
  inferInstanceAs (Decidable (∀ buffer ∈ create initSize, buffer.Ordered))

instance (buffer : SizedBuffer) (len : UInt64) : Decidable (buffer.EnsureSafe len) := by
  unfold EnsureSafe
  split <;> infer_instance

/-- The call finds too little room, takes the branch that grows, and asks the vector for a
size above its limit, with a sum that does not wrap. -/
def Exceeds (buffer : SizedBuffer) (len : UInt64) : Prop :=
  buffer.writableBytes < len ∧
    buffer.writableBytes + buffer.prependableBytes < len + kCheapPrepend ∧
    maxSize < buffer.writerIndex.toNat + len.toNat ∧
    buffer.writerIndex.toNat + len.toNat < 2 ^ 64

instance (buffer : SizedBuffer) (len : UInt64) : Decidable (buffer.Exceeds len) :=
  inferInstanceAs (Decidable (_ ∧ _ ∧ _ ∧ _))

/-- The buffer of the model without word sizes. -/
def toBuffer (buffer : SizedBuffer) : Buffer :=
  ⟨buffer.cells, buffer.readerIndex.toNat, buffer.writerIndex.toNat⟩

/-- What holds of every buffer. It does not say that the indices lie in the block or in
their order: a wrapped sum can shrink the block below the writer index, and a `readv` that
then fails draws the writer index below the reader index. -/
structure Shape (buffer : SizedBuffer) : Prop where
  writer : buffer.writerIndex.toNat ≤ maxSize
  size : buffer.cells.length ≤ maxSize

/-- Whatever buffer the call leaves satisfies `invariant`. -/
def Outcome.Leaves (invariant : SizedBuffer → Prop) (outcome : Outcome) : Prop :=
  ∀ buffer ∈ outcome.buffer?, invariant buffer

namespace Outcome

variable {invariant : SizedBuffer → Prop} {buffer : SizedBuffer}

/-- A call that returns leaves the buffer that it returns with. -/
theorem leaves_returns : (returns buffer).Leaves invariant ↔ invariant buffer := by
  simp [Leaves, buffer?]

/-- A call that throws leaves the buffer as it is at the exception. -/
theorem leaves_throws : (throws buffer).Leaves invariant ↔ invariant buffer := by
  simp [Leaves, buffer?]

/-- A call with undefined behaviour leaves no buffer. -/
theorem leaves_faults (fault : Fault) : (faults fault).Leaves invariant := by
  simp [Leaves, buffer?]

/-- What each of two calls keeps, both keep one after the other. -/
theorem Leaves.andThen {outcome : Outcome} {rest : SizedBuffer → Outcome}
    (first : outcome.Leaves invariant)
    (second : ∀ buffer, invariant buffer → (rest buffer).Leaves invariant) :
    (outcome.andThen rest).Leaves invariant := by
  cases outcome with
  | returns buffer => exact second buffer (leaves_returns.mp first)
  | throws buffer => exact first
  | faults fault => exact first

/-- After an assertion its condition may be used. -/
theorem leaves_check {condition : Bool} {rest : Outcome}
    (passed : condition = true → rest.Leaves invariant) :
    (check condition rest).Leaves invariant := by
  unfold check
  split
  case isTrue holds => exact passed holds
  case isFalse => exact leaves_faults _

end Outcome

section Words

private theorem toNat_kCheapPrepend : kCheapPrepend.toNat = 8 := rfl

private theorem kCheapPrepend_le_maxSize : kCheapPrepend.toNat ≤ maxSize := by decide

variable {buffer : SizedBuffer}

/-- `size()` is the number of cells, which fits into `size_t`. -/
theorem Shape.toNat_size (shape : buffer.Shape) : buffer.size.toNat = buffer.cells.length := by
  have bound := shape.size
  simp only [maxSize] at bound
  rw [SizedBuffer.size, UInt64.toNat_ofNat']
  omega

private theorem toNat_readableBytes
    (ordered : buffer.readerIndex.toNat ≤ buffer.writerIndex.toNat) :
    buffer.readableBytes.toNat = buffer.writerIndex.toNat - buffer.readerIndex.toNat :=
  UInt64.toNat_sub_of_le _ _ ordered

/-- The free tail, which wraps when the block ends before the writer index. -/
theorem Shape.toNat_writableBytes (shape : buffer.Shape) :
    buffer.writableBytes.toNat =
      (2 ^ 64 - buffer.writerIndex.toNat + buffer.cells.length) % 2 ^ 64 := by
  rw [writableBytes, UInt64.toNat_sub, shape.toNat_size]

/-- A word that comes from a length inside a vector. -/
private theorem toNat_add_ofNat {index : UInt64} {count : Nat}
    (bound : index.toNat + count ≤ maxSize) :
    (index + UInt64.ofNat count).toNat = index.toNat + count := by
  simp only [maxSize] at bound
  rw [UInt64.toNat_add, UInt64.toNat_ofNat']
  omega

/-- A `resize` that does not throw was asked for a possible size. -/
theorem resize_eq_some {cells resized : List UInt8} {size : UInt64}
    (done : resize cells size = some resized) :
    size.toNat ≤ maxSize ∧ resized = Data.resize cells size.toNat 0 := by
  unfold resize at done
  split at done
  case isTrue bound =>
    cases done
    exact ⟨bound, rfl⟩
  case isFalse => cases done

end Words

section Shape

open Outcome

variable {buffer : SizedBuffer}

/-- A new buffer has the shape, also when its size has wrapped around. -/
theorem shape_create {initSize : UInt64} (created : create initSize = some buffer) :
    buffer.Shape := by
  obtain ⟨cells, resized, rfl⟩ := Option.map_eq_some_iff.mp created
  obtain ⟨bound, rfl⟩ := resize_eq_some resized
  refine ⟨kCheapPrepend_le_maxSize, ?_⟩
  rw [length_resize]
  exact bound

/-- A copy that has stayed inside the block leaves the writer index inside it, or at the
reserve. -/
theorem Shape.makeSpace (shape : buffer.Shape) (len : UInt64) :
    (buffer.makeSpace len).Leaves Shape := by
  unfold SizedBuffer.makeSpace
  split
  case isTrue =>
    split
    case h_1 => exact leaves_throws.mpr shape
    case h_2 cells resized =>
      obtain ⟨bound, rfl⟩ := resize_eq_some resized
      refine leaves_returns.mpr ⟨shape.writer, ?_⟩
      rw [length_resize]
      exact bound
  case isFalse =>
    dsimp only
    split
    case h_1 => exact leaves_faults _
    case h_2 cells copied =>
      have size := shape.size
      have inside := copyForward_inside copied
      have kept := length_copyForward copied
      have moved := UInt64.toNat_add kCheapPrepend buffer.readableBytes
      simp only [maxSize, toNat_kCheapPrepend] at size inside moved
      refine leaves_returns.mpr ⟨?_, ?_⟩ <;> simp only [maxSize] <;> omega

/-- `EnsureWriteableBytes` keeps the shape for every length. -/
theorem Shape.ensureWriteableBytes (shape : buffer.Shape) (len : UInt64) :
    (buffer.ensureWriteableBytes len).Leaves Shape := by
  unfold SizedBuffer.ensureWriteableBytes
  split
  case isTrue => exact shape.makeSpace len
  case isFalse => exact leaves_returns.mpr shape

/-- A write that has stayed inside the block, and the writer index behind it. -/
theorem Shape.extend (shape : buffer.Shape) {data cells : List UInt8}
    (written : write buffer.cells buffer.writerIndex.toNat data = some cells) :
    Shape { buffer with
      cells, writerIndex := buffer.writerIndex + UInt64.ofNat data.length } := by
  have inside := (write_eq_some written).1
  have kept := length_write written
  have size := shape.size
  have moved := toNat_add_ofNat (Nat.le_trans inside size)
  constructor <;> dsimp only <;> omega

/-- `Append` keeps the shape for all data. -/
theorem Shape.append (shape : buffer.Shape) (data : List UInt8) :
    (buffer.append data).Leaves Shape := by
  refine (shape.ensureWriteableBytes _).andThen fun roomy roomyShape => ?_
  split
  case h_1 => exact leaves_faults _
  case h_2 cells written => exact leaves_returns.mpr (roomyShape.extend written)

/-- `Prepend` keeps the shape for all data. -/
theorem Shape.prepend (shape : buffer.Shape) (data : List UInt8) :
    (buffer.prepend data).Leaves Shape := by
  refine leaves_check fun _ => ?_
  split
  case h_1 => exact leaves_faults _
  case h_2 cells written =>
    have kept := length_write written
    exact leaves_returns.mpr ⟨shape.writer, kept ▸ shape.size⟩

/-- The assertion bounds the length by the readable bytes, which is no bound once their
number has wrapped: the reader index can be moved anywhere. -/
theorem Shape.retrieve (shape : buffer.Shape) (len : UInt64) :
    (buffer.retrieve len).Leaves Shape :=
  leaves_check fun _ => leaves_returns.mpr ⟨shape.writer, shape.size⟩

/-- `RetrieveAll` keeps the shape. -/
theorem Shape.retrieveAll (shape : buffer.Shape) : buffer.retrieveAll.Shape :=
  ⟨kCheapPrepend_le_maxSize, shape.size⟩

/-- `RetrieveAsString` keeps the shape for every length. -/
theorem Shape.retrieveAsString (shape : buffer.Shape) (len : UInt64) :
    (buffer.retrieveAsString len).Leaves Shape := by
  refine leaves_check fun _ => ?_
  split
  case isTrue => exact shape.retrieve len
  case isFalse => exact leaves_faults _

/-- The writer index at the end of the block. -/
theorem Shape.atEnd (shape : buffer.Shape) : Shape { buffer with writerIndex := buffer.size } :=
  ⟨shape.toNat_size ▸ shape.size, shape.size⟩

/-- `ReadFd` keeps the shape, whatever `readv` returns. -/
theorem Shape.readFd (shape : buffer.Shape) (extraBuf : Vector UInt8 kExtraBufSize.toNat)
    (received : Option (List UInt8)) : (buffer.readFd extraBuf received).Leaves Shape := by
  cases received with
  | none =>
      unfold SizedBuffer.readFd
      dsimp only
      split
      case isTrue =>
        split
        case isTrue => exact shape.atEnd.append _
        case isFalse =>
          refine (shape.atEnd.ensureWriteableBytes _).andThen fun _ _ => leaves_faults _
      case isFalse => exact leaves_returns.mpr shape
  | some bytes =>
      unfold SizedBuffer.readFd
      dsimp only
      split
      case h_1 => exact leaves_faults _
      case h_2 cells written =>
        have kept := length_write written
        have size := shape.size
        split
        case isTrue fits =>
          rw [List.take_of_length_le fits] at written
          exact leaves_returns.mpr (shape.extend written)
        case isFalse =>
          have last : (UInt64.ofNat cells.length).toNat = cells.length := by
            simp only [maxSize] at size
            rw [UInt64.toNat_ofNat']
            omega
          refine Shape.append ?_ _
          constructor <;> dsimp only <;> omega

/-- One call, whatever it is given. -/
theorem Shape.step (shape : buffer.Shape) {call : Call} {next : SizedBuffer}
    (stepped : call.step buffer = some next) : next.Shape := by
  have leaves : (call.apply buffer).Leaves Shape := by
    cases call with
    | append data => exact shape.append data
    | prepend data => exact shape.prepend data
    | retrieve len => exact shape.retrieve len
    | retrieveUntil stop => exact leaves_check fun _ => leaves_check fun _ => shape.retrieve _
    | retrieveAll => exact leaves_returns.mpr shape.retrieveAll
    | retrieveAsString len => exact shape.retrieveAsString len
    | retrieveAllAsString => exact shape.retrieveAsString _
    | ensureWriteableBytes len => exact shape.ensureWriteableBytes len
    | readFd extraBuf received => exact shape.readFd extraBuf received
  unfold Call.step at stepped
  split at stepped
  case isTrue => exact leaves next stepped
  case isFalse => cases stepped

/-- Every buffer that calls can produce has the shape. -/
theorem reachable_shape {guard : SizedBuffer → Call → Prop}
    (reachable : system.Reachable guard buffer) : buffer.Shape := by
  refine reachable.invariant Shape ?_ ?_
  · rintro _ ⟨initSize, created⟩
    exact shape_create created
  · exact fun _ _ _ _ shape _ stepped => shape.step stepped

end Shape

section Safety

variable {buffer : SizedBuffer} {len : UInt64}

/-- The order of the indices, on numbers instead of machine words. -/
theorem Shape.ordered_iff (shape : buffer.Shape) :
    buffer.Ordered ↔ buffer.readerIndex.toNat ≤ buffer.writerIndex.toNat ∧
      buffer.writerIndex.toNat ≤ buffer.cells.length := by
  rw [Ordered, UInt64.le_iff_toNat_le, UInt64.le_iff_toNat_le, shape.toNat_size]

/-- While the writer index is inside, `WritableBytes` does not wrap around. -/
theorem Shape.toNat_writableBytes_of_inside (shape : buffer.Shape)
    (inside : buffer.writerIndex.toNat ≤ buffer.cells.length) :
    buffer.writableBytes.toNat = buffer.cells.length - buffer.writerIndex.toNat := by
  have size := shape.size
  simp only [maxSize] at size
  rw [shape.toNat_writableBytes]
  omega

/-- A free tail that does not reach to the writer index is a wrapped one. -/
theorem Shape.wraps_of_short (shape : buffer.Shape)
    (outside : buffer.cells.length < buffer.writerIndex.toNat)
    (short : buffer.writableBytes < len) : 2 ^ 64 ≤ buffer.writerIndex.toNat + len.toNat := by
  have tail := shape.toNat_writableBytes
  have writer := shape.writer
  have shortNat := UInt64.lt_iff_toNat_lt.mp short
  simp only [maxSize] at writer
  omega

/-- A wrapped size is below the writer index, so the vector refuses no such size. -/
theorem Shape.refused_iff (shape : buffer.Shape) :
    maxSize < (buffer.writerIndex + len).toNat ↔
      maxSize < buffer.writerIndex.toNat + len.toNat ∧
        buffer.writerIndex.toNat + len.toNat < 2 ^ 64 := by
  have writer := shape.writer
  have word := len.toNat_lt
  simp only [maxSize] at writer ⊢
  rw [UInt64.toNat_add]
  omega

/-- The branch that grows: the vector throws, or the new size has not wrapped behind the
indices of an ordered buffer. -/
theorem Shape.ensureSafe_of_grows (shape : buffer.Shape) (short : buffer.writableBytes < len)
    (grows : buffer.writableBytes + buffer.prependableBytes < len + kCheapPrepend) :
    buffer.EnsureSafe len ↔
      buffer.Ordered ∧ buffer.writerIndex.toNat + len.toNat < 2 ^ 64 ∨ buffer.Exceeds len := by
  have word := len.toNat_lt
  have refused : maxSize < (buffer.writerIndex + len).toNat ↔
      maxSize < buffer.writerIndex.toNat + len.toNat ∧
        buffer.writerIndex.toNat + len.toNat < 2 ^ 64 := shape.refused_iff
  simp only [EnsureSafe, SizedBuffer.ensureWriteableBytes, SizedBuffer.makeSpace, if_pos short,
    if_pos grows]
  by_cases exceeds : maxSize < (buffer.writerIndex + len).toNat
  · have threw : resize buffer.cells (buffer.writerIndex + len) = none :=
      if_neg (Nat.not_le.mpr exceeds)
    simp only [threw, true_iff]
    exact .inr ⟨short, grows, refused.mp exceeds⟩
  · have bound := Nat.not_lt.mp exceeds
    have grown : resize buffer.cells (buffer.writerIndex + len) =
        some (Data.resize buffer.cells (buffer.writerIndex + len).toNat 0) := if_pos bound
    have size : (Data.resize buffer.cells (buffer.writerIndex + len).toNat 0).length =
        (buffer.writerIndex + len).toNat := length_resize _ _ _
    have nextShape : Shape { buffer with
        cells := Data.resize buffer.cells (buffer.writerIndex + len).toNat 0 } :=
      ⟨shape.writer, size.trans_le bound⟩
    have sum := UInt64.toNat_add buffer.writerIndex len
    simp only [grown, nextShape.ordered_iff, shape.ordered_iff, size]
    constructor
    · rintro ⟨⟨reader, inside⟩, -, -⟩
      have noWrap : buffer.writerIndex.toNat + len.toNat < 2 ^ 64 := by omega
      refine .inl ⟨⟨reader, ?_⟩, noWrap⟩
      by_contra outside
      exact absurd (shape.wraps_of_short (Nat.not_le.mp outside) short) (Nat.not_le.mpr noWrap)
    · rintro (⟨⟨reader, inside⟩, noWrap⟩ | ⟨-, -, limit⟩)
      · have after : buffer.writerIndex.toNat ≤ (buffer.writerIndex + len).toNat := by omega
        refine ⟨⟨reader, after⟩, slice_resize inside after, UInt64.le_iff_toNat_le.mpr ?_⟩
        rw [nextShape.toNat_writableBytes_of_inside (after.trans_eq size.symm), size]
        dsimp only
        omega
      · exact absurd (refused.mpr limit) exceeds

/-- When neither sum wraps, the condition of `make_space` is that of the model. -/
theorem Shape.outside_iff (shape : buffer.Shape)
    (reader : buffer.readerIndex.toNat ≤ buffer.writerIndex.toNat)
    (inside : buffer.writerIndex.toNat ≤ buffer.cells.length)
    (reserve : len.toNat + kCheapPrepend.toNat < 2 ^ 64) :
    buffer.writableBytes + buffer.prependableBytes < len + kCheapPrepend ↔
      buffer.toBuffer.writableBytes + buffer.toBuffer.prependableBytes <
        len.toNat + Buffer.kCheapPrepend := by
  have size := shape.size
  simp only [maxSize] at size
  rw [UInt64.lt_iff_toNat_lt, UInt64.toNat_add, UInt64.toNat_add,
    shape.toNat_writableBytes_of_inside inside, prependableBytes, Nat.mod_eq_of_lt (by omega),
    Nat.mod_eq_of_lt reserve]
  rfl

/-- The compaction then is that of the model, and the model's buffer is well formed: the
reader index has the reserve below it. -/
theorem Shape.compacts_refines (shape : buffer.Shape)
    (reader : buffer.readerIndex.toNat ≤ buffer.writerIndex.toNat)
    (inside : buffer.writerIndex.toNat ≤ buffer.cells.length)
    (short : buffer.writableBytes < len) (reserve : len.toNat + kCheapPrepend.toNat < 2 ^ 64)
    (stays : ¬buffer.writableBytes + buffer.prependableBytes < len + kCheapPrepend) :
    buffer.toBuffer.Wf ∧ ∃ next, buffer.makeSpace len = .returns next ∧
      buffer.toBuffer.makeSpace len.toNat = .ok next.toBuffer := by
  have readable := toNat_readableBytes reader
  have staysNat := mt (shape.outside_iff reader inside reserve).mpr stays
  have lower : kCheapPrepend.toNat ≤ buffer.readerIndex.toNat := by
    have room := shape.toNat_writableBytes_of_inside inside
    have shortNat := UInt64.lt_iff_toNat_lt.mp short
    have free := staysNat
    simp only [Buffer.writableBytes, Buffer.prependableBytes, toBuffer] at free
    simp only [toNat_kCheapPrepend, Buffer.kCheapPrepend] at free ⊢
    omega
  obtain ⟨cells, copied⟩ : ∃ cells, copyForward buffer.cells buffer.readerIndex.toNat
      kCheapPrepend.toNat buffer.readableBytes.toNat = some cells :=
    ⟨_, copyForward_eq lower (by omega)⟩
  have last : (kCheapPrepend + buffer.readableBytes).toNat =
      Buffer.kCheapPrepend + buffer.toBuffer.readableBytes := by
    have writer := shape.writer
    simp only [maxSize] at writer
    rw [UInt64.toNat_add, readable, toNat_kCheapPrepend, Nat.mod_eq_of_lt (by omega)]
    rfl
  refine ⟨⟨lower.trans (reader.trans inside), reader, inside⟩,
    ⟨cells, kCheapPrepend, kCheapPrepend + buffer.readableBytes⟩, ?_, ?_⟩
  · rw [SizedBuffer.makeSpace, if_neg stays]
    dsimp only
    rw [copied]
  · rw [readable] at copied
    have copiedNat : copyForward buffer.toBuffer.cells buffer.toBuffer.readerIndex
        Buffer.kCheapPrepend buffer.toBuffer.readableBytes = some cells := copied
    have moved : toBuffer ⟨cells, kCheapPrepend, kCheapPrepend + buffer.readableBytes⟩ =
        ⟨cells, Buffer.kCheapPrepend, Buffer.kCheapPrepend + buffer.toBuffer.readableBytes⟩ := by
      rw [toBuffer, last]
      rfl
    rw [Buffer.makeSpace, if_neg staysNat]
    dsimp only
    rw [copiedNat, moved]
    rfl

/-- The branch that compacts makes the room only in an ordered buffer, and only if the sum
with the reserve has not wrapped. -/
theorem Shape.ensureSafe_of_compacts (shape : buffer.Shape) (short : buffer.writableBytes < len)
    (stays : ¬buffer.writableBytes + buffer.prependableBytes < len + kCheapPrepend) :
    buffer.EnsureSafe len ↔ buffer.Ordered ∧ buffer.writerIndex.toNat + len.toNat < 2 ^ 64 ∧
      len.toNat + kCheapPrepend.toNat < 2 ^ 64 := by
  have leaves := shape.makeSpace len
  simp only [EnsureSafe, SizedBuffer.ensureWriteableBytes, if_pos short]
  constructor
  · intro safe
    have size := shape.size
    have writer := shape.writer
    unfold SizedBuffer.makeSpace at safe leaves
    simp only [if_neg stays] at safe leaves
    cases copied : copyForward buffer.cells buffer.readerIndex.toNat kCheapPrepend.toNat
        buffer.readableBytes.toNat with
    | none => simp only [copied] at safe
    | some cells =>
        simp only [copied] at safe leaves
        have nextShape := Outcome.leaves_returns.mp leaves
        have inside := (nextShape.ordered_iff.mp safe.1).2
        have room := UInt64.le_iff_toNat_le.mp safe.2.2
        rw [nextShape.toNat_writableBytes_of_inside inside] at room
        have kept := length_copyForward copied
        have within := copyForward_inside copied
        have readable := UInt64.toNat_sub buffer.writerIndex buffer.readerIndex
        have word := buffer.readerIndex.toNat_lt
        have block : buffer.writerIndex.toNat ≤ buffer.cells.length := by
          by_contra outside
          have wraps := shape.wraps_of_short (Nat.not_le.mp outside) short
          simp only [maxSize] at size writer
          dsimp only at room
          omega
        rw [← readableBytes] at readable
        rw [shape.ordered_iff]
        simp only [maxSize, toNat_kCheapPrepend] at size writer room within ⊢
        omega
  · rintro ⟨ordered, noWrap, reserve⟩
    obtain ⟨reader, inside⟩ := shape.ordered_iff.mp ordered
    obtain ⟨wf, next, made, madeNat⟩ := shape.compacts_refines reader inside short reserve stays
    have nextShape : next.Shape := leaves next (by rw [made]; rfl)
    have shortNat : buffer.cells.length - buffer.writerIndex.toNat < len.toNat :=
      shape.toNat_writableBytes_of_inside inside ▸ UInt64.lt_iff_toNat_lt.mp short
    obtain ⟨result, succeeded, nextWf, content, room⟩ := wf.makeSpace shortNat
    cases madeNat.symm.trans succeeded
    rw [made]
    refine ⟨nextShape.ordered_iff.mpr ⟨nextWf.reader, nextWf.writer⟩, content,
      UInt64.le_iff_toNat_le.mpr ?_⟩
    rw [nextShape.toNat_writableBytes_of_inside nextWf.writer]
    exact room

/-- `EnsureWriteableBytes` is safe exactly on a buffer with its indices in order, for a
length that is there already or wraps neither behind the writer index nor with the reserve;
and, whatever the indices are, where the vector throws. -/
theorem Shape.ensureSafe_iff (shape : buffer.Shape) :
    buffer.EnsureSafe len ↔
      buffer.Ordered ∧ (len ≤ buffer.writableBytes ∨
        buffer.writerIndex.toNat + len.toNat < 2 ^ 64 ∧
          len.toNat + kCheapPrepend.toNat < 2 ^ 64) ∨
      buffer.Exceeds len := by
  by_cases short : buffer.writableBytes < len
  · have notEnough := UInt64.not_le.mpr short
    by_cases grows : buffer.writableBytes + buffer.prependableBytes < len + kCheapPrepend
    · rw [shape.ensureSafe_of_grows short grows]
      constructor
      · rintro (⟨ordered, noWrap⟩ | exceeds)
        · by_cases reserve : len.toNat + kCheapPrepend.toNat < 2 ^ 64
          · exact .inl ⟨ordered, .inr ⟨noWrap, reserve⟩⟩
          · -- so large a length that its sum with the reserve wraps is refused
            refine .inr ⟨short, grows, ?_, noWrap⟩
            simp only [toNat_kCheapPrepend, maxSize] at reserve ⊢
            omega
        · exact .inr exceeds
      · rintro (⟨ordered, enough | ⟨noWrap, -⟩⟩ | exceeds)
        · exact absurd enough notEnough
        · exact .inl ⟨ordered, noWrap⟩
        · exact .inr exceeds
    · rw [shape.ensureSafe_of_compacts short grows]
      constructor
      · rintro ⟨ordered, fits⟩
        exact .inl ⟨ordered, .inr fits⟩
      · rintro (⟨ordered, enough | fits⟩ | exceeds)
        · exact absurd enough notEnough
        · exact ⟨ordered, fits⟩
        · exact absurd exceeds.2.1 grows
  · have enough := UInt64.not_lt.mp short
    simp only [EnsureSafe, SizedBuffer.ensureWriteableBytes, if_neg short]
    constructor
    · rintro ⟨ordered, -, -⟩
      exact .inl ⟨ordered, .inl enough⟩
    · rintro (⟨ordered, -⟩ | exceeds)
      · exact ⟨ordered, trivial, enough⟩
      · exact absurd exceeds.1 short

/-- The constructor is safe unless its sum wraps, which leaves less than the reserve. -/
theorem createSafe_iff (initSize : UInt64) :
    CreateSafe initSize ↔ initSize.toNat + kCheapPrepend.toNat < 2 ^ 64 := by
  have word := initSize.toNat_lt
  have sum := UInt64.toNat_add kCheapPrepend initSize
  rw [toNat_kCheapPrepend] at sum ⊢
  constructor
  · intro safe
    by_contra wraps
    have created : create initSize = some ⟨Data.resize [] (kCheapPrepend + initSize).toNat 0,
        kCheapPrepend, kCheapPrepend⟩ := by
      rw [create, resize, if_pos (by rw [maxSize]; omega)]
      rfl
    have ordered := ((shape_create created).ordered_iff.mp (safe _ created)).2
    rw [length_resize] at ordered
    simp only [toNat_kCheapPrepend] at ordered
    omega
  · intro fits buffer created
    refine (shape_create created).ordered_iff.mpr ?_
    obtain ⟨cells, resized, rfl⟩ := Option.map_eq_some_iff.mp created
    obtain ⟨-, rfl⟩ := resize_eq_some resized
    rw [length_resize]
    simp only [toNat_kCheapPrepend, le_refl, true_and]
    omega

/-- For every initial size, and for every length on every buffer that constructions and
calls lead to: when the constructor and `EnsureWriteableBytes` are safe. -/
theorem ensureWriteableBytes_safe_iff (initSize len : UInt64) {buffer : SizedBuffer}
    (reachable : system.Reachable LabelledSystem.unguarded buffer) :
    (CreateSafe initSize ↔ initSize.toNat + kCheapPrepend.toNat < 2 ^ 64) ∧
      (buffer.EnsureSafe len ↔
        (buffer.readerIndex ≤ buffer.writerIndex ∧ buffer.writerIndex ≤ buffer.size) ∧
          (len ≤ buffer.writableBytes ∨
            buffer.writerIndex.toNat + len.toNat < 2 ^ 64 ∧
              len.toNat + kCheapPrepend.toNat < 2 ^ 64) ∨
        buffer.Exceeds len) :=
  ⟨createSafe_iff initSize, (reachable_shape reachable).ensureSafe_iff⟩

/-- Four bytes in a block for four. Twenty more fit after a growth; the largest length
whose sum with the reserve does not wrap shrinks the block to three cells. -/
def fourBytes : SizedBuffer := ⟨List.replicate 8 0 ++ [1, 2, 3, 4], 8, 12⟩

/-- The full buffer comes from the constructor and one `Append`. -/
theorem fourBytes_reachable : system.Reachable LabelledSystem.unguarded fourBytes := by
  have created : create 4 = some ⟨List.replicate 12 0, 8, 8⟩ := by decide +kernel
  have appended : system.run LabelledSystem.unguarded ⟨List.replicate 12 0, 8, 8⟩
      [.append [1, 2, 3, 4]] = some fourBytes := by decide +kernel
  exact LabelledSystem.run_reachable ⟨4, created⟩ appended

/-- On the full buffer 20 more bytes are safe, and a length that wraps the sum around is not. -/
theorem ensureWriteableBytes_safe_fourBytes :
    CreateSafe 4 ∧ fourBytes.EnsureSafe 20 ∧ ¬fourBytes.EnsureSafe (2 ^ 64 - 9) := by
  have twenty := ensureWriteableBytes_safe_iff 4 20 fourBytes_reachable
  have wraps := ensureWriteableBytes_safe_iff 4 (2 ^ 64 - 9) fourBytes_reachable
  exact ⟨twenty.1.mpr (by decide), twenty.2.mpr (by decide +kernel),
    mt wraps.2.mp (by decide +kernel)⟩

/-- The wrapped sums at work. The constructor makes a block of seven cells with both
indices at eight; of four readable bytes none is left in a block of three cells; of room
for `2^64 - 1` bytes an empty buffer makes no more than the four it has; and in a block of
six cells with both indices at eight a failed `readv` appends a byte and leaves the reader
index behind the writer index. -/
theorem ensureWriteableBytes_wraps :
    (¬CreateSafe (2 ^ 64 - 1) ∧ create (2 ^ 64 - 1) = some ⟨List.replicate 7 0, 8, 8⟩) ∧
    (¬fourBytes.EnsureSafe (2 ^ 64 - 9) ∧
      fourBytes.ensureWriteableBytes (2 ^ 64 - 9) = .returns ⟨[0, 0, 0], 8, 12⟩) ∧
    (∃ buffer ∈ create 4, ¬buffer.EnsureSafe (2 ^ 64 - 1) ∧
      buffer.ensureWriteableBytes (2 ^ 64 - 1) = .returns buffer ∧ buffer.writableBytes = 4) ∧
    ∃ buffer ∈ create (2 ^ 64 - 2),
      buffer.readFd (.replicate _ 0) none = .returns ⟨List.replicate 7 0, 8, 7⟩ ∧
      ¬EnsureSafe ⟨List.replicate 7 0, 8, 7⟩ 0 := by
  refine ⟨?_, ?_, ⟨⟨List.replicate 12 0, 8, 8⟩, ?_⟩, ⟨List.replicate 6 0, 8, 8⟩, ?_⟩ <;>
    decide +kernel

end Safety

end SizedBuffer

end Benet
