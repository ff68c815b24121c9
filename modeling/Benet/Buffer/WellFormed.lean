import Benet.Buffer.Model

/-!
# Well-formed buffers

The index order that every operation of `Buffer` keeps, and what each operation
does to the readable bytes. The lemmas do not say where in the block the readable
bytes lie; `Valid` packs the order with the buffer for the connection, which then
never meets a fault.
-/

namespace Benet.Buffer

open Data

/-- The index order drawn above the class in `buffer.h`, with the reserve. -/
structure Wf (buffer : Buffer) : Prop where
  reserve : kCheapPrepend ≤ buffer.cells.length
  reader : buffer.readerIndex ≤ buffer.writerIndex
  writer : buffer.writerIndex ≤ buffer.cells.length

/-- The operation has succeeded and has left a well-formed buffer with the
readable bytes `expected`. -/
def Yields (result : Except Fault Buffer) (expected : List UInt8) : Prop :=
  ∃ next, result = .ok next ∧ next.Wf ∧ next.content = expected

/-- A new buffer has its indices in order. -/
theorem wf_create (initSize : Nat) : (create initSize).Wf := by
  constructor <;> simp [create]

@[simp] theorem content_create (initSize : Nat) : (create initSize).content = [] := by
  simp [content, create]

@[simp] theorem check_true : check true = .ok () := rfl

@[simp] theorem inRange_some (cells : List UInt8) : inRange (some cells) = .ok cells := rfl

/-- An access in range returns what it has read or written. -/
theorem inRange_ok {result : Option (List UInt8)} {cells : List UInt8}
    (succeeded : inRange result = .ok cells) : result = some cells := by
  cases result with
  | none => cases succeeded
  | some _ =>
      cases succeeded
      rfl

/-- A sequence of two operations has succeeded. -/
theorem ok_of_bind {Value Result : Type} {first : Except Fault Value}
    {second : Value → Except Fault Result} {result : Result}
    (succeeded : first >>= second = .ok result) :
    ∃ value, first = .ok value ∧ second value = .ok result := by
  cases first with
  | error fault => cases succeeded
  | ok value => exact ⟨value, rfl, succeeded⟩

section Operations

variable {buffer : Buffer}

/-- There are `ReadableBytes` readable bytes. -/
theorem Wf.length_content (wf : buffer.Wf) : buffer.content.length = buffer.readableBytes :=
  length_slice wf.writer

/-- `Retrieve` drops the first `len` bytes. -/
theorem Wf.retrieve (wf : buffer.Wf) {len : Nat} (enough : len ≤ buffer.readableBytes) :
    Yields (buffer.retrieve len) (buffer.content.drop len) := by
  refine ⟨{ buffer with readerIndex := buffer.readerIndex + len }, ?_, ?_, ?_⟩
  · simp only [Buffer.retrieve, enough, decide_true, check_true]
    rfl
  · have order := wf.reader
    simp only [readableBytes] at enough
    exact ⟨wf.reserve, by dsimp only; omega, wf.writer⟩
  · rw [content, content, drop_slice]

/-- `RetrieveUntil` drops the bytes before the address. -/
theorem Wf.retrieveUntil (wf : buffer.Wf) {offset : Nat} (enough : offset ≤ buffer.readableBytes) :
    Yields (buffer.retrieveUntil (buffer.readerIndex + offset)) (buffer.content.drop offset) := by
  have stop : buffer.readerIndex + offset ≤ buffer.writerIndex := by
    have order := wf.reader
    simp only [readableBytes] at enough
    omega
  have same : buffer.retrieveUntil (buffer.readerIndex + offset) = buffer.retrieve offset := by
    simp only [Buffer.retrieveUntil, Nat.le_add_right, stop, decide_true, check_true,
      Nat.add_sub_cancel_left]
    rfl
  rw [same]
  exact wf.retrieve enough

/-- `RetrieveAll` empties the buffer. -/
theorem Wf.retrieveAll (wf : buffer.Wf) :
    buffer.retrieveAll.Wf ∧ buffer.retrieveAll.content = [] := by
  refine ⟨⟨wf.reserve, Nat.le_refl _, wf.reserve⟩, ?_⟩
  simp [content, Buffer.retrieveAll]

/-- `RetrieveAsString` returns the first `len` bytes and drops them. -/
theorem Wf.retrieveAsString (wf : buffer.Wf) {len : Nat} (enough : len ≤ buffer.readableBytes) :
    ∃ next, buffer.retrieveAsString len = .ok (next, buffer.content.take len) ∧ next.Wf ∧
      next.content = buffer.content.drop len := by
  obtain ⟨next, succeeded, nextWf, nextContent⟩ := wf.retrieve enough
  refine ⟨next, ?_, nextWf, nextContent⟩
  have stop : buffer.readerIndex + len ≤ buffer.writerIndex := by
    have order := wf.reader
    simp only [readableBytes] at enough
    omega
  simp only [Buffer.retrieveAsString, enough, decide_true, check_true, succeeded, content,
    take_slice stop]
  rfl

/-- The branch that compacts is taken only when the reader index lies above the reserve:
the free tail alone was too short. -/
theorem reserve_lt_reader {len : Nat} (short : buffer.writableBytes < len)
    (enough : ¬buffer.writableBytes + buffer.prependableBytes < len + kCheapPrepend) :
    kCheapPrepend < buffer.readerIndex := by
  simp only [prependableBytes] at enough
  omega

/-- So it copies downwards, inside the block. -/
theorem Wf.compact (wf : buffer.Wf) (above : kCheapPrepend < buffer.readerIndex) :
    copyForward buffer.cells buffer.readerIndex kCheapPrepend buffer.readableBytes =
      some (overwrite buffer.cells kCheapPrepend buffer.content) ∧
    kCheapPrepend + buffer.content.length ≤ buffer.cells.length := by
  obtain ⟨-, reader, writer⟩ := wf
  have source : buffer.readerIndex + buffer.readableBytes = buffer.writerIndex := by
    simp only [readableBytes]
    omega
  have count : buffer.content.length = buffer.readableBytes := length_slice writer
  refine ⟨?_, by omega⟩
  rw [copyForward_eq (Nat.le_of_lt above) (by omega), source, content]

/-- Both ways of making space keep the readable bytes. -/
theorem Wf.makeSpace (wf : buffer.Wf) {len : Nat} (short : buffer.writableBytes < len) :
    ∃ next, buffer.makeSpace len = .ok next ∧ next.Wf ∧ next.content = buffer.content ∧
      len ≤ next.writableBytes := by
  by_cases outside : buffer.writableBytes + buffer.prependableBytes < len + kCheapPrepend
  · obtain ⟨reserve, reader, writer⟩ := wf
    refine ⟨{ buffer with cells := Data.resize buffer.cells (buffer.writerIndex + len) 0 }, ?_,
      ⟨?_, reader, ?_⟩, ?_, ?_⟩
    · rw [Buffer.makeSpace, if_pos outside]
    · simp only [writableBytes] at short
      dsimp only
      rw [length_resize]
      omega
    · dsimp only
      rw [length_resize]
      omega
    · exact slice_resize writer (Nat.le_add_right _ _)
    · simp only [writableBytes, length_resize]
      omega
  · obtain ⟨copied, room⟩ := wf.compact (reserve_lt_reader short outside)
    have count := wf.length_content
    have reader := wf.reader
    have writer := wf.writer
    refine ⟨⟨overwrite buffer.cells kCheapPrepend buffer.content, kCheapPrepend,
      kCheapPrepend + buffer.readableBytes⟩, ?_, ⟨?_, Nat.le_add_right _ _, ?_⟩, ?_, ?_⟩
    · rw [Buffer.makeSpace, if_neg outside]
      simp only [copied, inRange_some]
      rfl
    · simpa only [length_overwrite room] using wf.reserve
    · simp only [length_overwrite room]
      omega
    · rw [← count]
      exact slice_overwrite room
    · simp only [writableBytes, prependableBytes, readableBytes, length_overwrite room]
        at outside ⊢
      omega

/-- `EnsureWriteableBytes` makes the room that is asked for and keeps the content. -/
theorem Wf.ensureWriteableBytes (wf : buffer.Wf) (len : Nat) :
    ∃ next, buffer.ensureWriteableBytes len = .ok next ∧ next.Wf ∧
      next.content = buffer.content ∧ len ≤ next.writableBytes := by
  by_cases short : buffer.writableBytes < len
  · simpa only [Buffer.ensureWriteableBytes, if_pos short] using wf.makeSpace short
  · refine ⟨buffer, ?_, wf, rfl, by omega⟩
    rw [Buffer.ensureWriteableBytes, if_neg short]

/-- A write into the free tail, as `Append` and `readv` make it. -/
theorem Wf.extend (wf : buffer.Wf) {data : List UInt8} (room : data.length ≤ buffer.writableBytes) :
    ∃ cells, write buffer.cells buffer.writerIndex data = some cells ∧
      cells.length = buffer.cells.length ∧
      Wf { buffer with cells, writerIndex := buffer.writerIndex + data.length } ∧
      content { buffer with cells, writerIndex := buffer.writerIndex + data.length } =
        buffer.content ++ data := by
  obtain ⟨reserve, reader, writer⟩ := wf
  simp only [writableBytes] at room
  have bound : buffer.writerIndex + data.length ≤ buffer.cells.length := by omega
  refine ⟨overwrite buffer.cells buffer.writerIndex data, if_pos bound, length_overwrite bound,
    ⟨?_, ?_, ?_⟩, ?_⟩
  · simpa only [length_overwrite bound] using reserve
  · dsimp only
    omega
  · simpa only [length_overwrite bound] using bound
  · simp only [content]
    rw [← slice_append_slice reader (Nat.le_add_right _ _), slice_overwrite bound,
      slice_overwrite_before bound (Nat.le_refl _)]

/-- `Append` puts the data behind the content. -/
theorem Wf.append (wf : buffer.Wf) (data : List UInt8) :
    Yields (buffer.append data) (buffer.content ++ data) := by
  obtain ⟨roomy, ensured, roomyWf, same, room⟩ := wf.ensureWriteableBytes data.length
  obtain ⟨cells, written, -, nextWf, nextContent⟩ := roomyWf.extend room
  refine ⟨_, ?_, nextWf, by rw [nextContent, same]⟩
  rw [Buffer.append, ensured]
  change (do
    let cells ← inRange (write roomy.cells roomy.writerIndex data)
    _) = _
  rw [written]
  rfl

/-- `Prepend` puts the data before the content where there is room for it. -/
theorem Wf.prepend (wf : buffer.Wf) {data : List UInt8}
    (room : data.length ≤ buffer.prependableBytes) :
    Yields (buffer.prepend data) (data ++ buffer.content) := by
  obtain ⟨reserve, reader, writer⟩ := wf
  have stop : buffer.readerIndex - data.length + data.length = buffer.readerIndex := by
    simp only [prependableBytes] at room
    omega
  have bound : buffer.readerIndex - data.length + data.length ≤ buffer.cells.length := by omega
  refine ⟨⟨overwrite buffer.cells (buffer.readerIndex - data.length) data,
    buffer.readerIndex - data.length, buffer.writerIndex⟩, ?_, ⟨?_, ?_, ?_⟩, ?_⟩
  · simp only [Buffer.prepend, room, decide_true, check_true, write, if_pos bound]
    rfl
  · simpa only [length_overwrite bound] using reserve
  · dsimp only
    omega
  · simpa only [length_overwrite bound] using writer
  · have front := slice_overwrite bound
    have back : slice (overwrite buffer.cells (buffer.readerIndex - data.length) data)
        buffer.readerIndex buffer.writerIndex = slice buffer.cells buffer.readerIndex
          buffer.writerIndex := slice_overwrite_after bound (Nat.le_of_eq stop)
    rw [stop] at front
    simp only [content]
    rw [← slice_append_slice (Nat.sub_le _ _) reader, front, back]

/-- `ReadFd` appends what `readv` has delivered. -/
theorem Wf.readFd (wf : buffer.Wf) (received : List UInt8) :
    Yields (buffer.readFd received) (buffer.content ++ received) := by
  have room : (received.take buffer.writableBytes).length ≤ buffer.writableBytes :=
    List.length_take_le _ _
  obtain ⟨cells, written, size, tailWf, tailContent⟩ := wf.extend room
  by_cases fits : received.length ≤ buffer.writableBytes
  · rw [List.take_of_length_le fits] at written tailWf tailContent
    refine ⟨_, ?_, tailWf, tailContent⟩
    simp only [Buffer.readFd, List.take_of_length_le fits, written, inRange_some]
    exact if_pos fits
  · have filled : buffer.writerIndex + (received.take buffer.writableBytes).length =
        cells.length := by
      have writer := wf.writer
      simp only [List.length_take, writableBytes] at fits ⊢
      omega
    rw [filled] at tailWf tailContent
    obtain ⟨next, appended, nextWf, nextContent⟩ :=
      tailWf.append (received.drop buffer.writableBytes)
    refine ⟨next, ?_, nextWf, ?_⟩
    · simp only [Buffer.readFd, written, inRange_some]
      exact (if_neg fits).trans appended
    · rw [nextContent, tailContent, List.append_assoc, List.take_append_drop]

end Operations

/-- A buffer together with its index order. -/
structure Valid where
  buffer : Buffer
  wf : buffer.Wf

namespace Valid

/-- The buffer of a call that cannot fault. -/
def ofYields (result : Except Fault Buffer) (expected : List UInt8)
    (yields : Yields result expected) : Valid :=
  match result, yields with
  | .ok next, yields => ⟨next, by
      obtain ⟨_, same, wf, _⟩ := yields
      cases same
      exact wf⟩
  | .error _, yields => absurd yields (by rintro ⟨_, failed, _⟩; cases failed)

/-- The content of a buffer that was made from a specification is the specified one. -/
theorem content_ofYields {result : Except Fault Buffer} {expected : List UInt8}
    (yields : Yields result expected) :
    (ofYields result expected yields).buffer.content = expected := by
  obtain ⟨next, rfl, wf, same⟩ := yields
  exact same

def create (initSize : Nat) : Valid := ⟨Buffer.create initSize, wf_create initSize⟩

def content (valid : Valid) : List UInt8 := valid.buffer.content

def append (valid : Valid) (data : List UInt8) : Valid :=
  ofYields (valid.buffer.append data) _ (valid.wf.append data)

def readFd (valid : Valid) (received : List UInt8) : Valid :=
  ofYields (valid.buffer.readFd received) _ (valid.wf.readFd received)

def retrieve (valid : Valid) (len : Nat) (enough : len ≤ valid.buffer.readableBytes) : Valid :=
  ofYields (valid.buffer.retrieve len) _ (valid.wf.retrieve enough)

@[simp] theorem content_create (initSize : Nat) : (create initSize).content = [] :=
  Buffer.content_create initSize

@[simp] theorem content_append (valid : Valid) (data : List UInt8) :
    (valid.append data).content = valid.content ++ data := content_ofYields _

@[simp] theorem content_readFd (valid : Valid) (received : List UInt8) :
    (valid.readFd received).content = valid.content ++ received := content_ofYields _

@[simp] theorem content_retrieve (valid : Valid) (len : Nat)
    (enough : len ≤ valid.buffer.readableBytes) :
    (valid.retrieve len enough).content = valid.content.drop len := content_ofYields _

/-- A valid buffer counts its content. -/
theorem readableBytes_eq (valid : Valid) : valid.buffer.readableBytes = valid.content.length :=
  valid.wf.length_content.symm

end Valid

end Benet.Buffer
