import Benet.Data.Slice

/-!
# The input and output buffer

`Buffer` is a block of bytes with a reader and a writer index, as in `buffer.h`.
Sizes are natural numbers. A failed `assert` and an access outside the block are
distinct faults, so that a result `.ok` says that neither has happened.
-/

namespace Benet

open Data

/-- What stops a buffer operation. -/
inductive Fault where
  | assertion
  | outOfRange
deriving DecidableEq, Repr

structure Buffer where
  /-- `buffer_` -/
  cells : List UInt8
  readerIndex : Nat
  writerIndex : Nat
deriving DecidableEq, Repr

namespace Buffer

def kCheapPrepend : Nat := 8

def kInitialSize : Nat := 1024

def kExtraBufSize : Nat := 65536

/-- The constructor; the vector starts zeroed. -/
def create (initSize : Nat) : Buffer :=
  ⟨List.replicate (kCheapPrepend + initSize) 0, kCheapPrepend, kCheapPrepend⟩

def readableBytes (buffer : Buffer) : Nat := buffer.writerIndex - buffer.readerIndex

def writableBytes (buffer : Buffer) : Nat := buffer.cells.length - buffer.writerIndex

def prependableBytes (buffer : Buffer) : Nat := buffer.readerIndex

/-- The `ReadableBytes()` bytes that start at `Peek()`. -/
def content (buffer : Buffer) : List UInt8 :=
  slice buffer.cells buffer.readerIndex buffer.writerIndex

def check (condition : Bool) : Except Fault Unit :=
  if condition then .ok () else .error .assertion

def inRange (result : Option (List UInt8)) : Except Fault (List UInt8) :=
  match result with
  | some cells => .ok cells
  | none => .error .outOfRange

def retrieve (buffer : Buffer) (len : Nat) : Except Fault Buffer := do
  check (len ≤ buffer.readableBytes)
  .ok { buffer with readerIndex := buffer.readerIndex + len }

/-- `RetrieveUntil`; the pointer `end` is given as an index into the block. -/
def retrieveUntil (buffer : Buffer) (stop : Nat) : Except Fault Buffer := do
  check (buffer.readerIndex ≤ stop)
  check (stop ≤ buffer.writerIndex)
  buffer.retrieve (stop - buffer.readerIndex)

def retrieveAll (buffer : Buffer) : Buffer :=
  { buffer with readerIndex := kCheapPrepend, writerIndex := kCheapPrepend }

def retrieveAsString (buffer : Buffer) (len : Nat) : Except Fault (Buffer × List UInt8) := do
  check (len ≤ buffer.readableBytes)
  let result := slice buffer.cells buffer.readerIndex (buffer.readerIndex + len)
  let buffer ← buffer.retrieve len
  .ok (buffer, result)

def retrieveAllAsString (buffer : Buffer) : Except Fault (Buffer × List UInt8) :=
  buffer.retrieveAsString buffer.readableBytes

/-- The private `make_space`. Growing resizes the vector behind the writer index;
otherwise `std::copy` moves the readable bytes down to the reserve. -/
def makeSpace (buffer : Buffer) (len : Nat) : Except Fault Buffer :=
  if buffer.writableBytes + buffer.prependableBytes < len + kCheapPrepend then
    .ok { buffer with cells := resize buffer.cells (buffer.writerIndex + len) 0 }
  else do
    let readable := buffer.readableBytes
    let cells ← inRange (copyForward buffer.cells buffer.readerIndex kCheapPrepend readable)
    .ok ⟨cells, kCheapPrepend, kCheapPrepend + readable⟩

def ensureWriteableBytes (buffer : Buffer) (len : Nat) : Except Fault Buffer :=
  if buffer.writableBytes < len then buffer.makeSpace len else .ok buffer

def append (buffer : Buffer) (data : List UInt8) : Except Fault Buffer := do
  let buffer ← buffer.ensureWriteableBytes data.length
  let cells ← inRange (write buffer.cells buffer.writerIndex data)
  .ok { buffer with cells, writerIndex := buffer.writerIndex + data.length }

def prepend (buffer : Buffer) (data : List UInt8) : Except Fault Buffer := do
  check (data.length ≤ buffer.prependableBytes)
  -- `copy_backward` ends at `begin_read()`
  let cells ← inRange (write buffer.cells (buffer.readerIndex - data.length) data)
  .ok { buffer with cells, readerIndex := buffer.readerIndex - data.length }

/-- How many bytes the `readv` of `ReadFd` can deliver: the stack block is passed
only when the free tail is smaller than it. -/
def readCapacity (buffer : Buffer) : Nat :=
  if buffer.writableBytes < kExtraBufSize then buffer.writableBytes + kExtraBufSize
  else buffer.writableBytes

/-- `ReadFd` when `readv` delivers `received`, at most `readCapacity` bytes: it
fills the free tail first and then the stack block, which is appended. -/
def readFd (buffer : Buffer) (received : List UInt8) : Except Fault Buffer := do
  let writable := buffer.writableBytes
  let cells ← inRange (write buffer.cells buffer.writerIndex (received.take writable))
  if received.length ≤ writable then
    .ok { buffer with cells, writerIndex := buffer.writerIndex + received.length }
  else
    append { buffer with cells, writerIndex := cells.length } (received.drop writable)

end Buffer

end Benet
