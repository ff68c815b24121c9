import Benet.Buffer.Deque
import Benet.Semantics.Execution
import Mathlib.Algebra.Order.Ring.Nat

/-!
# Reading from a descriptor

`ReadFd` hands `readv` the free tail of the vector and, when that is short, an array
on the stack. `readFdBlocks` follows the two blocks as memory; `readFd` of the model
is what it amounts to, and so the bytes are appended in their order wherever they
have come to lie (`Buffer.readFd_appends`).
-/

namespace Benet.Buffer

open Data Semantics

/-- The blocks that `ReadFd` passes to `readv`, as they are before the call. -/
def iovecs (extraBuf : List UInt8) (buffer : Buffer) : List (List UInt8) :=
  let tail := buffer.cells.drop buffer.writerIndex
  if buffer.writableBytes < kExtraBufSize then [tail, extraBuf] else [tail]

/-- `ReadFd` with its two blocks. `readv` fails, or takes `bytes` from the stream and
fills the blocks in order; the second component is what `ReadFd` returns. -/
def readFdBlocks (extraBuf : List UInt8) (received : Option (List UInt8)) (buffer : Buffer) :
    Except Fault (Buffer × Int) :=
  match received with
  | none => .ok (buffer, -1)
  | some bytes => do
      let writable := buffer.writableBytes
      let filled := scatter (buffer.iovecs extraBuf) bytes
      -- the first block is the vector's own tail, the second one the array
      let cells := buffer.cells.take buffer.writerIndex ++ filled.getD 0 []
      let extraBuf := filled.getD 1 extraBuf
      if bytes.length ≤ writable then
        .ok ({ buffer with cells, writerIndex := buffer.writerIndex + bytes.length }, bytes.length)
      else
        let next ← append { buffer with cells, writerIndex := cells.length }
          (extraBuf.take (bytes.length - writable))
        .ok (next, bytes.length)

/-- One call on a buffer, `ReadFd` included. -/
inductive Call where
  | plain (op : Op)
  | readFd (extraBuf : List UInt8) (received : Option (List UInt8))
deriving DecidableEq, Repr

namespace Call

def apply (buffer : Buffer) : Call → Except Fault Buffer
  | .plain op => Prod.fst <$> op.apply buffer
  | .readFd extraBuf received => Prod.fst <$> buffer.readFdBlocks extraBuf received

/-- The caller's obligations; for `ReadFd` the size of the array, and that `readv`
takes no more bytes than its blocks hold. -/
def Permitted (buffer : Buffer) : Call → Prop
  | .plain op => op.Permitted buffer
  | .readFd extraBuf received => extraBuf.length = kExtraBufSize ∧
      ∀ bytes ∈ received, bytes.length ≤ ((buffer.iovecs extraBuf).map List.length).sum

instance : (buffer : Buffer) → (call : Call) → Decidable (call.Permitted buffer)
  | buffer, .plain op => inferInstanceAs (Decidable (op.Permitted buffer))
  | buffer, .readFd extraBuf received => inferInstanceAs (Decidable (extraBuf.length = kExtraBufSize ∧
      ∀ bytes ∈ received, bytes.length ≤ ((buffer.iovecs extraBuf).map List.length).sum))

/-- The buffer after a permitted call. -/
def step (buffer : Buffer) (call : Call) : Option Buffer :=
  if call.Permitted buffer then (call.apply buffer).toOption else none

end Call

/-- All sequences of permitted calls on a buffer of any initial size. -/
abbrev system : LabelledSystem Buffer Call where
  Initial buffer := ∃ initSize, buffer = create initSize
  step := Call.step

variable {buffer : Buffer} {extraBuf bytes : List UInt8}

/-- What the two blocks can take together. -/
theorem sum_iovecs (array : extraBuf.length = kExtraBufSize) :
    ((buffer.iovecs extraBuf).map List.length).sum = buffer.readCapacity := by
  unfold iovecs readCapacity
  dsimp only
  split_ifs <;> simp [writableBytes, array]

/-- The array after `readv` starts with what did not fit into the tail. -/
private theorem scatter_extraBuf (array : extraBuf.length = kExtraBufSize)
    (short : buffer.writableBytes < bytes.length) (fits : bytes.length ≤ buffer.readCapacity) :
    ((scatter (buffer.iovecs extraBuf) bytes).getD 1 extraBuf).take
      (bytes.length - buffer.writableBytes) = bytes.drop buffer.writableBytes := by
  have both : buffer.writableBytes < kExtraBufSize := by
    by_contra large
    rw [readCapacity, if_neg large] at fits
    omega
  rw [readCapacity, if_pos both] at fits
  have tail : (buffer.cells.drop buffer.writerIndex).length = buffer.writableBytes := by
    simp [writableBytes]
  have whole : (bytes.drop buffer.writableBytes).take extraBuf.length =
      bytes.drop buffer.writableBytes :=
    List.take_of_length_le (by rw [array, List.length_drop]; omega)
  have count : (bytes.drop buffer.writableBytes).length = bytes.length - buffer.writableBytes :=
    List.length_drop
  simp only [iovecs, if_pos both, scatter, tail, whole, List.getD_cons_succ, List.getD_cons_zero]
  rw [overwrite_zero, ← count, List.take_left]

/-- `ReadFd` through its blocks is `readFd` of the model. -/
theorem Wf.readFdBlocks_eq (wf : buffer.Wf) (array : extraBuf.length = kExtraBufSize)
    (fits : bytes.length ≤ buffer.readCapacity) :
    buffer.readFdBlocks extraBuf (some bytes) = (·, (bytes.length : Int)) <$> buffer.readFd bytes := by
  have tail : (buffer.cells.drop buffer.writerIndex).length = buffer.writableBytes := by
    simp [writableBytes]
  have first : (scatter (buffer.iovecs extraBuf) bytes).getD 0 [] =
      overwrite (buffer.cells.drop buffer.writerIndex) 0 (bytes.take buffer.writableBytes) := by
    unfold iovecs
    dsimp only
    split_ifs <;> simp [scatter, tail]
  obtain ⟨cells, written, -⟩ := wf.extend (List.length_take_le buffer.writableBytes bytes)
  have same : buffer.cells.take buffer.writerIndex ++
      (scatter (buffer.iovecs extraBuf) bytes).getD 0 [] = cells := by
    rw [first, take_append_overwrite_drop]
    exact (write_eq_some written).2.symm
  simp only [readFdBlocks, Buffer.readFd, written, same, inRange_some]
  by_cases inTail : bytes.length ≤ buffer.writableBytes
  · rw [if_pos inTail]
    simp only [bind, Except.bind, if_pos inTail]
    rfl
  · rw [if_neg inTail, scatter_extraBuf array (by omega) fits]
    simp only [bind, Except.bind, if_neg inTail]
    rfl

/-- Every permitted call succeeds and keeps the index order. -/
theorem Wf.call (wf : buffer.Wf) {call : Call} (permitted : call.Permitted buffer) :
    ∃ next, call.apply buffer = .ok next ∧ next.Wf := by
  cases call with
  | plain op =>
      obtain ⟨next, applied, nextWf, -⟩ := op.apply_refines wf permitted
      exact ⟨next, by rw [Call.apply, applied]; rfl, nextWf⟩
  | readFd extraBuf received =>
      cases received with
      | none => exact ⟨buffer, rfl, wf⟩
      | some bytes =>
          obtain ⟨array, fits⟩ := permitted
          have capacity := fits bytes rfl
          rw [sum_iovecs array] at capacity
          obtain ⟨next, read, nextWf, -⟩ := wf.readFd bytes
          exact ⟨next, by rw [Call.apply, wf.readFdBlocks_eq array capacity, read]; rfl, nextWf⟩

/-- One call keeps the indices in order. -/
theorem Wf.step (wf : buffer.Wf) {call : Call} {next : Buffer}
    (stepped : Call.step buffer call = some next) : next.Wf := by
  unfold Call.step at stepped
  split at stepped
  case isTrue permitted =>
    obtain ⟨result, applied, resultWf⟩ := wf.call permitted
    rw [applied] at stepped
    cases stepped
    exact resultWf
  case isFalse => cases stepped

/-- Every buffer that calls can produce is well formed. -/
theorem reachable_wf {guard : Buffer → Call → Prop} (reachable : system.Reachable guard buffer) :
    buffer.Wf := by
  refine reachable.invariant Wf ?_ ?_
  · rintro _ ⟨initSize, rfl⟩
    exact wf_create initSize
  · exact fun _ _ _ _ wf _ stepped => wf.step stepped

/-- In every reachable buffer, whatever the stack array holds: when `readv` delivers
`bytes`, `ReadFd` succeeds, keeps the index order and leaves the content that `Append`
of `bytes` leaves; when it fails, the buffer stays as it is. -/
theorem readFd_appends (reachable : system.Reachable LabelledSystem.unguarded buffer)
    (array : extraBuf.length = kExtraBufSize) :
    (∀ bytes : List UInt8, bytes.length ≤ ((buffer.iovecs extraBuf).map List.length).sum →
      ∃ next appended, buffer.readFdBlocks extraBuf (some bytes) = .ok (next, bytes.length) ∧
        buffer.append bytes = .ok appended ∧
        next.content = buffer.content ++ bytes ∧ appended.content = next.content ∧
        kCheapPrepend ≤ next.cells.length ∧ next.readerIndex ≤ next.writerIndex ∧
        next.writerIndex ≤ next.cells.length) ∧
    buffer.readFdBlocks extraBuf none = .ok (buffer, -1) := by
  have wf := reachable_wf reachable
  refine ⟨fun bytes fits => ?_, rfl⟩
  rw [sum_iovecs array] at fits
  obtain ⟨next, read, nextWf, nextContent⟩ := wf.readFd bytes
  obtain ⟨appended, append, -, appendedContent⟩ := wf.append bytes
  refine ⟨next, appended, ?_, append, nextContent, appendedContent.trans nextContent.symm,
    nextWf.reserve, nextWf.reader, nextWf.writer⟩
  rw [wf.readFdBlocks_eq array fits, read]
  rfl

/-- A buffer with one free byte is given three. -/
theorem readFd_appends_through_array :
    ∃ buffer next, system.Reachable LabelledSystem.unguarded buffer ∧ buffer.writableBytes = 1 ∧
      buffer.readFdBlocks (List.replicate kExtraBufSize 0) (some [7, 8, 9]) = .ok (next, 3) ∧
      next.content = [1, 2, 3, 7, 8, 9] := by
  let buffer := (system.run LabelledSystem.unguarded (create 4) [.plain (.append [1, 2, 3])]).get
    (by decide +kernel)
  have reachable : system.Reachable LabelledSystem.unguarded buffer :=
    LabelledSystem.run_reachable ⟨4, rfl⟩ (Option.some_get _).symm
  have array : (List.replicate kExtraBufSize (0 : UInt8)).length = kExtraBufSize :=
    List.length_replicate
  have content : buffer.content = [1, 2, 3] := by decide +kernel
  have room : buffer.writableBytes = 1 := by decide +kernel
  have fits : [7, 8, 9].length ≤
      ((buffer.iovecs (List.replicate kExtraBufSize 0)).map List.length).sum := by
    rw [sum_iovecs array, readCapacity, room]
    decide
  obtain ⟨next, -, read, -, nextContent, -⟩ := (readFd_appends reachable array).1 [7, 8, 9] fits
  exact ⟨buffer, next, reachable, room, read, by rw [nextContent, content]; rfl⟩

end Benet.Buffer
