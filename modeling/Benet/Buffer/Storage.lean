import Benet.Buffer.ReadFd

/-!
# The size of the storage

`Retrieve` only moves the reader index, so both indices drift through the block. The
choice of `make_space` between compacting and growing still bounds the block: it grows
only when the space before and behind the content is less than what is asked for, and
so to less than twice the content that was asked for (`Buffer.Storage.size_bounded`).
-/

namespace Benet.Buffer

open Data Semantics

/-- The readable bytes that a call asks the block to hold. -/
def Call.demand (before after : Buffer) : Call → Nat
  | .plain (.append data) => before.readableBytes + data.length
  | .plain (.ensureWriteableBytes len) => before.readableBytes + len
  | .readFd _ _ => after.readableBytes
  | .plain _ => 0

/-- A buffer with the size it was made with and the largest demand of its history. -/
structure Storage where
  initSize : Nat
  buffer : Buffer := create initSize
  peak : Nat := 0

/-- One permitted call. -/
def Storage.step (storage : Storage) (call : Call) : Option Storage :=
  (call.step storage.buffer).map fun next =>
    { storage with buffer := next, peak := max storage.peak (call.demand storage.buffer next) }

/-- All sequences of permitted calls, with their history. -/
abbrev Storage.system : LabelledSystem Storage Call where
  Initial storage := ∃ initSize, storage = { initSize }
  step := Storage.step

section Growth

variable {buffer next : Buffer}

/-- The block grows when the free bytes before and behind the content are too few;
then the content starts below `len + kCheapPrepend`. -/
theorem Wf.makeSpace_size (wf : buffer.Wf) {len : Nat} (made : buffer.makeSpace len = .ok next) :
    next.cells.length ≤
      max buffer.cells.length (2 * (buffer.readableBytes + len) + kCheapPrepend - 1) := by
  have reader := wf.reader
  have writer := wf.writer
  unfold Buffer.makeSpace at made
  split at made
  case isTrue outside =>
    cases made
    simp only [writableBytes, prependableBytes, readableBytes] at outside ⊢
    rw [length_resize]
    omega
  case isFalse =>
    obtain ⟨cells, copied, result⟩ := ok_of_bind made
    cases result
    have kept : cells.length = buffer.cells.length := length_copyForward (inRange_ok copied)
    dsimp only
    omega

/-- After `EnsureWriteableBytes` the vector has no more cells than before, or fewer than the reserve
and twice the content with the room that is asked for. -/
theorem Wf.ensureWriteableBytes_size (wf : buffer.Wf) {len : Nat}
    (ensured : buffer.ensureWriteableBytes len = .ok next) :
    next.cells.length ≤
      max buffer.cells.length (2 * (buffer.readableBytes + len) + kCheapPrepend - 1) := by
  unfold Buffer.ensureWriteableBytes at ensured
  split at ensured
  case isTrue => exact wf.makeSpace_size ensured
  case isFalse =>
    cases ensured
    exact Nat.le_max_left _ _

/-- `Append` writes into space that `EnsureWriteableBytes` has made. -/
theorem Wf.append_size (wf : buffer.Wf) {data : List UInt8} (appended : buffer.append data = .ok next) :
    next.cells.length ≤
      max buffer.cells.length (2 * (buffer.readableBytes + data.length) + kCheapPrepend - 1) := by
  obtain ⟨roomy, ensured, rest⟩ := ok_of_bind appended
  obtain ⟨cells, written, result⟩ := ok_of_bind rest
  cases result
  have kept : cells.length = roomy.cells.length := length_write (inRange_ok written)
  have bound := wf.ensureWriteableBytes_size ensured
  dsimp only
  omega

/-- `ReadFd` fills the tail first, and asks `Append` for the rest of what it then
holds. -/
theorem Wf.readFd_size (wf : buffer.Wf) {received : List UInt8}
    (read : buffer.readFd received = .ok next) :
    next.cells.length ≤
      max buffer.cells.length (2 * next.readableBytes + kCheapPrepend - 1) := by
  have total : next.readableBytes = buffer.readableBytes + received.length := by
    obtain ⟨result, succeeded, resultWf, content⟩ := wf.readFd received
    cases read.symm.trans succeeded
    rw [← resultWf.length_content, content, List.length_append, wf.length_content]
  obtain ⟨cells, written, size, tailWf, -⟩ :=
    wf.extend (List.length_take_le buffer.writableBytes received)
  simp only [Buffer.readFd, written, inRange_some, bind, Except.bind] at read
  split at read
  case isTrue =>
    cases read
    dsimp only
    omega
  case isFalse fits =>
    have filled : buffer.writerIndex + (received.take buffer.writableBytes).length =
        cells.length := by
      have writer := wf.writer
      simp only [List.length_take, writableBytes] at fits ⊢
      omega
    rw [filled] at tailWf
    have grown := tailWf.append_size read
    have reader := wf.reader
    have writer := wf.writer
    simp only [readableBytes, writableBytes, List.length_drop] at grown total fits ⊢
    omega

/-- `Retrieve` and `Prepend` keep the block as it is. -/
private theorem retrieve_size {len : Nat} (retrieved : buffer.retrieve len = .ok next) :
    next.cells.length = buffer.cells.length := by
  obtain ⟨_, -, result⟩ := ok_of_bind retrieved
  cases result
  rfl

private theorem prepend_size {data : List UInt8} (prepended : buffer.prepend data = .ok next) :
    next.cells.length = buffer.cells.length := by
  obtain ⟨_, -, rest⟩ := ok_of_bind prepended
  obtain ⟨cells, written, result⟩ := ok_of_bind rest
  cases result
  exact length_write (inRange_ok written)

private theorem retrieveAsString_size {len : Nat} {returned : List UInt8}
    (retrieved : buffer.retrieveAsString len = .ok (next, returned)) :
    next.cells.length = buffer.cells.length := by
  obtain ⟨_, -, rest⟩ := ok_of_bind retrieved
  obtain ⟨drained, drains, result⟩ := ok_of_bind rest
  cases result
  exact retrieve_size drains

/-- A call that returns no string. -/
private theorem ok_of_map {result : Except Fault Buffer} {returned : List UInt8}
    (succeeded : (·, ([] : List UInt8)) <$> result = .ok (next, returned)) : result = .ok next := by
  cases result with
  | error fault => cases succeeded
  | ok buffer =>
      cases succeeded
      rfl

/-- No call makes the block larger than twice its demand allows. -/
theorem Wf.call_size (wf : buffer.Wf) {call : Call} (permitted : call.Permitted buffer)
    (applied : call.apply buffer = .ok next) :
    next.cells.length ≤
      max buffer.cells.length (2 * call.demand buffer next + kCheapPrepend - 1) := by
  have le_max_of_eq : ∀ {bound}, next.cells.length = buffer.cells.length →
      next.cells.length ≤ max buffer.cells.length bound :=
    fun kept => kept ▸ Nat.le_max_left _ _
  cases call with
  | readFd extraBuf received =>
      cases received with
      | none =>
          cases applied
          exact Nat.le_max_left _ _
      | some bytes =>
          obtain ⟨array, fits⟩ := permitted
          have capacity := fits bytes rfl
          rw [sum_iovecs array] at capacity
          obtain ⟨result, read, -⟩ := wf.readFd bytes
          rw [Call.apply, wf.readFdBlocks_eq array capacity, read] at applied
          cases applied
          exact wf.readFd_size read
  | plain op =>
      obtain ⟨⟨result, returned⟩, succeeded, same⟩ : ∃ result, op.apply buffer = .ok result ∧
          result.1 = next := by
        cases outcome : op.apply buffer with
        | error fault => simp [Call.apply, outcome] at applied
        | ok result => exact ⟨result, rfl, by simpa [Call.apply, outcome] using applied⟩
      subst same
      cases op with
      | append data => exact wf.append_size (ok_of_map succeeded)
      | ensureWriteableBytes len => exact wf.ensureWriteableBytes_size (ok_of_map succeeded)
      | prepend data => exact le_max_of_eq (prepend_size (ok_of_map succeeded))
      | retrieve len => exact le_max_of_eq (retrieve_size (ok_of_map succeeded))
      | retrieveUntil offset =>
          obtain ⟨_, -, rest⟩ := ok_of_bind (ok_of_map succeeded)
          obtain ⟨_, -, retrieved⟩ := ok_of_bind rest
          exact le_max_of_eq (retrieve_size retrieved)
      | retrieveAll =>
          cases succeeded
          exact Nat.le_max_left _ _
      | retrieveAsString len => exact le_max_of_eq (retrieveAsString_size succeeded)
      | retrieveAllAsString => exact le_max_of_eq (retrieveAsString_size succeeded)

end Growth

namespace Storage

variable {storage next : Storage} {call : Call}

/-- The bound, with the index order that every call keeps. -/
structure Bounded (storage : Storage) : Prop where
  wf : storage.buffer.Wf
  size : storage.buffer.cells.length ≤
    max (kCheapPrepend + storage.initSize) (2 * storage.peak + kCheapPrepend - 1)

/-- One call keeps the bound on the size of the vector. -/
theorem Bounded.step (bounded : Bounded storage) (stepped : storage.step call = some next) :
    Bounded next := by
  obtain ⟨buffer, called, rfl⟩ := Option.map_eq_some_iff.mp stepped
  refine ⟨bounded.wf.step called, ?_⟩
  unfold Call.step at called
  split at called
  case isFalse => cases called
  case isTrue permitted =>
    obtain ⟨result, applied, -⟩ := bounded.wf.call permitted
    rw [applied] at called
    cases called
    have grown := bounded.wf.call_size permitted applied
    have size := bounded.size
    dsimp only
    omega

/-- However long the run, the block is not larger than it was made, or less than twice
the peak content with the reserve. -/
theorem size_bounded (reachable : system.Reachable LabelledSystem.unguarded storage) :
    storage.buffer.cells.length ≤
      max (kCheapPrepend + storage.initSize) (2 * storage.peak + kCheapPrepend - 1) := by
  refine (reachable.invariant Bounded ?_ ?_).size
  · rintro _ ⟨initSize, rfl⟩
    exact ⟨wf_create initSize, by simp [create]⟩
  · exact fun _ _ _ _ bounded _ stepped => bounded.step stepped

/-- The bound is sharp: the content has drifted to the end of the block, and the next
append finds one byte too few in front of it. -/
theorem size_bounded_reached :
    ∃ storage, system.Reachable LabelledSystem.unguarded storage ∧ storage.peak = 4 ∧
      storage.buffer.cells.length = 2 * storage.peak + kCheapPrepend - 1 ∧
      storage.buffer.cells.length ≤
        max (kCheapPrepend + storage.initSize) (2 * storage.peak + kCheapPrepend - 1) := by
  let calls : List Call :=
    [.plain (.append [1, 2, 3]), .plain (.retrieve 3), .plain (.append [4, 5, 6, 7])]
  let storage := (system.run LabelledSystem.unguarded { initSize := 3 } calls).get (by decide +kernel)
  have reachable : system.Reachable LabelledSystem.unguarded storage :=
    LabelledSystem.run_reachable ⟨3, rfl⟩ (Option.some_get _).symm
  exact ⟨storage, reachable, by decide +kernel, by decide +kernel, size_bounded reachable⟩

end Storage

end Benet.Buffer
