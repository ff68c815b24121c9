import Benet.Buffer.ReadFd

/-!
# The direction of the compaction

`make_space` moves the readable bytes to the front with `std::copy`, whose target must
not begin inside the source. `Prepend` can leave the content anywhere below the reserve,
where such a move would go the wrong way; the branch is not taken then
(`Buffer.compaction_moves_down`).
-/

namespace Benet.Buffer

open Data Semantics

variable {buffer : Buffer}

/-- The result of the branch, when it is taken. -/
theorem Wf.ensureWriteableBytes_compacts (wf : buffer.Wf) {len : Nat}
    (short : buffer.writableBytes < len)
    (enough : ¬buffer.writableBytes + buffer.prependableBytes < len + kCheapPrepend) :
    buffer.ensureWriteableBytes len = .ok ⟨overwrite buffer.cells kCheapPrepend buffer.content,
      kCheapPrepend, kCheapPrepend + buffer.readableBytes⟩ := by
  obtain ⟨copied, -⟩ := wf.compact (reserve_lt_reader short enough)
  rw [Buffer.ensureWriteableBytes, if_pos short, Buffer.makeSpace, if_neg enough]
  simp only [copied, inRange_some]
  rfl

/-- In every reachable buffer, for every length with which `EnsureWriteableBytes` comes to
the branch of `make_space` that compacts: the content lies above the reserve, so the
target begins before the source; both ranges lie in the block; and the copy, byte by byte
from the front, leaves the same content behind the reserve, with the room asked for. -/
theorem compaction_moves_down (reachable : system.Reachable LabelledSystem.unguarded buffer)
    {len : Nat} (short : buffer.writableBytes < len)
    (enough : ¬buffer.writableBytes + buffer.prependableBytes < len + kCheapPrepend) :
    kCheapPrepend < buffer.readerIndex ∧
    buffer.readerIndex + buffer.readableBytes ≤ buffer.cells.length ∧
    kCheapPrepend + buffer.readableBytes ≤ buffer.cells.length ∧
    ∃ next, buffer.ensureWriteableBytes len = .ok next ∧
      copyForward buffer.cells buffer.readerIndex kCheapPrepend buffer.readableBytes =
        some next.cells ∧
      next.content = buffer.content ∧ next.readerIndex = kCheapPrepend ∧
      len ≤ next.writableBytes := by
  have wf := reachable_wf reachable
  have above := reserve_lt_reader short enough
  obtain ⟨copied, room⟩ := wf.compact above
  rw [wf.length_content] at room
  obtain ⟨next, ensured, -, content, made⟩ := wf.ensureWriteableBytes len
  have compacted := wf.ensureWriteableBytes_compacts short enough
  cases ensured.symm.trans compacted
  have reader := wf.reader
  have writer := wf.writer
  refine ⟨above, ?_, room, _, compacted, copied, content, rfl, made⟩
  simp only [readableBytes]
  omega

/-- Ten bytes are retrieved up to the last two, and one is put back in front of them. Six
more then fit only after the three have moved down to the reserve. -/
def drifted : List Call :=
  [.plain (.append [1, 2, 3, 4, 5, 6, 7, 8, 9, 10]), .plain (.retrieve 8), .plain (.prepend [0])]

/-- The content of a buffer whose reader index has drifted to 15 is moved down to make room for six
bytes. -/
theorem compaction_moves_down_drifted :
    ∃ buffer next, system.Reachable LabelledSystem.unguarded buffer ∧
      buffer.readerIndex = 15 ∧ buffer.content = [0, 9, 10] ∧
      buffer.ensureWriteableBytes 6 = .ok next ∧
      next.content = [0, 9, 10] ∧ next.readerIndex = kCheapPrepend ∧ 6 ≤ next.writableBytes := by
  let buffer := (system.run LabelledSystem.unguarded (create 10) drifted).get (by decide +kernel)
  have reachable : system.Reachable LabelledSystem.unguarded buffer :=
    LabelledSystem.run_reachable ⟨10, rfl⟩ (Option.some_get _).symm
  have content : buffer.content = [0, 9, 10] := by decide +kernel
  have short : buffer.writableBytes < 6 := by decide +kernel
  obtain ⟨-, -, -, next, ensured, -, kept, reader, room⟩ :=
    compaction_moves_down reachable short (by decide +kernel)
  exact ⟨buffer, next, reachable, by decide +kernel, content, ensured, kept.trans content, reader,
    room⟩

end Benet.Buffer
