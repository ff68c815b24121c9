import Benet.Buffer.WellFormed

/-!
# The buffer is a byte deque

A run of public calls on a `Buffer` is related to the same calls on the bare
sequence of readable bytes.
-/

namespace Benet.Buffer

/-- One call of a public member function. `retrieveUntil` carries the distance of
its pointer from `Peek()`. -/
inductive Op where
  | append (data : List UInt8)
  | prepend (data : List UInt8)
  | retrieve (len : Nat)
  | retrieveUntil (offset : Nat)
  | retrieveAll
  | retrieveAsString (len : Nat)
  | retrieveAllAsString
  | ensureWriteableBytes (len : Nat)
deriving DecidableEq, Repr

namespace Op

/-- Run the call; the second component is the returned string. -/
def apply (buffer : Buffer) : Op → Except Fault (Buffer × List UInt8)
  | .append data => (·, []) <$> buffer.append data
  | .prepend data => (·, []) <$> buffer.prepend data
  | .retrieve len => (·, []) <$> buffer.retrieve len
  | .retrieveUntil offset => (·, []) <$> buffer.retrieveUntil (buffer.readerIndex + offset)
  | .retrieveAll => .ok (buffer.retrieveAll, [])
  | .retrieveAsString len => buffer.retrieveAsString len
  | .retrieveAllAsString => buffer.retrieveAllAsString
  | .ensureWriteableBytes len => (·, []) <$> buffer.ensureWriteableBytes len

/-- The caller's obligations. -/
def Permitted (buffer : Buffer) : Op → Prop
  | .prepend data => data.length ≤ buffer.prependableBytes
  | .retrieve len | .retrieveUntil len | .retrieveAsString len => len ≤ buffer.readableBytes
  | _ => True

/-- The same call on the abstract byte sequence. -/
def onDeque (bytes : List UInt8) : Op → List UInt8 × List UInt8
  | .append data => (bytes ++ data, [])
  | .prepend data => (data ++ bytes, [])
  | .retrieve len | .retrieveUntil len => (bytes.drop len, [])
  | .retrieveAll => ([], [])
  | .retrieveAsString len => (bytes.drop len, bytes.take len)
  | .retrieveAllAsString => ([], bytes)
  | .ensureWriteableBytes _ => (bytes, [])

/-- Free tail that the call promises. -/
def promised : Op → Nat
  | .ensureWriteableBytes len => len
  | _ => 0

end Op

/-- A sequence of calls, with the strings they return in order. -/
def run (buffer : Buffer) : List Op → Except Fault (Buffer × List (List UInt8))
  | [] => .ok (buffer, [])
  | op :: rest => do
      let (buffer, returned) ← op.apply buffer
      let (buffer, strings) ← buffer.run rest
      .ok (buffer, returned :: strings)

/-- Every call of the sequence meets its obligation where it is made. -/
def PermittedAlong (buffer : Buffer) : List Op → Prop
  | [] => True
  | op :: rest => op.Permitted buffer ∧
      ∀ next returned, op.apply buffer = .ok (next, returned) → next.PermittedAlong rest

/-- The sequence on the abstract bytes. -/
def runDeque (bytes : List UInt8) : List Op → List UInt8 × List (List UInt8)
  | [] => (bytes, [])
  | op :: rest =>
      let (bytes, returned) := op.onDeque bytes
      let (bytes, strings) := runDeque bytes rest
      (bytes, returned :: strings)

/-- An operation that returns nothing and promises no room. -/
theorem Op.withoutPromise {result : Except Fault Buffer} {expected : List UInt8}
    (yields : Yields result expected) :
    ∃ next, (·, ([] : List UInt8)) <$> result = .ok (next, []) ∧ next.Wf ∧
      next.content = expected ∧ 0 ≤ next.writableBytes := by
  obtain ⟨next, rfl, wf, same⟩ := yields
  exact ⟨next, rfl, wf, same, Nat.zero_le _⟩

/-- One permitted call refines its counterpart on the abstract bytes. -/
theorem Op.apply_refines {buffer : Buffer} (wf : buffer.Wf) (op : Op)
    (permitted : op.Permitted buffer) :
    ∃ next, op.apply buffer = .ok (next, (op.onDeque buffer.content).2) ∧ next.Wf ∧
      next.content = (op.onDeque buffer.content).1 ∧ op.promised ≤ next.writableBytes := by
  cases op with
  | append data => exact withoutPromise (wf.append data)
  | prepend data => exact withoutPromise (wf.prepend permitted)
  | retrieve len => exact withoutPromise (wf.retrieve permitted)
  | retrieveUntil offset => exact withoutPromise (wf.retrieveUntil permitted)
  | retrieveAll => exact ⟨_, rfl, wf.retrieveAll.1, wf.retrieveAll.2, Nat.zero_le _⟩
  | retrieveAsString len =>
      obtain ⟨next, succeeded, nextWf, nextContent⟩ := wf.retrieveAsString permitted
      exact ⟨next, succeeded, nextWf, nextContent, Nat.zero_le _⟩
  | retrieveAllAsString =>
      obtain ⟨next, succeeded, nextWf, nextContent⟩ := wf.retrieveAsString (Nat.le_refl _)
      rw [← wf.length_content, List.take_length] at succeeded
      rw [← wf.length_content, List.drop_length] at nextContent
      refine ⟨next, ?_, nextWf, nextContent, Nat.zero_le _⟩
      rw [Op.apply, Buffer.retrieveAllAsString, ← wf.length_content, succeeded]
      rfl
  | ensureWriteableBytes len =>
      obtain ⟨next, succeeded, nextWf, nextContent, room⟩ := wf.ensureWriteableBytes len
      refine ⟨next, ?_, nextWf, nextContent, room⟩
      rw [Op.apply, succeeded]
      rfl

/-- What is permitted along a sequence is permitted along its beginning. -/
theorem PermittedAlong.of_prefix {buffer : Buffer} {before ops : List Op}
    (reached : before <+: ops) (permitted : buffer.PermittedAlong ops) :
    buffer.PermittedAlong before := by
  induction before generalizing buffer ops with
  | nil => trivial
  | cons op before inductionHypothesis =>
      obtain ⟨rest, rfl⟩ := reached
      refine ⟨permitted.1, fun next returned applied => ?_⟩
      exact inductionHypothesis ⟨rest, rfl⟩ (permitted.2 next returned applied)

/-- A permitted run refines the run on the abstract bytes from any well-formed
buffer. -/
theorem Wf.run_refines {buffer : Buffer} (wf : buffer.Wf) (ops : List Op)
    (permitted : buffer.PermittedAlong ops) :
    ∃ final strings, buffer.run ops = .ok (final, strings) ∧ final.Wf ∧
      runDeque buffer.content ops = (final.content, strings) ∧
      ∀ op, ops.getLast? = some op → op.promised ≤ final.writableBytes := by
  induction ops generalizing buffer with
  | nil => exact ⟨buffer, [], rfl, wf, rfl, by simp⟩
  | cons op rest inductionHypothesis =>
      obtain ⟨next, applied, nextWf, nextContent, kept⟩ := op.apply_refines wf permitted.1
      obtain ⟨final, strings, ran, finalWf, refined, promise⟩ :=
        inductionHypothesis nextWf (permitted.2 next _ applied)
      refine ⟨final, (op.onDeque buffer.content).2 :: strings, ?_, finalWf, ?_, ?_⟩
      · simp only [run, applied, bind, Except.bind, ran]
      · simp only [runDeque, ← nextContent, refined]
      · intro last isLast
        cases rest with
        | nil =>
            -- the single call is the last one, and the run stops at its result
            cases ran
            cases isLast
            exact kept
        | cons following others =>
            exact promise last (by simpa only [List.getLast?_cons_cons] using isLast)

/-- A buffer of any initial size is a byte deque. At every point of a permitted
sequence of calls no assertion has failed and no byte outside the block has been
touched, the indices are in order, and the readable bytes and the returned
strings are those of the abstract sequence; a call of `EnsureWriteableBytes` has
left the space it was asked for. -/
theorem run_refines_deque (initSize : Nat) (ops : List Op)
    (permitted : (create initSize).PermittedAlong ops) (before : List Op)
    (reached : before <+: ops) :
    ∃ buffer strings, (create initSize).run before = .ok (buffer, strings) ∧
      kCheapPrepend ≤ buffer.cells.length ∧ buffer.readerIndex ≤ buffer.writerIndex ∧
      buffer.writerIndex ≤ buffer.cells.length ∧
      runDeque [] before = (buffer.content, strings) ∧
      ∀ len, before.getLast? = some (.ensureWriteableBytes len) → len ≤ buffer.writableBytes := by
  obtain ⟨buffer, strings, ran, wf, refined, promise⟩ :=
    (wf_create initSize).run_refines before (permitted.of_prefix reached)
  rw [content_create] at refined
  exact ⟨buffer, strings, ran, wf.reserve, wf.reader, wf.writer, refined,
    fun len isLast => promise _ isLast⟩

/-- Calls that drain a small buffer, let its indices drift, compact it, prepend
below the reserve and make it grow. -/
def driftingCalls : List Op :=
  [.append [1, 2, 3], .retrieve 3, .append [4, 5, 6], .prepend [7, 8], .retrieveAsString 3,
    .append [9, 10], .retrieveUntil 1, .append [11, 12, 13], .retrieveAllAsString,
    .ensureWriteableBytes 20]

instance : (buffer : Buffer) → (op : Op) → Decidable (op.Permitted buffer)
  | _, .append _ | _, .retrieveAll | _, .retrieveAllAsString | _, .ensureWriteableBytes _ =>
      isTrue trivial
  | _, .prepend _ | _, .retrieve _ | _, .retrieveUntil _ | _, .retrieveAsString _ =>
      Nat.decLe _ _

/-- Whether `PermittedAlong` holds, by running the calls. -/
def permittedAlong (buffer : Buffer) : List Op → Bool
  | [] => true
  | op :: rest => decide (op.Permitted buffer) &&
      match op.apply buffer with
      | .ok (next, _) => next.permittedAlong rest
      | .error _ => true

/-- The check that can be evaluated is right. -/
theorem PermittedAlong.of_eval {buffer : Buffer} {ops : List Op}
    (holds : buffer.permittedAlong ops = true) : buffer.PermittedAlong ops := by
  induction ops generalizing buffer with
  | nil => trivial
  | cons op rest inductionHypothesis =>
      simp only [permittedAlong, Bool.and_eq_true, decide_eq_true_eq] at holds
      refine ⟨holds.1, fun next returned applied => inductionHypothesis ?_⟩
      simpa only [applied] using holds.2

/-- The drifting calls are permitted; the deque shows what they return. -/
theorem run_refines_deque_drifting :
    (create 4).PermittedAlong driftingCalls ∧
      runDeque [] driftingCalls =
        ([], [[], [], [], [], [7, 8, 4], [], [], [], [6, 9, 10, 11, 12, 13], []]) ∧
      ∃ buffer strings, (create 4).run driftingCalls = .ok (buffer, strings) ∧
        20 ≤ buffer.writableBytes := by
  have permitted : (create 4).PermittedAlong driftingCalls :=
    PermittedAlong.of_eval (by decide +kernel)
  obtain ⟨buffer, strings, ran, -, -, -, -, room⟩ :=
    run_refines_deque 4 driftingCalls permitted driftingCalls (List.prefix_refl _)
  exact ⟨permitted, by decide +kernel, buffer, strings, ran, room 20 rfl⟩

end Benet.Buffer
