import Benet.Data.SlotTable
import Benet.Semantics.Execution

/-!
# The acceptor when descriptors run out

The process is its table of descriptors, with the limit that makes `::accept` and
`::open` fail, and the backlog of the listening socket. The acceptor keeps `idle_fd_` in
reserve: when `accept` fails with `EMFILE`, it gives that descriptor up, accepts the
waiting connection in its place, closes it and opens the reserve again. Other threads
open and close descriptors in between. `AcceptorProcess.exhaustion_survived_iff` says
when the reserve comes back and when the process exits.
-/

namespace Benet

open Data Semantics

/-- Whose descriptor it is. -/
inductive DescriptorOwner (Other : Type) where
  | acceptor
  | other (who : Other)
deriving DecidableEq, Repr

/-- The errors of `::accept` that the model has: no descriptor, no connection. -/
inductive AcceptErrno where
  | emfile
  | eagain
deriving DecidableEq, Repr

/-- Where the acceptor's thread stands: outside the read callback, before one of the four
statements of `close_excessfd_with_idlefd`, or past `std::exit`. -/
inductive AcceptorPoint where
  | waiting
  | closeIdle
  | acceptExcess
  | closeExcess
  | createIdlefd
  | exited
deriving DecidableEq, Repr

structure AcceptorProcess (Other : Type) (limit : Nat) where
  table : SlotTable (DescriptorOwner Other) limit
  /-- connections that wait to be accepted -/
  backlog : Nat
  /-- `idle_fd_`; `none` is `-1` -/
  idleFd : Option (Fin limit)
  /-- `on_new_connection_` is bound -/
  onNewConnection : Bool
  point : AcceptorPoint := .waiting
  /-- history: descriptors that others opened since `accept` last failed with `EMFILE` -/
  opened : Nat := 0
  /-- history: descriptors that others closed since then -/
  closed : Nat := 0
  /-- history: descriptors of others that `close_excessfd_with_idlefd` has closed -/
  closedOfOthers : Nat := 0

namespace AcceptorProcess

variable {Other : Type} {limit : Nat}

/-- What happens next: the read callback, in which `who` gets a new connection; a statement
of `close_excessfd_with_idlefd`; another thread opens or closes a descriptor; or a
connection arrives in the backlog or leaves it. -/
inductive Event (Other : Type) (limit : Nat) where
  | readCallback (who : Other)
  | handle
  | openFd (who : Other)
  | closeFd (fd : Fin limit)
  | connect
  | abort
deriving DecidableEq, Repr

section Functions

variable (process : AcceptorProcess Other limit)

/-- `::accept` takes a descriptor before it looks for a connection. -/
def accept (owner : DescriptorOwner Other) :
    Except AcceptErrno (Fin limit × AcceptorProcess Other limit) :=
  match process.table.take owner with
  | none => .error .emfile
  | some (fd, table) =>
      if process.backlog = 0 then .error .eagain
      else .ok (fd, { process with table, backlog := process.backlog - 1 })

/-- The read callback, up to its return or its call of `close_excessfd_with_idlefd`. -/
def readCallback (who : Other) : AcceptorProcess Other limit :=
  match process.accept (.other who) with
  | .ok (connfd, accepted) =>
      if process.onNewConnection then accepted
      else { accepted with table := accepted.table.free connfd }
  | .error .emfile => { process with point := .closeIdle, opened := 0, closed := 0 }
  | .error .eagain => process

/-- `::close(idle_fd_)`; on `-1` and on a closed descriptor it fails and does nothing. -/
def closeIdleFd : AcceptorProcess Other limit :=
  match process.idleFd with
  | none => process
  | some fd =>
      match process.table.owner fd with
      | none => process
      | some .acceptor => { process with table := process.table.free fd }
      | some (.other _) => { process with
          table := process.table.free fd
          closedOfOthers := process.closedOfOthers + 1 }

/-- `idle_fd_ = ::accept(excessfd, NULL, NULL);` -/
def acceptExcess : AcceptorProcess Other limit :=
  match process.accept .acceptor with
  | .ok (fd, accepted) => { accepted with idleFd := some fd }
  | .error _ => { process with idleFd := none }

/-- `idle_fd_ = create_idlefd();`, which exits when `::open` fails. -/
def createIdlefd : AcceptorProcess Other limit :=
  match process.table.take .acceptor with
  | some (fd, table) => { process with table, idleFd := some fd, point := .waiting }
  | none => { process with point := .exited }

/-- The next statement of `close_excessfd_with_idlefd`. -/
def handle : Option (AcceptorProcess Other limit) :=
  match process.point with
  | .waiting | .exited => none
  | .closeIdle => some { process.closeIdleFd with point := .acceptExcess }
  | .acceptExcess => some { process.acceptExcess with point := .closeExcess }
  | .closeExcess => some { process.closeIdleFd with point := .createIdlefd }
  | .createIdlefd => some process.createIdlefd

/-- Another thread opens a descriptor, unless the table is full. -/
def openByOther (who : Other) : AcceptorProcess Other limit :=
  match process.table.take (.other who) with
  | some (_, table) => { process with table, opened := process.opened + 1 }
  | none => process

/-- Another thread closes a descriptor that is not the acceptor's. -/
def closeByOther (fd : Fin limit) : Option (AcceptorProcess Other limit) :=
  match process.table.owner fd with
  | some (.other _) =>
      some { process with table := process.table.free fd, closed := process.closed + 1 }
  | _ => none

def step (event : Event Other limit) : Option (AcceptorProcess Other limit) :=
  match process.point, event with
  | .exited, _ => none
  | .waiting, .readCallback who => some (process.readCallback who)
  | _, .readCallback _ => none
  | _, .handle => process.handle
  | _, .openFd who => some (process.openByOther who)
  | _, .closeFd fd => process.closeByOther fd
  | _, .connect => some { process with backlog := process.backlog + 1 }
  | _, .abort =>
      if process.backlog = 0 then none else some { process with backlog := process.backlog - 1 }

end Functions

/-- `idle_fd_` is an open descriptor of the acceptor. -/
def Reserved (process : AcceptorProcess Other limit) : Prop :=
  ∃ fd, process.idleFd = some fd ∧ process.table.owner fd = some .acceptor

/-- All interleavings, from any table and backlog once the acceptor has its reserve. -/
abbrev system : LabelledSystem (AcceptorProcess Other limit) (Event Other limit) where
  Initial process := process.Reserved ∧ process.point = .waiting ∧ process.closedOfOthers = 0
  step := step

/-- How many descriptors the acceptor has less than before the handler. -/
def missing (process : AcceptorProcess Other limit) : Nat :=
  match process.point with
  | .acceptExcess | .createIdlefd => 1
  | .closeExcess => if process.idleFd.isNone then 1 else 0
  | _ => 0

/-- Between any two steps the descriptors are accounted for: `accept` failed on a full
table, and since then the count has moved by what others did and by what the acceptor
lacks. -/
structure Sound (process : AcceptorProcess Other limit) : Prop where
  reserved : process.point = .waiting ∨ process.point = .closeIdle → process.Reserved
  excess : process.point = .closeExcess → ∀ fd ∈ process.idleFd,
    process.table.owner fd = some .acceptor
  balance : process.point ≠ .waiting → process.point ≠ .exited →
    process.table.used + process.missing + process.closed = limit + process.opened
  untouched : process.closedOfOthers = 0

section Lemmas

variable {process accepted : AcceptorProcess Other limit} {owner : DescriptorOwner Other}
  {fd : Fin limit}

/-- What `::accept` does when it succeeds. -/
theorem accept_eq_ok (succeeded : process.accept owner = .ok (fd, accepted)) :
    ∃ table, process.table.take owner = some (fd, table) ∧
      accepted = { process with table, backlog := process.backlog - 1 } := by
  unfold accept at succeeded
  split at succeeded
  case h_1 => cases succeeded
  case h_2 slot table took =>
    split at succeeded
    case isTrue => cases succeeded
    case isFalse =>
      cases succeeded
      exact ⟨table, took, rfl⟩

/-- `EMFILE` means that the table is full. -/
theorem accept_eq_emfile (failed : process.accept owner = .error .emfile) :
    process.table.used = limit := by
  unfold accept at failed
  split at failed
  case h_1 refused => exact SlotTable.take_eq_none.mp refused
  case h_2 =>
    split at failed
    case isTrue => cases failed
    case isFalse => cases failed

/-- A descriptor of the acceptor stays its own when a free one is taken. -/
private theorem owner_take {table : SlotTable (DescriptorOwner Other) limit} {mine : Fin limit}
    (own : process.table.owner mine = some .acceptor)
    (took : process.table.take owner = some (fd, table)) :
    table.owner mine = some .acceptor := by
  obtain ⟨unowned, rfl, -⟩ := SlotTable.take_eq_some took
  have different : mine ≠ fd := by
    rintro rfl
    simp [unowned] at own
  rwa [SlotTable.assign_other different]

/-- And when another one's is freed. -/
private theorem owner_free {mine : Fin limit} {who : Other}
    (own : process.table.owner mine = some .acceptor)
    (foreign : process.table.owner fd = some (.other who)) :
    (process.table.free fd).owner mine = some .acceptor := by
  have different : mine ≠ fd := by
    rintro rfl
    simp [foreign] at own
  rwa [SlotTable.free, SlotTable.assign_other different]

private theorem closeIdleFd_own (idle : process.idleFd = some fd)
    (own : process.table.owner fd = some .acceptor) :
    process.closeIdleFd = { process with table := process.table.free fd } := by
  simp [closeIdleFd, idle, own]

private theorem closeIdleFd_none (idle : process.idleFd = none) :
    process.closeIdleFd = process := by
  simp [closeIdleFd, idle]

end Lemmas

namespace Sound

variable {process next : AcceptorProcess Other limit}

/-- A step of others, which leaves the acceptor's descriptors alone and is accounted for. -/
theorem byOthers (sound : process.Sound) {table : SlotTable (DescriptorOwner Other) limit}
    {backlog opened closed : Nat}
    (kept : ∀ fd, process.table.owner fd = some .acceptor → table.owner fd = some .acceptor)
    (count : table.used + closed + process.opened =
      process.table.used + process.closed + opened) :
    Sound { process with table, backlog, opened, closed } where
  reserved point := by
    obtain ⟨fd, idle, own⟩ := sound.reserved point
    exact ⟨fd, idle, kept fd own⟩
  excess point fd idle := kept fd (sound.excess point fd idle)
  balance started living := by
    have before := sound.balance started living
    simp only [missing] at before ⊢
    omega
  untouched := sound.untouched

/-- Another part of the process opens a descriptor. -/
theorem openByOther (sound : process.Sound) (who : Other) : (process.openByOther who).Sound := by
  unfold AcceptorProcess.openByOther
  split
  case h_1 fd table took =>
    obtain ⟨-, -, grown⟩ := SlotTable.take_eq_some took
    exact sound.byOthers (fun mine own => owner_take own took) (by omega)
  case h_2 => exact sound

/-- Another part of the process closes a descriptor of its own. -/
theorem closeByOther (sound : process.Sound) {fd : Fin limit}
    (closes : process.closeByOther fd = some next) : next.Sound := by
  unfold AcceptorProcess.closeByOther at closes
  split at closes
  case h_1 who foreign =>
    cases closes
    have shrunk := SlotTable.used_free foreign
    exact sound.byOthers (fun mine own => owner_free own foreign) (by omega)
  case h_2 => cases closes

/-- The read callback. A new connection, if any, is another one's; `EMFILE` starts the
account. -/
theorem readCallback (sound : process.Sound) (point : process.point = .waiting) (who : Other) :
    (process.readCallback who).Sound := by
  have elsewhere : ∀ {later : AcceptorProcess Other limit}, later.point = .waiting →
      later.Reserved → later.closedOfOthers = 0 → later.Sound :=
    fun at' reserved untouched => ⟨fun _ => reserved, by simp [at'], by simp [at'], untouched⟩
  obtain ⟨idle, is, own⟩ := sound.reserved (.inl point)
  unfold AcceptorProcess.readCallback
  split
  case h_1 connfd accepted succeeded =>
    obtain ⟨table, took, rfl⟩ := accept_eq_ok succeeded
    have kept : table.owner idle = some .acceptor := owner_take own took
    split
    case isTrue => exact elsewhere point ⟨idle, is, kept⟩ sound.untouched
    case isFalse =>
      refine elsewhere point ⟨idle, is, ?_⟩ sound.untouched
      obtain ⟨-, rfl, -⟩ := SlotTable.take_eq_some took
      have different : idle ≠ connfd := by
        rintro rfl
        simp at kept
      dsimp only
      rwa [SlotTable.free, SlotTable.assign_other different]
  case h_2 failed =>
    refine ⟨fun _ => ⟨idle, is, own⟩, by simp, fun _ _ => ?_, sound.untouched⟩
    simpa [missing] using accept_eq_emfile failed
  case h_3 => exact sound

/-- The handler closes the idle descriptor. -/
theorem closeIdle (sound : process.Sound) (point : process.point = .closeIdle) :
    Sound { process.closeIdleFd with point := .acceptExcess } := by
  obtain ⟨fd, idle, own⟩ := sound.reserved (.inr point)
  have before := sound.balance (by simp [point]) (by simp [point])
  have shrunk := SlotTable.used_free own
  rw [closeIdleFd_own idle own]
  refine ⟨by simp, by simp, fun _ _ => ?_, sound.untouched⟩
  simp only [missing, point] at before ⊢
  omega

/-- The handler accepts the connection in excess. -/
theorem acceptExcess (sound : process.Sound) (point : process.point = .acceptExcess) :
    Sound { process.acceptExcess with point := .closeExcess } := by
  have before := sound.balance (by simp [point]) (by simp [point])
  simp only [missing, point] at before
  unfold AcceptorProcess.acceptExcess
  split
  case h_1 fd accepted succeeded =>
    obtain ⟨table, took, rfl⟩ := accept_eq_ok succeeded
    obtain ⟨-, rfl, grown⟩ := SlotTable.take_eq_some took
    refine ⟨by simp, by simp, fun _ _ => ?_, sound.untouched⟩
    simp only [missing, Option.isNone_some, Bool.false_eq_true, if_false]
    omega
  case h_2 =>
    refine ⟨by simp, by simp, fun _ _ => ?_, sound.untouched⟩
    simpa [missing] using before

/-- The handler closes the connection in excess. -/
theorem closeExcess (sound : process.Sound) (point : process.point = .closeExcess) :
    Sound { process.closeIdleFd with point := .createIdlefd } := by
  have before := sound.balance (by simp [point]) (by simp [point])
  cases idle : process.idleFd with
  | none =>
      rw [closeIdleFd_none idle]
      refine ⟨by simp, by simp, fun _ _ => ?_, sound.untouched⟩
      simpa [missing, point, idle] using before
  | some fd =>
      have own := sound.excess point fd idle
      have shrunk := SlotTable.used_free own
      rw [closeIdleFd_own idle own]
      refine ⟨by simp, by simp, fun _ _ => ?_, sound.untouched⟩
      simp only [missing, point, idle, Option.isNone_some, Bool.false_eq_true, if_false] at before ⊢
      omega

/-- The reserve is opened again, or the process exits. -/
theorem createIdlefd (sound : process.Sound) : process.createIdlefd.Sound := by
  unfold AcceptorProcess.createIdlefd
  split
  case h_1 fd table took =>
    obtain ⟨-, rfl, -⟩ := SlotTable.take_eq_some took
    exact ⟨fun _ => ⟨fd, rfl, SlotTable.assign_self _⟩, by simp, by simp, sound.untouched⟩
  case h_2 => exact ⟨by simp, by simp, by simp, sound.untouched⟩

/-- A statement of the handler keeps the process sound. -/
theorem handle (sound : process.Sound) (handled : process.handle = some next) : next.Sound := by
  unfold AcceptorProcess.handle at handled
  split at handled
  case h_1 | h_2 => cases handled
  case h_3 point =>
    cases handled
    exact sound.closeIdle point
  case h_4 point =>
    cases handled
    exact sound.acceptExcess point
  case h_5 point =>
    cases handled
    exact sound.closeExcess point
  case h_6 =>
    cases handled
    exact sound.createIdlefd

/-- One event keeps the process sound. -/
theorem step (sound : process.Sound) {event : Event Other limit}
    (stepped : process.step event = some next) : next.Sound := by
  unfold AcceptorProcess.step at stepped
  split at stepped
  case h_1 => cases stepped
  case h_2 who point =>
    cases stepped
    exact sound.readCallback point who
  case h_3 => cases stepped
  case h_4 => exact sound.handle stepped
  case h_5 who _ =>
    cases stepped
    exact sound.openByOther who
  case h_6 => exact sound.closeByOther stepped
  case h_7 =>
    cases stepped
    exact sound.byOthers (fun _ own => own) rfl
  case h_8 =>
    split at stepped
    case isTrue => cases stepped
    case isFalse =>
      cases stepped
      exact sound.byOthers (fun _ own => own) rfl

end Sound

/-- The process is sound in every run. -/
theorem reachable_sound {guard : AcceptorProcess Other limit → Event Other limit → Prop}
    {process : AcceptorProcess Other limit} (reachable : system.Reachable guard process) :
    process.Sound := by
  refine reachable.invariant Sound ?_ fun _ _ _ _ sound _ stepped => sound.step stepped
  rintro process ⟨reserved, point, untouched⟩
  exact ⟨fun _ => reserved, by simp [point], by simp [point], untouched⟩

/-- In every interleaving, whatever the limit and the backlog: the handler closes nothing
that is not the acceptor's; and where it comes to `create_idlefd`, the process exits if
and only if since the failure of `accept` the other threads have opened more descriptors
than they have closed. Otherwise the acceptor has an open descriptor in `idle_fd_`
again. -/
theorem exhaustion_survived_iff {process : AcceptorProcess Other limit}
    (reachable : system.Reachable LabelledSystem.unguarded process) :
    process.closedOfOthers = 0 ∧
    (process.point = .createIdlefd →
      ∃ next, process.step .handle = some next ∧
        (next.point = .exited ↔ process.closed < process.opened) ∧
        (next.point ≠ .exited → next.point = .waiting ∧ ∃ fd, next.idleFd = some fd ∧
          next.table.owner fd = some .acceptor)) := by
  have sound := reachable_sound reachable
  refine ⟨sound.untouched, fun point => ?_⟩
  have balance := sound.balance (by simp [point]) (by simp [point])
  have bound := process.table.used_le
  simp only [missing, point] at balance
  refine ⟨process.createIdlefd, by simp [step, handle, point], ?_⟩
  unfold createIdlefd
  split
  case h_1 fd table took =>
    obtain ⟨-, rfl, grown⟩ := SlotTable.take_eq_some took
    have room := (process.table.assign fd (some .acceptor)).used_le
    refine ⟨⟨by simp, fun more => ?_⟩, fun _ => ⟨rfl, fd, rfl, SlotTable.assign_self _⟩⟩
    omega
  case h_2 refused =>
    have full := SlotTable.take_eq_none.mp refused
    exact ⟨⟨fun _ => by omega, fun _ => rfl⟩, fun contrary => absurd rfl contrary⟩

section Schedules

/-- Three descriptors: the listening socket and a connection of others, and the reserve in
between; one connection waits. -/
def full : AcceptorProcess Unit 3 where
  table := ⟨fun fd => some (if fd = 1 then .acceptor else .other ())⟩
  backlog := 1
  idleFd := some 1
  onNewConnection := true

/-- A full table is an initial state. -/
theorem full_initial : system.Initial full := ⟨⟨1, rfl, rfl⟩, rfl, rfl⟩

/-- `accept` fails, and the handler runs up to `create_idlefd`. -/
def handling : List (Event Unit 3) := [.readCallback (), .handle, .handle, .handle]

/-- Nobody takes the slot while the handler sheds a connection, and the handler has its idle
descriptor again. -/
theorem exhaustion_survived_undisturbed :
    ∃ process next : AcceptorProcess Unit 3,
      system.run LabelledSystem.unguarded full handling = some process ∧
      process.step .handle = some next ∧ next.point = .waiting ∧
      ∃ fd, next.idleFd = some fd ∧ next.table.owner fd = some .acceptor := by
  let process := (system.run LabelledSystem.unguarded full handling).get (by decide)
  have reachable : system.Reachable LabelledSystem.unguarded process :=
    LabelledSystem.run_reachable full_initial (Option.some_get _).symm
  obtain ⟨next, handled, exits, survives⟩ := (exhaustion_survived_iff reachable).2 (by decide)
  have back := survives (mt exits.mp (by decide))
  exact ⟨process, next, (Option.some_get _).symm, handled, back⟩

/-- Another thread opens a descriptor in the place that the acceptor has just given up. -/
def racing : List (Event Unit 3) :=
  [.readCallback (), .handle, .openFd (), .handle, .handle]

/-- Then the connection is not accepted, the reserve does not come back, and the process
exits. -/
theorem exhaustion_exits :
    ∃ process next : AcceptorProcess Unit 3,
      system.Reachable LabelledSystem.unguarded process ∧ process.point = .createIdlefd ∧
      process.step .handle = some next ∧ next.point = .exited := by
  let process := (system.run LabelledSystem.unguarded full racing).get (by decide)
  have reachable : system.Reachable LabelledSystem.unguarded process :=
    LabelledSystem.run_reachable full_initial (Option.some_get _).symm
  exact ⟨process, (process.step .handle).get (by decide), reachable, by decide,
    (Option.some_get _).symm, by decide⟩

end Schedules

end AcceptorProcess

end Benet
