import Benet.Poller.Tracking
import Benet.Semantics.Execution

/-!
# The channels of one loop

Any number of channels with different descriptors, registered with one poller
through `EnableReadEvent` and its companions and `RemoveFromLoop`. Three views of
a channel, its `index_`, the map `channels_` and the kernel's interest set, are
changed by different branches; `EPoller.Tracks` holds for every channel at once
after any sequence of operations, and so no call of `epoll_ctl` fails.
-/

namespace Benet

/-- The functions of a channel that reach the poller. -/
inductive ChannelOperation where
  | enableReadEvent
  | disableReadEvent
  | enableWriteEvent
  | disableWriteEvent
  | disableAllEvent
  | removeFromLoop
deriving DecidableEq, Repr

/-- What the function stores in `events_` before `update_events`; `RemoveFromLoop`
stores nothing. -/
def ChannelOperation.events (events : EventMask) : ChannelOperation → Option EventMask
  | .enableReadEvent => some (events ||| kReadEvent)
  | .disableReadEvent => some (events &&& ~~~kReadEvent)
  | .enableWriteEvent => some (events ||| kWriteEvent)
  | .disableWriteEvent => some (events &&& ~~~kWriteEvent)
  | .disableAllEvent => some kNoneEvent
  | .removeFromLoop => none

namespace EPoller

/-- `HasChannel` -/
def hasChannel (owner : Nat) (channel : Channel) (poller : EPoller) : Bool :=
  poller.channels channel.fd == some owner

/-- `epoll_wait` may report these entries of the interest set. -/
def Ready (reported : List Interest) (poller : EPoller) : Prop :=
  ∀ entry ∈ reported, ∃ fd, poller.interest fd = some entry

/-- `fill_actives`: the pointers of the reported entries. -/
def fillActives (reported : List Interest) : List Nat := reported.map Interest.owner

end EPoller

/-- The channels of one loop, by number, with its poller. -/
structure ChannelSet where
  channels : Nat → Channel
  poller : EPoller := {}

namespace ChannelSet

/-- Replace a channel together with the poller. -/
def set (owner : Nat) (changed : Channel × EPoller) (state : ChannelSet) : ChannelSet where
  channels := Function.update state.channels owner changed.1
  poller := changed.2

/-- One operation on one channel. `RemoveFromLoop` asserts that no event is enabled. -/
def step (state : ChannelSet) (label : Nat × ChannelOperation) : Option ChannelSet :=
  let owner := label.1
  let channel := state.channels owner
  match label.2.events channel.events with
  | some events => some (state.set owner (state.poller.updateChannel owner { channel with events }))
  | none =>
      if channel.isNoneEvent then some (state.set owner (state.poller.removeChannel owner channel))
      else none

/-- New channels with pairwise distinct descriptors and an empty poller. -/
def Initial (state : ChannelSet) : Prop :=
  ∃ fds : Nat → Nat, Function.Injective fds ∧ state = { channels := fun owner => { fd := fds owner } }

/-- All sequences of operations. -/
abbrev system : Semantics.LabelledSystem ChannelSet (Nat × ChannelOperation) where
  Initial := Initial
  step := step

end ChannelSet

namespace EPoller

variable {owner : Nat} {channel : Channel} {poller : EPoller}

/-- No call of `epoll_ctl` has failed, and the process goes on. -/
structure Clean (poller : EPoller) : Prop where
  calls : ∀ call ∈ poller.calls, call.2 = true
  running : poller.exited = false

/-- An operation that the kernel accepts leaves the history clean. -/
theorem Clean.updateEpollOperation (clean : poller.Clean) {operation : EpollCtl}
    (accepted : (epollCtl operation channel.fd ⟨owner, channel.events⟩ poller.interest).isSome) :
    (poller.updateEpollOperation operation owner channel).Clean := by
  obtain ⟨interest, changed⟩ := Option.isSome_iff_exists.mp accepted
  simp only [EPoller.updateEpollOperation, changed]
  refine ⟨fun call member => ?_, clean.running⟩
  rcases List.mem_append.mp member with old | new
  · exact clean.calls call old
  · rw [List.mem_singleton.mp new]

/-- The index of a tracked channel selects an operation that the kernel accepts. -/
theorem Clean.updateChannel (clean : poller.Clean) (tracks : Tracks owner channel poller)
    (events : EventMask) : (poller.updateChannel owner { channel with events }).2.Clean := by
  have interest := tracks.interest
  unfold EPoller.updateChannel
  split
  case h_1 index =>
    have inserted : (poller.insert owner { channel with events }).Clean :=
      ⟨clean.calls, clean.running⟩
    refine inserted.updateEpollOperation ?_
    simp_all [epollCtl, insert]
  case h_2 index => exact clean.updateEpollOperation (by simp_all [epollCtl])
  case h_3 index =>
    split
    · exact clean.updateEpollOperation (by simp_all [epollCtl])
    · exact clean.updateEpollOperation (by simp_all [epollCtl])

/-- `RemoveChannel` of a channel that the poller tracks makes no call that fails. -/
theorem Clean.removeChannel (clean : poller.Clean) (tracks : Tracks owner channel poller) :
    (poller.removeChannel owner channel).2.Clean := by
  have erased : (poller.erase channel).Clean := ⟨clean.calls, clean.running⟩
  unfold EPoller.removeChannel
  dsimp only
  split
  case isTrue added =>
    refine erased.updateEpollOperation ?_
    simp [epollCtl, erase, tracks.interest, added]
  case isFalse => exact erased

/-- What the kernel reports for the owner's channel is in the map. -/
theorem Tracks.registered {fd : Nat} {entry : Interest} (tracks : Tracks owner channel poller)
    (present : poller.interest fd = some entry) (own : entry.owner = owner) :
    poller.channels channel.fd = some owner := by
  have place : fd = channel.fd := by
    by_contra different
    exact (tracks.elsewhere fd different).2 entry present own
  have added : channel.index = .kAddedChannel := by
    by_contra other
    simp [place, tracks.interest, other] at present
  simp [tracks.channels, added]

/-- The poller has a channel exactly when it is in the map. -/
theorem Tracks.hasChannel_iff (tracks : Tracks owner channel poller) :
    poller.hasChannel owner channel = true ↔ ∃ fd, poller.channels fd = some owner := by
  constructor
  · intro found
    exact ⟨channel.fd, by simpa [hasChannel] using found⟩
  · rintro ⟨fd, present⟩
    by_cases place : fd = channel.fd
    · simpa [hasChannel, ← place] using present
    · exact absurd present (tracks.elsewhere fd place).1

end EPoller

namespace ChannelSet

variable {state next : ChannelSet} {label : Nat × ChannelOperation}

/-- The three views agree for every channel, and every call has succeeded. -/
structure Booked (state : ChannelSet) : Prop where
  distinct : ∀ owner other, owner ≠ other → (state.channels owner).fd ≠ (state.channels other).fd
  tracks : ∀ owner, EPoller.Tracks owner (state.channels owner) state.poller
  clean : state.poller.Clean

/-- An operation on one channel leaves the other channels alone. -/
theorem Booked.set {owner : Nat} {changed : Channel × EPoller} (booked : Booked state)
    (tracks : EPoller.Tracks owner changed.1 changed.2)
    (touches : EPoller.Touches owner (state.channels owner).fd state.poller changed.2)
    (fd : changed.1.fd = (state.channels owner).fd) (clean : changed.2.Clean) :
    Booked (state.set owner changed) := by
  have fds : ∀ other, ((state.set owner changed).channels other).fd = (state.channels other).fd := by
    intro other
    by_cases same : other = owner
    · subst same
      simpa [ChannelSet.set] using fd
    · simp [ChannelSet.set, same]
  refine ⟨fun first second different => ?_, fun other => ?_, clean⟩
  · rw [fds, fds]
    exact booked.distinct first second different
  · by_cases same : other = owner
    · subst same
      simpa [ChannelSet.set] using tracks
    · have framed := (booked.tracks other).frame touches same (booked.distinct other owner same)
      simpa [ChannelSet.set, same] using framed

/-- One call keeps the books. -/
theorem Booked.step (booked : Booked state) (stepped : state.step label = some next) :
    Booked next := by
  obtain ⟨owner, operation⟩ := label
  have tracks := booked.tracks owner
  unfold ChannelSet.step at stepped
  dsimp only at stepped
  split at stepped
  case h_1 events _ =>
    cases stepped
    refine booked.set (tracks.updateChannel events) ?_ ?_ (booked.clean.updateChannel tracks events)
    · exact EPoller.touches_updateChannel owner { state.channels owner with events } state.poller
    · exact EPoller.updateChannel_fd owner { state.channels owner with events } state.poller
  case h_2 =>
    split at stepped
    case isTrue none =>
      cases stepped
      refine booked.set tracks.removeChannel ?_ rfl (booked.clean.removeChannel tracks)
      exact EPoller.touches_removeChannel owner (state.channels owner) state.poller
    case isFalse => cases stepped

/-- The books are right in every run. -/
theorem reachable_booked
    (reachable : system.Reachable Semantics.LabelledSystem.unguarded state) : Booked state := by
  refine reachable.invariant Booked ?_ ?_
  · rintro _ ⟨fds, injective, rfl⟩
    refine ⟨fun owner other different same => different (injective same), fun owner => ?_, ?_⟩
    · constructor <;> simp
    · exact ⟨by simp, rfl⟩
  · intro state label next _ booked _ stepped
    exact booked.step stepped

/-- After any sequence of operations: the index of every channel says where it is,
no call of `epoll_ctl` has failed, `Poll` returns registered channels only, and
`HasChannel` is exact. -/
theorem bookkeeping_matches_kernel
    (reachable : system.Reachable Semantics.LabelledSystem.unguarded state) :
    (∀ owner,
      ((state.channels owner).index = .kAddedChannel ↔
        state.poller.interest (state.channels owner).fd =
          some ⟨owner, (state.channels owner).events⟩) ∧
      ((state.channels owner).index = .kDeletedChannel ↔
        state.poller.channels (state.channels owner).fd = some owner ∧
          state.poller.interest (state.channels owner).fd = none) ∧
      ((state.channels owner).index = .kNewChannel ↔
        state.poller.channels (state.channels owner).fd = none ∧
          state.poller.interest (state.channels owner).fd = none)) ∧
    (∀ call ∈ state.poller.calls, call.2 = true) ∧ state.poller.exited = false ∧
    (∀ reported, state.poller.Ready reported → ∀ owner ∈ EPoller.fillActives reported,
      state.poller.channels (state.channels owner).fd = some owner) ∧
    (∀ owner, state.poller.hasChannel owner (state.channels owner) = true ↔
      ∃ fd, state.poller.channels fd = some owner) := by
  have booked := reachable_booked reachable
  refine ⟨fun owner => ?_, booked.clean.calls, booked.clean.running, ?_, fun owner => ?_⟩
  · have channels := (booked.tracks owner).channels
    have interest := (booked.tracks owner).interest
    cases index : (state.channels owner).index <;> simp [index, channels, interest]
  · intro reported ready owner member
    obtain ⟨entry, inReported, rfl⟩ := List.mem_map.mp member
    obtain ⟨fd, present⟩ := ready entry inReported
    exact (booked.tracks entry.owner).registered present rfl
  · exact (booked.tracks owner).hasChannel_iff

/-- Two channels: the first is registered, switched off, registered again and
removed, while the second stays. -/
theorem bookkeeping_matches_kernel_two_channels :
    ∃ state, system.Reachable Semantics.LabelledSystem.unguarded state ∧
      (state.channels 0).index = .kNewChannel ∧
      state.poller.interest 4 = some ⟨1, kReadEvent ||| kWriteEvent⟩ ∧
      state.poller.calls.map (·.1) = [.add, .add, .del, .add, .mod, .del] ∧
      (∀ call ∈ state.poller.calls, call.2 = true) ∧ state.poller.exited = false := by
  let start : ChannelSet := { channels := fun owner => { fd := owner + 3 } }
  let schedule : List (Nat × ChannelOperation) :=
    [(0, .enableReadEvent), (1, .enableWriteEvent), (0, .disableReadEvent), (0, .enableWriteEvent),
      (1, .enableReadEvent), (0, .disableAllEvent), (0, .removeFromLoop)]
  let state := (system.run Semantics.LabelledSystem.unguarded start schedule).get (by decide +kernel)
  have initial : system.Initial start := by
    refine ⟨fun owner => owner + 3, fun owner other same => ?_, rfl⟩
    simpa using same
  have reachable : system.Reachable Semantics.LabelledSystem.unguarded state :=
    Semantics.LabelledSystem.run_reachable initial (Option.some_get _).symm
  obtain ⟨-, succeeded, running, -⟩ := bookkeeping_matches_kernel reachable
  exact ⟨state, reachable, by decide +kernel, by decide +kernel, by decide +kernel, succeeded,
    running⟩

end ChannelSet

end Benet
