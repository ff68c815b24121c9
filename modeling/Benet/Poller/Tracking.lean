import Benet.Poller.Model

/-!
# The poller's bookkeeping

`EPoller.Tracks` relates the `index_` of one channel to `channels_` and to the
kernel's interest set. Both poller operations keep it, and neither disturbs the
channels of other descriptors.
-/

namespace Benet

namespace EventMask

variable (events : EventMask)

/-- Masking distributes over the union of events. -/
theorem or_and (first second mask : EventMask) :
    (first ||| second) &&& mask = first &&& mask ||| second &&& mask := by
  ext index
  simp [Bool.and_or_distrib_right]

@[simp] theorem has_kNoneEvent (mask : EventMask) : EventMask.has kNoneEvent mask = false := by
  simp [has, kNoneEvent]

/-- Changing the read interest leaves the write interest. -/
@[simp] theorem has_write_or_read :
    EventMask.has (events ||| kReadEvent) kWriteEvent = events.has kWriteEvent := by
  have disjoint : kReadEvent &&& kWriteEvent = 0 := by decide
  simp [has, or_and, disjoint]

@[simp] theorem has_write_and_not_read :
    EventMask.has (events &&& ~~~kReadEvent) kWriteEvent = events.has kWriteEvent := by
  have disjoint : ~~~kReadEvent &&& kWriteEvent = kWriteEvent := by decide
  simp [has, BitVec.and_assoc, disjoint]

@[simp] theorem has_write_or_write :
    EventMask.has (events ||| kWriteEvent) kWriteEvent = true := by
  have absorbed : (events ||| kWriteEvent) &&& kWriteEvent = kWriteEvent := by
    ext index
    simpa using Or.inr
  rw [has, absorbed]
  decide

@[simp] theorem has_write_and_not_write :
    EventMask.has (events &&& ~~~kWriteEvent) kWriteEvent = false := by
  have disjoint : ~~~kWriteEvent &&& kWriteEvent = 0 := by decide
  simp [has, BitVec.and_assoc, disjoint]

end EventMask

namespace EPoller

/-- The index of a channel says whether its descriptor is in `channels_` and in
the interest set; its owner occurs under no other descriptor. -/
structure Tracks (owner : Nat) (channel : Channel) (poller : EPoller) : Prop where
  channels : poller.channels channel.fd =
    if channel.index = .kNewChannel then none else some owner
  interest : poller.interest channel.fd =
    if channel.index = .kAddedChannel then some ⟨owner, channel.events⟩ else none
  elsewhere : ∀ fd, fd ≠ channel.fd → poller.channels fd ≠ some owner ∧
    ∀ entry, poller.interest fd = some entry → entry.owner ≠ owner

/-- The owner's channel is in neither table. -/
def Absent (owner : Nat) (poller : EPoller) : Prop :=
  ∀ fd, poller.channels fd ≠ some owner ∧
    ∀ entry, poller.interest fd = some entry → entry.owner ≠ owner

/-- At most the entries of one descriptor change, and only in favour of `owner`. -/
structure Touches (owner fd : Nat) (before after : EPoller) : Prop where
  channels : ∀ key, after.channels key = before.channels key ∨
    key = fd ∧ (after.channels key = none ∨ after.channels key = some owner)
  interest : ∀ key, after.interest key = before.interest key ∨
    key = fd ∧ ∀ entry, after.interest key = some entry → entry.owner = owner

variable {owner other : Nat} {channel : Channel} {poller after : EPoller}

/-- A poller that is not changed is touched nowhere. -/
theorem Touches.refl (fd : Nat) : Touches owner fd poller poller :=
  ⟨fun _ => .inl rfl, fun _ => .inl rfl⟩

/-- Two changes for one descriptor are one. -/
theorem Touches.trans {fd : Nat} {middle : EPoller} (first : Touches owner fd poller middle)
    (second : Touches owner fd middle after) : Touches owner fd poller after := by
  constructor
  · intro key
    rcases second.channels key with same | changed
    · rw [same]
      exact first.channels key
    · exact .inr changed
  · intro key
    rcases second.interest key with same | changed
    · rw [same]
      exact first.interest key
    · exact .inr changed

/-- `UpdateChannel` changes nothing but the index of the channel. -/
@[simp] theorem updateChannel_fd (owner : Nat) (channel : Channel) (poller : EPoller) :
    (poller.updateChannel owner channel).1.fd = channel.fd := by
  unfold updateChannel
  split <;> (try split) <;> rfl

@[simp] theorem updateChannel_events (owner : Nat) (channel : Channel) (poller : EPoller) :
    (poller.updateChannel owner channel).1.events = channel.events := by
  unfold updateChannel
  split <;> (try split) <;> rfl

/-- Without events a registered channel is deleted, and any other one is registered. -/
theorem updateChannel_index (owner : Nat) (channel : Channel) (poller : EPoller) :
    (poller.updateChannel owner channel).1.index =
      if channel.index = .kAddedChannel ∧ channel.events = kNoneEvent then .kDeletedChannel
      else .kAddedChannel := by
  unfold updateChannel
  split
  case h_1 index | h_2 index => simp [index]
  case h_3 index =>
    by_cases none : channel.events = kNoneEvent <;> simp [Channel.isNoneEvent, index, none]

/-- `epoll_ctl` touches the entry of its descriptor only. -/
theorem touches_updateEpollOperation (operation : EpollCtl) :
    Touches owner channel.fd poller (poller.updateEpollOperation operation owner channel) := by
  refine ⟨fun key => .inl ?_, fun key => ?_⟩
  · unfold updateEpollOperation
    split <;> rfl
  · by_cases same : key = channel.fd
    · subst same
      unfold updateEpollOperation epollCtl
      cases operation <;> cases found : poller.interest channel.fd <;> simp [found]
    · left
      unfold updateEpollOperation epollCtl
      cases operation <;> cases poller.interest channel.fd <;> simp [same]

/-- `UpdateChannel` touches the entries of its descriptor only. -/
theorem touches_updateChannel (owner : Nat) (channel : Channel) (poller : EPoller) :
    Touches owner channel.fd poller (poller.updateChannel owner channel).2 := by
  have inserted : Touches owner channel.fd poller (poller.insert owner channel) := by
    refine ⟨fun key => ?_, fun _ => .inl rfl⟩
    by_cases same : key = channel.fd
    · exact .inr ⟨same, .inr (by simp [insert, same])⟩
    · exact .inl (by simp [insert, same])
  unfold updateChannel
  split
  · exact inserted.trans (touches_updateEpollOperation .add)
  · exact touches_updateEpollOperation .add
  · split
    · exact touches_updateEpollOperation .del
    · exact touches_updateEpollOperation .mod

/-- `RemoveChannel` touches the entries of its descriptor only. -/
theorem touches_removeChannel (owner : Nat) (channel : Channel) (poller : EPoller) :
    Touches owner channel.fd poller (poller.removeChannel owner channel).2 := by
  have erased : Touches owner channel.fd poller (poller.erase channel) := by
    refine ⟨fun key => ?_, fun _ => .inl rfl⟩
    by_cases same : key = channel.fd
    · exact .inr ⟨same, .inl (by simp [erase, same])⟩
    · exact .inl (by simp [erase, same])
  simp only [removeChannel]
  split
  · exact erased.trans (touches_updateEpollOperation .del)
  · exact erased

/-- A change on behalf of another owner, under another descriptor. -/
theorem Tracks.frame {fd : Nat} (tracks : Tracks other channel poller)
    (touches : Touches owner fd poller after) (differentOwner : other ≠ owner)
    (differentFd : channel.fd ≠ fd) : Tracks other channel after := by
  refine ⟨?_, ?_, fun key differs => ⟨?_, fun entry present => ?_⟩⟩
  · rcases touches.channels channel.fd with same | ⟨isFd, -⟩
    · rw [same]
      exact tracks.channels
    · exact absurd isFd differentFd
  · rcases touches.interest channel.fd with same | ⟨isFd, -⟩
    · rw [same]
      exact tracks.interest
    · exact absurd isFd differentFd
  · rcases touches.channels key with same | ⟨-, gone | owned⟩
    · rw [same]
      exact (tracks.elsewhere key differs).1
    · simp [gone]
    · simp [owned, differentOwner.symm]
  · rcases touches.interest key with same | ⟨-, owned⟩
    · rw [same] at present
      exact (tracks.elsewhere key differs).2 entry present
    · rw [owned entry present]
      exact differentOwner.symm

/-- An absent owner stays absent under changes on behalf of another. -/
theorem Absent.frame {fd : Nat} (absent : poller.Absent other)
    (touches : Touches owner fd poller after) (differentOwner : other ≠ owner) :
    after.Absent other := by
  intro key
  refine ⟨?_, fun entry present => ?_⟩
  · rcases touches.channels key with same | ⟨-, gone | owned⟩
    · rw [same]
      exact (absent key).1
    · simp [gone]
    · simp [owned, differentOwner.symm]
  · rcases touches.interest key with same | ⟨-, owned⟩
    · exact (absent key).2 entry (same ▸ present)
    · rw [owned entry present]
      exact differentOwner.symm

/-- The owner's own operations leave the other descriptors alone. -/
theorem Tracks.elsewhere_of_touches (tracks : Tracks owner channel poller)
    (touches : Touches owner channel.fd poller after) (fd : Nat) (differs : fd ≠ channel.fd) :
    after.channels fd ≠ some owner ∧
      ∀ entry, after.interest fd = some entry → entry.owner ≠ owner := by
  have before := tracks.elsewhere fd differs
  constructor
  · rcases touches.channels fd with same | ⟨isFd, -⟩
    · rw [same]
      exact before.1
    · exact absurd isFd differs
  · rcases touches.interest fd with same | ⟨isFd, -⟩
    · rw [same]
      exact before.2
    · exact absurd isFd differs

/-- `UpdateChannel` after any change of the events. -/
theorem Tracks.updateChannel (tracks : Tracks owner channel poller) (events : EventMask) :
    Tracks owner (poller.updateChannel owner { channel with events }).1
      (poller.updateChannel owner { channel with events }).2 := by
  have touches : Touches owner channel.fd poller
      (poller.updateChannel owner { channel with events }).2 :=
    touches_updateChannel owner { channel with events } poller
  have elsewhere := tracks.elsewhere_of_touches touches
  have channels := tracks.channels
  have interest := tracks.interest
  cases index : channel.index with
  | kNewChannel =>
      simp only [index] at channels interest
      simp only [EPoller.updateChannel, index] at elsewhere ⊢
      refine ⟨?_, ?_, elsewhere⟩ <;>
        simp [updateEpollOperation, epollCtl, insert, interest]
  | kDeletedChannel =>
      simp only [index] at channels interest
      simp only [EPoller.updateChannel, index] at elsewhere ⊢
      refine ⟨?_, ?_, elsewhere⟩ <;>
        simp [updateEpollOperation, epollCtl, channels, interest]
  | kAddedChannel =>
      simp only [index] at channels interest
      by_cases none : events = kNoneEvent
      · simp only [EPoller.updateChannel, index, Channel.isNoneEvent, none, beq_self_eq_true,
          if_true] at elsewhere ⊢
        refine ⟨?_, ?_, elsewhere⟩ <;>
          simp [updateEpollOperation, epollCtl, channels, interest]
      · simp only [EPoller.updateChannel, index, Channel.isNoneEvent, beq_eq_false_iff_ne.mpr none]
          at elsewhere ⊢
        refine ⟨?_, ?_, elsewhere⟩ <;>
          simp [updateEpollOperation, epollCtl, channels, interest]

/-- `RemoveChannel` leaves no trace of the channel. -/
theorem Tracks.removeChannel (tracks : Tracks owner channel poller) :
    Tracks owner (poller.removeChannel owner channel).1 (poller.removeChannel owner channel).2 := by
  have elsewhere := tracks.elsewhere_of_touches (touches_removeChannel owner channel poller)
  have interest := tracks.interest
  by_cases added : channel.index = .kAddedChannel
  · simp only [added] at interest
    simp only [EPoller.removeChannel, added] at elsewhere ⊢
    refine ⟨?_, ?_, elsewhere⟩ <;>
      simp [updateEpollOperation, epollCtl, erase, interest]
  · simp only [added] at interest
    simp only [EPoller.removeChannel, added] at elsewhere ⊢
    refine ⟨?_, ?_, elsewhere⟩ <;> simp [erase, interest]

/-- The descriptor is in the interest set exactly while the index says so. -/
theorem Tracks.watched_iff (tracks : Tracks owner channel poller) :
    poller.interest channel.fd ≠ none ↔ channel.index = .kAddedChannel := by
  rw [tracks.interest]
  split
  case isTrue added => exact iff_of_true nofun added
  case isFalse other => exact iff_of_false (fun watched => watched rfl) other

/-- A channel the poller does not know is in neither table. -/
theorem Tracks.absent (tracks : Tracks owner channel poller)
    (index : channel.index = .kNewChannel) : poller.Absent owner := by
  intro fd
  by_cases same : fd = channel.fd
  · have channels := tracks.channels
    have interest := tracks.interest
    simp only [index] at channels interest
    simp [same, channels, interest]
  · exact tracks.elsewhere fd same

end EPoller

end Benet
