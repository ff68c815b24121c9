import Mathlib.Logic.Function.Basic

/-!
# Channels and the epoll poller

`Channel` keeps the interest of one descriptor, `EPoller` the channels of one
loop. The kernel's interest set stands next to `channels_`, so that the two can
be compared; `epoll_ctl` fails as the kernel's does. A channel pointer is the
number of the channel's owner. The `revents_` of a polled channel travel with
its entry in the active list and are not a field here.
-/

namespace Benet

/-- A set of epoll events; the code keeps it in an `int`. -/
abbrev EventMask : Type := BitVec 32

def epollIn : EventMask := 0x001

def epollPri : EventMask := 0x002

def epollOut : EventMask := 0x004

def epollHup : EventMask := 0x010

def epollRdhup : EventMask := 0x2000

def kNoneEvent : EventMask := 0

def kReadEvent : EventMask := epollIn ||| epollPri

def kWriteEvent : EventMask := epollOut

/-- `mask & events`, as a condition. -/
def EventMask.has (mask events : EventMask) : Bool := mask &&& events != 0

/-- `index_`: what the poller knows about a channel. -/
inductive ChannelIndex where
  | kNewChannel
  | kAddedChannel
  | kDeletedChannel
deriving DecidableEq, Repr

structure Channel where
  fd : Nat
  events : EventMask := kNoneEvent
  index : ChannelIndex := .kNewChannel
deriving DecidableEq, Repr

namespace Channel

def isNoneEvent (channel : Channel) : Bool := channel.events == kNoneEvent

def isReadEvent (channel : Channel) : Bool := channel.events.has kReadEvent

def isWriteEvent (channel : Channel) : Bool := channel.events.has kWriteEvent

end Channel

/-- The operations of `epoll_ctl`. -/
inductive EpollCtl where
  | add
  | mod
  | del
deriving DecidableEq, Repr

/-- An entry of the kernel's interest set: `data.ptr` and the events. -/
structure Interest where
  owner : Nat
  events : EventMask
deriving DecidableEq, Repr

structure EPoller where
  /-- `channels_`, by descriptor -/
  channels : Nat → Option Nat := fun _ => none
  /-- the kernel's interest set of `epoll_fd_` -/
  interest : Nat → Option Interest := fun _ => none
  /-- a `BELOG_CRITICAL` was reached, which ends the process -/
  exited : Bool := false
  /-- history: the calls of `epoll_ctl`, and whether they succeeded -/
  calls : List (EpollCtl × Bool) := []

namespace EPoller

/-- The kernel's `epoll_ctl`: adding needs an absent descriptor, the other
operations a present one. -/
def epollCtl (operation : EpollCtl) (fd : Nat) (entry : Interest) (interest : Nat → Option Interest) :
    Option (Nat → Option Interest) :=
  match operation, interest fd with
  | .add, none => some (Function.update interest fd (some entry))
  | .mod, some _ => some (Function.update interest fd (some entry))
  | .del, some _ => some (Function.update interest fd none)
  | .add, some _ | .mod, none | .del, none => none

/-- A failing removal is only logged. -/
def updateEpollOperation (operation : EpollCtl) (owner : Nat) (channel : Channel)
    (poller : EPoller) : EPoller :=
  match epollCtl operation channel.fd ⟨owner, channel.events⟩ poller.interest with
  | some interest => { poller with interest, calls := poller.calls ++ [(operation, true)] }
  | none => { poller with
      exited := poller.exited || operation != .del, calls := poller.calls ++ [(operation, false)] }

/-- `channels_[fd] = channel`. -/
def insert (owner : Nat) (channel : Channel) (poller : EPoller) : EPoller :=
  { poller with channels := Function.update poller.channels channel.fd (some owner) }

/-- `channels_.erase(fd)`. -/
def erase (channel : Channel) (poller : EPoller) : EPoller :=
  { poller with channels := Function.update poller.channels channel.fd none }

def updateChannel (owner : Nat) (channel : Channel) (poller : EPoller) : Channel × EPoller :=
  match channel.index with
  | .kNewChannel =>
      ({ channel with index := .kAddedChannel },
        (poller.insert owner channel).updateEpollOperation .add owner channel)
  | .kDeletedChannel =>
      ({ channel with index := .kAddedChannel }, poller.updateEpollOperation .add owner channel)
  | .kAddedChannel =>
      if channel.isNoneEvent then
        ({ channel with index := .kDeletedChannel },
          poller.updateEpollOperation .del owner channel)
      else (channel, poller.updateEpollOperation .mod owner channel)

def removeChannel (owner : Nat) (channel : Channel) (poller : EPoller) : Channel × EPoller :=
  let erased := poller.erase channel
  ({ channel with index := .kNewChannel },
    if channel.index = .kAddedChannel then erased.updateEpollOperation .del owner channel
    else erased)

end EPoller

end Benet
