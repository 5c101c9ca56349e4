import MuduoCore.Lib.Transition
import Mathlib.Logic.Function.Basic

/-!
# Channels and the epoll poller

`include/Channel.h`, `src/Channel.cpp`, `src/EPollPoller.cpp` and `src/Poller.cpp`. A registration
is spread over three stores: `Channel::index_`, the map `channels_` of the poller and the interest
list in the kernel. `κ` stands for `Channel *`.
-/

namespace MuduoCore

abbrev EventMask : Type := BitVec 32

def EPOLLIN : EventMask := 0x001#32
def EPOLLPRI : EventMask := 0x002#32
def EPOLLOUT : EventMask := 0x004#32
def EPOLLERR : EventMask := 0x008#32
def EPOLLHUP : EventMask := 0x010#32

inductive Index where
  | kNew
  | kAdded
  | kDeleted
  deriving DecidableEq, Repr

structure Channel where
  fd : Nat
  events : EventMask
  revents : EventMask
  index : Index
  tied : Bool
  deriving DecidableEq, Repr

namespace Channel

def kNoneEvent : EventMask := 0#32
def kReadEvent : EventMask := EPOLLIN ||| EPOLLPRI
def kWriteEvent : EventMask := EPOLLOUT

def new (fd : Nat) : Channel :=
  { fd := fd, events := kNoneEvent, revents := 0#32, index := .kNew, tied := false }

def isNoneEvent (c : Channel) : Bool := c.events == kNoneEvent
def isWriting (c : Channel) : Bool := (c.events &&& kWriteEvent) != 0#32

end Channel

/-! ### The kernel's interest list -/

inductive CtlOp where
  | add
  | mod
  | del
  deriving DecidableEq, Repr

/-- `struct epoll_event`, with `data.ptr`. -/
structure EpollEvent (κ : Type*) where
  events : EventMask
  ptr : κ
  deriving DecidableEq, Repr

/-- `::epoll_ctl` on the interest list: `none` is the result `-1`, for an `add` of a present fd and
a `mod` or `del` of an absent one. -/
def epollCtl {κ : Type*} (set : Nat → Option (EpollEvent κ)) (op : CtlOp) (fd : Nat)
    (event : EpollEvent κ) : Option (Nat → Option (EpollEvent κ)) :=
  match op, set fd with
  | .add, none => some (Function.update set fd (some event))
  | .mod, some _ => some (Function.update set fd (some event))
  | .del, some _ => some (Function.update set fd none)
  | _, _ => none

/-! ### The poller -/

/-- A line that `update` logs when `::epoll_ctl` fails. `LOG_FATAL` ends the process. -/
inductive CtlLog where
  | error (fd : Nat)
  | fatal (op : CtlOp) (fd : Nat)
  deriving DecidableEq, Repr

structure EPollPoller (κ : Type*) where
  channels : Nat → Option κ
  epollfd : Nat → Option (EpollEvent κ)
  logged : List CtlLog

namespace EPollPoller

variable {κ : Type*}

def new : EPollPoller κ where
  channels _ := none
  epollfd _ := none
  logged := []

/-- The process has gone through `LOG_FATAL`, so it has called `exit(-1)`. -/
def exited (p : EPollPoller κ) : Bool :=
  p.logged.any fun line => match line with
    | .fatal _ _ => true
    | .error _ => false

def update (p : EPollPoller κ) (op : CtlOp) (ptr : κ) (channel : Channel) : EPollPoller κ :=
  match epollCtl p.epollfd op channel.fd ⟨channel.events, ptr⟩ with
  | some set => { p with epollfd := set }
  | none =>
      match op with
      | .del => { p with logged := p.logged ++ [.error channel.fd] }
      | .add | .mod => { p with logged := p.logged ++ [.fatal op channel.fd] }

def updateChannel (p : EPollPoller κ) (ptr : κ) (channel : Channel) : EPollPoller κ × Channel :=
  match channel.index with
  | .kNew =>
      let p := { p with channels := Function.update p.channels channel.fd (some ptr) }
      let channel := { channel with index := .kAdded }
      (p.update .add ptr channel, channel)
  | .kDeleted =>
      let channel := { channel with index := .kAdded }
      (p.update .add ptr channel, channel)
  | .kAdded =>
      if channel.isNoneEvent then
        (p.update .del ptr channel, { channel with index := .kDeleted })
      else
        (p.update .mod ptr channel, channel)

def removeChannel (p : EPollPoller κ) (ptr : κ) (channel : Channel) : EPollPoller κ × Channel :=
  let erased := { p with channels := Function.update p.channels channel.fd none }
  let p := if channel.index = .kAdded then erased.update .del ptr channel else erased
  (p, { channel with index := .kNew })

def hasChannel [DecidableEq κ] (p : EPollPoller κ) (ptr : κ) (channel : Channel) : Bool :=
  p.channels channel.fd == some ptr

end EPollPoller

/-! ### The operations of a channel

Each changes the interest and passes the channel to the poller of its loop. -/

namespace Channel

variable {κ : Type*}

def setEvents (p : EPollPoller κ) (ptr : κ) (c : Channel) (events : EventMask) :
    EPollPoller κ × Channel :=
  p.updateChannel ptr { c with events := events }

def enableReading (p : EPollPoller κ) (ptr : κ) (c : Channel) : EPollPoller κ × Channel :=
  setEvents p ptr c (c.events ||| kReadEvent)

def disableReading (p : EPollPoller κ) (ptr : κ) (c : Channel) : EPollPoller κ × Channel :=
  setEvents p ptr c (c.events &&& ~~~kReadEvent)

def enableWriting (p : EPollPoller κ) (ptr : κ) (c : Channel) : EPollPoller κ × Channel :=
  setEvents p ptr c (c.events ||| kWriteEvent)

def disableWriting (p : EPollPoller κ) (ptr : κ) (c : Channel) : EPollPoller κ × Channel :=
  setEvents p ptr c (c.events &&& ~~~kWriteEvent)

def disableAll (p : EPollPoller κ) (ptr : κ) (c : Channel) : EPollPoller κ × Channel :=
  setEvents p ptr c kNoneEvent

def remove (p : EPollPoller κ) (ptr : κ) (c : Channel) : EPollPoller κ × Channel :=
  p.removeChannel ptr c

end Channel

end MuduoCore
