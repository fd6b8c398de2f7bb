import Webserver.Channel
import Webserver.Timer
import Mathlib.Logic.Function.Basic

/-!
# The poller

`EPollPoller`: the registered channels, the connections kept alive for them,
the kernel's interest set, and the timers. Channels are named by who owns them
(`ChannelId`): a connection, the loop (its wake-up channel) or the acceptor.

A failed assertion aborts the process (`Fault.assertFailed`). `epoll_ctl` fails
when it adds a descriptor that is in the interest set, or modifies or removes
one that is not.
-/

namespace Webserver

/-- The owner of a channel. -/
inductive ChannelId
  | http (id : HttpId)
  | wakeUp
  | accept
  deriving DecidableEq

/-- The `HttpData` a channel is held by, if any. -/
def ChannelId.getHolder : ChannelId → Option HttpId
  | .http id => some id
  | _ => none

/-- What ends the process: an exception that nobody catches, an assertion, a null
    pointer, or a range of iterators that ends before it starts. -/
inductive Fault
  | lengthError
  | outOfRange
  | assertFailed
  | nullDereference
  | invalidRange
  deriving DecidableEq

/-- The tables of the poller, with what the kernel waits for on each descriptor, and the timers
    of its connections. -/
structure EPollPoller where
  channels : Fd → Option ChannelId
  httpdatas : Fd → Option HttpId
  interest : Fd → Option Mask
  timermanager : Timer

namespace EPollPoller

/-- The constructor. -/
def new : EPollPoller := ⟨fun _ => none, fun _ => none, fun _ => none, ⟨[], 0⟩⟩

/-- A new timer node for the holder of a channel, whose identity becomes the
    holder's `timer`. -/
def addTimer (p : EPollPoller) (id : ChannelId) (timeout : ℕ) (now : Timeval) :
    Option NodeId × EPollPoller :=
  match id.getHolder with
  | none => (none, p)
  | some http =>
    let (node, timer) := p.timermanager.addTimer http timeout now
    (some node, { p with timermanager := timer })

/-- What `addChannel` and `updateChannel` do for a channel with a timeout. -/
def hold (p : EPollPoller) (c : Channel) (id : ChannelId) (timeout : ℕ) (now : Timeval) :
    Option NodeId × EPollPoller :=
  if 0 < timeout then
    { p with httpdatas := Function.update p.httpdatas c.fd id.getHolder }.addTimer id timeout now
  else (none, p)

/-- Registers a channel. The identity returned is that of its new timer node. -/
def addChannel (p : EPollPoller) (c : Channel) (id : ChannelId) (timeout : ℕ) (now : Timeval) :
    Except Fault (Option NodeId × EPollPoller) :=
  let (node, p) := p.hold c id timeout now
  if c.fd = 0 ∨ c.events = 0 ∨ p.interest c.fd ≠ none then .error .assertFailed
  else .ok (node, { p with
    interest := Function.update p.interest c.fd (some c.events)
    channels := Function.update p.channels c.fd (some id) })

/-- Changes the events a registered channel waits for. -/
def updateChannel (p : EPollPoller) (c : Channel) (id : ChannelId) (timeout : ℕ)
    (now : Timeval) : Except Fault (Option NodeId × EPollPoller) :=
  let (node, p) := p.hold c id timeout now
  if c.fd = 0 ∨ c.events = 0 ∨ p.interest c.fd = none then .error .assertFailed
  else .ok (node, { p with
    interest := Function.update p.interest c.fd (some c.events)
    channels := Function.update p.channels c.fd (some id) })

/-- Removes a channel, and lets its connection go. -/
def removeChannel (p : EPollPoller) (c : Channel) : Except Fault EPollPoller :=
  if c.fd = 0 ∨ p.interest c.fd = none then .error .assertFailed
  else .ok { p with
    interest := Function.update p.interest c.fd none
    channels := Function.update p.channels c.fd none
    httpdatas := Function.update p.httpdatas c.fd none }

end EPollPoller

end Webserver
