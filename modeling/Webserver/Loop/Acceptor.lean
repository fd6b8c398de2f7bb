import Webserver.Poller
import Webserver.Lib.Transition

/-!
# The acceptor

The listening socket has a channel in the main loop, whose callbacks accept
connections (`handleNewConn`), hand them over to the loops of a thread pool in
turn, and register the channel again (`handleThisConn`).

* `Acceptor.armed_of_steps`: events on the listening socket keep the channel
  registered, with its callbacks and waiting for input, once that is so.
* `Acceptor.not_watched_of_reachable`: it never is. Neither the constructor nor
  `start` binds the callbacks or adds the channel to the poller.
-/

namespace Webserver

open Transition

/-! ## The thread pool -/

/-- An `EventLoop`: that of the main thread, or of a thread of the pool. -/
inductive LoopId
  | owner
  | worker (n : ℕ)
  deriving DecidableEq

/-- The loops of threads that could not be created are null pointers. -/
structure EventLoopThreadPool where
  loops : List (Option LoopId)
  threadNum : ℕ
  next : ℕ
  started : Bool

namespace EventLoopThreadPool

def new (threadnum : ℕ) : EventLoopThreadPool := ⟨[], threadnum, 0, false⟩

/-- Starts the threads, of which some may fail to be created. -/
def threadPoolInit (p : EventLoopThreadPool) (created : ℕ → Bool) : EventLoopThreadPool :=
  { p with
    started := true
    loops := p.loops ++ (List.range p.threadNum).map fun i =>
      if created i then some (.worker (p.loops.length + i)) else none }

/-- The loop for the next connection. -/
def getNextPool (p : EventLoopThreadPool) :
    Except Fault (Option LoopId × EventLoopThreadPool) :=
  if p.started then
    if p.loops ≠ [] then
      .ok (p.loops.getD p.next none, { p with next := (p.next + 1) % p.threadNum })
    else .ok (some .owner, p)
  else .error .assertFailed

end EventLoopThreadPool

/-! ## The acceptor -/

/-- How a call of `accept` ends, and whether the descriptor it returns can be made
    non-blocking. -/
structure AcceptResult where
  acceptFd : ℤ
  nonBlocking : Bool

namespace Acceptor

/-- The member functions that may be bound to the channel. -/
inductive Callback
  | handleNewConn
  | handleThisConn
  deriving DecidableEq

/-- What is bound to the channel. -/
structure Bindings where
  readCallback : Option Callback
  writeCallback : Option Callback
  closeCallback : Option Callback
  connCallback : Option Callback
  errorCallback : Option Callback

/-- The callbacks of a channel that has just been made. -/
def Bindings.empty : Bindings := ⟨none, none, none, none, none⟩

end Acceptor

/-- An `Acceptor`, with the poller of its loop and how the next calls of `accept`
    will end. Recorded are the connections queued in loops, and those closed. -/
structure Acceptor where
  acceptFd : Fd
  acceptChannel : Channel
  bindings : Acceptor.Bindings
  eventLoopThreadPool : EventLoopThreadPool
  poller : EPollPoller
  accepts : List AcceptResult
  queued : List (LoopId × ℤ)
  closed : List ℤ

namespace Acceptor

def MAXFDS : ℤ := 4096

/-- The constructor, for a socket that listens, with the values it leaves
    indeterminate. -/
def new (poller : EPollPoller) (acceptFd : Fd) (threadnum : ℕ) (events revents : Mask) :
    Acceptor where
  acceptFd := acceptFd
  acceptChannel := ⟨acceptFd, events, revents, false⟩
  bindings := .empty
  eventLoopThreadPool := .new threadnum
  poller := poller
  accepts := []
  queued := []
  closed := []

/-- Starts the thread pool, and nothing else: no callback is bound, and the channel is not
    added to the poller. -/
def start (a : Acceptor) (created : ℕ → Bool) : Acceptor :=
  { a with eventLoopThreadPool := a.eventLoopThreadPool.threadPoolInit created }

/-- Registers the channel again. Without a timeout the clock is not read. -/
def handleThisConn (a : Acceptor) : Except Fault Acceptor :=
  match a.poller.updateChannel a.acceptChannel .accept 0 ⟨0, 0⟩ with
  | .error f => .error f
  | .ok (_, poller) => .ok { a with poller := poller }

/-- Hands a connection over to the next loop. -/
def dispatch (a : Acceptor) (acceptFd : ℤ) : Except Fault Acceptor :=
  match a.eventLoopThreadPool.getNextPool with
  | .error f => .error f
  | .ok (none, _) => .error .assertFailed
  | .ok (some loop, pool) =>
    .ok { a with eventLoopThreadPool := pool, queued := a.queued ++ [(loop, acceptFd)] }

/-- The loop of `handleNewConn`, and whether it ends by leaving the function. -/
def acceptLoop : List AcceptResult → Acceptor → Except Fault (Bool × Acceptor)
  | [], a => .ok (false, { a with accepts := [] })
  | r :: accepts, a =>
    if r.acceptFd > 0 then
      if r.acceptFd > MAXFDS then
        acceptLoop accepts { a with closed := a.closed ++ [r.acceptFd] }
      -- The descriptor is neither closed nor handed over.
      else if r.nonBlocking = false then .ok (true, { a with accepts := accepts })
      else
        match a.dispatch r.acceptFd with
        | .error f => .error f
        | .ok a => acceptLoop accepts a
    else .ok (false, { a with accepts := accepts })

/-- Accepts connections until `accept` returns none. The channel waits for input again, unless
    the function has been left early. -/
def handleNewConn (a : Acceptor) : Except Fault Acceptor :=
  match acceptLoop a.accepts a with
  | .error f => .error f
  | .ok (true, a) => .ok a
  | .ok (false, a) =>
    .ok { a with acceptChannel := a.acceptChannel.setEvents (EPOLLIN ||| EPOLLET) }

/-- The call of a member function through the channel. -/
def Callback.run : Callback → Acceptor → Except Fault Acceptor
  | handleNewConn => Acceptor.handleNewConn
  | handleThisConn => Acceptor.handleThisConn

/-- Where the channel of the acceptor is found. -/
def place : Channel.Place Acceptor where
  get a := a.acceptChannel
  set channel a := { a with acceptChannel := channel }

/-- The callbacks that the bindings make. -/
def callbacks (b : Bindings) : Channel.Callbacks Fault Acceptor where
  read := b.readCallback.map Callback.run
  write := b.writeCallback.map Callback.run
  close := b.closeCallback.map Callback.run
  conn := b.connCallback.map Callback.run
  error := b.errorCallback.map Callback.run

/-- `Channel::handleEvents` on the channel of the acceptor. -/
def handleEvents (a : Acceptor) : Except Fault Acceptor :=
  Channel.handleEvents place (callbacks a.bindings) a

/-! ## Runs -/

/-- Events on the listening socket, and how the next calls of `accept` will end. -/
structure Event where
  revents : Mask
  accepts : List AcceptResult

/-- The acceptor when events are reported. -/
def deliver (a : Acceptor) (e : Event) : Acceptor :=
  { a with acceptChannel := a.acceptChannel.setRevents e.revents, accepts := e.accepts }

/-- The acceptor after `start`, on a socket that nothing is registered for. -/
def Started (a : Acceptor) : Prop :=
  ∃ (poller : EPollPoller) (acceptFd : Fd) (threadnum : ℕ) (events revents : Mask)
    (created : ℕ → Bool), poller.channels acceptFd = none ∧ poller.interest acceptFd = none ∧
    a = (new poller acceptFd threadnum events revents).start created

def system : System Acceptor Event where
  init := {a | a.Started}
  step a e a' := (a.deliver e).handleEvents = .ok a'

/-- The listening channel is registered and waits for input, and its callbacks are
    bound. -/
structure Watched (a : Acceptor) : Prop where
  registered : a.poller.channels a.acceptFd = some .accept
  interest : ∃ mask, a.poller.interest a.acceptFd = some mask ∧ mask &&& EPOLLIN ≠ 0
  readCallback : a.bindings.readCallback = some .handleNewConn
  connCallback : a.bindings.connCallback = some .handleThisConn

variable {a a' : Acceptor} {e : Event}

/-! ## What events keep -/

/-- The listening channel is watched, and has not been made to wait for something
    else. After a hang-up it waits for nothing, until input is reported. -/
structure Armed (a : Acceptor) : Prop where
  registered : a.poller.channels a.acceptFd = some .accept
  interest : ∃ mask, a.poller.interest a.acceptFd = some mask ∧ mask &&& EPOLLIN ≠ 0
  bindings : a.bindings = ⟨some .handleNewConn, none, none, some .handleThisConn, none⟩
  fd : a.acceptChannel.fd = a.acceptFd
  events : a.acceptChannel.events = 0 ∨ a.acceptChannel.events &&& EPOLLIN ≠ 0

theorem Armed.watched (ha : a.Armed) : a.Watched :=
  ⟨ha.registered, ha.interest, by rw [ha.bindings], by rw [ha.bindings]⟩

/-- What the channel goes through while its events are handled. -/
theorem Armed.setChannel (ha : a.Armed) {ch : Channel} (hfd : ch.fd = a.acceptChannel.fd)
    (hevents : ch.events = 0 ∨ ch.events &&& EPOLLIN ≠ 0) :
    ({ a with acceptChannel := ch } : Acceptor).Armed :=
  ⟨ha.registered, ha.interest, ha.bindings, hfd.trans ha.fd, hevents⟩

theorem dispatch_eq {acceptFd : ℤ} (h : a.dispatch acceptFd = .ok a') :
    ∃ pool queued, a' = { a with eventLoopThreadPool := pool, queued := queued } := by
  rw [dispatch] at h
  split at h <;> cases h
  exact ⟨_, _, rfl⟩

/-- What the loop of `handleNewConn` changes. -/
theorem acceptLoop_eq {accepts : List AcceptResult} {flag : Bool}
    (h : acceptLoop accepts a = .ok (flag, a')) :
    ∃ pool rest queued closed, a' = { a with
      eventLoopThreadPool := pool, accepts := rest, queued := queued, closed := closed } := by
  induction accepts generalizing a with
  | nil =>
    cases h
    exact ⟨_, _, _, _, rfl⟩
  | cons r accepts ih =>
    rw [acceptLoop] at h
    split at h
    · split at h
      · obtain ⟨pool, rest, queued, closed, rfl⟩ := ih h
        exact ⟨_, _, _, _, rfl⟩
      · split at h
        · cases h
          exact ⟨_, _, _, _, rfl⟩
        · split at h
          · cases h
          · next hdispatch =>
            obtain ⟨pool, queued, rfl⟩ := dispatch_eq hdispatch
            obtain ⟨pool, rest, queued, closed, rfl⟩ := ih h
            exact ⟨_, _, _, _, rfl⟩
    · cases h
      exact ⟨_, _, _, _, rfl⟩

/-- Accepting connections leaves the channel as it is if it ends early, or makes it
    wait for input. -/
theorem Armed.handleNewConn (ha : a.Armed) (h : a.handleNewConn = .ok a') : a'.Armed := by
  rw [Acceptor.handleNewConn] at h
  split at h
  · cases h
  · next hloop =>
    cases h
    obtain ⟨pool, rest, queued, closed, rfl⟩ := acceptLoop_eq hloop
    exact ⟨ha.registered, ha.interest, ha.bindings, ha.fd, ha.events⟩
  · next hloop =>
    cases h
    obtain ⟨pool, rest, queued, closed, rfl⟩ := acceptLoop_eq hloop
    have hin : (EPOLLIN ||| EPOLLET) &&& EPOLLIN ≠ 0 := by decide
    exact ⟨ha.registered, ha.interest, ha.bindings, ha.fd, .inr hin⟩

/-- Registering the channel again, which fails if it waits for nothing. -/
theorem Armed.handleThisConn (ha : a.Armed) (h : a.handleThisConn = .ok a') : a'.Armed := by
  rw [Acceptor.handleThisConn, EPollPoller.updateChannel, EPollPoller.hold,
    if_neg (Nat.lt_irrefl 0)] at h
  simp only at h
  split at h
  · cases h
  · next hupdate =>
    split at hupdate <;> cases hupdate
    next hok =>
      cases h
      rw [not_or, not_or] at hok
      rw [ha.fd]
      exact ⟨Function.update_self _ _ _, ⟨_, Function.update_self _ _ _,
        ha.events.resolve_left hok.2.1⟩, ha.bindings, ha.fd, ha.events⟩

theorem armed_of_step (ha : a.Armed) (h : system.step a e a') : a'.Armed := by
  have h : (a.deliver e).handleEvents = .ok a' := h
  have ha : (a.deliver e).Armed := ⟨ha.registered, ha.interest, ha.bindings, ha.fd, ha.events⟩
  rw [handleEvents, callbacks, ha.bindings] at h
  rcases Channel.handleEvents_ok rfl h with
    hclose | herror | ⟨-, s₁, s₂, s₃, hread, hwrite, hconn, rfl⟩
  · cases hclose
    exact ha.setChannel rfl (.inl rfl)
  · cases herror
    exact ha.setChannel rfl ha.events
  · have hstart : (place.set { place.get (a.deliver e) with eventHandling := true }
        (a.deliver e)).Armed := ha.setChannel rfl ha.events
    have hs₁ : s₁.Armed := by
      rcases Channel.callIf_ok hread with hread | ⟨-, rfl⟩
      · exact hstart.handleNewConn hread
      · exact hstart
    cases (Channel.callIf_none _ _ _).symm.trans hwrite
    have hs₃ : s₃.Armed := hs₁.handleThisConn hconn
    exact hs₃.setChannel rfl hs₃.events

/-- Once it is armed, the listening channel stays so, whatever events are reported
    and whatever `accept` returns. -/
theorem armed_of_steps {es : List Event} (ha : a.Armed) (h : system.Steps a es a') : a'.Armed := by
  induction h with
  | nil => exact ha
  | cons hst _ ih => exact ih (armed_of_step ha hst)

/-! ## What is never set up -/

/-- No callback is bound, and nothing is registered for the listening socket. -/
structure Unset (a : Acceptor) : Prop where
  bindings : a.bindings = .empty
  registered : a.poller.channels a.acceptFd = none
  interest : a.poller.interest a.acceptFd = none

/-- Events that have no callbacks change the channel only. -/
theorem handleEvents_of_empty (hbindings : a.bindings = .empty) (h : a.handleEvents = .ok a') :
    ∃ ch, a' = { a with acceptChannel := ch } := by
  rw [handleEvents, callbacks, hbindings] at h
  rcases Channel.handleEvents_ok rfl h with
    hclose | herror | ⟨-, s₁, s₂, s₃, hread, hwrite, hconn, rfl⟩
  · cases hclose
    exact ⟨_, rfl⟩
  · cases herror
    exact ⟨_, rfl⟩
  · cases hconn
    cases (Channel.callIf_none _ _ _).symm.trans hwrite
    cases (Channel.callIf_none _ _ _).symm.trans hread
    exact ⟨_, rfl⟩

theorem unset_of_reachable (ha : system.Reachable a) : a.Unset := by
  refine System.ReachableBy.invariant (S := system) (I := Unset) (fun a ha => ?_)
    (fun a e a' _ ha _ h => ?_) ha
  · obtain ⟨poller, acceptFd, threadnum, events, revents, created, hchannels, hinterest, rfl⟩ := ha
    exact ⟨rfl, hchannels, hinterest⟩
  · obtain ⟨ch, rfl⟩ := handleEvents_of_empty (a := a.deliver e) ha.bindings h
    exact ⟨ha.bindings, ha.registered, ha.interest⟩

/-- The listening channel is never watched: it is not registered, waits for nothing,
    and has no callbacks. -/
theorem not_watched_of_reachable (ha : system.Reachable a) :
    ¬a.Watched ∧ a.poller.channels a.acceptFd = none ∧ a.poller.interest a.acceptFd = none ∧
      a.bindings.readCallback = none ∧ a.bindings.connCallback = none := by
  obtain ⟨hbindings, hregistered, hinterest⟩ := unset_of_reachable ha
  refine ⟨fun h => ?_, hregistered, hinterest, by rw [hbindings]; rfl, by rw [hbindings]; rfl⟩
  cases hregistered.symm.trans h.registered

/-- The acceptor of the server, on the descriptor 4, with the threads it starts. -/
def listening : Acceptor := (new .new 4 4 0 0).start fun _ => true

theorem started_listening : listening.Started := ⟨.new, 4, 4, 0, 0, fun _ => true, rfl, rfl, rfl⟩

/-- A connection on the descriptor 7 could be accepted, but is not. -/
theorem not_watched_of_reachable_listening :
    ∃ a, system.step listening ⟨EPOLLIN, [⟨7, true⟩]⟩ a ∧ ¬a.Watched ∧
      a.poller.channels a.acceptFd = none ∧ a.poller.interest a.acceptFd = none ∧
      a.bindings.readCallback = none ∧ a.bindings.connCallback = none := by
  have hstep : ∃ a, system.step listening ⟨EPOLLIN, [⟨7, true⟩]⟩ a := ⟨_, rfl⟩
  obtain ⟨a, ha⟩ := hstep
  exact ⟨a, ha, not_watched_of_reachable (.step (.init started_listening) trivial ha)⟩

/-- It is not watched after `start`. -/
theorem exists_not_watched : ¬∀ a, system.Reachable a → a.Watched := by
  intro hall
  cases (hall listening (.init started_listening)).readCallback

end Acceptor

end Webserver
