import Webserver.Loop.TaskLoop
import Webserver.Poller

/-!
# The wake-up descriptor

In `Loop.TaskLoop`, a loop has been woken up if its wake-up descriptor has been written to
since `epoll_wait` last returned. This file follows the descriptor into the kernel. It counts
what is written to it until `EventLoop::handleRead` reads it; and as its channel is
edge-triggered, `epoll_wait` looks at it only if it has been written to, or registered again,
since the last time. So the thread of the loop may well read what another thread has just
written for a functor of its own; but then it has still to swap the functors out.

* `WakeUpLoop.refinement`: the loop is a `TaskLoop`.
* `WakeUpLoop.Rung`: the invariant behind the wake-ups.
* `WakeUpLoop.reports_of_reachable`: a loop that has something to do does not wait, but for
  a thread that is about to wake it up. It does not matter if `poll` hands on what is
  reported, as long as the counter is not full.
-/

namespace Webserver

open Transition

/-! ## The kernel -/

/-- The wake-up descriptor, an `eventfd`: its counter, and if `epoll_wait` is to look at it. -/
structure Eventfd where
  counter : ℕ
  ready : Bool
  deriving DecidableEq

namespace Eventfd

/-- The counter has 64 bits, all of which are never set. -/
def maxCounter : ℕ := 0xfffffffffffffffe

/-- A one is written, unless the counter is full. -/
def write (d : Eventfd) : Eventfd := if d.counter < maxCounter then ⟨d.counter + 1, true⟩ else d

/-- All of the counter is read, or there is nothing to read. -/
def read (d : Eventfd) : Eventfd := { d with counter := 0 }

/-- The descriptor is registered again: if it can be read, that is looked at anew. -/
def modify (d : Eventfd) : Eventfd := { d with ready := d.ready || decide (0 < d.counter) }

/-- If `epoll_wait` reports that the descriptor can be read. -/
def reports (d : Eventfd) : Bool := d.ready && decide (0 < d.counter)

/-- `epoll_wait` has looked at the descriptor. -/
def wait (d : Eventfd) : Eventfd := { d with ready := false }

/-- What is written is there to be looked at, or there is no room for it. -/
theorem write_cases (d : Eventfd) : d.write = ⟨d.counter + 1, true⟩ ∨ d.write = d := by
  rw [write]
  split
  · exact .inl rfl
  · exact .inr rfl

theorem counter_le_write (d : Eventfd) : d.counter ≤ d.write.counter := by
  rcases d.write_cases with heq | heq <;> rw [heq]
  exact Nat.le_succ _

theorem reports_write_of_reports {d : Eventfd} (h : d.reports = true) :
    d.write.reports = true := by
  rcases d.write_cases with heq | heq <;> rw [heq]
  · simp [reports]
  · exact h

/-- What is written is reported, if there is room for it or there is something else to report. -/
theorem reports_write {d : Eventfd} (h : d.counter < maxCounter ∨ d.ready = true) :
    d.write.reports = true := by
  rw [write]
  split
  · simp [reports]
  · next hfull =>
    have hpos : 0 < d.counter := lt_of_lt_of_le (by decide) (Nat.le_of_not_lt hfull)
    simp [reports, h.resolve_left hfull, hpos]

end Eventfd

/-! ## The wake-up channel -/

/-- What an `EventLoop` has for its wake-ups. -/
structure WakeUp where
  wakeUpFd : Eventfd
  wakeUpChannel : Channel
  poller : EPollPoller

namespace WakeUp

/-- The constructor of `EventLoop`, with the events reported that a channel's constructor
    leaves indeterminate, and the clock. -/
def new (fd : Fd) (revents : Mask) (now : Timeval) : Except Fault WakeUp :=
  let wakeUpChannel : Channel := ⟨fd, EPOLLIN ||| EPOLLET, revents, false⟩
  match EPollPoller.new.addChannel wakeUpChannel .wakeUp 0 now with
  | .error f => .error f
  | .ok (_, poller) => .ok ⟨⟨0, false⟩, wakeUpChannel, poller⟩

/-- The callback for reading. Its `readn` ends with the first `read` that is not interrupted. -/
def handleRead (w : WakeUp) : WakeUp :=
  { w with
    wakeUpFd := w.wakeUpFd.read
    wakeUpChannel := w.wakeUpChannel.setEvents (EPOLLIN ||| EPOLLET) }

/-- The connection callback. -/
def handleConn (w : WakeUp) (now : Timeval) : Except Fault WakeUp :=
  match w.poller.updateChannel w.wakeUpChannel .wakeUp 0 now with
  | .error f => .error f
  | .ok (_, poller) => .ok { w with wakeUpFd := w.wakeUpFd.modify, poller := poller }

/-- `EventLoop::wakeUp`. -/
def wakeUp (w : WakeUp) : WakeUp := { w with wakeUpFd := w.wakeUpFd.write }

/-- The channel is registered. -/
structure Registered (w : WakeUp) : Prop where
  fd : w.wakeUpChannel.fd ≠ 0
  events : w.wakeUpChannel.events ≠ 0
  interest : w.poller.interest w.wakeUpChannel.fd ≠ none

theorem update_ne_none (interest : Fd → Option Mask) (fd : Fd) (events : Mask) :
    Function.update interest fd (some events) fd ≠ none := by
  rw [Function.update_self]
  exact Option.some_ne_none _

theorem events_ne_zero : EPOLLIN ||| EPOLLET ≠ 0 := by decide

theorem registered_new {fd : Fd} {revents : Mask} {now : Timeval} {w : WakeUp}
    (h : new fd revents now = .ok w) : w.Registered ∧ w.wakeUpFd = ⟨0, false⟩ := by
  rw [new, EPollPoller.addChannel] at h
  simp only at h
  split at h
  · cases h
  · next hadd =>
    cases h
    split at hadd
    · cases hadd
    · next hassert =>
      cases hadd
      exact ⟨⟨fun hfd => hassert (.inl hfd), events_ne_zero, update_ne_none _ _ _⟩, rfl⟩

/-- The assertions of `updateChannel` hold. -/
theorem Registered.exists_handleConn {w : WakeUp} (hw : w.Registered) (now : Timeval) :
    ∃ w', w.handleConn now = .ok w' ∧ w'.Registered ∧ w'.wakeUpFd = w.wakeUpFd.modify := by
  have hassert : ¬(w.wakeUpChannel.fd = 0 ∨ w.wakeUpChannel.events = 0 ∨
      w.poller.interest w.wakeUpChannel.fd = none) :=
    not_or.2 ⟨hw.fd, not_or.2 ⟨hw.events, hw.interest⟩⟩
  rw [handleConn, EPollPoller.updateChannel]
  simp only [EPollPoller.hold, lt_irrefl, if_false, if_neg hassert]
  exact ⟨_, rfl, ⟨hw.fd, hw.events, update_ne_none _ _ _⟩, rfl⟩

theorem Registered.of_wakeUpFd {w : WakeUp} (hw : w.Registered) (d : Eventfd) :
    Registered { w with wakeUpFd := d } :=
  ⟨hw.fd, hw.events, hw.interest⟩

theorem Registered.handleRead {w : WakeUp} (hw : w.Registered) : w.handleRead.Registered :=
  ⟨hw.fd, events_ne_zero, hw.interest⟩

/-- The wake-up channel, and the callbacks that the constructor sets. -/
def place : Channel.Place WakeUp where
  get := wakeUpChannel
  set c w := { w with wakeUpChannel := c }

def callbacks (now : Timeval) : Channel.Callbacks Fault WakeUp :=
  ⟨some fun w => .ok w.handleRead, none, none, some fun w => w.handleConn now, none⟩

/-- Handling the event reads all of the counter, and registers the channel again. -/
theorem Registered.handleEvents {w : WakeUp} (hw : w.Registered)
    (hrevents : w.wakeUpChannel.revents = EPOLLIN) (now : Timeval) :
    ∃ w', Channel.handleEvents place (callbacks now) w = .ok w' ∧ w'.Registered ∧
      w'.wakeUpFd = w.wakeUpFd.read.modify := by
  have hhandling : Registered { w with wakeUpChannel.eventHandling := true } :=
    ⟨hw.fd, hw.events, hw.interest⟩
  obtain ⟨w', hw', hregistered, hfd⟩ := hhandling.handleRead.exists_handleConn now
  refine ⟨{ w' with wakeUpChannel.eventHandling := false }, ?_,
    ⟨hregistered.fd, hregistered.events, hregistered.interest⟩, hfd⟩
  rw [Channel.handleEvents_of_dispatched hrevents ⟨by decide, by decide⟩]
  exact congrArg (fun x : Except Fault WakeUp => x >>= fun w =>
    .ok { w with wakeUpChannel.eventHandling := false }) hw'

end WakeUp

/-! ## The loop -/

/-- What the thread of a loop is about to do with its wake-up channel. -/
inductive Handling
  | none
  | read
  | conn
  deriving DecidableEq

namespace TaskLoop

variable {Functor : Type*}

/-- The thread is about to wake the loop up. -/
def wakes (s : TaskLoop Functor) (t : ThreadId) : Bool :=
  match s.caller t with
  | .idle => false
  | .pushed => !s.isInLoopThread t || s.callingPendingFunctors
  | .quitting => !s.isInLoopThread t

/-- It wakes the loop up with the rest of its call. -/
theorem woken_finish_eq (s : TaskLoop Functor) (t : ThreadId) :
    (s.finish t).woken = (s.woken || s.wakes t) := by
  rw [finish, wakes]
  cases s.caller t with
  | idle => exact (Bool.or_false _).symm
  | pushed => cases hwakes : !s.isInLoopThread t || s.callingPendingFunctors <;>
      simp [wakeUp, setCaller]
  | quitting => cases hwakes : !s.isInLoopThread t <;> simp [wakeUp, setCaller]

/-- Whoever has pushed wakes the loop up, unless the loop has still to look for functors. -/
theorem Awake.wakes_of_pushed {s : TaskLoop Functor} {t : ThreadId} (hs : s.Awake)
    (ht : s.caller t = .pushed) : s.phase = .events ∨ s.wakes t = true := by
  rw [wakes, ht]
  by_cases heq : t = s.threadId
  · subst heq
    rcases hs.caller (by rw [ht]; exact Caller.noConfusion) with h | h
    · exact .inl h
    · exact .inr (by simp [hs.calling (.inr (.inr h))])
  · exact .inr (by simp [isInLoopThread, Ne.symm heq])

/-- So does whoever has called `quit` from another thread. -/
theorem Awake.wakes_of_quitting {s : TaskLoop Functor} {t : ThreadId} (hs : s.Awake)
    (ht : s.caller t = .quitting) (hphase : s.phase = .poll) : s.wakes t = true := by
  have hne : s.threadId ≠ t := by
    rintro rfl
    rcases hs.caller (by rw [ht]; exact Caller.noConfusion) with h | h <;> cases hphase.symm.trans h
  rw [wakes, ht]
  simp [isInLoopThread, hne]

/-- A call that a thread enters is not one that another thread is in. -/
theorem MayCall.caller_setCaller {s : TaskLoop Functor} {t t' : ThreadId} {c : Caller}
    (ht : s.MayCall t) (c' : Caller) (hc : s.caller t' = c) (hne : c ≠ .idle) :
    (s.setCaller t c').caller t' = c := by
  have hother : t' ≠ t := by
    rintro rfl
    exact hne (hc.symm.trans ht.1)
  exact (s.setCaller_of_ne hother c').trans hc

end TaskLoop

/-- A loop with its wake-up descriptor. -/
structure WakeUpLoop (Functor : Type*) where
  task : TaskLoop Functor
  wakeUp : WakeUp
  handling : Handling

namespace WakeUpLoop

variable {Functor : Type*}

/-- The rest of the call a thread is in. -/
def finish (s : WakeUpLoop Functor) (t : ThreadId) : WakeUpLoop Functor :=
  { s with
    task := s.task.finish t
    wakeUp := if s.task.wakes t then s.wakeUp.wakeUp else s.wakeUp }

/-- `epoll_wait` returns. What is reported of the wake-up descriptor is handed on or not: it is
    by the body of the loop in `poll`, which is never run as the source stands. -/
def poll (s : WakeUpLoop Functor) (handsOn : Bool) (task : TaskLoop Functor) :
    WakeUpLoop Functor where
  task := task
  wakeUp := { s.wakeUp with wakeUpFd := s.wakeUp.wakeUpFd.wait }
  handling := if handsOn && s.wakeUp.wakeUpFd.reports then .read else .none

/-- The steps of the threads. The callbacks of the wake-up channel are steps of their own,
    as other threads may write to its descriptor between them. -/
inductive Step (handsOn : Bool) (s : WakeUpLoop Functor) :
    TaskLoop.Event Functor → WakeUpLoop Functor → Prop
  | push {t : ThreadId} {cb : Functor} :
      s.task.MayCall t → Step handsOn s (.push t cb) { s with task := s.task.push t cb }
  | quit {t : ThreadId} :
      s.task.MayCall t → Step handsOn s (.quit t) { s with task := s.task.quit t }
  | finish {t : ThreadId} : s.task.caller t ≠ .idle → Step handsOn s (.finish t) (s.finish t)
  | poll {task : TaskLoop Functor} :
      s.task.caller s.task.threadId = .idle → s.task.phase = .poll →
      s.task.advance = some task → Step handsOn s .loop (s.poll handsOn task)
  | handleRead :
      s.task.caller s.task.threadId = .idle → s.handling = .read →
      Step handsOn s .loop { s with wakeUp := s.wakeUp.handleRead, handling := .conn }
  | handleConn {now : Timeval} {wakeUp : WakeUp} :
      s.task.caller s.task.threadId = .idle → s.handling = .conn →
      s.wakeUp.handleConn now = .ok wakeUp →
      Step handsOn s .loop { s with wakeUp := wakeUp, handling := .none }
  | turn {task : TaskLoop Functor} :
      s.task.caller s.task.threadId = .idle → s.task.phase ≠ .poll → s.handling = .none →
      s.task.advance = some task → Step handsOn s .loop { s with task := task }

/-- The runs of a loop and any number of threads that call it. -/
def system (Functor : Type*) (handsOn : Bool) :
    System (WakeUpLoop Functor) (TaskLoop.Event Functor) where
  init := {s | ∃ threadId fd revents now, s.task = .new threadId ∧
    WakeUp.new fd revents now = .ok s.wakeUp ∧ s.handling = .none}
  step := Step handsOn

/-- The callbacks of the wake-up channel are nothing to the functors. -/
def refinement (Functor : Type*) (handsOn : Bool) :
    Refinement (system Functor handsOn) (TaskLoop.system Functor) fun _ _ => True where
  abs := task
  init := by
    rintro s ⟨threadId, -, -, -, htask, -⟩
    exact ⟨threadId, htask.symm⟩
  step := by
    rintro s s' e - - hst
    cases hst with
    | push ht => exact ⟨_, .single (.push ht)⟩
    | quit ht => exact ⟨_, .single (.quit ht)⟩
    | finish ht => exact ⟨_, .single (.finish ht)⟩
    | poll hidle _ h => exact ⟨_, .single (.loop hidle h)⟩
    | handleRead => exact ⟨_, .nil⟩
    | handleConn => exact ⟨_, .nil⟩
    | turn hidle _ _ h => exact ⟨_, .single (.loop hidle h)⟩

/-! ## No wake-up is lost in the kernel -/

/-- The event is handed on, or there is room in the counter. -/
def Hears (handsOn : Bool) (s : WakeUpLoop Functor) : Prop :=
  handsOn = true ∨ s.wakeUp.wakeUpFd.counter < Eventfd.maxCounter

/-- What holds between the steps of the threads. -/
structure Rung (handsOn : Bool) (s : WakeUpLoop Functor) : Prop where
  registered : s.wakeUp.Registered
  handling : s.handling ≠ .none → handsOn = true ∧ s.task.phase = .events
  /-- What has been counted is looked at by the next `epoll_wait`, or is about to be read. -/
  counted : handsOn = true → 0 < s.wakeUp.wakeUpFd.counter →
    s.wakeUp.wakeUpFd.ready = true ∨ s.handling = .read
  /-- Pending functors are about to be swapped out, or the descriptor is reported, or will
      be by the one who pushed them. -/
  pending : s.Hears handsOn → s.task.pendingFunctors ≠ [] →
    s.task.phase = .events ∨ s.task.phase = .swap ∨ s.wakeUp.wakeUpFd.reports = true ∨
      ∃ t, s.task.caller t = .pushed
  quit : s.Hears handsOn → s.task.looping = false → s.task.phase = .poll →
    s.wakeUp.wakeUpFd.reports = true ∨ ∃ t, s.task.caller t = .quitting

section Rung

variable {handsOn : Bool} {s s' : WakeUpLoop Functor} {t : ThreadId}

theorem Rung.push (hs : s.Rung handsOn) (ht : s.task.MayCall t) (cb : Functor) :
    Rung handsOn { s with task := s.task.push t cb } where
  registered := hs.registered
  handling := hs.handling
  counted := hs.counted
  pending _ _ := .inr (.inr (.inr ⟨t, s.task.setCaller_self t .pushed⟩))
  quit hhears hlooping hphase := by
    refine (hs.quit hhears hlooping hphase).imp_right fun ⟨t', ht'⟩ => ⟨t', ?_⟩
    exact ht.caller_setCaller .pushed ht' Caller.noConfusion

theorem Rung.quits (hs : s.Rung handsOn) (ht : s.task.MayCall t) :
    Rung handsOn { s with task := s.task.quit t } where
  registered := hs.registered
  handling := hs.handling
  counted := hs.counted
  pending hhears hne := by
    rcases hs.pending hhears hne with h | h | h | ⟨t', ht'⟩
    · exact .inl h
    · exact .inr (.inl h)
    · exact .inr (.inr (.inl h))
    · exact .inr (.inr (.inr ⟨t', ht.caller_setCaller .quitting ht' Caller.noConfusion⟩))
  quit _ _ _ := .inr ⟨t, s.task.setCaller_self t .quitting⟩

/-- What is written is reported, unless the counter is about to be read. -/
theorem Rung.reports_write (hs : s.Rung handsOn) (hhears : s.Hears handsOn) :
    s.task.phase = .events ∨ s.wakeUp.wakeUpFd.write.reports = true := by
  by_cases hroom : s.wakeUp.wakeUpFd.counter < Eventfd.maxCounter
  · exact .inr (Eventfd.reports_write (.inl hroom))
  · have hpos : 0 < s.wakeUp.wakeUpFd.counter :=
      lt_of_lt_of_le (by decide) (Nat.le_of_not_lt hroom)
    rcases hs.counted (hhears.resolve_right hroom) hpos with hready | hread
    · exact .inr (Eventfd.reports_write (.inr hready))
    · exact .inl (hs.handling (by rw [hread]; exact Handling.noConfusion)).2

theorem finish_wakeUpFd (s : WakeUpLoop Functor) (t : ThreadId) :
    (s.finish t).wakeUp.wakeUpFd =
      if s.task.wakes t then s.wakeUp.wakeUpFd.write else s.wakeUp.wakeUpFd := by
  rw [finish]
  split <;> rfl

/-- A thread that returns leaves what the others are about to do as it is. -/
theorem caller_finish {t' : ThreadId} (h : t' ≠ t) :
    (s.finish t).task.caller t' = s.task.caller t' := by
  rw [finish, TaskLoop.finish_eq]
  exact s.task.setCaller_of_ne h _

theorem phase_finish (s : WakeUpLoop Functor) (t : ThreadId) :
    (s.finish t).task.phase = s.task.phase := by
  rw [finish, TaskLoop.finish_eq]
  rfl

theorem Hears.of_finish (h : (s.finish t).Hears handsOn) : s.Hears handsOn := by
  refine h.imp_right fun hroom => lt_of_le_of_lt ?_ hroom
  rw [finish_wakeUpFd]
  split
  · exact Eventfd.counter_le_write _
  · exact le_rfl

theorem reports_finish (h : s.wakeUp.wakeUpFd.reports = true) :
    (s.finish t).wakeUp.wakeUpFd.reports = true := by
  rw [finish_wakeUpFd]
  split
  · exact Eventfd.reports_write_of_reports h
  · exact h

/-- If the thread wakes the loop up, that is reported. -/
theorem Rung.reports_finish_of_wakes (hs : s.Rung handsOn) (hhears : s.Hears handsOn)
    (hwakes : s.task.wakes t = true) :
    s.task.phase = .events ∨ (s.finish t).wakeUp.wakeUpFd.reports = true := by
  rw [finish_wakeUpFd, if_pos hwakes]
  exact hs.reports_write hhears

theorem Rung.counted_finish (hs : s.Rung handsOn) (hhands : handsOn = true)
    (hpos : 0 < (s.finish t).wakeUp.wakeUpFd.counter) :
    (s.finish t).wakeUp.wakeUpFd.ready = true ∨ s.handling = .read := by
  rw [finish_wakeUpFd] at hpos ⊢
  split at hpos
  · next hwakes =>
    rw [if_pos hwakes]
    rcases Eventfd.write_cases s.wakeUp.wakeUpFd with heq | heq
    · rw [heq]
      exact .inl rfl
    · rw [heq] at hpos ⊢
      exact hs.counted hhands hpos
  · next hwakes =>
    rw [if_neg hwakes]
    exact hs.counted hhands hpos

/-- If it was this thread that had pushed, what it writes takes over. -/
theorem Rung.pending_finish (hs : s.Rung handsOn) (hawake : s.task.Awake)
    (h : (s.finish t).Hears handsOn) (hne : s.task.pendingFunctors ≠ []) :
    s.task.phase = .events ∨ s.task.phase = .swap ∨
      (s.finish t).wakeUp.wakeUpFd.reports = true ∨
      ∃ t', (s.finish t).task.caller t' = .pushed := by
  rcases hs.pending h.of_finish hne with hevents | hswap | hreports | ⟨t', ht'⟩
  · exact .inl hevents
  · exact .inr (.inl hswap)
  · exact .inr (.inr (.inl (reports_finish hreports)))
  · by_cases heq : t' = t
    · subst heq
      rcases hawake.wakes_of_pushed ht' with hevents | hwakes
      · exact .inl hevents
      · exact (hs.reports_finish_of_wakes h.of_finish hwakes).imp_right fun h => .inr (.inl h)
    · exact .inr (.inr (.inr ⟨t', (caller_finish heq).trans ht'⟩))

/-- So it does if it was this thread that had called `quit`. -/
theorem Rung.quit_finish (hs : s.Rung handsOn) (hawake : s.task.Awake)
    (h : (s.finish t).Hears handsOn) (hlooping : s.task.looping = false)
    (hphase : s.task.phase = .poll) :
    (s.finish t).wakeUp.wakeUpFd.reports = true ∨
      ∃ t', (s.finish t).task.caller t' = .quitting := by
  rcases hs.quit h.of_finish hlooping hphase with hreports | ⟨t', ht'⟩
  · exact .inl (reports_finish hreports)
  · by_cases heq : t' = t
    · subst heq
      have hwakes := hawake.wakes_of_quitting ht' hphase
      refine .inl ((hs.reports_finish_of_wakes h.of_finish hwakes).resolve_left ?_)
      rw [hphase]
      exact Phase.noConfusion
    · exact .inr ⟨t', (caller_finish heq).trans ht'⟩

theorem Rung.finish (hs : s.Rung handsOn) (hawake : s.task.Awake) (t : ThreadId) :
    (s.finish t).Rung handsOn := by
  have hphase := phase_finish s t
  refine ⟨?_, ?_, hs.counted_finish, fun h hne => ?_, fun h hlooping hpoll => ?_⟩
  · rw [WakeUpLoop.finish]
    split
    · exact hs.registered.of_wakeUpFd _
    · exact hs.registered
  · rw [hphase]
    exact hs.handling
  · rw [hphase]
    refine hs.pending_finish hawake h ?_
    rw [WakeUpLoop.finish, TaskLoop.finish_eq] at hne
    exact hne
  · refine hs.quit_finish hawake h ?_ (hphase.symm.trans hpoll)
    rw [WakeUpLoop.finish, TaskLoop.finish_eq] at hlooping
    exact hlooping

/-- What is reported when `epoll_wait` returns is handed on to the callback for reading. -/
theorem Rung.poll (hs : s.Rung handsOn) (hphase : s.task.phase = .poll) {task : TaskLoop Functor}
    (h : s.task.advance = some task) : (s.poll handsOn task).Rung handsOn := by
  have hevents : task.phase = .events := by
    rw [TaskLoop.advance, hphase] at h
    cases h
    rfl
  refine ⟨hs.registered.of_wakeUpFd _, fun hne => ⟨?_, hevents⟩, fun hhands hpos => ?_,
    fun _ _ => .inl hevents, fun _ _ h => absurd (hevents.symm.trans h) Phase.noConfusion⟩
  · by_contra hhands
    rw [WakeUpLoop.poll, Bool.eq_false_of_not_eq_true hhands] at hne
    exact hne rfl
  · have hnone : s.handling = .none := by
      by_contra hne
      exact Phase.noConfusion (hphase.symm.trans (hs.handling hne).2)
    have hready : s.wakeUp.wakeUpFd.ready = true :=
      (hs.counted hhands hpos).resolve_right (by rw [hnone]; exact Handling.noConfusion)
    have hpos : 0 < s.wakeUp.wakeUpFd.counter := hpos
    exact .inr (by simp [WakeUpLoop.poll, hhands, Eventfd.reports, hready, hpos])

theorem Rung.handleRead (hs : s.Rung handsOn) (hread : s.handling = .read) :
    Rung handsOn { s with wakeUp := s.wakeUp.handleRead, handling := .conn } := by
  obtain ⟨hhands, hphase⟩ := hs.handling (by rw [hread]; exact Handling.noConfusion)
  exact ⟨hs.registered.handleRead, fun _ => ⟨hhands, hphase⟩,
    fun _ hpos => absurd hpos (lt_irrefl 0), fun _ _ => .inl hphase,
    fun _ _ h => absurd (hphase.symm.trans h) Phase.noConfusion⟩

theorem Rung.handleConn (hs : s.Rung handsOn) (hconn : s.handling = .conn) {now : Timeval}
    {wakeUp : WakeUp} (h : s.wakeUp.handleConn now = .ok wakeUp) :
    Rung handsOn { s with wakeUp := wakeUp, handling := .none } := by
  obtain ⟨-, hphase⟩ := hs.handling (by rw [hconn]; exact Handling.noConfusion)
  obtain ⟨w, hw, hregistered, hfd⟩ := hs.registered.exists_handleConn now
  obtain rfl : w = wakeUp := Except.ok.inj (hw.symm.trans h)
  refine ⟨hregistered, fun h => absurd rfl h, fun _ hpos => .inl ?_, fun _ _ => .inl hphase,
    fun _ _ h => absurd (hphase.symm.trans h) Phase.noConfusion⟩
  rw [hfd] at hpos ⊢
  have hpos : 0 < s.wakeUp.wakeUpFd.counter := hpos
  simp [Eventfd.modify, hpos]

/-- The thread of the loop goes on with it, elsewhere than in `epoll_wait`. -/
theorem Rung.turn (hs : s.Rung handsOn) (hphase : s.task.phase ≠ .poll)
    (hnone : s.handling = .none) {task : TaskLoop Functor} (h : s.task.advance = some task) :
    Rung handsOn { s with task := task } := by
  have hpending := hs.pending
  refine ⟨hs.registered, fun hne => absurd hnone hne, hs.counted, fun hhears hne => ?_,
    fun _ hlooping hpoll => ?_⟩
  · specialize hpending hhears
    cases TaskLoop.loopStep_of_advance h with
    | poll hpoll => exact absurd hpoll hphase
    | events => exact .inr (.inl rfl)
    | swap => exact absurd rfl hne
    | start hat | head hat | take hat | done hat | functor hat | expired hat =>
      rw [hat] at hpending
      refine .inr (.inr ?_)
      simpa using hpending hne
  · cases TaskLoop.loopStep_of_advance h with
    | head =>
      have hlooping : s.task.looping = false := hlooping
      rw [hlooping] at hpoll
      cases hpoll
    | _ => cases hpoll

theorem awake_of_reachable (hs : (system Functor handsOn).Reachable s) : s.task.Awake :=
  TaskLoop.awake_of_reachable ((refinement Functor handsOn).reachable hs)

theorem rung_of_reachable (hs : (system Functor handsOn).Reachable s) : s.Rung handsOn := by
  refine hs.invariant (fun s hs => ?_) fun s e s' hreach hs _ hst => ?_
  · obtain ⟨threadId, fd, revents, now, htask, hnew, hnone⟩ := hs
    obtain ⟨hregistered, hfd⟩ := WakeUp.registered_new hnew
    refine ⟨hregistered, fun hne => absurd hnone hne, fun _ hpos => ?_, fun _ hne => ?_,
      fun _ _ hphase => ?_⟩
    · rw [hfd] at hpos
      exact absurd hpos (lt_irrefl 0)
    · rw [htask] at hne
      exact absurd rfl hne
    · rw [htask] at hphase
      cases hphase
  · cases hst with
    | push ht => exact hs.push ht _
    | quit ht => exact hs.quits ht
    | finish => exact hs.finish (awake_of_reachable hreach) _
    | poll _ hphase h => exact hs.poll hphase h
    | handleRead _ hread => exact hs.handleRead hread
    | handleConn _ hconn h => exact hs.handleConn hconn h
    | turn _ hphase hnone h => exact hs.turn hphase hnone h

end Rung

/-- At any time of any run, the callbacks of the wake-up channel do not fail. And if the loop
    is about to call `epoll_wait` with a functor that is pending, or after `quit`, then
    `epoll_wait` returns at once, or there is a thread that is about to wake the loop up; as
    long as the event is handed on, or the counter is not full. -/
theorem reports_of_reachable {handsOn : Bool} {s : WakeUpLoop Functor}
    (hs : (system Functor handsOn).Reachable s) :
    (∀ now, s.handling = .conn → ∃ wakeUp, s.wakeUp.handleConn now = .ok wakeUp) ∧
    (s.Hears handsOn → s.task.phase = .poll →
      s.task.pendingFunctors ≠ [] ∨ s.task.looping = false →
      s.wakeUp.wakeUpFd.reports = true ∨ ∃ t, s.task.wakes t = true) := by
  have hrung := rung_of_reachable hs
  have hawake := awake_of_reachable hs
  refine ⟨fun now _ => ?_, fun hhears hphase hdue => ?_⟩
  · obtain ⟨w, hw, -, -⟩ := hrung.registered.exists_handleConn now
    exact ⟨w, hw⟩
  · rcases hdue with hne | hlooping
    · rcases hrung.pending hhears hne with h | h | h | ⟨t, ht⟩
      · cases hphase.symm.trans h
      · cases hphase.symm.trans h
      · exact .inl h
      · refine .inr ⟨t, (hawake.wakes_of_pushed ht).resolve_left ?_⟩
        rw [hphase]
        exact Phase.noConfusion
    · refine (hrung.quit hhears hlooping hphase).imp_right fun ⟨t, ht⟩ => ⟨t, ?_⟩
      exact hawake.wakes_of_quitting ht hphase

/-- A thread has pushed a functor while the loop was about to wait. -/
theorem exists_pushed : ∃ s, (system Unit false).Reachable s ∧
    s.wakeUp.wakeUpFd.counter < Eventfd.maxCounter ∧ s.task.phase = .poll ∧
      s.task.pendingFunctors ≠ [] ∧ ∀ t, s.task.caller t = .idle := by
  have h₀ : (system Unit false).Reachable ⟨.new 0, _, .none⟩ :=
    .init ⟨0, 4, 0, ⟨0, 0⟩, rfl, rfl, rfl⟩
  have h₁ := System.ReachableBy.step h₀ trivial (.turn rfl Phase.noConfusion rfl rfl)
  have h₂ := System.ReachableBy.step h₁ trivial (.turn rfl Phase.noConfusion rfl rfl)
  have h₃ := System.ReachableBy.step h₂ trivial
    (.push (by decide) : Step false _ (.push 1 ()) _)
  have h₄ := System.ReachableBy.step h₃ trivial (.finish (t := 1) Caller.noConfusion)
  refine ⟨_, h₄, by decide, rfl, List.cons_ne_nil _ _, fun t => ?_⟩
  by_cases heq : t = 1
  · subst heq
    rfl
  · exact (caller_finish heq).trans (TaskLoop.setCaller_of_ne _ heq _)

theorem reports_of_reachable_pushed : ∃ s : WakeUpLoop Unit, s.task.pendingFunctors ≠ [] ∧
    (∀ t, s.task.caller t = .idle) ∧
    (s.wakeUp.wakeUpFd.reports = true ∨ ∃ t, s.task.wakes t = true) := by
  obtain ⟨s, hs, hroom, hphase, hpending, hidle⟩ := exists_pushed
  exact ⟨s, hpending, hidle, (reports_of_reachable hs).2 (.inr hroom) hphase (.inl hpending)⟩

end WakeUpLoop

end Webserver
