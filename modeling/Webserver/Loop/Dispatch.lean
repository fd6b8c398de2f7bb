import Webserver.Poller
import Mathlib.Data.Int.Notation
import Mathlib.Data.List.Forall2
import Mathlib.Data.List.Nodup

/-!
# The dispatch of events

One iteration of `EventLoop::loop`: wait for events, collect the channels they
are reported for (`fillActiveChannels`), and have each of them handle its
events, by whatever callbacks it has.

* `EventLoop.dispatched_of_pollBody`: the pieces fit together. Were the channels
  collected, each event reported would be handled once, in order, by the channel
  registered for it.
* `EventLoop.dispatched_iterate_iff`: they are not collected. The body of the
  loop in `poll` is never run, so no event reported is handled.
-/

namespace Webserver

/-- An event that `epoll_wait` reports. -/
structure EpollEvent where
  fd : Fd
  events : Mask

/-- How a call of `epoll_wait` ends: with some events, none after a timeout, or
    with an error. -/
inductive Waited
  | ready (events : List EpollEvent)
  | error

namespace Waited

def numEvents : Waited → ℤ
  | ready events => events.length
  | error => -1

/-- The events reported. -/
def events : Waited → List EpollEvent
  | ready events => events
  | error => []

end Waited

/-- An `EventLoop`, with the channel objects its poller refers to and all that
    their callbacks act on besides. -/
structure EventLoop (σ : Type*) where
  poller : EPollPoller
  channel : ChannelId → Channel
  activeChannels : List ChannelId
  eventHanding : Bool
  rest : σ

/-- What a loop runs: the callbacks of the channels, and its last two phases. -/
structure Phases (σ : Type*) where
  callbacks : ChannelId → Channel.Callbacks Fault (EventLoop σ)
  doPendingFunctors : EventLoop σ → Except Fault (EventLoop σ)
  handleExpired : EventLoop σ → Except Fault (EventLoop σ)

namespace EventLoop

variable {σ : Type*}

/-- The place of a channel object. -/
def place (id : ChannelId) : Channel.Place (EventLoop σ) where
  get l := l.channel id
  set c l := { l with channel := Function.update l.channel id c }

/-- The channel `id` has the event reported. -/
def collect (l : EventLoop σ) (e : EpollEvent) (id : ChannelId) : EventLoop σ :=
  { l with
    channel := Function.update l.channel id ((l.channel id).setRevents e.events)
    activeChannels := l.activeChannels ++ [id] }

/-- Collects the channels that events are reported for. A descriptor that is not
    registered has a null pointer. -/
def fillActiveChannels : List EpollEvent → EventLoop σ → Except Fault (EventLoop σ)
  | [], l => .ok l
  | e :: events, l =>
    match l.poller.channels e.fd with
    | none => .error .nullDereference
    | some id => fillActiveChannels events (l.collect e id)

/-- The body of the loop in `poll`. -/
def pollBody (w : Waited) (l : EventLoop σ) : Except Fault (EventLoop σ) :=
  if w.numEvents > 0 then l.fillActiveChannels w.events else .ok l

/-- `EPollPoller::poll`, where `epoll_wait` ends as given. -/
def poll (w : Waited) (l : EventLoop σ) : Except Fault (EventLoop σ) :=
  -- The loop is a `while (false)`.
  if false then l.pollBody w else .ok l

/-- Has some channels handle their events, one after the other. What is recorded
    are the channels and their `revents` at the time of the call. -/
def handleAll (ph : Phases σ) :
    List ChannelId → EventLoop σ → List (ChannelId × Mask) × Except Fault (EventLoop σ)
  | [], l => ([], .ok l)
  | id :: ids, l =>
    match Channel.handleEvents (place id) (ph.callbacks id) l with
    | .error f => ([(id, (l.channel id).revents)], .error f)
    | .ok l' =>
      let (handled, result) := handleAll ph ids l'
      ((id, (l.channel id).revents) :: handled, result)

/-- One iteration of `loop`. -/
def iterate (ph : Phases σ) (w : Waited) (l : EventLoop σ) :
    List (ChannelId × Mask) × Except Fault (EventLoop σ) :=
  match poll w { l with activeChannels := [] } with
  | .error f => ([], .error f)
  | .ok l =>
    let (handled, result) := handleAll ph l.activeChannels { l with eventHanding := true }
    (handled, do
      let l ← result
      let l ← ph.doPendingFunctors { l with eventHanding := false }
      ph.handleExpired l)

/-- The events handled are the ones reported: once each, in order, by the channel
    registered for the descriptor, and with the mask reported. -/
def Dispatched (l : EventLoop σ) (events : List EpollEvent) (handled : List (ChannelId × Mask)) :
    Prop :=
  List.Forall₂ (fun e h => l.poller.channels e.fd = some h.1 ∧ e.events = h.2) events handled

/-- What `epoll_wait` reports: registered descriptors, each of them once. -/
structure Reports (l : EventLoop σ) (events : List EpollEvent) : Prop where
  nodup : (events.map EpollEvent.fd).Nodup
  registered : ∀ e ∈ events, ∃ id, l.poller.channels e.fd = some id ∧ (l.channel id).fd = e.fd

/-! ## Collecting and handling -/

@[simp] theorem collect_poller (l : EventLoop σ) (e : EpollEvent) (id : ChannelId) :
    (l.collect e id).poller = l.poller := rfl

@[simp] theorem collect_activeChannels (l : EventLoop σ) (e : EpollEvent) (id : ChannelId) :
    (l.collect e id).activeChannels = l.activeChannels ++ [id] := rfl

theorem collect_channel_self (l : EventLoop σ) (e : EpollEvent) (id : ChannelId) :
    (l.collect e id).channel id = (l.channel id).setRevents e.events :=
  Function.update_self _ _ _

theorem collect_channel_of_ne (l : EventLoop σ) (e : EpollEvent) {id id' : ChannelId}
    (h : id' ≠ id) : (l.collect e id).channel id' = l.channel id' :=
  Function.update_of_ne h _ _

@[simp] theorem collect_fd (l : EventLoop σ) (e : EpollEvent) (id id' : ChannelId) :
    ((l.collect e id).channel id').fd = (l.channel id').fd := by
  by_cases heq : id' = id
  · subst heq
    rw [collect_channel_self]
    rfl
  · rw [collect_channel_of_ne l e heq]

/-- The channels collected are the ones registered, and have the masks
    reported. -/
theorem fillActiveChannels_ok {l l' : EventLoop σ} {events : List EpollEvent}
    (hreports : l.Reports events) (h : l.fillActiveChannels events = .ok l') :
    ∃ ids : List ChannelId, l'.activeChannels = l.activeChannels ++ ids ∧ ids.Nodup ∧
      (ids.map fun id => (l.channel id).fd) = events.map EpollEvent.fd ∧
      List.Forall₂ (fun e id => l.poller.channels e.fd = some id ∧
        e.events = (l'.channel id).revents) events ids ∧
      ∀ id ∉ ids, l'.channel id = l.channel id := by
  induction events generalizing l with
  | nil =>
    cases h
    exact ⟨[], by simp, by simp, rfl, .nil, by simp⟩
  | cons e events ih =>
    obtain ⟨hnodup, hregistered⟩ := hreports
    rw [List.forall_mem_cons] at hregistered
    rw [List.map_cons, List.nodup_cons] at hnodup
    obtain ⟨⟨id, hid, hfd⟩, hregistered⟩ := hregistered
    rw [fillActiveChannels, hid] at h
    obtain ⟨ids, hactive, hids, hfds, hfill, hframe⟩ := ih (l := l.collect e id)
      ⟨hnodup.2, by simpa using hregistered⟩ h
    simp only [collect_fd] at hfds
    -- A channel has one descriptor, and each descriptor is reported once.
    have hnew : id ∉ ids := by
      intro hmem
      have hmem := List.mem_map_of_mem (f := fun id => (l.channel id).fd) hmem
      rw [hfds, hfd] at hmem
      exact hnodup.1 hmem
    refine ⟨id :: ids, by rw [hactive]; simp, List.nodup_cons.2 ⟨hnew, hids⟩,
      by rw [List.map_cons, List.map_cons, hfds, hfd], .cons ⟨hid, ?_⟩ hfill, fun id' hid' => ?_⟩
    · rw [hframe id hnew, collect_channel_self]
      rfl
    · rw [List.mem_cons, not_or] at hid'
      rw [hframe id' hid'.2, collect_channel_of_ne l e hid'.1]

/-- Handling the events of a channel leaves what is reported for the others. -/
def Phases.Frames (ph : Phases σ) : Prop :=
  ∀ (id : ChannelId) (l l' : EventLoop σ),
    Channel.handleEvents (place id) (ph.callbacks id) l = .ok l' →
    ∀ id' ≠ id, (l'.channel id').revents = (l.channel id').revents

/-- Channels handle their events with the masks reported for them. -/
theorem handleAll_ok {ph : Phases σ} (hframes : Phases.Frames ph) {ids : List ChannelId}
    (hids : ids.Nodup) {l l' : EventLoop σ} (h : (handleAll ph ids l).2 = .ok l') :
    (handleAll ph ids l).1 = ids.map fun id => (id, (l.channel id).revents) := by
  induction ids generalizing l with
  | nil => rfl
  | cons id ids ih =>
    rw [List.nodup_cons] at hids
    rw [handleAll] at h ⊢
    cases hevents : Channel.handleEvents (place id) (ph.callbacks id) l with
    | error f => rw [hevents] at h; cases h
    | ok l₁ =>
      rw [hevents] at h
      -- The masks of the other channels are still the ones collected.
      have hsame : (ids.map fun id => (id, (l₁.channel id).revents)) =
          ids.map fun id => (id, (l.channel id).revents) := by
        refine List.map_congr_left fun id' hid' => ?_
        rw [hframes id l l₁ hevents id' (by rintro rfl; exact hids.1 hid')]
      simp only [ih hids.2 h, hsame, List.map_cons]

/-- Once the channels are collected, their events are dispatched as they should
    be. -/
theorem dispatched_of_pollBody {ph : Phases σ} (hframes : Phases.Frames ph) {w : Waited}
    {l l₁ l' : EventLoop σ} (hreports : l.Reports w.events) (hactive : l.activeChannels = [])
    (hpoll : l.pollBody w = .ok l₁) (h : (handleAll ph l₁.activeChannels l₁).2 = .ok l') :
    l.Dispatched w.events (handleAll ph l₁.activeChannels l₁).1 := by
  have hfill : l.fillActiveChannels w.events = .ok l₁ := by
    rw [pollBody] at hpoll
    split at hpoll
    · exact hpoll
    · next hnum =>
      have hempty : w.events = [] := by
        cases w with
        | error => rfl
        | ready events => simpa [Waited.numEvents, Waited.events] using hnum
      rw [hempty]
      exact hpoll
  obtain ⟨ids, hids, hnodup, -, hfill, -⟩ := fillActiveChannels_ok hreports hfill
  rw [hactive, List.nil_append] at hids
  rw [hids] at h ⊢
  rw [handleAll_ok hframes hnodup h, Dispatched, List.forall₂_map_right_iff]
  exact hfill

/-! ## What the loop does -/

theorem iterate_handled (ph : Phases σ) (w : Waited) (l : EventLoop σ) :
    (l.iterate ph w).1 = [] := by
  simp [iterate, poll, handleAll]

/-- The events reported are dispatched only if there are none. -/
theorem dispatched_iterate_iff (ph : Phases σ) (w : Waited) (l : EventLoop σ) :
    l.Dispatched w.events (l.iterate ph w).1 ↔ w.events = [] := by
  rw [iterate_handled, Dispatched, List.forall₂_nil_right_iff]

/-- A loop whose only channel is its wake-up channel, on the descriptor 4. -/
def started : EventLoop Unit where
  poller := { EPollPoller.new with
    channels := Function.update (fun _ => none) 4 (some .wakeUp)
    interest := Function.update (fun _ => none) 4 (some (EPOLLIN ||| EPOLLET)) }
  channel _ := ⟨4, EPOLLIN ||| EPOLLET, 0, false⟩
  activeChannels := []
  eventHanding := false
  rest := ()

/-- Phases that do nothing. -/
def idle : Phases Unit := ⟨fun _ => ⟨none, none, none, none, none⟩, .ok, .ok⟩

/-- A write to the wake-up descriptor is not handled. -/
theorem not_dispatched_wakeUp :
    ¬∀ (σ : Type) (ph : Phases σ) (w : Waited) (l : EventLoop σ), l.Reports w.events →
      l.Dispatched w.events (l.iterate ph w).1 := by
  intro h
  have hreports : started.Reports [⟨4, EPOLLIN⟩] := by
    constructor
    · simp
    · simp only [List.forall_mem_cons, List.not_mem_nil]
      exact ⟨⟨.wakeUp, by simp [started], rfl⟩, by simp⟩
  have hdispatched := h Unit idle (.ready [⟨4, EPOLLIN⟩]) started hreports
  rw [iterate_handled] at hdispatched
  cases hdispatched

end EventLoop

end Webserver
