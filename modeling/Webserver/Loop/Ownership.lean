import Webserver.Loop.Registry

/-!
# The ownership of connections

Who may destroy a connection: while it handles its events, nobody; between two
phases of the loop, exactly one timer node, the one its `timer` refers to. The
right is taken from the node when handling begins (`seperaterTimer`), and a new
node gets it when the connection is registered again (`Conn.Renewed`); or the
connection is closed (`Conn.Dropped`).

* `Registry.OwnedBut`: the invariant, which excepts the connection whose events
  are handled. It is carried through the hand-over by `OwnedBut.separate`,
  `OwnedBut.renew` and `OwnedBut.drop`.
* `Registry.owned_of_reachable`: between two phases, the timer nodes that are not
  deleted and the connections registered belong to each other, one to one; and
  no connection is closed twice, or by a node that has not expired.
-/

namespace Webserver

open Transition

/-! ## What handling events does to the registration -/

namespace EPollPoller

/-- The poller after registering the connection `id` with a new timer node. -/
def renew (p : EPollPoller) (fd : Fd) (id : HttpId) (expiredTime : ℕ) (events : Mask) :
    EPollPoller where
  channels := Function.update p.channels fd (some (.http id))
  httpdatas := Function.update p.httpdatas fd (some id)
  interest := Function.update p.interest fd (some events)
  timermanager :=
    ⟨⟨p.timermanager.nextNode, expiredTime, some id, false⟩ :: p.timermanager.timerNodeQueue,
      p.timermanager.nextNode + 1⟩

/-- The poller after removing what is registered for a descriptor. -/
def drop (p : EPollPoller) (fd : Fd) : EPollPoller :=
  { p with
    channels := Function.update p.channels fd none
    httpdatas := Function.update p.httpdatas fd none
    interest := Function.update p.interest fd none }

theorem hold_eq (p : EPollPoller) (c : Channel) (id : HttpId) {timeout : ℕ} (now : Timeval)
    (htimeout : 0 < timeout) :
    p.hold c (.http id) timeout now = (some p.timermanager.nextNode,
      { p.renew c.fd id (now.clock + timeout) c.events with
        channels := p.channels, interest := p.interest }) := by
  rw [hold, if_pos htimeout]
  rfl

theorem addChannel_eq {p : EPollPoller} {c : Channel} {id : HttpId} {timeout : ℕ} {now : Timeval}
    {r : Option NodeId × EPollPoller} (htimeout : 0 < timeout)
    (h : p.addChannel c (.http id) timeout now = .ok r) :
    p.interest c.fd = none ∧
      r = (some p.timermanager.nextNode, p.renew c.fd id (now.clock + timeout) c.events) := by
  rw [addChannel, hold_eq p c id now htimeout] at h
  split at h
  next heq =>
    cases heq
    split at h
    · cases h
    · next hok =>
      cases h
      rw [not_or, not_or, not_not] at hok
      exact ⟨hok.2.2, rfl⟩

theorem updateChannel_eq {p : EPollPoller} {c : Channel} {id : HttpId} {timeout : ℕ}
    {now : Timeval} {r : Option NodeId × EPollPoller} (htimeout : 0 < timeout)
    (h : p.updateChannel c (.http id) timeout now = .ok r) :
    r = (some p.timermanager.nextNode, p.renew c.fd id (now.clock + timeout) c.events) := by
  rw [updateChannel, hold_eq p c id now htimeout] at h
  split at h
  next heq =>
    cases heq
    split at h <;> cases h
    rfl

theorem removeChannel_eq {p p' : EPollPoller} {c : Channel} (h : p.removeChannel c = .ok p') :
    p' = p.drop c.fd := by
  rw [removeChannel] at h
  split at h <;> cases h
  rfl

end EPollPoller

namespace Conn

variable {c c' d : Conn}

/-- The connection is registered, and its timer is a new node. -/
structure Renewed (c c' : Conn) : Prop where
  id : c'.http.id = c.http.id
  fd : c'.http.ownchannel.fd = c.http.ownchannel.fd
  timer : c'.http.timer = some c.poller.timermanager.nextNode
  poller : ∃ expiredTime events,
    c'.poller = c.poller.renew c.http.ownchannel.fd c.http.id expiredTime events
  closed : c'.closed = c.closed

/-- The connection is closed. -/
structure Dropped (c c' : Conn) : Prop where
  id : c'.http.id = c.http.id
  fd : c'.http.ownchannel.fd = c.http.ownchannel.fd
  poller : c'.poller = c.poller.drop c.http.ownchannel.fd
  closed : c'.closed = c.closed ++ [c.http.id]

theorem newEvent_renewed (h : c.newEvent = .ok c') :
    c.poller.interest c.http.ownchannel.fd = none ∧ Renewed c c' := by
  rw [newEvent] at h
  cases hadd : (c.setEvents DEFAULT_EVENT).poller.addChannel
      (c.setEvents DEFAULT_EVENT).http.ownchannel (.http (c.setEvents DEFAULT_EVENT).http.id)
      DEFAULT_EXPIRED_TIME (c.setEvents DEFAULT_EVENT).socket.now with
  | error f => simp only [hadd] at h; cases h
  | ok r =>
    obtain ⟨hinterest, rfl⟩ := EPollPoller.addChannel_eq (by decide) hadd
    simp only [hadd] at h
    cases h
    exact ⟨hinterest, rfl, rfl, rfl, ⟨_, _, rfl⟩, rfl⟩

/-- Registering again, with a timeout. -/
theorem updateChannel_renew {timeout : ℕ} (htimeout : 0 < timeout)
    (h : c.updateChannel timeout = .ok c') :
    c' = { c with
      http.timer := some c.poller.timermanager.nextNode
      poller := c.poller.renew c.http.ownchannel.fd c.http.id (c.socket.now.clock + timeout)
        c.http.ownchannel.events } := by
  rw [updateChannel] at h
  cases hupdate : c.poller.updateChannel c.http.ownchannel (.http c.http.id) timeout
      c.socket.now with
  | error f => simp only [hupdate] at h; cases h
  | ok r =>
    obtain rfl := EPollPoller.updateChannel_eq htimeout hupdate
    simp only [hupdate] at h
    cases h
    rfl

theorem updateChannel_renewed {timeout : ℕ} (htimeout : 0 < timeout)
    (h : c.updateChannel timeout = .ok c') : Renewed c c' := by
  rw [updateChannel_renew htimeout h]
  exact ⟨rfl, rfl, rfl, ⟨_, _, rfl⟩, rfl⟩

theorem handleClose_dropped (h : c.handleClose = .ok c') : Dropped c c' := by
  rw [handleClose] at h
  cases hremove : c.poller.removeChannel c.http.ownchannel with
  | error f => rw [hremove] at h; cases h
  | ok p =>
    rw [hremove] at h
    cases h
    exact ⟨rfl, rfl, EPollPoller.removeChannel_eq hremove, rfl⟩

/-- `handleConn` registers the connection with a new node, or closes it. -/
theorem handleConn_cases (h : c.handleConn = .ok c') : Renewed c c' ∨ Dropped c c' := by
  -- All three branches that register have a timeout.
  have hrenewed : ∀ {evt : Mask} {timeout : ℕ}, 0 < timeout →
      (c.setEvents evt).updateChannel timeout = .ok c' → Renewed c c' := by
    intro evt timeout htimeout h
    obtain ⟨hid, hfd, htimer, hpoller, hclosed⟩ := updateChannel_renewed htimeout h
    exact ⟨hid, hfd, htimer, hpoller, hclosed⟩
  rw [handleConn] at h
  split at h
  · refine .inl ?_
    split at h
    · refine hrenewed ?_ h
      split <;> decide
    · split at h
      · exact hrenewed (by decide) h
      · exact hrenewed (by decide) h
  · exact .inr (handleClose_dropped h)

theorem Kept.seperaterTimer (h : Kept c d) : Kept c.seperaterTimer d.seperaterTimer := by
  rw [Conn.seperaterTimer, Conn.seperaterTimer, h.poller, h.timer]
  split
  · exact h
  · exact ⟨h.id, h.fd, rfl, h.connectionState, rfl, h.closed, h.now⟩

/-- A callback for reading or writing, if its event is reported. -/
theorem callIf_kept {fs : FileSystem} {revents mask : Mask}
    (h : Channel.callIf revents mask (some (handleRead fs)) c = .ok d) :
    Kept c.seperaterTimer d ∨ revents &&& mask = 0 ∧ d = c :=
  (Channel.callIf_ok h).imp_left handleRead_kept

/-- What handling events comes to, as far as the registration is concerned: nothing, or
    that the connection gives up its timer node, and then `handleConn`. -/
theorem handleEvents_conn {fs : FileSystem}
    (hreported : Registry.Reported c.http.ownchannel.revents) (h : c.handleEvents fs = .ok c') :
    Kept c c' ∨
      ∃ d d', Kept c.seperaterTimer d ∧ d.handleConn = .ok d' ∧ Kept d' c' := by
  have hchannel : ∀ (d : Conn) (ch : Channel), ch.fd = d.http.ownchannel.fd →
      Kept d (channel.set ch d) := fun d ch hfd => ⟨rfl, hfd, rfl, rfl, rfl, rfl, rfl⟩
  rw [handleEvents] at h
  rcases Channel.handleEvents_ok rfl h with
    hclose | herror | ⟨hdispatched, s₁, s₂, s₃, hread, hwrite, hconn, rfl⟩
  · cases hclose
    exact .inl ⟨rfl, rfl, rfl, rfl, rfl, rfl, rfl⟩
  · cases herror
    exact .inl ⟨rfl, rfl, rfl, rfl, rfl, rfl, rfl⟩
  · refine .inr ?_
    have hconn := ok_of_mapError_eq_ok hconn
    have hstart :=
      (hchannel c { c.http.ownchannel with eventHandling := true } rfl).seperaterTimer
    refine ⟨s₂, s₃, ?_, hconn, hchannel s₃ _ rfl⟩
    rcases callIf_kept hread with hread | ⟨hin, rfl⟩
    · refine hstart.trans (hread.trans ?_)
      -- The timer has been separated already.
      rcases callIf_kept hwrite with hwrite | ⟨-, rfl⟩
      · rwa [(hread.separated (separated_seperaterTimer _)).seperaterTimer] at hwrite
      · exact .refl _
    · rcases callIf_kept hwrite with hwrite | ⟨hout, rfl⟩
      · exact hstart.trans hwrite
      -- No callback for reading or writing, although an event is reported.
      · rcases hreported.called hdispatched with hcalled | hcalled
        · exact absurd hin hcalled
        · exact absurd hout hcalled

/-- By `handleConn`, the connection is registered with a new timer node or closed. -/
theorem handleEvents_cases {fs : FileSystem}
    (hreported : Registry.Reported c.http.ownchannel.revents) (h : c.handleEvents fs = .ok c') :
    Kept c c' ∨
      ∃ d d', Kept c.seperaterTimer d ∧ (Renewed d d' ∨ Dropped d d') ∧ Kept d' c' := by
  refine (handleEvents_conn hreported h).imp_right ?_
  rintro ⟨d, d', hkept, hconn, hkept'⟩
  exact ⟨d, d', hkept, handleConn_cases hconn, hkept'⟩

end Conn

namespace Registry

/-! ## The invariant -/

/-- The timer nodes. -/
def queue (s : Registry) : List TimerNode := s.poller.timermanager.timerNodeQueue

/-- The descriptor and the timer of an `HttpData`, if it exists. -/
def holder (s : Registry) (id : HttpId) : Option (Fd × Option NodeId) :=
  (s.https id).map fun h => (h.ownchannel.fd, h.timer)

/-- The nodes that hold a connection. -/
def holders (s : Registry) (id : HttpId) : List TimerNode :=
  s.queue.filter fun node => !node.deleted && node.ownHttp == some id

theorem mem_holders {s : Registry} {id : HttpId} {node : TimerNode} :
    node ∈ s.holders id ↔ node ∈ s.queue ∧ node.deleted = false ∧ node.ownHttp = some id := by
  simp [holders]

/-- The tables of the poller agree on the connections registered, and none of
    these has been closed. -/
structure Consistent (s : Registry) : Prop where
  ids : ∀ id h, s.https id = some h → h.id = id ∧ id < s.nextId
  fds : ∀ fd id, s.poller.httpdatas fd = some id → ∃ timer, s.holder id = some (fd, timer)
  registered : ∀ fd id, s.poller.channels fd = some (.http id) ↔ s.poller.httpdatas fd = some id
  interest : ∀ fd id, s.poller.httpdatas fd = some id → s.poller.interest fd ≠ none
  closed : ∀ id ∈ s.closed, id < s.nextId ∧ ∀ fd, s.poller.httpdatas fd ≠ some id
  closed_nodup : s.closed.Nodup

/-- The timer nodes that are not deleted and the connections registered belong to
    each other, except that no node belongs to the connection `out`. -/
structure OwnedBut (out : Option HttpId) (s : Registry) : Prop where
  nodup : (s.queue.map TimerNode.id).Nodup
  lt_nextNode : ∀ node ∈ s.queue, node.id < s.poller.timermanager.nextNode
  cleared : ∀ node ∈ s.queue, node.deleted = true → node.ownHttp = none
  live : ∀ node ∈ s.queue, node.deleted = false → ∃ id fd, node.ownHttp = some id ∧
    some id ≠ out ∧ s.holder id = some (fd, some node.id) ∧ s.poller.httpdatas fd = some id
  held : ∀ fd id timer, s.poller.httpdatas fd = some id → s.holder id = some (fd, timer) →
    some id ≠ out →
    ∃ node ∈ s.queue, node.deleted = false ∧ node.ownHttp = some id ∧ timer = some node.id

section Store

variable {s : Registry} {c d : Conn}

@[simp] theorem store_https_self : (s.store c).https c.http.id = some c.http :=
  Function.update_self _ _ _

theorem store_https_of_ne {id : HttpId} (h : id ≠ c.http.id) : (s.store c).https id = s.https id :=
  Function.update_of_ne h _ _

@[simp] theorem holder_store_self :
    (s.store c).holder c.http.id = some (c.http.ownchannel.fd, c.http.timer) := by
  rw [holder, store_https_self]
  rfl

theorem holder_store_of_ne {id : HttpId} (h : id ≠ c.http.id) :
    (s.store c).holder id = s.holder id := by
  rw [holder, store_https_of_ne h]
  rfl

@[simp] theorem store_poller : (s.store c).poller = c.poller := rfl

theorem holder_store_congr {id : HttpId} (hid : d.http.id = c.http.id) (h : id ≠ c.http.id) :
    (s.store d).holder id = (s.store c).holder id := by
  rw [holder_store_of_ne h, holder_store_of_ne (hid ▸ h)]

/-- Putting back a connection just taken out changes nothing. -/
theorem store_conn {h : HttpData} (hid : s.https h.id = some h) (socket : Socket) :
    s.store (s.conn h socket) = s := by
  rw [store, conn]
  simp only [← hid, Function.update_eq_self]

/-- The object put back has the identity it is filed under. -/
theorem Consistent.ids_store (hs : Consistent (s.store c)) (hid : d.http.id = c.http.id)
    {id : HttpId} {h : HttpData} (h' : (s.store d).https id = some h) :
    h.id = id ∧ id < s.nextId := by
  by_cases heq : id = d.http.id
  · subst heq
    obtain rfl : d.http = h := Option.some.inj (store_https_self.symm.trans h')
    exact ⟨rfl, hid ▸ (hs.ids _ _ store_https_self).2⟩
  · rw [store_https_of_ne heq] at h'
    exact hs.ids id h (by rwa [store_https_of_ne (hid ▸ heq)])

/-- Another descriptor belongs to another connection. -/
theorem Consistent.ne_of_fd (hs : Consistent (s.store c)) {fd : Fd} {id : HttpId}
    (h : c.poller.httpdatas fd = some id) (hfd : fd ≠ c.http.ownchannel.fd) : id ≠ c.http.id := by
  rintro rfl
  obtain ⟨timer, hholder⟩ := hs.fds fd _ h
  rw [holder_store_self] at hholder
  exact hfd (Prod.mk.inj (Option.some.inj hholder)).1.symm

/-- The tables do not depend on the timers. -/
theorem Consistent.same (hs : Consistent (s.store c)) (hid : d.http.id = c.http.id)
    (hfd : d.http.ownchannel.fd = c.http.ownchannel.fd)
    (hpoller : ∃ t, d.poller = { c.poller with timermanager := t })
    (hclosed : d.closed = c.closed) : Consistent (s.store d) := by
  obtain ⟨t, ht⟩ := hpoller
  refine ⟨fun id h => hs.ids_store hid, fun fd id h => ?_, ?_, ?_, ?_, ?_⟩
  · by_cases heq : id = d.http.id
    · subst heq
      refine ⟨d.http.timer, holder_store_self.trans ?_⟩
      obtain ⟨timer, hholder⟩ := hs.fds fd d.http.id (by rwa [store, ht] at h)
      rw [hid, holder_store_self] at hholder
      rw [hfd, (Prod.mk.inj (Option.some.inj hholder)).1]
    · rw [holder_store_congr hid (hid ▸ heq)]
      exact hs.fds fd id (by rwa [store, ht] at h)
  · rw [store, ht]; exact hs.registered
  · rw [store, ht]; exact hs.interest
  · rw [store, ht, hclosed]; exact hs.closed
  · rw [store, hclosed]; exact hs.closed_nodup

theorem Consistent.kept (hs : Consistent (s.store c)) (h : c.Kept d) : Consistent (s.store d) :=
  hs.same h.id h.fd ⟨_, h.poller⟩ h.closed

theorem Consistent.separate (hs : Consistent (s.store c)) :
    Consistent (s.store c.seperaterTimer) := by
  obtain ⟨t, p, hsep⟩ := c.seperaterTimer_eq
  rw [hsep]
  exact hs.same rfl rfl ⟨_, rfl⟩ rfl

/-- Who owns a connection depends on its registration only. -/
theorem OwnedBut.kept {out : Option HttpId} (hs : OwnedBut out (s.store c)) (h : c.Kept d) :
    OwnedBut out (s.store d) := by
  have hholder : (s.store d).holder = (s.store c).holder := by
    funext id
    by_cases hid : id = c.http.id
    · subst hid
      rw [holder_store_self, ← h.id, holder_store_self, h.fd, h.timer]
    · rw [holder_store_of_ne hid, holder_store_of_ne (h.id ▸ hid)]
  have hpoller : (s.store d).poller = (s.store c).poller := h.poller
  have hqueue : (s.store d).queue = (s.store c).queue := by rw [queue, hpoller, queue]
  obtain ⟨hnodup, hlt, hcleared, hlive, hheld⟩ := hs
  rw [← hqueue] at hnodup hlt hcleared hlive hheld
  rw [← hpoller] at hlt hlive hheld
  rw [← hholder] at hlive hheld
  exact ⟨hnodup, hlt, hcleared, hlive, hheld⟩

end Store

/-! ## The hand-over -/

section HandOver

variable {s : Registry} {c c' : Conn} {out : Option HttpId}

theorem OwnedBut.eq_of_id (hs : OwnedBut out s) {node node' : TimerNode} (h : node ∈ s.queue)
    (h' : node' ∈ s.queue) (hid : node.id = node'.id) : node = node' :=
  List.inj_on_of_nodup_map hs.nodup h h' hid

theorem OwnedBut.deleted_eq_false (hs : OwnedBut out s) {node : TimerNode} (h : node ∈ s.queue)
    {id : HttpId} (hown : node.ownHttp = some id) : node.deleted = false := by
  cases hdeleted : node.deleted with
  | true => rw [hs.cleared node h hdeleted] at hown; cases hown
  | false => rfl

/-- The timer of a registered connection is a node of its own. -/
theorem OwnedBut.exists_node (hs : OwnedBut none (s.store c))
    (hc : c.poller.httpdatas c.http.ownchannel.fd = some c.http.id) :
    ∃ node ∈ (s.store c).queue, node.ownHttp = some c.http.id ∧ c.http.timer = some node.id ∧
      c.seperaterTimer = { c with
        http.timer := none, poller.timermanager := c.poller.timermanager.clearHttp node.id } := by
  obtain ⟨node, hmem, -, hown, htimer⟩ :=
    hs.held _ _ _ hc holder_store_self (Option.some_ne_none _)
  have hlock : c.poller.timermanager.lock c.http.timer = some node.id :=
    Timer.lock_eq_some_iff.2 ⟨htimer, node, hmem, rfl⟩
  exact ⟨node, hmem, hown, htimer, by rw [Conn.seperaterTimer, hlock]⟩

/-- The timer node of a registered connection gives up its right. -/
theorem OwnedBut.separate (hs : OwnedBut none (s.store c))
    (hc : c.poller.httpdatas c.http.ownchannel.fd = some c.http.id) :
    OwnedBut (some c.http.id) (s.store c.seperaterTimer) := by
  obtain ⟨node, hmem, hown, htimer, hsep⟩ := hs.exists_node hc
  have hholder : ∀ id, id ≠ c.http.id →
      (s.store c.seperaterTimer).holder id = (s.store c).holder id :=
    fun id => holder_store_congr (by rw [hsep])
  rw [hsep] at hholder ⊢
  -- The only node changed is the one of the connection, which is now deleted.
  refine ⟨?_, fun node' hnode' => ?_, fun node' hnode' => ?_, fun node' hnode' hdeleted => ?_,
    fun fd id timer hfd htimer' hid => ?_⟩
  · exact (Timer.clearHttp_ids _ _).symm ▸ hs.nodup
  · obtain ⟨old, hold, rfl⟩ := Timer.mem_clearHttp.1 hnode'
    split <;> exact hs.lt_nextNode old hold
  · obtain ⟨old, hold, rfl⟩ := Timer.mem_clearHttp.1 hnode'
    split
    · exact fun _ => rfl
    · exact hs.cleared old hold
  · obtain ⟨old, hold, rfl⟩ := Timer.mem_clearHttp.1 hnode'
    split at hdeleted
    · cases hdeleted
    · next hne =>
      rw [if_neg hne]
      obtain ⟨id, fd, hown', -, hholder', hfd⟩ := hs.live old hold hdeleted
      have hid : id ≠ c.http.id := by
        rintro rfl
        rw [holder_store_self, htimer] at hholder'
        exact hne (Option.some.inj (Prod.mk.inj (Option.some.inj hholder')).2).symm
      exact ⟨id, fd, hown', by simpa using hid, (hholder id hid).trans hholder', hfd⟩
  · have hid : id ≠ c.http.id := by simpa using hid
    obtain ⟨node', hmem', hdeleted', hown', rfl⟩ :=
      hs.held fd id timer hfd ((hholder id hid).symm.trans htimer') (Option.some_ne_none _)
    have hne : node'.id ≠ node.id := by
      intro heq
      rw [hs.eq_of_id hmem' hmem heq, hown] at hown'
      exact hid (Option.some.inj hown').symm
    exact ⟨node', Timer.mem_clearHttp.2 ⟨node', hmem', (if_neg hne).symm⟩, hdeleted', hown', rfl⟩

/-- A new node owns the connection that is registered with it. -/
theorem OwnedBut.renew (hs : OwnedBut (some c.http.id) (s.store c)) (hcons : Consistent (s.store c))
    (hc : ∀ id, c.poller.httpdatas c.http.ownchannel.fd = some id → id = c.http.id)
    (h : c.Renewed c') : OwnedBut none (s.store c') := by
  obtain ⟨expiredTime, events, hpoller⟩ := h.poller
  have hself : (s.store c').holder c.http.id =
      some (c.http.ownchannel.fd, some c.poller.timermanager.nextNode) := by
    rw [← h.id, holder_store_self, h.fd, h.timer]
  have hqueue : (s.store c').queue =
      ⟨c.poller.timermanager.nextNode, expiredTime, some c.http.id, false⟩ ::
        (s.store c).queue := by
    rw [queue, store, hpoller]
    rfl
  have hhttpdatas : (s.store c').poller.httpdatas =
      Function.update c.poller.httpdatas c.http.ownchannel.fd (some c.http.id) := by
    rw [store, hpoller]
    rfl
  have hnext : (s.store c').poller.timermanager.nextNode = c.poller.timermanager.nextNode + 1 := by
    rw [store, hpoller]
    rfl
  -- The new node has a fresh identity, and its connection had no owner.
  refine ⟨?_, ?_, ?_, ?_, fun fd id timer hfd htimer _ => ?_⟩
  · rw [hqueue, List.map_cons, List.nodup_cons]
    refine ⟨fun hmem => ?_, hs.nodup⟩
    obtain ⟨node, hnode, hid⟩ := List.mem_map.1 hmem
    exact Nat.lt_irrefl _ (hid ▸ hs.lt_nextNode node hnode)
  · rw [hqueue, hnext, List.forall_mem_cons]
    exact ⟨Nat.lt_succ_self _, fun node hnode => Nat.lt_succ_of_lt (hs.lt_nextNode node hnode)⟩
  · rw [hqueue, List.forall_mem_cons]
    exact ⟨fun hdeleted => (by cases hdeleted), hs.cleared⟩
  · rw [hqueue, hhttpdatas, List.forall_mem_cons]
    refine ⟨fun _ => ⟨c.http.id, c.http.ownchannel.fd, rfl, Option.some_ne_none _, hself,
      Function.update_self _ _ _⟩, fun node hnode hdeleted => ?_⟩
    obtain ⟨id, fd, hown, hid, hholder, hfd⟩ := hs.live node hnode hdeleted
    have hid : id ≠ c.http.id := by simpa using hid
    have hne : fd ≠ c.http.ownchannel.fd := by
      rintro rfl
      exact hid (hc id hfd)
    exact ⟨id, fd, hown, Option.some_ne_none _, (holder_store_congr h.id hid).trans hholder,
      (Function.update_of_ne hne _ _).trans hfd⟩
  · rw [hhttpdatas] at hfd
    rw [hqueue]
    by_cases heq : fd = c.http.ownchannel.fd
    · subst heq
      rw [Function.update_self] at hfd
      cases hfd
      rw [hself] at htimer
      obtain ⟨-, rfl⟩ := Prod.mk.inj (Option.some.inj htimer)
      exact ⟨_, List.mem_cons_self, rfl, rfl, rfl⟩
    · rw [Function.update_of_ne heq] at hfd
      have hid := hcons.ne_of_fd hfd heq
      rw [holder_store_congr h.id hid] at htimer
      obtain ⟨node, hnode, h⟩ := hs.held fd id timer hfd htimer (by simpa using hid)
      exact ⟨node, List.mem_cons_of_mem _ hnode, h⟩

theorem Consistent.renew (hs : Consistent (s.store c)) (hopen : c.http.id ∉ c.closed)
    (h : c.Renewed c') : Consistent (s.store c') := by
  obtain ⟨expiredTime, events, hpoller⟩ := h.poller
  have hupdate : ∀ fd id, (s.store c').poller.httpdatas fd = some id ↔
      fd = c.http.ownchannel.fd ∧ id = c.http.id ∨
        fd ≠ c.http.ownchannel.fd ∧ c.poller.httpdatas fd = some id := by
    intro fd id
    rw [store, hpoller]
    simp only [EPollPoller.renew, Function.update_apply]
    split <;> simp_all [eq_comm]
  refine ⟨fun id h' => hs.ids_store h.id, fun fd id hfd => ?_, fun fd id => ?_, fun fd id hfd => ?_,
    fun id hid => ?_, ?_⟩
  · rcases (hupdate fd id).1 hfd with ⟨rfl, rfl⟩ | ⟨hne, hfd⟩
    · exact ⟨_, by rw [← h.id, holder_store_self, h.fd]⟩
    · obtain ⟨timer, hholder⟩ := hs.fds fd id hfd
      exact ⟨timer, (holder_store_congr h.id (hs.ne_of_fd hfd hne)).trans hholder⟩
  · rw [hupdate, store, hpoller]
    simp only [EPollPoller.renew, Function.update_apply]
    split
    · next heq => simp [heq, eq_comm]
    · next hne => simpa [hne] using hs.registered fd id
  · rw [store, hpoller]
    simp only [EPollPoller.renew, Function.update_apply]
    rcases (hupdate fd id).1 hfd with ⟨rfl, -⟩ | ⟨hne, hfd⟩
    · simp
    · rw [if_neg hne]
      exact hs.interest fd id hfd
  · have hid : id ∈ c.closed := h.closed ▸ hid
    refine ⟨(hs.closed id hid).1, fun fd hfd => ?_⟩
    rcases (hupdate fd id).1 hfd with ⟨-, rfl⟩ | ⟨-, hfd⟩
    · exact hopen hid
    · exact (hs.closed id hid).2 fd hfd
  · rw [store, h.closed]
    exact hs.closed_nodup

/-- No node belongs to a connection that is closed. -/
theorem OwnedBut.drop (hs : OwnedBut (some c.http.id) (s.store c)) (hcons : Consistent (s.store c))
    (hc : c.poller.httpdatas c.http.ownchannel.fd = some c.http.id) (h : c.Dropped c') :
    OwnedBut none (s.store c') := by
  have hhttpdatas : (s.store c').poller.httpdatas =
      Function.update c.poller.httpdatas c.http.ownchannel.fd none := by
    rw [store, h.poller]
    rfl
  have htimer : (s.store c').poller.timermanager = c.poller.timermanager := by
    rw [store, h.poller]
    rfl
  have hqueue : (s.store c').queue = (s.store c).queue := congrArg Timer.timerNodeQueue htimer
  refine ⟨?_, ?_, ?_, ?_, fun fd id timer hfd hholder _ => ?_⟩
  · rw [hqueue]
    exact hs.nodup
  · rw [hqueue, htimer]
    exact hs.lt_nextNode
  · rw [hqueue]
    exact hs.cleared
  · rw [hqueue, hhttpdatas]
    intro node hnode hdeleted
    obtain ⟨id, fd, hown, hid, hholder, hfd⟩ := hs.live node hnode hdeleted
    have hid : id ≠ c.http.id := by simpa using hid
    have hne : fd ≠ c.http.ownchannel.fd := by
      rintro rfl
      exact hid (Option.some.inj (hfd.symm.trans hc))
    exact ⟨id, fd, hown, Option.some_ne_none _, (holder_store_congr h.id hid).trans hholder,
      (Function.update_of_ne hne _ _).trans hfd⟩
  · rw [hhttpdatas] at hfd
    rw [hqueue]
    have hne : fd ≠ c.http.ownchannel.fd := by
      rintro rfl
      rw [Function.update_self] at hfd
      cases hfd
    rw [Function.update_of_ne hne] at hfd
    have hid := hcons.ne_of_fd hfd hne
    rw [holder_store_congr h.id hid] at hholder
    exact hs.held fd id timer hfd hholder (by simpa using hid)

theorem Consistent.drop (hs : Consistent (s.store c))
    (hc : c.poller.httpdatas c.http.ownchannel.fd = some c.http.id) (h : c.Dropped c') :
    Consistent (s.store c') := by
  have hupdate : ∀ fd id, (s.store c').poller.httpdatas fd = some id ↔
      fd ≠ c.http.ownchannel.fd ∧ c.poller.httpdatas fd = some id := by
    intro fd id
    rw [store, h.poller]
    simp only [EPollPoller.drop, Function.update_apply]
    split <;> simp_all
  refine ⟨fun id h' => hs.ids_store h.id, fun fd id hfd => ?_, fun fd id => ?_, fun fd id hfd => ?_,
    ?_, ?_⟩
  · obtain ⟨hne, hfd⟩ := (hupdate fd id).1 hfd
    obtain ⟨timer, hholder⟩ := hs.fds fd id hfd
    exact ⟨timer, (holder_store_congr h.id (hs.ne_of_fd hfd hne)).trans hholder⟩
  · rw [hupdate, store, h.poller]
    simp only [EPollPoller.drop, Function.update_apply]
    split
    · next heq => simp [heq]
    · next hne => simpa [hne] using hs.registered fd id
  · obtain ⟨hne, hfd⟩ := (hupdate fd id).1 hfd
    rw [store, h.poller]
    simp only [EPollPoller.drop, Function.update_apply, if_neg hne]
    exact hs.interest fd id hfd
  · rw [store, h.closed]
    simp only [List.mem_append, List.mem_singleton]
    rintro id (hid | rfl)
    · refine ⟨(hs.closed id hid).1, fun fd hfd => (hs.closed id hid).2 fd ?_⟩
      exact ((hupdate fd id).1 hfd).2
    · refine ⟨(hs.ids _ _ store_https_self).2, fun fd hfd => ?_⟩
      obtain ⟨hne, hfd⟩ := (hupdate fd _).1 hfd
      exact hs.ne_of_fd hfd hne rfl
  · rw [store, h.closed]
    refine List.nodup_append.2 ⟨hs.closed_nodup, by simp, ?_⟩
    intro id hid id' hid' heq
    rw [List.mem_singleton] at hid'
    subst heq hid'
    exact (hs.closed _ hid).2 _ hc

/-- Taking a node out of the queue leaves its connection without an owner. -/
theorem OwnedBut.pop (hs : OwnedBut none s) {node : TimerNode} (hnode : node ∈ s.queue) :
    OwnedBut node.ownHttp (s.pop node) := by
  have hqueue : (s.pop node).queue = s.queue.erase node := rfl
  have hnodup : s.queue.Nodup := hs.nodup.of_map
  have hmem : ∀ node', node' ∈ (s.pop node).queue ↔ node' ≠ node ∧ node' ∈ s.queue := by
    intro node'
    rw [hqueue, hnodup.mem_erase_iff]
  refine ⟨hs.nodup.sublist ((List.erase_sublist).map _), fun node' h => ?_, fun node' h => ?_,
    fun node' h hdeleted => ?_, fun fd id timer hfd hholder hid => ?_⟩
  · exact hs.lt_nextNode node' ((hmem node').1 h).2
  · exact hs.cleared node' ((hmem node').1 h).2
  · obtain ⟨hne, h⟩ := (hmem node').1 h
    obtain ⟨id, fd, hown, -, hholder, hfd⟩ := hs.live node' h hdeleted
    refine ⟨id, fd, hown, fun hid => hne ?_, hholder, hfd⟩
    -- The connection would belong to both nodes.
    cases hdeleted' : node.deleted with
    | true => rw [hs.cleared node hnode hdeleted'] at hid; cases hid
    | false =>
      obtain ⟨id', fd', hown', -, hholder', -⟩ := hs.live node hnode hdeleted'
      obtain rfl : id = id' := Option.some.inj (hid.trans hown')
      have hids := (Prod.mk.inj (Option.some.inj (hholder.symm.trans hholder'))).2
      exact hs.eq_of_id h hnode (Option.some.inj hids)
  · obtain ⟨node', h, hdeleted, hown, htimer⟩ :=
      hs.held fd id timer hfd hholder (Option.some_ne_none _)
    refine ⟨node', (hmem node').2 ⟨?_, h⟩, hdeleted, hown, htimer⟩
    rintro rfl
    exact hid hown.symm

theorem Consistent.pop (hs : Consistent s) (node : TimerNode) : Consistent (s.pop node) :=
  ⟨hs.ids, hs.fds, hs.registered, hs.interest, hs.closed, hs.closed_nodup⟩

end HandOver

/-! ## The phases -/

/-- The invariant, between two phases. -/
structure Inv (s : Registry) : Prop where
  consistent : Consistent s
  owned : OwnedBut none s

theorem Started.inv {s : Registry} (hs : s.Started) : Inv s := by
  have hqueue : s.queue = [] := hs.timerNodeQueue
  constructor
  · refine ⟨fun id h hid => ?_, fun fd id hfd => ?_, fun fd id => ?_, fun fd id hfd => ?_,
      fun id hid => ?_, ?_⟩
    · rw [hs.https] at hid
      cases hid
    · rw [hs.httpdatas] at hfd
      cases hfd
    · simp [hs.channels, hs.httpdatas]
    · rw [hs.httpdatas] at hfd
      cases hfd
    · rw [hs.closed] at hid
      cases hid
    · rw [hs.closed]
      exact List.nodup_nil
  · refine ⟨?_, ?_, ?_, ?_, fun fd id timer hfd => ?_⟩
    · simp [hqueue]
    · simp [hqueue]
    · simp [hqueue]
    · simp [hqueue]
    · rw [hs.httpdatas] at hfd
      cases hfd

section Phases

variable {s s' : Registry}

/-- A new connection, which nothing refers to yet. -/
theorem Inv.withNew (hs : Inv s) {c : Conn} (hpoller : c.poller = s.poller)
    (hclosed : c.closed = s.closed) (hid : c.http.id = s.nextId) :
    Consistent ({ s with nextId := s.nextId + 1 }.store c) ∧
      OwnedBut (some c.http.id) ({ s with nextId := s.nextId + 1 }.store c) := by
  have hholder : ∀ id, id ≠ c.http.id →
      ({ s with nextId := s.nextId + 1 }.store c).holder id = s.holder id :=
    fun id hne => (holder_store_of_ne hne).trans rfl
  have hne : ∀ fd id, c.poller.httpdatas fd = some id → id ≠ c.http.id := by
    rintro fd id hfd rfl
    rw [hpoller, hid] at hfd
    obtain ⟨timer, hholder⟩ := hs.consistent.fds fd _ hfd
    obtain ⟨h, hh, -⟩ := Option.map_eq_some_iff.1 hholder
    exact Nat.lt_irrefl _ (hs.consistent.ids _ h hh).2
  constructor
  · refine ⟨fun id h hid' => ?_, fun fd id hfd => ?_, ?_, ?_, fun id hid' => ?_, ?_⟩
    · by_cases heq : id = c.http.id
      · subst heq
        rw [store_https_self] at hid'
        cases hid'
        exact ⟨rfl, hid ▸ Nat.lt_succ_self _⟩
      · rw [store_https_of_ne heq] at hid'
        exact ⟨(hs.consistent.ids id h hid').1, Nat.lt_succ_of_lt (hs.consistent.ids id h hid').2⟩
    · obtain ⟨timer, hid'⟩ := hs.consistent.fds fd id (hpoller ▸ hfd)
      exact ⟨timer, (hholder id (hne fd id hfd)).trans hid'⟩
    · rw [store_poller, hpoller]; exact hs.consistent.registered
    · rw [store_poller, hpoller]; exact hs.consistent.interest
    · have hid' := hs.consistent.closed id (hclosed ▸ hid')
      rw [store_poller, hpoller]
      exact ⟨Nat.lt_succ_of_lt hid'.1, hid'.2⟩
    · rw [store, hclosed]; exact hs.consistent.closed_nodup
  · have hqueue : ({ s with nextId := s.nextId + 1 }.store c).queue = s.queue := by
      rw [queue, store_poller, hpoller, queue]
    refine ⟨?_, ?_, ?_, fun node hnode hdeleted => ?_, fun fd id timer hfd htimer _ => ?_⟩
    · rw [hqueue]; exact hs.owned.nodup
    · rw [hqueue, store_poller, hpoller]; exact hs.owned.lt_nextNode
    · rw [hqueue]; exact hs.owned.cleared
    · rw [hqueue] at hnode
      obtain ⟨id, fd, hown, -, hholder', hfd⟩ := hs.owned.live node hnode hdeleted
      rw [← hpoller] at hfd
      have hid' := hne fd id hfd
      exact ⟨id, fd, hown, by simpa using hid', (hholder id hid').trans hholder', hfd⟩
    · rw [hholder id (hne fd id hfd)] at htimer
      rw [hqueue]
      exact hs.owned.held fd id timer (hpoller ▸ hfd) htimer (Option.some_ne_none _)

theorem Inv.newEvent (hs : Inv s) {fd : Fd} {method : Option HttpMethod} {events revents : Mask}
    {now : Timeval} (h : s.newEvent fd method events revents now = .ok s') : Inv s' := by
  rw [Registry.newEvent] at h
  split at h
  · cases h
  · next c' hnew =>
    cases h
    obtain ⟨hinterest, hrenewed⟩ := Conn.newEvent_renewed hnew
    obtain ⟨hcons, howned⟩ := hs.withNew
      (c := s.conn (.new s.nextId fd method events revents) ⟨[], [], [], now⟩) rfl rfl rfl
    refine ⟨hcons.renew (fun hid => ?_) hrenewed, howned.renew hcons (fun id hfd => ?_) hrenewed⟩
    · exact Nat.lt_irrefl _ (hs.consistent.closed _ hid).1
    · exact absurd hinterest (hs.consistent.interest _ _ hfd)

/-- Handling events hands the connection over to a new node, or closes it. -/
theorem Inv.handOver {c d d' c' : Conn} (hs : Inv (s.store c))
    (hc : c.poller.httpdatas c.http.ownchannel.fd = some c.http.id)
    (hkept : Conn.Kept c.seperaterTimer d) (hconn : d.Renewed d' ∨ d.Dropped d')
    (hkept' : d'.Kept c') : Inv (s.store c') := by
  -- Separated, then registered or closed: between the two, the connection has no owner.
  obtain ⟨t, p, hsep⟩ := c.seperaterTimer_eq
  have hcons := hs.consistent.separate.kept hkept
  have howned := (hs.owned.separate hc).kept hkept
  have hid : d.http.id = c.http.id := hkept.id.trans (by rw [hsep])
  have hd : d.poller.httpdatas d.http.ownchannel.fd = some d.http.id := by
    rw [hid, hkept.fd, hkept.poller, hsep]
    exact hc
  have hopen : d.http.id ∉ d.closed := fun hmem => (hcons.closed _ hmem).2 _ hd
  rw [← hid] at howned
  have hunused : ∀ id, d.poller.httpdatas d.http.ownchannel.fd = some id → id = d.http.id :=
    fun id hfd => Option.some.inj (hfd.symm.trans hd)
  rcases hconn with hrenewed | hdropped
  · exact ⟨(hcons.renew hopen hrenewed).kept hkept',
      (howned.renew hcons hunused hrenewed).kept hkept'⟩
  · exact ⟨(hcons.drop hd hdropped).kept hkept', (howned.drop hcons hd hdropped).kept hkept'⟩

/-- The object of a registered connection. -/
theorem Consistent.exists_http (hs : Consistent s) {fd : Fd} {id : HttpId}
    (hfd : s.poller.httpdatas fd = some id) :
    ∃ h, s.https id = some h ∧ h.id = id ∧ h.ownchannel.fd = fd := by
  obtain ⟨timer, hholder⟩ := hs.fds fd id hfd
  obtain ⟨h, hh, hpair⟩ := Option.map_eq_some_iff.1 hholder
  exact ⟨h, hh, (hs.ids id h hh).1, (Prod.mk.inj hpair).1⟩

theorem Inv.handleEvents (hs : Inv s) {fs : FileSystem} {fd : Fd} {id : HttpId} {revents : Mask}
    {reads : List ReadResult} {writes : List WriteResult} {now : Timeval}
    (hfd : s.poller.channels fd = some (.http id)) (hreported : Reported revents)
    (h : s.handleEvents fs id revents reads writes now = .ok s') : Inv s' := by
  rw [hs.consistent.registered] at hfd
  obtain ⟨http, hhttp, rfl, rfl⟩ := hs.consistent.exists_http hfd
  rw [Registry.handleEvents, hhttp] at h
  simp only at h
  split at h
  · cases h
  · next c' hevents =>
    cases h
    have hkept : Conn.Kept (s.conn http ⟨reads, writes, [], now⟩)
        (s.conn { http with ownchannel := http.ownchannel.setRevents revents }
          ⟨reads, writes, [], now⟩) := ⟨rfl, rfl, rfl, rfl, rfl, rfl, rfl⟩
    rw [← store_conn hhttp ⟨reads, writes, [], now⟩] at hs
    have hs : Inv (s.store _) := ⟨hs.consistent.kept hkept, hs.owned.kept hkept⟩
    rcases Conn.handleEvents_cases hreported hevents with hkept | ⟨d, d', hkept, hconn, hkept'⟩
    · exact ⟨hs.consistent.kept hkept, hs.owned.kept hkept⟩
    · exact hs.handOver hfd hkept hconn hkept'

/-- The connection that a node owns is registered. -/
theorem Inv.exists_http (hs : Inv s) {node : TimerNode} (hnode : node ∈ s.queue) {id : HttpId}
    (hown : node.ownHttp = some id) :
    ∃ h, s.https id = some h ∧ h.id = id ∧ s.poller.httpdatas h.ownchannel.fd = some id := by
  obtain ⟨id', fd, hown', -, -, hfd⟩ :=
    hs.owned.live node hnode (hs.owned.deleted_eq_false hnode hown)
  obtain rfl : id = id' := Option.some.inj (hown.symm.trans hown')
  obtain ⟨h, hh, hid, rfl⟩ := hs.consistent.exists_http hfd
  exact ⟨h, hh, hid, hfd⟩

/-- Destroying a node closes the connection it owns, if any. -/
theorem Inv.destroy (hs : Inv s) {node expired : TimerNode} (hnode : node ∈ s.queue)
    (hown : expired.ownHttp = node.ownHttp) (h : (s.pop node).destroy expired = .ok s') :
    Inv s' ∧ s'.queue = s.queue.erase node ∧ ∀ id ∈ s'.closed, id ∈ s.closed ∨
      node.ownHttp = some id := by
  have hcons := hs.consistent.pop node
  have howned := hs.owned.pop hnode
  have hqueue : s'.queue = s.queue.erase node := congrArg Timer.timerNodeQueue (destroy_queue h)
  rw [Registry.destroy, hown] at h
  cases hid : node.ownHttp with
  | none =>
    rw [hid] at h howned
    cases h
    exact ⟨⟨hcons, howned⟩, hqueue, fun id hid => .inl hid⟩
  | some id =>
    rw [hid] at h howned
    obtain ⟨http, hhttp, rfl, hfd⟩ := hs.exists_http hnode hid
    have hhttp : (s.pop node).https http.id = some http := hhttp
    simp only [hhttp] at h
    split at h
    · cases h
    · next c' hclose =>
      cases h
      have hdropped := Conn.handleClose_dropped hclose
      rw [← store_conn hhttp ⟨[], [], [], ⟨0, 0⟩⟩] at hcons howned
      refine ⟨⟨hcons.drop hfd hdropped, howned.drop hcons hfd hdropped⟩, hqueue, fun id hid => ?_⟩
      have hid : id ∈ c'.closed := hid
      rw [hdropped.closed, List.mem_append, List.mem_singleton] at hid
      exact hid.imp (fun h => h) fun h => congrArg some h.symm

/-- The connection is held by a node that has expired, by some reading of the
    clock. -/
def Expired (s : Registry) (clock : ℕ → Timeval) (id : HttpId) : Prop :=
  ∃ node ∈ s.holders id, ∃ n, node.expiredTime ≤ (clock n).clock

/-- A round of `handleExpired`: it is the last one, or takes a node that is deleted
    or has expired out of the queue, and destroys it. -/
theorem Inv.handleExpired_cases (hs : Inv s) (top : ℕ → MinQueue.Top TimerNode.expiredTime)
    (clock : ℕ → Timeval) :
    s.handleExpired top clock = .ok s ∨
      ∃ (node expired : TimerNode) (clock' : ℕ → Timeval), node ∈ s.queue ∧
        (s.queue.erase node).length < s.queue.length ∧ expired.ownHttp = node.ownHttp ∧
        (node.deleted = true ∨ node.expiredTime ≤ (clock 0).clock) ∧
        (∀ k, ∃ k', clock' k = clock k') ∧
        s.handleExpired top clock = (s.pop node).destroy expired >>= fun s₁ =>
          s₁.handleExpired (fun n => top (n + 1)) clock' := by
  rw [Registry.handleExpired]
  split
  · exact .inl rfl
  · next node htop =>
    have hnode : node ∈ s.queue := (top 0).mem htop
    have hlt : (s.queue.erase node).length < s.queue.length := (top 0).length_erase_lt htop
    split
    · next hdeleted =>
      refine .inr ⟨node, node, clock, hnode, hlt, rfl, .inl hdeleted, fun k => ⟨k, rfl⟩, ?_⟩
      split <;> next heq => rw [heq]; rfl
    · next hdeleted =>
      by_cases hvalid : (clock 0).clock < node.expiredTime
      · rw [TimerNode.isVaild, if_pos hvalid]
        exact .inl rfl
      · -- The node still owns a connection, whose descriptor can be read.
        obtain ⟨id, fd, hown, -, -, -⟩ := hs.owned.live node hnode (by simpa using hdeleted)
        refine .inr ⟨node, node.setDeleted, fun n => clock (n + 1), hnode, hlt, rfl,
          .inr (not_lt.1 hvalid), fun k => ⟨k + 1, rfl⟩, ?_⟩
        rw [TimerNode.isVaild, if_neg hvalid]
        simp only [Bool.false_eq_true, if_false, hown, reduceCtorEq]
        split <;> next heq => rw [heq]; rfl

theorem Inv.handleExpired (hs : Inv s) {top : ℕ → MinQueue.Top TimerNode.expiredTime}
    {clock : ℕ → Timeval} (h : s.handleExpired top clock = .ok s') :
    Inv s' ∧ ∀ id ∈ s'.closed, id ∈ s.closed ∨ s.Expired clock id := by
  -- Each round takes a node out of the queue.
  induction hn : s.queue.length using Nat.strong_induction_on generalizing s top clock with
  | _ n ih =>
    rcases hs.handleExpired_cases top clock with
      hend | ⟨node, expired, clock', hnode, hlt, hown, hdue, hclock, hround⟩
    · rw [hend] at h
      cases h
      exact ⟨hs, fun id hid => .inl hid⟩
    · rw [hround] at h
      obtain ⟨s₁, hdestroy, h⟩ := exists_of_bind_eq_ok h
      obtain ⟨hs₁, hqueue, hclosed⟩ := hs.destroy hnode hown hdestroy
      obtain ⟨hs', hclosed'⟩ := ih _ (hn ▸ hlt) hs₁ h (congrArg List.length hqueue)
      refine ⟨hs', fun id hid => ?_⟩
      rcases hclosed' id hid with hid | ⟨node', hnode', k, hk⟩
      · refine (hclosed id hid).imp_right fun hown => ?_
        have hdeleted := hs.owned.deleted_eq_false hnode hown
        exact ⟨node, mem_holders.2 ⟨hnode, hdeleted, hown⟩, 0,
          hdue.resolve_left (by simp [hdeleted])⟩
      · -- Who has expired in a later round had a node, and had expired, in this one too.
        obtain ⟨k', hk'⟩ := hclock k
        rw [mem_holders, hqueue] at hnode'
        exact .inr ⟨node', mem_holders.2 (hnode'.imp_left List.mem_of_mem_erase), k', hk' ▸ hk⟩

theorem inv_of_reachable (hs : system.Reachable s) : Inv s := by
  refine System.ReachableBy.invariant (S := system) (I := Inv)
    (fun s (hs : s.Started) => hs.inv) (fun s e s' _ hs _ hst => ?_) hs
  cases hst with
  | newEvent h => exact hs.newEvent h
  | handleEvents hfd hreported h => exact hs.handleEvents hfd hreported h
  | handleExpired h => exact (hs.handleExpired h).1

end Phases

/-! ## The ownership of connections -/

/-- Each connection kept in `httpdatas` is held by exactly one node, which its
    `timer` refers to, and each node that is not deleted holds a connection that
    is still registered. -/
structure Owned (s : Registry) : Prop where
  held : ∀ fd id, s.poller.httpdatas fd = some id →
    ∃ h node, s.https id = some h ∧ s.holders id = [node] ∧ h.timer = some node.id
  live : ∀ node ∈ s.queue, node.deleted = false →
    ∃ id h, node.ownHttp = some id ∧ s.https id = some h ∧
      s.poller.channels h.ownchannel.fd = some (.http id) ∧
      s.poller.httpdatas h.ownchannel.fd = some id

theorem Inv.isOwned {s : Registry} (hs : Inv s) : Owned s := by
  constructor
  · intro fd id hfd
    obtain ⟨h, hh, hid, hfd'⟩ := hs.consistent.exists_http hfd
    have hholder : s.holder id = some (fd, h.timer) := by
      rw [holder, hh, ← hfd']
      rfl
    obtain ⟨node, hnode, hdeleted, hown, htimer⟩ :=
      hs.owned.held fd id h.timer hfd hholder (Option.some_ne_none _)
    refine ⟨h, node, hh, ?_, htimer⟩
    -- Another node of the connection would be the one its `timer` refers to.
    have hmem : ∀ node', node' ∈ s.holders id ↔ node' = node := by
      intro node'
      rw [mem_holders]
      constructor
      · rintro ⟨hnode', hdeleted', hown'⟩
        obtain ⟨id', fd', hown'', -, hholder', -⟩ := hs.owned.live node' hnode' hdeleted'
        obtain rfl : id = id' := Option.some.inj (hown'.symm.trans hown'')
        have hids := (Prod.mk.inj (Option.some.inj (hholder.symm.trans hholder'))).2
        exact hs.owned.eq_of_id hnode' hnode (Option.some.inj (hids.symm.trans htimer))
      · rintro rfl
        exact ⟨hnode, hdeleted, hown⟩
    have hnodup : (s.holders id).Nodup := hs.owned.nodup.of_map.filter _
    exact List.perm_singleton.1 ((List.perm_ext_iff_of_nodup hnodup (List.nodup_singleton _)).2
      (by simpa using hmem))
  · intro node hnode hdeleted
    obtain ⟨id, fd, hown, -, -, hfd⟩ := hs.owned.live node hnode hdeleted
    obtain ⟨h, hh, -, rfl⟩ := hs.consistent.exists_http hfd
    exact ⟨id, h, hown, hh, (hs.consistent.registered _ _).2 hfd, hfd⟩

/-- Between two phases, connections are owned by their timer nodes. No connection
    has been closed twice, and the ones that expire next are not closed by
    another node than their own. -/
theorem owned_of_reachable {s : Registry} (hs : system.Reachable s) :
    Owned s ∧ s.closed.Nodup ∧
      ∀ (top : ℕ → MinQueue.Top TimerNode.expiredTime) (clock : ℕ → Timeval) (s' : Registry),
        s.handleExpired top clock = .ok s' →
        ∀ id ∈ s'.closed, id ∈ s.closed ∨ s.Expired clock id :=
  have hinv := inv_of_reachable hs
  ⟨hinv.isOwned, hinv.consistent.closed_nodup, fun _ _ _ h => (hinv.handleExpired h).2⟩

/-- A loop that has just been made. -/
def empty : Registry := ⟨.new, fun _ => none, 0, []⟩

theorem started_empty : empty.Started :=
  ⟨fun _ _ => (Option.some_ne_none _).symm, fun _ => rfl, rfl, fun _ => rfl, rfl⟩

/-- A connection on the descriptor 5 is owned after it has handled a request. -/
theorem owned_of_reachable_empty :
    ∃ s, system.Reachable s ∧ s.poller.httpdatas 5 = some 0 ∧ Owned s ∧ s.closed.Nodup ∧
      ∀ (top : ℕ → MinQueue.Top TimerNode.expiredTime) (clock : ℕ → Timeval) (s' : Registry),
        s.handleExpired top clock = .ok s' →
        ∀ id ∈ s'.closed, id ∈ s.closed ∨ s.Expired clock id := by
  obtain ⟨s₁, hnew, hs₁⟩ := exists_ok_of_any (x := empty.newEvent 5 none 0 0 ⟨1, 0⟩)
    (p := fun s => decide (s.poller.channels 5 = some (.http 0)) &&
      (s.handleEvents (.logHtml (bytes "hi")) 0 EPOLLIN [.data Conn.getStartPage] [] ⟨1, 0⟩
        ).toOption.any fun s : Registry => decide (s.poller.httpdatas 5 = some 0))
    (by decide +kernel)
  rw [Bool.and_eq_true, decide_eq_true_eq] at hs₁
  obtain ⟨s₂, hevents, hs₂⟩ := exists_ok_of_any hs₁.2
  have hreach : system.Reachable s₂ :=
    .step (.step (.init started_empty) trivial (Step.newEvent hnew)) trivial
      (Step.handleEvents hs₁.1 (by decide) hevents)
  exact ⟨s₂, hreach, of_decide_eq_true hs₂, owned_of_reachable hreach⟩

end Registry

end Webserver
