import Webserver.Loop.Kernel

/-!
# What the phases of a loop register

Which connection is registered for which descriptor, and which descriptor belongs
to which connection, as the phases of a loop change them.

* `Registry.httpdatas_of_newEvent`, `Registry.httpdatas_of_handleEvents`,
  `Registry.httpdatas_of_handleExpired`: a new connection is registered; one whose
  events are handled may be removed; and so may any others when they expire.
* `Registry.Inv.kept_iff`: the references to a connection are those of the
  descriptor it is registered for.
-/

namespace Webserver

/-- A connection keeps its identity. -/
theorem Conn.id_of_handleEvents {fs : FileSystem} {c c' : Conn}
    (hreported : Registry.Reported c.http.ownchannel.revents) (h : c.handleEvents fs = .ok c') :
    c'.http.id = c.http.id := by
  rcases handleEvents_cases hreported h with hkept | ⟨d, d', hkept, hconn, hkept'⟩
  · exact hkept.id
  · obtain ⟨t, p, hsep⟩ := c.seperaterTimer_eq
    have hid : d.http.id = c.http.id := hkept.id.trans (by rw [hsep])
    rcases hconn with hrenewed | hdropped
    · exact hkept'.id.trans (hrenewed.id.trans hid)
    · exact hkept'.id.trans (hdropped.id.trans hid)

namespace Registry

variable {s s' : Registry}

/-- The descriptor of a connection made in the loop. -/
def fdOf (s : Registry) (id : HttpId) : Option Fd := (s.https id).map fun h => h.ownchannel.fd

theorem fdOf_store (s : Registry) (c : Conn) :
    (s.store c).fdOf = Function.update s.fdOf c.http.id (some c.http.ownchannel.fd) := by
  ext1 id
  by_cases hid : id = c.http.id
  · subst hid
    rw [fdOf, store_https_self, Function.update_self]
    rfl
  · rw [fdOf, store_https_of_ne hid, Function.update_of_ne hid]
    rfl

/-- Putting back a connection that has kept its descriptor. -/
theorem fdOf_store_conn {h : HttpData} {c : Conn} (socket : Socket) (hh : s.https h.id = some h)
    (hid : c.http.id = (s.conn h socket).http.id)
    (hfd : c.http.ownchannel.fd = (s.conn h socket).http.ownchannel.fd) :
    (s.store c).fdOf = s.fdOf := by
  have hself : s.fdOf h.id = some h.ownchannel.fd := by rw [fdOf, hh]; rfl
  rw [fdOf_store, hid, hfd, conn, ← hself, Function.update_eq_self]

/-- A call that does not fail leads from a reachable state to another. -/
theorem reachable_call {Rep : Mask → Prop} {e : Event} (hs : (calls Rep).Reachable s)
    (h : Call Rep s e (.ok s')) : (calls Rep).Reachable s' := .step hs trivial h

/-! ## New connections -/

section NewEvent

variable {fd : Fd} {method : Option HttpMethod} {events revents : Mask} {now : Timeval}

theorem httpdatas_of_newEvent (h : s.newEvent fd method events revents now = .ok s') :
    s'.poller.httpdatas = Function.update s.poller.httpdatas fd (some s.nextId) ∧
      s'.fdOf = Function.update s.fdOf s.nextId (some fd) ∧ s'.nextId = s.nextId + 1 := by
  rw [newEvent] at h
  split at h
  · cases h
  · next c hnew =>
    cases h
    obtain ⟨-, hid, hfd, -, ⟨expiredTime, events, hpoller⟩, -⟩ := Conn.newEvent_renewed hnew
    refine ⟨?_, ?_, rfl⟩
    · rw [store_poller, hpoller]
      rfl
    · have hstore : (s.store c).fdOf = _ := fdOf_store s c
      rw [hid, hfd] at hstore
      exact hstore

theorem https_of_newEvent (h : s.newEvent fd method events revents now = .ok s') {id : HttpId}
    (hid : id ≠ s.nextId) : s'.https id = s.https id := by
  rw [newEvent] at h
  split at h
  · cases h
  · next c hnew =>
    cases h
    obtain ⟨-, hnew⟩ := Conn.newEvent_renewed hnew
    have hne : id ≠ c.http.id := by rwa [hnew.id]
    exact store_https_of_ne hne

end NewEvent

/-! ## Events -/

section HandleEvents

variable {fs : FileSystem} {fd : Fd} {id : HttpId} {revents : Mask} {reads : List ReadResult}
  {writes : List WriteResult} {now : Timeval}

theorem httpdatas_of_handleEvents (hs : Inv s) (hfd : s.poller.channels fd = some (.http id))
    (hreported : Reported revents)
    (h : s.handleEvents fs id revents reads writes now = .ok s') :
    (s'.poller.httpdatas = s.poller.httpdatas ∨
      s'.poller.httpdatas = Function.update s.poller.httpdatas fd none) ∧
      s'.fdOf = s.fdOf ∧ s'.nextId = s.nextId := by
  have hhttpdatas := (hs.consistent.registered fd id).1 hfd
  obtain ⟨http, hhttp, rfl, rfl⟩ := hs.consistent.exists_http hhttpdatas
  rw [handleEvents, hhttp] at h
  simp only at h
  split at h
  · cases h
  · next c hevents =>
    cases h
    rcases Conn.handleEvents_cases hreported hevents with
      hkept | ⟨d, d', hkept, hconn, hkept'⟩
    · refine ⟨.inl ?_, fdOf_store_conn ⟨reads, writes, [], now⟩ hhttp hkept.id hkept.fd,
        rfl⟩
      rw [store_poller, hkept.poller]
      rfl
    · obtain ⟨t, p, hsep⟩ := (s.conn { http with ownchannel := http.ownchannel.setRevents revents }
        ⟨reads, writes, [], now⟩).seperaterTimer_eq
      rw [hsep] at hkept
      have hdid : d.http.id = http.id := hkept.id
      have hdfd : d.http.ownchannel.fd = http.ownchannel.fd := hkept.fd
      have hdpoller : d.poller.httpdatas = s.poller.httpdatas := by rw [hkept.poller]; rfl
      rcases hconn with hrenewed | hdropped
      · obtain ⟨expiredTime, events, hpoller⟩ := hrenewed.poller
        refine ⟨.inl ?_, fdOf_store_conn ⟨reads, writes, [], now⟩ hhttp
          (hkept'.id.trans (hrenewed.id.trans hdid)) (hkept'.fd.trans (hrenewed.fd.trans hdfd)),
          rfl⟩
        rw [store_poller, hkept'.poller, hpoller]
        -- The connection is registered for its descriptor already.
        rw [EPollPoller.renew, hdpoller, hdid, hdfd, ← hhttpdatas, Function.update_eq_self]
      · refine ⟨.inr ?_, fdOf_store_conn ⟨reads, writes, [], now⟩ hhttp
          (hkept'.id.trans (hdropped.id.trans hdid)) (hkept'.fd.trans (hdropped.fd.trans hdfd)),
          rfl⟩
        rw [store_poller, hkept'.poller, hdropped.poller, EPollPoller.drop, hdpoller, hdfd]

end HandleEvents

/-! ## Expiry -/

/-- Destroying a node that is taken out of the queue. -/
theorem httpdatas_of_destroy (hs : Inv s) {node expired : TimerNode} (hnode : node ∈ s.queue)
    (hown : expired.ownHttp = node.ownHttp) (h : (s.pop node).destroy expired = .ok s') :
    (∀ fd id, s'.poller.httpdatas fd = some id →
      s.poller.httpdatas fd = some id ∧ s'.https id = s.https id) ∧
      s'.fdOf = s.fdOf ∧ s'.nextId = s.nextId := by
  rw [destroy, hown] at h
  cases hid : node.ownHttp with
  | none =>
    rw [hid] at h
    cases h
    exact ⟨fun _ _ h => ⟨h, rfl⟩, rfl, rfl⟩
  | some id =>
    obtain ⟨http, hhttp, rfl, hfd⟩ := hs.exists_http hnode hid
    have hhttp : (s.pop node).https http.id = some http := hhttp
    simp only [hid, hhttp] at h
    split at h
    · cases h
    · next c hclose =>
      cases h
      have hdropped := Conn.handleClose_dropped hclose
      refine ⟨fun fd id h => ?_, fdOf_store_conn ⟨[], [], [], ⟨0, 0⟩⟩ hhttp
        hdropped.id hdropped.fd, rfl⟩
      rw [store_poller, hdropped.poller] at h
      have h : Function.update s.poller.httpdatas http.ownchannel.fd none fd = some id := h
      by_cases heq : fd = http.ownchannel.fd
      · rw [heq, Function.update_self] at h
        cases h
      · rw [Function.update_of_ne heq] at h
        obtain ⟨http', hhttp', -, hfd'⟩ := hs.consistent.exists_http h
        refine ⟨h, store_https_of_ne ?_⟩
        rw [hdropped.id]
        rintro rfl
        obtain rfl : http = http' := Option.some.inj (hhttp.symm.trans hhttp')
        exact heq hfd'.symm

theorem httpdatas_of_handleExpired (hs : Inv s) {top : ℕ → MinQueue.Top TimerNode.expiredTime}
    {clock : ℕ → Timeval} (h : s.handleExpired top clock = .ok s') :
    (∀ fd id, s'.poller.httpdatas fd = some id →
      s.poller.httpdatas fd = some id ∧ s'.https id = s.https id) ∧
      s'.fdOf = s.fdOf ∧ s'.nextId = s.nextId := by
  -- Each round takes a node out of the queue.
  induction hn : s.queue.length using Nat.strong_induction_on generalizing s top clock with
  | _ n ih =>
    rcases hs.handleExpired_cases top clock with
      hend | ⟨node, expired, clock', hnode, hlt, hown, -, -, hround⟩
    · rw [hend] at h
      cases h
      exact ⟨fun _ _ h => ⟨h, rfl⟩, rfl, rfl⟩
    · rw [hround] at h
      obtain ⟨s₁, hdestroy, h⟩ := exists_of_bind_eq_ok h
      obtain ⟨hs₁, hqueue, -⟩ := hs.destroy hnode hown hdestroy
      obtain ⟨hfirst, hfdOf, hnextId⟩ := httpdatas_of_destroy hs hnode hown hdestroy
      obtain ⟨hrest, hfdOf', hnextId'⟩ := ih _ (hn ▸ hlt) hs₁ h (congrArg List.length hqueue)
      refine ⟨fun fd id h => ?_, hfdOf'.trans hfdOf, hnextId'.trans hnextId⟩
      obtain ⟨h, hhttps⟩ := hrest fd id h
      obtain ⟨h, hhttps'⟩ := hfirst fd id h
      exact ⟨h, hhttps.trans hhttps'⟩

/-! ## References -/

/-- A connection is kept alive as long as it is registered for its descriptor: there
    is no timer node that outlives the registration. -/
theorem Inv.kept_iff (hs : Inv s) {id : HttpId} {h : HttpData} (hh : s.https id = some h) :
    s.Kept id ↔ s.poller.httpdatas h.ownchannel.fd = some id := by
  constructor
  · rintro (⟨fd, hfd⟩ | ⟨node, hnode, hown⟩)
    · obtain ⟨h', hh', -, rfl⟩ := hs.consistent.exists_http hfd
      obtain rfl : h' = h := Option.some.inj (hh'.symm.trans hh)
      exact hfd
    · obtain ⟨h', hh', -, hfd⟩ := hs.exists_http hnode hown
      obtain rfl : h' = h := Option.some.inj (hh'.symm.trans hh)
      exact hfd
  · exact fun hfd => .inl ⟨_, hfd⟩

/-- The connection registered for a descriptor has that descriptor. -/
theorem Inv.fdOf (hs : Inv s) {fd : Fd} {id : HttpId} (hfd : s.poller.httpdatas fd = some id) :
    s.fdOf id = some fd := by
  obtain ⟨h, hh, -, rfl⟩ := hs.consistent.exists_http hfd
  rw [Registry.fdOf, hh]
  rfl

theorem Inv.kept_iff_of_fdOf (hs : Inv s) {fd : Fd} {id : HttpId} (hid : s.fdOf id = some fd) :
    s.Kept id ↔ s.poller.httpdatas fd = some id := by
  obtain ⟨h, hh, rfl⟩ := Option.map_eq_some_iff.1 hid
  exact hs.kept_iff hh

/-- From `s` to `s'`, the last reference to a connection on this descriptor has gone.
    The destructor of the connection closes the descriptor. -/
def Released (s s' : Registry) (fd : Fd) : Prop :=
  ∃ id, s.fdOf id = some fd ∧ s.Kept id ∧ ¬s'.Kept id

/-- Where connections are only removed, the descriptors closed are those for which
    nothing is registered any longer. -/
theorem released_iff (hs : Inv s) (hs' : Inv s')
    (hsub : ∀ fd id, s'.poller.httpdatas fd = some id → s.poller.httpdatas fd = some id)
    (hfdOf : s'.fdOf = s.fdOf) {fd : Fd} :
    s.Released s' fd ↔ (∃ id, s.poller.httpdatas fd = some id) ∧ s'.poller.httpdatas fd = none := by
  constructor
  · rintro ⟨id, hid, hkept, hnot⟩
    have hfd := (hs.kept_iff_of_fdOf hid).1 hkept
    refine ⟨⟨id, hfd⟩, ?_⟩
    by_contra hne
    obtain ⟨id', hid'⟩ := Option.ne_none_iff_exists'.1 hne
    obtain rfl : id' = id := Option.some.inj ((hsub fd id' hid').symm.trans hfd)
    exact hnot (.inl ⟨fd, hid'⟩)
  · rintro ⟨⟨id, hfd⟩, hnone⟩
    have hid := hs.fdOf hfd
    refine ⟨id, hid, .inl ⟨fd, hfd⟩, fun hkept => ?_⟩
    rw [hs'.kept_iff_of_fdOf (hfdOf ▸ hid), hnone] at hkept
    cases hkept

/-- A new connection on a descriptor that was not in use replaces none. -/
theorem not_released_of_newEvent (hs : Inv s) {fd : Fd} (hfd : s.poller.httpdatas fd = none)
    {id : HttpId} (h : s'.poller.httpdatas = Function.update s.poller.httpdatas fd (some id))
    (fd' : Fd) : ¬s.Released s' fd' := by
  rintro ⟨id', hid', hkept, hnot⟩
  have hfd' := (hs.kept_iff_of_fdOf hid').1 hkept
  refine hnot (.inl ⟨fd', ?_⟩)
  rw [h, Function.update_of_ne, hfd']
  rintro rfl
  rw [hfd] at hfd'
  cases hfd'

end Registry

end Webserver
