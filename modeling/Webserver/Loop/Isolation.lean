import Webserver.Http.Alone
import Webserver.Loop.Registration

/-!
# Connections of a loop do not interfere

The connections of a loop share its poller, its timers and its thread. This file records
what each of them sends and which requests it analyses (`Served`), and finds that it is
what the connection would do by itself, on the reports for it alone.

* `Served.Follows.step`: a phase of the loop does to a connection what it does to it
  alone, or nothing.
* `Served.responds_of_run`: so in every run, what a connection sends depends on nothing but
  what the kernel reports for it: not on other connections, on descriptors, timers or time.
* `Served.fails_iff_of_run`: nor does anything else decide whether the code fails on it.
-/

namespace Webserver

open Transition
open Conn (Report)

namespace Conn

variable {fs : FileSystem} {c : Conn} {r : Report} {e : Fault × Conn}

/-- A registered connection fails to handle its events only where it would fail by itself. -/
theorem respond_of_error (sent : Bytes) (analysed : List Request) (hc : c.Registered)
    (h : (c.deliver r).handleEvents fs = .error e) :
    ∃ e', (c.alone sent analysed).respond fs r.untimed = .error e' := by
  by_cases hdispatched : Channel.Dispatched r.revents
  · have hstart : (channel.set { channel.get (c.deliver r) with eventHandling := true }
        (c.deliver r)).Registered := ⟨hc.fd, hc.interest⟩
    rw [handleEvents, Channel.handleEvents_of_dispatched (show _ = r.revents from rfl)
      hdispatched] at h
    rw [respond, Channel.handleEvents_of_dispatched (show _ = r.revents from rfl) hdispatched]
    change ∃ e', (Channel.callIf r.revents _ _
      ((channel.set { channel.get (c.deliver r) with eventHandling := true }
        (c.deliver r)).alone sent analysed) >>= _) = .error e'
    generalize channel.set { channel.get (c.deliver r) with eventHandling := true }
      (c.deliver r) = s₀ at hstart h ⊢
    simp only [callbacks, callIf_alone]
    rcases error_or_of_bind_eq_error h with hread | ⟨s₁, hread, h⟩
    · have hread : Channel.callIf r.revents (EPOLLIN ||| EPOLLPRI ||| EPOLLRDHUP)
        (some (handleRead fs)) s₀ = .error e := hread
      rw [hread]
      exact ⟨_, rfl⟩
    · have hread : Channel.callIf r.revents (EPOLLIN ||| EPOLLPRI ||| EPOLLRDHUP)
        (some (handleRead fs)) s₀ = .ok s₁ := hread
      rw [hread]
      change ∃ e', (Channel.callIf r.revents EPOLLOUT (some (handleRead fs))
        (s₁.alone sent analysed) >>= _) = .error e'
      rw [callIf_alone]
      rcases error_or_of_bind_eq_error h with hwrite | ⟨s₂, hwrite, h⟩
      · have hwrite : Channel.callIf r.revents EPOLLOUT (some (handleRead fs)) s₁ = .error e :=
          hwrite
        rw [hwrite]
        exact ⟨_, rfl⟩
      · obtain ⟨s₃, hconn⟩ :=
          (callIf_registered (callIf_registered hstart hread) hwrite).exists_handleConn
        have hcall : Channel.call (callbacks fs).conn s₂ = .ok s₃ := by
          simp only [Channel.call, callbacks, hconn]
          rfl
        rw [hcall] at h
        cases h
  · -- The events are handled without a call that could fail.
    rw [handleEvents, Channel.handleEvents] at h
    split at h
    · cases h
    · next hhup =>
      split at h
      · cases h
      · next herr => exact absurd ⟨hhup, not_not.1 herr⟩ hdispatched

end Conn

/-- The connections of a loop. Recorded are, of each connection, the method that its
    constructor has left open, the bytes it has sent and the requests it has analysed. -/
structure Served where
  registry : Registry
  method : HttpId → Option HttpMethod
  sent : HttpId → Bytes
  analysed : HttpId → List Request

namespace Served

def empty : Served := ⟨.empty, fun _ => none, fun _ => [], fun _ => []⟩

inductive Event
  | newEvent (id : HttpId)
  | handleEvents (id : HttpId) (r : Report)
  | handleExpired

/-- A connection has been made. -/
def make (s : Served) (registry : Registry) (method : Option HttpMethod) : Served :=
  { s with
    registry := registry
    method := Function.update s.method s.registry.nextId method }

/-- A connection has handled its events. -/
def record (s : Served) (id : HttpId) (c : Conn) : Served :=
  { s with
    registry := s.registry.store c
    sent := Function.update s.sent id (s.sent id ++ c.socket.sent)
    analysed := Function.update s.analysed id (s.analysed id ++ c.analysed) }

/-- The phases of the loop. -/
inductive Step (fs : FileSystem) (s : Served) : Event → Served → Prop
  | newEvent {fd : Fd} {method : Option HttpMethod} {events revents : Mask} {now : Timeval}
      {registry : Registry} : s.registry.Unused fd →
      s.registry.newEvent fd method events revents now = .ok registry →
      Step fs s (.newEvent s.registry.nextId) (s.make registry method)
  | handleEvents {fd : Fd} {id : HttpId} {r : Report} {h : HttpData} {c : Conn} :
      s.registry.poller.channels fd = some (.http id) → Registry.Reported r.revents →
      s.registry.https id = some h →
      ((s.registry.conn h ⟨[], [], [], r.now⟩).deliver r).handleEvents fs = .ok c →
      Step fs s (.handleEvents id r) (s.record id c)
  | handleExpired {top : ℕ → MinQueue.Top TimerNode.expiredTime} {clock : ℕ → Timeval}
      {registry : Registry} : s.registry.handleExpired top clock = .ok registry →
      Step fs s .handleExpired { s with registry := registry }

/-- The runs of a loop, from an empty poller. -/
def system (fs : FileSystem) : System Served Event where
  init := {empty}
  step := Step fs

/-- The reports for a connection, without their times. -/
def reportsFor (id : HttpId) (ps : List (Served × Event)) : List Report :=
  ps.filterMap fun p =>
    match p.2 with
    | .handleEvents id' r => if id' = id then some r.untimed else none
    | _ => none

variable {fs : FileSystem} {s s' : Served} {e : Event} {id : HttpId}

theorem handleEvents_eq {r : Report} {h : HttpData} {c : Conn}
    (hh : s.registry.https id = some h)
    (hc : ((s.registry.conn h ⟨[], [], [], r.now⟩).deliver r).handleEvents fs = .ok c) :
    s.registry.handleEvents fs id r.revents r.reads r.writes r.now =
      .ok (s.registry.store c) := by
  have hc : (s.registry.conn { h with ownchannel := h.ownchannel.setRevents r.revents }
      ⟨r.reads, r.writes, [], r.now⟩).handleEvents fs = .ok c := hc
  rw [Registry.handleEvents, hh]
  simp only [hc]

/-- The phase is one of the loop, and what it calls does not fail. -/
theorem call_of_step (hst : Step fs s e s') :
    ∃ e, Registry.Call Registry.Reported s.registry e (.ok s'.registry) := by
  rcases hst with @⟨fd, method, events, revents, now, registry, hunused, h⟩ |
    @⟨fd, id, r, h, c, hfd, hreported, hh, hc⟩ | h
  · have h : _ = Except.ok (s.make registry method).registry := h
    exact ⟨_, by rw [← h]; exact .newEvent _ _ _ _ hunused⟩
  · have h : _ = Except.ok (s.record id c).registry := handleEvents_eq hh hc
    exact ⟨_, by rw [← h]; exact .handleEvents fs r.reads r.writes r.now hfd hreported⟩
  · exact ⟨_, by rw [← h]; exact .handleExpired _ _⟩

theorem calls_of_reachable (hs : (system fs).Reachable s) :
    (Registry.calls Registry.Reported).Reachable s.registry := by
  refine System.ReachableBy.invariant (S := system fs)
    (I := fun s => (Registry.calls Registry.Reported).Reachable s.registry) (fun s hs => ?_)
    (fun s e s' _ hs _ hst => ?_) hs
  · rw [Set.mem_singleton_iff.1 hs]
    exact .init rfl
  · obtain ⟨e, hcall⟩ := call_of_step hst
    exact Registry.reachable_call hs hcall

/-! ## One connection -/

/-- By itself, the connection has sent the same bytes and analysed the same requests. As
    long as it is registered, it has all its fields in common with the one in the loop, but
    for the events that were reported last. -/
structure Alike (s : Served) (id : HttpId) (c : Conn) : Prop where
  sent : c.socket.sent = s.sent id
  analysed : c.analysed = s.analysed id
  poller : c.poller = .new
  closed : c.closed = []
  http : ∀ fd h, s.registry.poller.httpdatas fd = some id → s.registry.https id = some h →
    ∃ revents, h.alone = { c.http with ownchannel := c.http.ownchannel.setRevents revents }

variable {c : Conn}

/-- A phase that leaves the connection alone, or only closes it. -/
theorem Alike.keep (hc : s.Alike id c) (hsent : s'.sent id = s.sent id)
    (hanalysed : s'.analysed id = s.analysed id)
    (hhttp : ∀ fd, s'.registry.poller.httpdatas fd = some id →
      s.registry.poller.httpdatas fd = some id ∧ s'.registry.https id = s.registry.https id) :
    s'.Alike id c := by
  refine ⟨hc.sent.trans hsent.symm, hc.analysed.trans hanalysed.symm, hc.poller, hc.closed,
    fun fd h hfd hh => ?_⟩
  obtain ⟨hfd, hhttps⟩ := hhttp fd hfd
  exact hc.http fd h hfd (hhttps ▸ hh)

/-- A new connection. -/
theorem alike_newEvent {fd : Fd} {method : Option HttpMethod} {events revents : Mask}
    {now : Timeval} {registry : Registry}
    (h : s.registry.newEvent fd method events revents now = .ok registry)
    (hsent : s.sent s.registry.nextId = []) (hanalysed : s.analysed s.registry.nextId = []) :
    (s.make registry method).Alike s.registry.nextId (.solo method) := by
  refine ⟨hsent.symm, hanalysed.symm, rfl, rfl, fun fd' h' _ hh => ⟨revents, ?_⟩⟩
  rw [Registry.newEvent] at h
  split at h
  · cases h
  · next c hnew =>
    cases h
    obtain ⟨t, p, rfl⟩ := Conn.newEvent_eq hnew
    obtain rfl :=
      Option.some.inj ((Function.update_self s.registry.nextId _ s.registry.https).symm.trans hh)
    rfl

/-- With the events reported, nothing is left that tells the connections from each other. -/
theorem Alike.respond_eq (hc : s.Alike id c) {fd : Fd} {h : HttpData}
    (hfd : s.registry.poller.httpdatas fd = some id) (hh : s.registry.https id = some h)
    (r : Report) :
    c.respond fs r.untimed = ((s.registry.conn h ⟨[], [], [], r.now⟩).alone (s.sent id)
      (s.analysed id)).respond fs r.untimed := by
  obtain ⟨revents, hhttp⟩ := hc.http fd h hfd hh
  have hdeliver : c.deliver r.untimed = ((s.registry.conn h ⟨[], [], [], r.now⟩).alone
      (s.sent id) (s.analysed id)).deliver r.untimed := by
    obtain ⟨hsent, hanalysed, hpoller, hclosed, -⟩ := hc
    obtain ⟨http, ⟨reads, writes, sent, now⟩, poller, analysed, closed⟩ := c
    subst hsent hanalysed hpoller hclosed
    simp only [Conn.alone, Registry.conn, hhttp, List.append_nil]
    rfl
  rw [Conn.respond, hdeliver]
  rfl

/-- The connection handles the events reported for it. -/
theorem Alike.handleEvents (hs : s.registry.Inv) (hc : s.Alike id c) {fd : Fd} {r : Report}
    {h : HttpData} {d : Conn} (hfd : s.registry.poller.channels fd = some (.http id))
    (hreported : Registry.Reported r.revents) (hh : s.registry.https id = some h)
    (hd : ((s.registry.conn h ⟨[], [], [], r.now⟩).deliver r).handleEvents fs = .ok d) :
    ∃ c', c.respond fs r.untimed = .ok c' ∧
      (s.record id d).Alike id c' := by
  have hhttpdatas := (hs.consistent.registered fd id).1 hfd
  obtain ⟨hid, -⟩ := hs.consistent.ids id h hh
  have hrespond := Conn.respond_of_handleEvents (s.sent id) (s.analysed id) hd
  rw [← hc.respond_eq hhttpdatas hh] at hrespond
  refine ⟨_, hrespond, ?_, ?_, rfl, rfl, fun fd' h' _ hh' => ⟨d.http.ownchannel.revents, ?_⟩⟩
  · exact (Function.update_self id _ s.sent).symm
  · exact (Function.update_self id _ s.analysed).symm
  · obtain rfl : d.http.id = id := (Conn.id_of_handleEvents hreported hd).trans hid
    cases Registry.store_https_self.symm.trans hh'
    rfl

/-- Where one of them fails, so does the other. -/
theorem Alike.error_iff (hs : s.registry.Inv) (hp : s.registry.poller.Matches)
    (hc : s.Alike id c) {fd : Fd} {h : HttpData}
    (hfd : s.registry.poller.httpdatas fd = some id) (hh : s.registry.https id = some h)
    (r : Report) :
    (∃ e, ((s.registry.conn h ⟨[], [], [], r.now⟩).deliver r).handleEvents fs = .error e) ↔
      ∃ e, c.respond fs r.untimed = .error e := by
  obtain ⟨http, hhttp, -, hfd'⟩ := hs.consistent.exists_http hfd
  obtain rfl : http = h := Option.some.inj (hhttp.symm.trans hh)
  rw [hc.respond_eq hfd hh]
  constructor
  · rintro ⟨e, he⟩
    exact Conn.respond_of_error _ _ (hs.registered hp hfd hfd' _) he
  · rintro ⟨e, he⟩
    cases hd : ((s.registry.conn http ⟨[], [], [], r.now⟩).deliver r).handleEvents fs with
    | error e' => exact ⟨e', rfl⟩
    | ok d =>
      rw [Conn.respond_of_handleEvents _ _ hd] at he
      cases he

/-! ## Runs -/

/-- In the run so far, every connection has done what it would have done by itself, and one
    that has not been made yet has done nothing. -/
structure Follows (fs : FileSystem) (s : Served) (ps : List (Served × Event)) : Prop where
  made : ∀ id < s.registry.nextId, ∃ c,
    (Conn.solo (s.method id)).responds fs (reportsFor id ps) = .ok c ∧ s.Alike id c
  unmade : ∀ id, s.registry.nextId ≤ id →
    s.sent id = [] ∧ s.analysed id = [] ∧ reportsFor id ps = []

variable {ps ps' : List (Served × Event)}

theorem reportsFor_append (id : HttpId) (ps ps' : List (Served × Event)) :
    reportsFor id (ps ++ ps') = reportsFor id ps ++ reportsFor id ps' := List.filterMap_append

/-- A phase in which a connection handles no events. -/
theorem reportsFor_snoc (h : ∀ r, e ≠ .handleEvents id r) :
    reportsFor id (ps ++ [(s, e)]) = reportsFor id ps := by
  rw [reportsFor_append]
  rcases e with id' | ⟨id', r⟩ | -
  · exact List.append_nil _
  · have hne : id' ≠ id := fun heq => h r (heq ▸ rfl)
    have hnil : reportsFor id [(s, .handleEvents id' r)] = [] := by simp [reportsFor, hne]
    rw [hnil, List.append_nil]
  · exact List.append_nil _

/-- A phase that makes no connection and leaves this one alone, or only closes it. -/
theorem Follows.keep (hs : Follows fs s ps) (hid : id < s.registry.nextId)
    (he : ∀ r, e ≠ .handleEvents id r) (hmethod : s'.method id = s.method id)
    (hsent : s'.sent id = s.sent id) (hanalysed : s'.analysed id = s.analysed id)
    (hhttp : ∀ fd, s'.registry.poller.httpdatas fd = some id →
      s.registry.poller.httpdatas fd = some id ∧ s'.registry.https id = s.registry.https id) :
    ∃ c, (Conn.solo (s'.method id)).responds fs (reportsFor id (ps ++ [(s, e)])) = .ok c ∧
      s'.Alike id c := by
  obtain ⟨c, hresponds, hc⟩ := hs.made id hid
  refine ⟨c, ?_, hc.keep hsent hanalysed hhttp⟩
  rw [reportsFor_snoc he, hmethod, hresponds]

theorem Follows.newEvent (hs : Follows fs s ps) {fd : Fd} {method : Option HttpMethod}
    {events revents : Mask} {now : Timeval} {registry : Registry}
    (h : s.registry.newEvent fd method events revents now = .ok registry) :
    Follows fs (s.make registry method) (ps ++ [(s, .newEvent s.registry.nextId)]) := by
  obtain ⟨hhttpdatas, -, hnextId⟩ := Registry.httpdatas_of_newEvent h
  obtain ⟨hsent, hanalysed, hreports⟩ := hs.unmade _ (Nat.le_refl _)
  refine ⟨fun id hid => ?_, fun id hid => ?_⟩
  · rcases Nat.lt_succ_iff_lt_or_eq.1 (hnextId ▸ hid) with hlt | rfl
    · refine hs.keep hlt (fun r hr => by cases hr) (Function.update_of_ne hlt.ne _ _) rfl rfl
        fun fd' hfd' => ?_
      have hfd' : registry.poller.httpdatas fd' = some id := hfd'
      rw [hhttpdatas, Function.update_apply] at hfd'
      split at hfd'
      · cases hfd'
        exact absurd hlt (Nat.lt_irrefl _)
      · exact ⟨hfd', Registry.https_of_newEvent h hlt.ne⟩
    · have hmethod : (s.make registry method).method s.registry.nextId = method :=
        Function.update_self _ _ _
      refine ⟨_, ?_, alike_newEvent h hsent hanalysed⟩
      rw [reportsFor_snoc (fun r hr => by cases hr), hreports, hmethod]
      rfl
  · have hle : s.registry.nextId ≤ id := Nat.le_of_succ_le (hnextId.symm.le.trans hid)
    obtain ⟨hsent, hanalysed, hreports⟩ := hs.unmade id hle
    exact ⟨hsent, hanalysed, (reportsFor_snoc fun r hr => by cases hr).trans hreports⟩

theorem Follows.handleEvents (hs : Follows fs s ps) (hinv : s.registry.Inv) {fd : Fd}
    {r : Report} {h : HttpData} {d : Conn}
    (hfd : s.registry.poller.channels fd = some (.http id))
    (hreported : Registry.Reported r.revents) (hh : s.registry.https id = some h)
    (hd : ((s.registry.conn h ⟨[], [], [], r.now⟩).deliver r).handleEvents fs = .ok d) :
    Follows fs (s.record id d) (ps ++ [(s, .handleEvents id r)]) := by
  obtain ⟨hhttpid, hlt⟩ := hinv.consistent.ids id h hh
  have hdid : d.http.id = id := (Conn.id_of_handleEvents hreported hd).trans hhttpid
  obtain ⟨hhttpdatas, -, -⟩ :=
    Registry.httpdatas_of_handleEvents hinv hfd hreported (handleEvents_eq hh hd)
  refine ⟨fun id' hid' => ?_, fun id' hid' => ?_⟩
  · by_cases heq : id' = id
    · subst heq
      obtain ⟨c, hresponds, hc⟩ := hs.made id' hid'
      obtain ⟨c', hc', halike⟩ := hc.handleEvents hinv hfd hreported hh hd
      refine ⟨c', ?_, halike⟩
      have hlast : reportsFor id' [(s, .handleEvents id' r)] = [r.untimed] := by simp [reportsFor]
      have hresponds : (Conn.solo ((s.record id' d).method id')).responds fs _ = _ := hresponds
      rw [reportsFor_append, hlast, Conn.responds_snoc, hresponds]
      exact hc'
    · refine hs.keep hid' (fun r' hr' => heq (by cases hr'; rfl)) rfl
        (Function.update_of_ne heq _ _) (Function.update_of_ne heq _ _) fun fd' hfd' => ?_
      refine ⟨?_, Registry.store_https_of_ne (hdid ▸ heq)⟩
      have hfd' : (s.registry.store d).poller.httpdatas fd' = some id' := hfd'
      rcases hhttpdatas with hsame | hupdate
      · rwa [hsame] at hfd'
      · rw [hupdate, Function.update_apply] at hfd'
        split at hfd'
        · cases hfd'
        · exact hfd'
  · have hne : id' ≠ id := (hlt.trans_le hid').ne'
    obtain ⟨hsent, hanalysed, hreports⟩ := hs.unmade id' hid'
    refine ⟨(Function.update_of_ne hne _ _).trans hsent,
      (Function.update_of_ne hne _ _).trans hanalysed, ?_⟩
    rw [reportsFor_snoc fun r' hr' => hne (by cases hr'; rfl), hreports]

/-- Every phase does to each connection what it would do to it alone. -/
theorem Follows.step (hs : Follows fs s ps) (hreach : (system fs).Reachable s)
    (hst : Step fs s e s') : Follows fs s' (ps ++ [(s, e)]) := by
  have hinv := Registry.inv_of_calls (calls_of_reachable hreach)
  rcases hst with ⟨-, h⟩ | ⟨hfd, hreported, hh, hd⟩ | h
  · exact hs.newEvent h
  · exact hs.handleEvents hinv hfd hreported hh hd
  · obtain ⟨hhttpdatas, -, hnextId⟩ := Registry.httpdatas_of_handleExpired hinv h
    refine ⟨fun id hid => ?_, fun id hid => ?_⟩
    · exact hs.keep (hnextId ▸ hid) (fun r hr => by cases hr) rfl rfl rfl
        fun fd => hhttpdatas fd id
    · obtain ⟨hsent, hanalysed, hreports⟩ := hs.unmade id (hnextId ▸ hid)
      exact ⟨hsent, hanalysed, (reportsFor_snoc fun r hr => by cases hr).trans hreports⟩

theorem Follows.run (hs : Follows fs s ps) (hreach : (system fs).Reachable s)
    (hrun : (system fs).Run s ps' s') : Follows fs s' (ps ++ ps') := by
  induction hrun generalizing ps with
  | nil => rwa [List.append_nil]
  | cons hst _ ih =>
    have hrest := ih (hs.step hreach hst) (.step hreach trivial hst)
    rwa [List.append_assoc] at hrest

/-- In every run of a loop, a connection sends the bytes, and analyses the requests, that it
    would have sent and analysed by itself, on what has been reported for it. -/
theorem responds_of_run (hrun : (system fs).Run empty ps s) (hid : id < s.registry.nextId) :
    ∃ c, (Conn.solo (s.method id)).responds fs (reportsFor id ps) = .ok c ∧
      c.socket.sent = s.sent id ∧ c.analysed = s.analysed id := by
  have hempty : Follows fs empty [] :=
    ⟨fun id hid => absurd hid (Nat.not_lt_zero id), fun id _ => ⟨rfl, rfl, rfl⟩⟩
  obtain ⟨c, hresponds, hc⟩ := (hempty.run (.init rfl) hrun).made id hid
  exact ⟨c, hresponds, hc.sent, hc.analysed⟩

/-- In every run of a loop, whether the code fails on what is reported for a connection
    depends on what has been reported for it, and on nothing else. -/
theorem fails_iff_of_run (hrun : (system fs).Run empty ps s) {fd : Fd} {r : Report}
    (hfd : s.registry.poller.httpdatas fd = some id) :
    (∃ f, s.registry.handleEvents fs id r.revents r.reads r.writes r.now = .error f) ↔
      ∃ e, (Conn.solo (s.method id)).responds fs (reportsFor id ps ++ [r.untimed]) = .error e := by
  have hcalls := calls_of_reachable (.run (.init rfl) hrun : (system fs).Reachable s)
  have hinv := Registry.inv_of_calls hcalls
  obtain ⟨h, hh, -, -⟩ := hinv.consistent.exists_http hfd
  have hempty : Follows fs empty [] :=
    ⟨fun id hid => absurd hid (Nat.not_lt_zero id), fun id _ => ⟨rfl, rfl, rfl⟩⟩
  obtain ⟨c, hresponds, hc⟩ :=
    (hempty.run (.init rfl) hrun).made id (hinv.consistent.ids id h hh).2
  have hrespond : (Conn.solo (s.method id)).responds fs (reportsFor id ps ++ [r.untimed]) =
      c.respond fs r.untimed := by
    rw [Conn.responds_snoc]
    exact hresponds ▸ rfl
  rw [hrespond, ← hc.error_iff hinv (Registry.matches_of_calls hcalls) hfd hh,
    Registry.handleEvents, hh]
  have hdeliver : (s.registry.conn { h with ownchannel := h.ownchannel.setRevents r.revents }
      ⟨r.reads, r.writes, [], r.now⟩) = (s.registry.conn h ⟨[], [], [], r.now⟩).deliver r := rfl
  simp only [hdeliver]
  cases ((s.registry.conn h ⟨[], [], [], r.now⟩).deliver r).handleEvents fs with
  | error e => exact ⟨fun _ => ⟨e, rfl⟩, fun _ => ⟨e.1, rfl⟩⟩
  | ok d =>
    constructor
    · rintro ⟨f, hf⟩
      cases hf
    · rintro ⟨e, he⟩
      cases he

/-- A request for the start page is reported. -/
def startPageReport : Report := ⟨EPOLLIN, [.data Conn.getStartPage], [], ⟨1, 0⟩⟩

/-- The first of two connections answers a request. -/
theorem exists_answered : ∃ ps s, (system (.logHtml (bytes "hi"))).Run empty ps s ∧
    0 < s.registry.nextId ∧ s.sent 0 ≠ [] := by
  obtain ⟨r₁, h₁, hr₁⟩ := exists_ok_of_any (x := Registry.empty.newEvent 5 none 0 0 ⟨1, 0⟩)
    (p := fun r₁ => (r₁.newEvent 6 none 0 0 ⟨1, 0⟩).toOption.any fun r₂ : Registry =>
      decide (r₂.poller.channels 5 = some (.http 0)) && decide (r₂.nextId = 2) &&
        (r₂.https 0).any fun h =>
          (((r₂.conn h ⟨[], [], [], ⟨1, 0⟩⟩).deliver startPageReport).handleEvents
            (.logHtml (bytes "hi"))).toOption.any fun c : Conn => decide (c.socket.sent ≠ []))
    (by decide +kernel)
  obtain ⟨r₂, h₂, hr₂⟩ := exists_ok_of_any hr₁
  rw [Bool.and_eq_true, Bool.and_eq_true, decide_eq_true_eq, decide_eq_true_eq] at hr₂
  obtain ⟨⟨hchannel, hnextId⟩, hhttp⟩ := hr₂
  obtain ⟨h, hh, hr₂⟩ := (Option.any_eq_true _ _).1 hhttp
  obtain ⟨c, hc, hsent⟩ := exists_ok_of_any hr₂
  have hunused : Registry.empty.Unused 5 := ⟨by decide, fun id h _ hh => by cases hh⟩
  have hunused' : r₁.Unused 6 := by
    refine ⟨by decide, fun id h _ hh hfd => ?_⟩
    have hfdOf : r₁.fdOf id = some 6 := by rw [Registry.fdOf, hh, ← hfd]; rfl
    rw [(Registry.httpdatas_of_newEvent h₁).2.1, Function.update_apply] at hfdOf
    split at hfdOf <;> cases hfdOf
  refine ⟨_, _, .cons (.newEvent hunused h₁) (.cons (.newEvent hunused' h₂)
    (.cons (.handleEvents (r := startPageReport) hchannel (by decide) hh hc) .nil)), ?_, ?_⟩
  · exact hnextId ▸ Nat.zero_lt_two
  · intro hnil
    simp only [record, Function.update_self] at hnil
    exact of_decide_eq_true hsent (List.append_eq_nil_iff.1 hnil).2

theorem responds_of_run_answered : ∃ ps s, (system (.logHtml (bytes "hi"))).Run empty ps s ∧
    s.sent 0 ≠ [] ∧ ∃ c, (Conn.solo (s.method 0)).responds (.logHtml (bytes "hi"))
      (reportsFor 0 ps) = .ok c ∧ c.socket.sent = s.sent 0 ∧ c.analysed = s.analysed 0 := by
  obtain ⟨ps, s, hrun, hid, hsent⟩ := exists_answered
  exact ⟨ps, s, hrun, hsent, responds_of_run hrun hid⟩

/-- A connection has been made. -/
theorem exists_made : ∃ ps s, (system (.logHtml (bytes "hi"))).Run empty ps s ∧
    s.registry.poller.httpdatas 5 = some 0 := by
  have hunused : Registry.empty.Unused 5 := ⟨by decide, fun id h _ hh => by cases hh⟩
  obtain ⟨r, hr⟩ := exists_ok_of_any (x := Registry.empty.newEvent 5 none 0 0 ⟨1, 0⟩)
    (p := fun r => decide (r.poller.httpdatas 5 = some 0)) (by decide +kernel)
  exact ⟨_, _, .single (.newEvent hunused hr.1), of_decide_eq_true hr.2⟩

theorem fails_iff_of_run_made : ∃ (ps : List (Served × Event)) (s : Served),
    (system (.logHtml (bytes "hi"))).Run empty ps s ∧
    ((∃ f, s.registry.handleEvents (.logHtml (bytes "hi")) 0 startPageReport.revents
      startPageReport.reads startPageReport.writes startPageReport.now = .error f) ↔
        ∃ e, (Conn.solo (s.method 0)).responds (.logHtml (bytes "hi"))
          (reportsFor 0 ps ++ [startPageReport.untimed]) = .error e) := by
  obtain ⟨ps, s, hrun, hfd⟩ := exists_made
  exact ⟨ps, s, hrun, fails_iff_of_run hrun hfd⟩

end Served

end Webserver
