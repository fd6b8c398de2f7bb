import Webserver.Lib.Lease
import Webserver.Loop.Registration
import Webserver.Loop.Sweep

/-!
# How long connections are kept

A connection is registered with a timer node that expires after a timeout, and with a
new one each time its events are handled. So the connections of a loop hold leases:
they are granted when a connection is made, and again when it is registered again;
they are revoked when it is closed; and the expiry phase of the loop is a sweep, at the
time that the clock shows when it ends.

* `Registry.lease_of_step`: every phase of a loop does to the leases what it is for.
* `Registry.lease_of_run`: so the leases are those of a lease table, in every run.
* `Registry.registered_of_silent`: a connection that no event is handled for is closed
  by the first expiry phase that ends when the clock has reached its deadline.

All times are readings of the clock, which wraps (`Timeval.clock`). In an expiry phase it
neither goes back nor wraps (`Timer.Steady`).
-/

namespace Webserver

open Transition Timer

/-! ## Timeouts -/

namespace Conn

variable {c c' : Conn}

/-- A new connection, with its timer node. -/
theorem newEvent_poller (h : c.newEvent = .ok c') :
    c'.poller = c.poller.renew c.http.ownchannel.fd c.http.id
      (c.socket.now.clock + DEFAULT_EXPIRED_TIME) DEFAULT_EVENT := by
  rw [newEvent] at h
  cases hadd : (c.setEvents DEFAULT_EVENT).poller.addChannel
      (c.setEvents DEFAULT_EVENT).http.ownchannel (.http (c.setEvents DEFAULT_EVENT).http.id)
      DEFAULT_EXPIRED_TIME (c.setEvents DEFAULT_EVENT).socket.now with
  | error f => simp only [hadd] at h; cases h
  | ok r =>
    obtain ⟨-, rfl⟩ := EPollPoller.addChannel_eq (by decide) hadd
    simp only [hadd] at h
    cases h
    rfl

/-- The time that a connection is registered for, when it is registered again. -/
theorem timeout_cases (c : Conn) :
    c.timeout = DEFAULT_EXPIRED_TIME ∨ c.timeout = DEFAULT_KEEP_ALIVE_TIME := by
  rw [timeout]
  split
  · exact .inr rfl
  · exact .inl rfl

/-- `handleConn` registers the connection with a timer node for its timeout, or removes
    it from the poller. -/
theorem handleConn_poller (h : c.handleConn = .ok c') :
    (∃ events, c'.poller = c.poller.renew c.http.ownchannel.fd c.http.id
      (c.socket.now.clock + c.timeout) events) ∨
        c'.poller = c.poller.drop c.http.ownchannel.fd := by
  rw [handleConn_eq_rearm, rearm] at h
  by_cases hok : c.http.error = false ∧ c.http.connectionState = .connected
  · simp only [if_pos hok] at h
    rw [updateChannel_renew c.timeout_pos h]
    exact .inl ⟨_, rfl⟩
  · simp only [if_neg hok] at h
    exact .inr (handleClose_dropped h).poller

end Conn

namespace Registry

/-! ## Leases -/

variable {s s' : Registry}

/-- When the connection expires, if it is registered. -/
def lease (s : Registry) : Lease.Table HttpId ℕ :=
  fun id => (s.holders id).head?.map TimerNode.expiredTime

/-- The timer nodes say that the connection expires at that time. -/
def Holds (queue : List TimerNode) (id : HttpId) (d : ℕ) : Prop :=
  ∃ node ∈ queue, node.deleted = false ∧ node.ownHttp = some id ∧ node.expiredTime = d

theorem Inv.lease_iff (hs : Inv s) {id : HttpId} {d : ℕ} :
    s.lease id = some d ↔ Holds s.queue id d := by
  constructor
  · intro h
    obtain ⟨node, hnode, hd⟩ := Option.map_eq_some_iff.1 h
    obtain ⟨hmem, hlive, hown⟩ := mem_holders.1 (List.mem_of_head? hnode)
    exact ⟨node, hmem, hlive, hown, hd⟩
  · rintro ⟨node, hmem, hlive, hown, rfl⟩
    obtain ⟨id', fd, hown', -, -, hfd⟩ := hs.owned.live node hmem hlive
    obtain rfl : id = id' := Option.some.inj (hown.symm.trans hown')
    obtain ⟨h, node', -, hholders, -⟩ := hs.isOwned.held fd id hfd
    have hnode : node ∈ s.holders id := mem_holders.2 ⟨hmem, hlive, hown⟩
    rw [hholders, List.mem_singleton] at hnode
    rw [lease, hholders, hnode]
    rfl

/-- A connection has a lease as long as it is registered. -/
theorem Inv.lease_ne_none_iff (hs : Inv s) {id : HttpId} :
    s.lease id ≠ none ↔ ∃ fd, s.poller.httpdatas fd = some id := by
  constructor
  · intro hne
    obtain ⟨d, hd⟩ := Option.ne_none_iff_exists'.1 hne
    obtain ⟨node, hmem, hlive, hown, -⟩ := hs.lease_iff.1 hd
    obtain ⟨id', fd, hown', -, -, hfd⟩ := hs.owned.live node hmem hlive
    exact ⟨fd, Option.some.inj (hown.symm.trans hown') ▸ hfd⟩
  · rintro ⟨fd, hfd⟩
    obtain ⟨h, node, -, hholders, -⟩ := hs.isOwned.held fd id hfd
    rw [lease, hholders]
    exact Option.some_ne_none _

/-- Two tables are the same if they hold the same. -/
theorem lease_ext {f f' : Lease.Table HttpId ℕ} (h : ∀ id d, f id = some d ↔ f' id = some d) :
    f = f' := by
  ext1 id
  exact Option.ext (h id)

/-- A new node for a connection that has none. -/
theorem holds_cons {queue : List TimerNode} {node : TimerNode} {id : HttpId}
    (hown : node.ownHttp = some id) (hlive : node.deleted = false)
    (hnone : ∀ d, ¬Holds queue id d) (id' : HttpId) (d : ℕ) :
    Holds (node :: queue) id' d ↔ if id' = id then node.expiredTime = d else Holds queue id' d := by
  have hcons : Holds (node :: queue) id' d ↔ (node.deleted = false ∧ node.ownHttp = some id' ∧
      node.expiredTime = d) ∨ Holds queue id' d := List.exists_mem_cons_iff _ _ _
  rw [hcons]
  split
  · next heq =>
    subst heq
    rw [or_iff_left (hnone d)]
    exact ⟨fun h => h.2.2, fun h => ⟨hlive, hown, h⟩⟩
  · next hne =>
    refine or_iff_right fun h => hne ?_
    exact Option.some.inj (h.2.1.symm.trans hown)

/-- The connection that gives up its timer node. -/
theorem holds_seperaterTimer {c : Conn} (hs : OwnedBut none (s.store c))
    (hc : c.poller.httpdatas c.http.ownchannel.fd = some c.http.id) (id : HttpId) (d : ℕ) :
    Holds c.seperaterTimer.poller.timermanager.timerNodeQueue id d ↔
      id ≠ c.http.id ∧ Holds (s.store c).queue id d := by
  obtain ⟨node, hmem, hown, htimer, hsep⟩ := hs.exists_node hc
  rw [hsep]
  constructor
  · rintro ⟨node', hnode', hlive, hown', hd⟩
    obtain ⟨old, hold, rfl⟩ := mem_clearHttp.1 hnode'
    by_cases hne : old.id = node.id
    · rw [if_pos hne] at hlive
      cases hlive
    · rw [if_neg hne] at hlive hown' hd
      refine ⟨?_, old, hold, hlive, hown', hd⟩
      rintro rfl
      obtain ⟨id', fd, hown'', -, hholder, -⟩ := hs.live old hold hlive
      obtain rfl : c.http.id = id' := Option.some.inj (hown'.symm.trans hown'')
      rw [holder_store_self, htimer] at hholder
      exact hne (Option.some.inj (Prod.mk.inj (Option.some.inj hholder)).2).symm
  · rintro ⟨hid, old, hold, hlive, hown', hd⟩
    have hne : old.id ≠ node.id := by
      intro heq
      rw [hs.eq_of_id hold hmem heq, hown] at hown'
      exact hid (Option.some.inj hown').symm
    exact ⟨old, mem_clearHttp.2 ⟨old, hold, (if_neg hne).symm⟩, hlive, hown', hd⟩

/-! ## What the phases do to the leases -/

section NewEvent

variable {fd : Fd} {method : Option HttpMethod} {events revents : Mask} {now : Timeval}

theorem lease_of_newEvent (hs : Inv s) (hs' : Inv s')
    (h : s.newEvent fd method events revents now = .ok s') :
    s'.lease = Function.update s.lease s.nextId (some (now.clock + DEFAULT_EXPIRED_TIME)) := by
  rw [newEvent] at h
  split at h
  · cases h
  · next c hnew =>
    cases h
    have hqueue : (s.store c).queue = ⟨s.poller.timermanager.nextNode,
        now.clock + DEFAULT_EXPIRED_TIME, some s.nextId, false⟩ :: s.queue := by
      rw [queue, store_poller, Conn.newEvent_poller hnew]
      rfl
    have hnone : ∀ d, ¬Holds s.queue s.nextId d := by
      rintro d ⟨node, hnode, hlive, hown, -⟩
      obtain ⟨h, hh, -, -⟩ := hs.exists_http hnode hown
      exact Nat.lt_irrefl _ (hs.consistent.ids _ h hh).2
    refine lease_ext fun id d => ?_
    have hholds : Holds (s.store c).queue id d ↔ _ :=
      hqueue ▸ holds_cons rfl rfl hnone id d
    rw [hs'.lease_iff, Function.update_apply]
    refine hholds.trans ?_
    split
    · exact Option.some_inj.symm
    · exact hs.lease_iff.symm

end NewEvent

section HandleEvents

variable {fs : FileSystem} {fd : Fd} {id : HttpId} {revents : Mask} {reads : List ReadResult}
  {writes : List WriteResult} {now : Timeval}

/-- A connection that gives up its timer node, and is then registered again or removed. -/
theorem lease_handOver {c d d' c' : Conn} (hs : Inv (s.store c)) (hs' : Inv (s.store c'))
    (hc : c.poller.httpdatas c.http.ownchannel.fd = some c.http.id)
    (hkept : Conn.Kept c.seperaterTimer d) (hconn : d.handleConn = .ok d')
    (hkept' : Conn.Kept d' c') :
    (s.store c').lease = Function.update (s.store c).lease c.http.id none ∨
      ∃ timeout, (timeout = DEFAULT_EXPIRED_TIME ∨ timeout = DEFAULT_KEEP_ALIVE_TIME) ∧
        (s.store c').lease =
          Function.update (s.store c).lease c.http.id (some (c.socket.now.clock + timeout)) := by
  have hholds := holds_seperaterTimer hs.owned hc
  obtain ⟨t, p, hsep⟩ := c.seperaterTimer_eq
  have hid : d.http.id = c.http.id := by rw [hkept.id, hsep]
  have hnow : d.socket.now = c.socket.now := by rw [hkept.now, hsep]
  rw [← hkept.poller] at hholds
  rcases Conn.handleConn_poller hconn with ⟨events, hpoller⟩ | hpoller
  · refine .inr ⟨d.timeout, d.timeout_cases, lease_ext fun id e => ?_⟩
    have hqueue : (s.store c').queue = ⟨d.poller.timermanager.nextNode,
        c.socket.now.clock + d.timeout, some c.http.id, false⟩ ::
          d.poller.timermanager.timerNodeQueue := by
      rw [queue, store_poller, hkept'.poller, hpoller, hid, hnow]
      rfl
    rw [hs'.lease_iff, Function.update_apply, hqueue,
      holds_cons rfl rfl fun e h => ((hholds _ e).1 h).1 rfl]
    split
    · exact Option.some_inj.symm
    · next hne => rw [hholds, and_iff_right hne, hs.lease_iff]
  · refine .inl (lease_ext fun id e => ?_)
    have hqueue : (s.store c').queue = d.poller.timermanager.timerNodeQueue := by
      rw [queue, store_poller, hkept'.poller, hpoller]
      rfl
    rw [hs'.lease_iff, hqueue, hholds, Function.update_apply]
    split
    · next heq => exact iff_of_false (fun h => h.1 heq) (Option.some_ne_none e).symm
    · next hne => rw [and_iff_right hne, hs.lease_iff]

/-- Handling events leaves the lease of the connection alone, revokes it, or grants it
    anew. -/
theorem lease_of_handleEvents (hs : Inv s) (hs' : Inv s')
    (hfd : s.poller.channels fd = some (.http id)) (hreported : Reported revents)
    (h : s.handleEvents fs id revents reads writes now = .ok s') :
    s'.lease = s.lease ∨ s'.lease = Function.update s.lease id none ∨
      ∃ timeout, (timeout = DEFAULT_EXPIRED_TIME ∨ timeout = DEFAULT_KEEP_ALIVE_TIME) ∧
        s'.lease = Function.update s.lease id (some (now.clock + timeout)) := by
  have hhttpdatas := (hs.consistent.registered fd id).1 hfd
  obtain ⟨http, hhttp, rfl, rfl⟩ := hs.consistent.exists_http hhttpdatas
  rw [handleEvents, hhttp] at h
  simp only at h
  split at h
  · cases h
  · next c hevents =>
    cases h
    rcases Conn.handleEvents_conn hreported hevents with
      hkept | ⟨d, d', hkept, hconn, hkept'⟩
    · refine .inl (lease_ext fun id e => ?_)
      rw [hs'.lease_iff, hs.lease_iff, queue, store_poller, hkept.poller]
      rfl
    · rw [← store_conn hhttp ⟨reads, writes, [], now⟩] at hs
      have hset : Conn.Kept (s.conn http ⟨reads, writes, [], now⟩)
          (s.conn { http with ownchannel := http.ownchannel.setRevents revents }
            ⟨reads, writes, [], now⟩) := ⟨rfl, rfl, rfl, rfl, rfl, rfl, rfl⟩
      exact .inr (lease_handOver ⟨hs.consistent.kept hset, hs.owned.kept hset⟩ hs' hhttpdatas hkept
        hconn hkept')

end HandleEvents

section HandleExpired

variable {top : ℕ → MinQueue.Top TimerNode.expiredTime} {clock : ℕ → Timeval} {sweep : Sweep}

/-- The expiry phase removes the connections whose leases have ended when it ends. -/
theorem lease_of_handleExpired (hs : Inv s) (hs' : Inv s') (hclock : Steady clock)
    (hsweep : handleExpiredEvent top clock s.queue = .ok sweep)
    (h : s.handleExpired top clock = .ok s') :
    s'.lease = Lease.apply s.lease (.sweep (sweep.last clock)) := by
  obtain ⟨sweep', hsweep', hqueue, -⟩ := hs.handleExpired_eq h
  obtain rfl := Except.ok.inj (hsweep.symm.trans hsweep')
  obtain ⟨popped, sweep', hsweep', hswept⟩ :=
    handleExpiredEvent_swept top clock hs.mixed.ownHttp_ne_none
  obtain rfl := Except.ok.inj (hsweep.symm.trans hsweep')
  have hexact := hswept.exact hclock hs.mixed
  refine lease_ext fun id d => ?_
  rw [hs'.lease_iff, hqueue, Lease.apply, Option.filter_eq_some_iff, decide_eq_true_eq,
    hs.lease_iff]
  constructor
  · rintro ⟨node, hnode, hlive, hown, rfl⟩
    -- What is on top of the queue in the end expires no later than this node.
    obtain ⟨first, htop, -, hlt⟩ := hexact.top (List.ne_nil_of_mem hnode)
    refine ⟨⟨node, ?_, hlive, hown, rfl⟩, hlt.trans_le ((top _).le htop node hnode)⟩
    exact hswept.pops.perm.mem_iff.2 (List.mem_append_right _ hnode)
  · rintro ⟨⟨node, hnode, hlive, hown, rfl⟩, hlt⟩
    exact ⟨node, (hexact.unexpired node hnode hlive hlt).1, hlive, hown, rfl⟩

end HandleExpired

/-! ## Runs in time -/

/-- A phase of the loop, at some time; the time of an expiry phase is what the clock reads
    last. -/
inductive TimedEvent
  | newEvent (fd : Fd) (now : Timeval)
  | handleEvents (id : HttpId) (now : Timeval)
  | handleExpired (time : ℕ)

/-- The phases of the loop. The clock does not go back during an expiry phase, nor does it
    wrap. -/
inductive TimedStep (s : Registry) : TimedEvent → Registry → Prop
  | newEvent {s' : Registry} {fd : Fd} {method : Option HttpMethod} {events revents : Mask}
      {now : Timeval} : s.Unused fd → s.newEvent fd method events revents now = .ok s' →
      TimedStep s (.newEvent fd now) s'
  | handleEvents {s' : Registry} {fs : FileSystem} {fd : Fd} {id : HttpId} {revents : Mask}
      {reads : List ReadResult} {writes : List WriteResult} {now : Timeval} :
      s.poller.channels fd = some (.http id) → Reported revents →
      s.handleEvents fs id revents reads writes now = .ok s' →
      TimedStep s (.handleEvents id now) s'
  | handleExpired {s' : Registry} {top : ℕ → MinQueue.Top TimerNode.expiredTime}
      {clock : ℕ → Timeval} {sweep : Sweep} : Steady clock →
      handleExpiredEvent top clock s.queue = .ok sweep → s.handleExpired top clock = .ok s' →
      TimedStep s (.handleExpired (sweep.last clock)) s'

/-- The runs of the phases, from an empty poller. -/
def timed : System Registry TimedEvent where
  init := {empty}
  step := TimedStep

/-- What an event does to the leases, where `next` is the next connection to be made. -/
inductive TimedEvent.Grants (next : HttpId) : TimedEvent → List (Lease.Event HttpId ℕ) → Prop
  | newEvent {fd : Fd} {now : Timeval} :
      Grants next (.newEvent fd now) [.grant next (now.clock + DEFAULT_EXPIRED_TIME)]
  | keep {id : HttpId} {now : Timeval} : Grants next (.handleEvents id now) []
  | close {id : HttpId} {now : Timeval} : Grants next (.handleEvents id now) [.revoke id]
  | again {id : HttpId} {now : Timeval} {timeout : ℕ} :
      timeout = DEFAULT_EXPIRED_TIME ∨ timeout = DEFAULT_KEEP_ALIVE_TIME →
      Grants next (.handleEvents id now) [.grant id (now.clock + timeout)]
  | handleExpired {time : ℕ} : Grants next (.handleExpired time) [.sweep time]

theorem calls_of_timed (hs : timed.Reachable s) : (calls Reported).Reachable s := by
  refine System.ReachableBy.invariant (S := timed) (I := (calls Reported).Reachable)
    (fun s hs => .init hs) (fun s e s' _ hs _ hst => ?_) hs
  rcases hst with ⟨hunused, h⟩ | ⟨hfd, hreported, h⟩ | ⟨-, -, h⟩
  · exact reachable_call hs (by rw [← h]; exact .newEvent _ _ _ _ hunused)
  · exact reachable_call hs (by rw [← h]; exact .handleEvents _ _ _ _ hfd hreported)
  · exact reachable_call hs (by rw [← h]; exact .handleExpired _ _)

/-- Every phase of the loop does to the leases what it is for, and it makes a connection
    or leaves the next one the same. -/
theorem lease_of_step {e : TimedEvent} (hs : timed.Reachable s) (hstep : TimedStep s e s') :
    s.nextId ≤ s'.nextId ∧ ∃ es, e.Grants s.nextId es ∧ s'.lease = Lease.run s.lease es := by
  have hinv := inv_of_calls (calls_of_timed hs)
  have hinv' := inv_of_calls (calls_of_timed (.step hs trivial hstep))
  rcases hstep with ⟨-, h⟩ | ⟨hfd, hreported, h⟩ | ⟨hclock, hsweep, h⟩
  · exact ⟨(httpdatas_of_newEvent h).2.2 ▸ Nat.le_succ _, _, .newEvent,
      lease_of_newEvent hinv hinv' h⟩
  · refine ⟨(httpdatas_of_handleEvents hinv hfd hreported h).2.2.ge, ?_⟩
    rcases lease_of_handleEvents hinv hinv' hfd hreported h with
      heq | heq | ⟨timeout, htimeout, heq⟩
    · exact ⟨_, .keep, heq⟩
    · exact ⟨_, .close, heq⟩
    · exact ⟨_, .again htimeout, heq⟩
  · exact ⟨(httpdatas_of_handleExpired hinv h).2.2.ge, _, .handleExpired,
      lease_of_handleExpired hinv hinv' hclock hsweep h⟩

section Run

variable {ps : List (Registry × TimedEvent)} {id : HttpId}

/-- In every run, the leases are those that the phases grant, revoke and sweep. -/
theorem lease_of_run (hs : timed.Reachable s) (hrun : timed.Run s ps s') :
    ∃ ess, List.Forall₂ (fun p es => p.2.Grants p.1.nextId es) ps ess ∧
      s'.lease = Lease.run s.lease ess.flatten := by
  induction hrun with
  | nil => exact ⟨[], .nil, rfl⟩
  | cons hst _ ih =>
    obtain ⟨-, es, hes, hfirst⟩ := lease_of_step hs hst
    obtain ⟨ess, hess, hrest⟩ := ih (.step hs trivial hst)
    refine ⟨es :: ess, .cons hes hess, ?_⟩
    rw [hrest, hfirst, List.flatten_cons, Lease.run_append]

/-- A clock that stands still. -/
theorem steady_const {now : Timeval} (hnow : now.Valid) : Steady fun _ => now :=
  ⟨fun _ => hnow, fun _ _ _ => Nat.le_refl _, fun _ => Nat.sub_self _⟩

/-- An expiry phase, at any time. -/
theorem exists_handleExpired_timed (hs : timed.Reachable s) {now : Timeval} (hnow : now.Valid) :
    ∃ s', timed.step s (.handleExpired now.clock) s' := by
  have hcalls := calls_of_timed hs
  have hinv := inv_of_calls hcalls
  obtain ⟨s', hs', -⟩ := exists_handleExpired hinv (matches_of_calls hcalls) (fun _ => .first _)
    fun _ => now
  obtain ⟨sweep, hsweep, -⟩ := hinv.handleExpired_eq hs'
  have hlast : sweep.last (fun _ => now) = now.clock := by rw [Sweep.last]
  exact ⟨s', hlast ▸ .handleExpired (steady_const hnow) hsweep hs'⟩

/-- A connection that is made at the time 1000. -/
theorem exists_timed :
    ∃ s, timed.Reachable s ∧ s.poller.httpdatas 5 = some 0 ∧ s.lease 0 = some 3000 := by
  have hempty : timed.Reachable empty := .init rfl
  have hunused : empty.Unused 5 := ⟨by decide, fun id h _ hh => by cases hh⟩
  have hcalls := calls_of_timed hempty
  obtain ⟨s, hs⟩ := exists_newEvent (inv_of_calls hcalls) (matches_of_calls hcalls) hunused none 0 0
    ⟨1, 0⟩
  have hreach : timed.Reachable s := .step hempty trivial (TimedStep.newEvent hunused hs)
  refine ⟨s, hreach, ?_, ?_⟩
  · rw [(httpdatas_of_newEvent hs).1, Function.update_self]
    rfl
  · rw [lease_of_newEvent (inv_of_calls hcalls) (inv_of_calls (calls_of_timed hreach)) hs,
      show empty.nextId = 0 from rfl, Function.update_self]
    decide

/-- It is swept at the time 2000. -/
theorem lease_of_run_timed : ∃ (s s' : Registry) (ess : List (List (Lease.Event HttpId ℕ))),
    timed.Reachable s ∧ s.lease 0 = some 3000 ∧
    List.Forall₂ (fun (p : Registry × TimedEvent) es => p.2.Grants p.1.nextId es)
      [(s, .handleExpired 2000)] ess ∧
      s'.lease = Lease.run s.lease ess.flatten := by
  obtain ⟨s, hs, -, hlease⟩ := exists_timed
  have hvalid : Timeval.Valid ⟨2, 0⟩ := by simp [Timeval.Valid]
  obtain ⟨s', hstep⟩ := exists_handleExpired_timed hs hvalid
  obtain ⟨ess, hess, hrun⟩ := lease_of_run hs (.cons hstep .nil)
  exact ⟨s, s', ess, hs, hlease, hess, hrun⟩

/-- An event that handles no events of the connection does not touch its lease, and ends
    it only as an expiry phase. -/
theorem TimedEvent.Grants.silent {next : HttpId} {e : TimedEvent}
    {es : List (Lease.Event HttpId ℕ)} (h : e.Grants next es) (hid : id < next)
    (hsilent : ∀ now, e ≠ .handleEvents id now) :
    (∀ a ∈ es, ¬a.Touches id) ∧
      ∀ d, (∀ a ∈ es, a.Spares d) ↔ ∀ time, e = .handleExpired time → time < d := by
  rcases h with - | - | - | ⟨-⟩ | @⟨time⟩
  · refine ⟨List.forall_mem_singleton.2 hid.ne', fun d => iff_of_true ?_ nofun⟩
    exact List.forall_mem_singleton.2 trivial
  · exact ⟨List.forall_mem_nil _, fun d => iff_of_true (List.forall_mem_nil _) nofun⟩
  · refine ⟨List.forall_mem_singleton.2 ?_, fun d => iff_of_true ?_ nofun⟩
    · rintro rfl
      exact hsilent _ rfl
    · exact List.forall_mem_singleton.2 trivial
  · refine ⟨List.forall_mem_singleton.2 ?_, fun d => iff_of_true ?_ nofun⟩
    · rintro rfl
      exact hsilent _ rfl
    · exact List.forall_mem_singleton.2 trivial
  · refine ⟨List.forall_mem_singleton.2 fun h => h, fun d => ?_⟩
    rw [List.forall_mem_singleton]
    exact ⟨fun h t ht => TimedEvent.handleExpired.inj ht ▸ h, fun h => h time rfl⟩

/-- As long as no events of a connection are handled, nothing touches its lease. -/
theorem exists_untouched (hs : timed.Reachable s) (hrun : timed.Run s ps s')
    (hid : id < s.nextId) (hsilent : ∀ p ∈ ps, ∀ now, p.2 ≠ .handleEvents id now) :
    ∃ es, s'.lease = Lease.run s.lease es ∧ (∀ a ∈ es, ¬a.Touches id) ∧
      ∀ d, (∀ a ∈ es, a.Spares d) ↔ ∀ p ∈ ps, ∀ time, p.2 = .handleExpired time → time < d := by
  induction hrun with
  | nil => exact ⟨[], rfl, List.forall_mem_nil _, fun d => iff_of_true (List.forall_mem_nil _)
      (List.forall_mem_nil _)⟩
  | cons hst _ ih =>
    obtain ⟨hfirst, hsilent⟩ := List.forall_mem_cons.1 hsilent
    obtain ⟨hle, es, hes, hlease⟩ := lease_of_step hs hst
    obtain ⟨huntouched, hspares⟩ := hes.silent hid hfirst
    obtain ⟨es', hlease', huntouched', hspares'⟩ :=
      ih (.step hs trivial hst) (hid.trans_le hle) hsilent
    refine ⟨es ++ es', ?_, List.forall_mem_append.2 ⟨huntouched, huntouched'⟩, fun d => ?_⟩
    · rw [hlease', hlease, Lease.run_append]
    · rw [List.forall_mem_append, hspares, hspares', List.forall_mem_cons]

/-- A registered connection that is silent is kept until the first expiry phase that ends
    when the clock has reached its deadline, which closes it. -/
theorem registered_of_silent (hs : timed.Reachable s) (hrun : timed.Run s ps s') {fd : Fd}
    (hfd : s.poller.httpdatas fd = some id)
    (hsilent : ∀ p ∈ ps, ∀ now, p.2 ≠ .handleEvents id now) :
    ∃ d, s.lease id = some d ∧ ((∃ fd, s'.poller.httpdatas fd = some id) ↔
      ∀ p ∈ ps, ∀ time, p.2 = .handleExpired time → time < d) := by
  have hinv := inv_of_calls (calls_of_timed hs)
  have hinv' := inv_of_calls (calls_of_timed (System.Reachable.run hs hrun))
  obtain ⟨h, hh, -, -⟩ := hinv.consistent.exists_http hfd
  obtain ⟨d, hd⟩ := Option.ne_none_iff_exists'.1 (hinv.lease_ne_none_iff.2 ⟨fd, hfd⟩)
  obtain ⟨es, hlease, huntouched, hspares⟩ :=
    exists_untouched hs hrun (hinv.consistent.ids id h hh).2 hsilent
  refine ⟨d, hd, ?_⟩
  rw [← hinv'.lease_ne_none_iff, ← hspares, hlease, Option.ne_none_iff_exists']
  constructor
  · rintro ⟨d', hd'⟩
    obtain ⟨hheld, hes⟩ := (Lease.run_iff_of_untouched huntouched).1 hd'
    obtain rfl : d = d' := Option.some.inj (hd.symm.trans hheld)
    exact hes
  · exact fun hes => ⟨d, (Lease.run_iff_of_untouched huntouched).2 ⟨hd, hes⟩⟩

/-- It is still there at the time 2000, and no longer at 4000. -/
theorem registered_of_silent_timed : ∃ s s₁ s₂, timed.Reachable s ∧
    timed.Run s [(s, .handleExpired 2000)] s₁ ∧ (∃ fd, s₁.poller.httpdatas fd = some 0) ∧
    timed.Run s₁ [(s₁, .handleExpired 4000)] s₂ ∧ ¬∃ fd, s₂.poller.httpdatas fd = some 0 := by
  obtain ⟨s, hs, hfd, hlease⟩ := exists_timed
  obtain ⟨s₁, h₁⟩ := exists_handleExpired_timed hs (by simp [Timeval.Valid] : Timeval.Valid ⟨2, 0⟩)
  have hs₁ : timed.Reachable s₁ := .step hs trivial h₁
  obtain ⟨s₂, h₂⟩ := exists_handleExpired_timed hs₁ (by simp [Timeval.Valid] : Timeval.Valid ⟨4, 0⟩)
  have hrun₁ : timed.Run s [(s, .handleExpired 2000)] s₁ := .cons h₁ .nil
  have hrun₂ : timed.Run s₁ [(s₁, .handleExpired 4000)] s₂ := .cons h₂ .nil
  obtain ⟨d, hd, hiff₁⟩ := registered_of_silent hs hrun₁ hfd (by simp)
  obtain ⟨d', hd', hiff⟩ := registered_of_silent hs (.cons h₁ hrun₂) hfd (by simp)
  obtain rfl : 3000 = d := Option.some.inj (hlease.symm.trans hd)
  obtain rfl : 3000 = d' := Option.some.inj (hlease.symm.trans hd')
  refine ⟨s, s₁, s₂, hs, hrun₁, hiff₁.2 (by simp), hrun₂, fun hfd => ?_⟩
  exact absurd (hiff.1 hfd (s₁, .handleExpired 4000) (by simp) 4000 rfl) (by decide)

end Run

end Registry

end Webserver
