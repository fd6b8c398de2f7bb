import Webserver.Http.Interest

/-!
# The poller and the kernel

The poller keeps a table of what it has registered with the kernel, and asserts
that `epoll_ctl` agrees. Here the calls that change the registration are made in
any order, and may fail (`Registry.Call`).

* `EPollPoller.Matches`: the table and the interest set agree. It is carried
  through registering and removing by `Matches.renew` and `Matches.drop`.
* `Conn.handleEvents_thrown`, `Registry.Inv.exists_handleExpired`: handling events
  fails with an exception only, and the expiry of connections does not fail.
* `Registry.matchesKernel_of_reachable`: so these assertions hold in any run, and in
  every state the table matches the interest set, as long as something is reported
  in every event.
-/

namespace Webserver

open Transition

/-- An exception ends the process, rather than an assertion or a null pointer. -/
def Fault.Thrown (f : Fault) : Prop := f = .lengthError ∨ f = .outOfRange

/-! ## How reading fails -/

/-- `parseHeaders` only fails by a string of negative length. -/
theorem fault_of_headersOutcome {h h' : HttpData} {f : Fault}
    (heq : h.headersOutcome = .crash f h') : f = .lengthError := by
  rw [HttpData.headersOutcome] at heq
  cases hloop : HttpData.parseHeadersLoop h.inBuffer h.headtToValue with
  | error f' =>
    rw [hloop] at heq
    cases heq
    exact (short_of_parseHeadersLoop hloop).1
  | ok r =>
    obtain ⟨flag, str, m⟩ := r
    rw [hloop] at heq
    cases flag with
    | again => cases heq
    | error => cases heq
    | success =>
      rw [HttpData.afterHeaders] at heq
      split at heq <;> cases heq

/-- So does all of the parsing. -/
theorem fault_of_outcome {h h' : HttpData} {f : Fault} (heq : h.outcome = .crash f h') :
    f = .lengthError := by
  rw [HttpData.outcome] at heq
  split at heq
  · split at heq
    · cases heq
    · exact fault_of_headersOutcome heq
  · exact fault_of_headersOutcome heq
  · cases heq
  · cases heq
  · cases heq

/-- Answering only fails by taking the suffix of a path from beyond its end. -/
theorem fault_of_reply {fs : FileSystem} {r : Request} {f : Fault} (h : r.reply fs = .crash f) :
    f = .outOfRange := by
  have hfile : ∀ {url : Bytes} {m : Headers} {head : Bool}, fileReply fs url m head = .crash f →
      f = .outOfRange := by
    intro url m head h
    by_cases hfits : DotFits url
    · obtain ⟨t, ht⟩ := filetype_of_fits hfits
      rw [fileReply, ht] at h
      simp only at h
      split at h
      · cases h
      · split at h <;> cases h
    · rw [fileReply, filetype_of_not_fits hfits] at h
      cases h
      rfl
  rw [Request.reply] at h
  split at h
  · exact hfile h
  · exact hfile h
  · cases h
  · cases h

namespace Conn

variable {fs : FileSystem} {c d : Conn} {e : Fault × Conn}

/-- The phases after reading only fail by exceptions. -/
theorem act_thrown (h : c.act fs c.http.outcome = .error e) : e.1.Thrown := by
  cases hout : c.http.outcome with
  | crash f h' =>
    rw [hout] at h
    cases h
    exact .inl (fault_of_outcome hout)
  | bad h' => rw [hout] at h; cases h
  | wait h' => rw [hout] at h; cases h
  | request h' =>
    rw [hout, act, analysisPhase, if_pos (request_state hout), analysisRequest_eq_reply] at h
    cases hreply : h'.request.reply fs with
    | crash f =>
      simp only [hreply, handleReply] at h
      cases h
      exact .inr (fault_of_reply hreply)
    | answered r => simp only [hreply, handleReply] at h; cases h
    | notFound =>
      obtain ⟨g, -, hnotFound⟩ := handleReply_notFound fs ({ c with http := h' } : Conn).analyse
      simp only [hreply, hnotFound, notFound] at h
      cases h
    | unsupported => simp only [hreply, handleReply] at h; cases h

/-- Reading only fails by exceptions, however often `handleRead` calls itself. -/
theorem handleRead_thrown (h : c.handleRead fs = .error e) : e.1.Thrown := by
  induction c using handleRead.induct fs with
  | case1 c e' heq =>
    rw [handleRead, heq] at h
    cases h
    rw [turn] at heq
    split at heq
    · next hprocess =>
      cases heq
      rw [process_eq] at hprocess
      split at hprocess
      · cases hprocess
      · exact act_thrown hprocess
    · cases heq
  | case2 c c' heq => rw [handleRead, heq] at h; cases h
  | case3 c c' heq ih =>
    rw [handleRead, heq] at h
    exact ih h

end Conn

/-! ## The calls that do not fail -/

namespace EPollPoller

variable {p : EPollPoller} {c : Channel} {id : HttpId} {timeout : ℕ} {now : Timeval}

variable (p c id now) in
/-- A descriptor that is not registered can be added. -/
theorem exists_addChannel (hfd : c.fd ≠ 0) (hevents : c.events ≠ 0)
    (hinterest : p.interest c.fd = none) (htimeout : 0 < timeout) :
    ∃ r, p.addChannel c (.http id) timeout now = .ok r := by
  rw [addChannel, hold_eq p c id now htimeout]
  exact ⟨_, if_neg (not_or.2 ⟨hfd, not_or.2 ⟨hevents, not_not.2 hinterest⟩⟩)⟩

variable (p c id now) in
/-- One that is registered can be updated. -/
theorem exists_updateChannel (hfd : c.fd ≠ 0) (hevents : c.events ≠ 0)
    (hinterest : p.interest c.fd ≠ none) (htimeout : 0 < timeout) :
    ∃ r, p.updateChannel c (.http id) timeout now = .ok r := by
  rw [updateChannel, hold_eq p c id now htimeout]
  exact ⟨_, if_neg (not_or.2 ⟨hfd, not_or.2 ⟨hevents, hinterest⟩⟩)⟩

/-- One that is registered can be removed. -/
theorem exists_removeChannel (hfd : c.fd ≠ 0) (hinterest : p.interest c.fd ≠ none) :
    ∃ p', p.removeChannel c = .ok p' := by
  rw [removeChannel]
  exact ⟨_, if_neg (not_or.2 ⟨hfd, hinterest⟩)⟩

/-- The table of channels and the interest set have the same keys. They are the
    descriptors of connections, and `0` is not one of them. -/
structure Matches (p : EPollPoller) : Prop where
  keys : ∀ fd, p.channels fd = none ↔ p.interest fd = none
  http : ∀ fd ch, p.channels fd = some ch → fd ≠ 0 ∧ ∃ id, ch = .http id

/-- Registering a connection, or renewing its timer, keeps the table and the kernel in step. -/
theorem Matches.renew (hp : p.Matches) {fd : Fd} (hfd : fd ≠ 0) {expiredTime : ℕ} {events : Mask} :
    (p.renew fd id expiredTime events).Matches := by
  refine ⟨fun fd' => ?_, fun fd' ch h => ?_⟩
  · by_cases heq : fd' = fd
    · subst heq
      simp [EPollPoller.renew]
    · simpa [EPollPoller.renew, heq] using hp.keys fd'
  · have h : Function.update p.channels fd (some (.http id)) fd' = some ch := h
    by_cases heq : fd' = fd
    · subst heq
      rw [Function.update_self, Option.some.injEq] at h
      exact ⟨hfd, id, h.symm⟩
    · rw [Function.update_of_ne heq] at h
      exact hp.http fd' ch h

/-- So does removing it. -/
theorem Matches.drop (hp : p.Matches) {fd : Fd} : (p.drop fd).Matches := by
  refine ⟨fun fd' => ?_, fun fd' ch h => ?_⟩
  · by_cases heq : fd' = fd
    · subst heq
      simp [EPollPoller.drop]
    · simpa [EPollPoller.drop, heq] using hp.keys fd'
  · have h : Function.update p.channels fd none fd' = some ch := h
    by_cases heq : fd' = fd
    · subst heq
      rw [Function.update_self] at h
      cases h
    · rw [Function.update_of_ne heq] at h
      exact hp.http fd' ch h

end EPollPoller

namespace Conn

variable {fs : FileSystem} {c d : Conn} {e : Fault × Conn}

/-- The descriptor of the connection is in the interest set. -/
structure Registered (c : Conn) : Prop where
  fd : c.http.ownchannel.fd ≠ 0
  interest : c.poller.interest c.http.ownchannel.fd ≠ none

/-- What leaves the descriptor and the poller alone leaves the connection registered. -/
theorem Registered.kept (hc : c.Registered) (h : Kept c d) : d.Registered :=
  ⟨by rw [h.fd]; exact hc.fd, by rw [h.fd, h.poller]; exact hc.interest⟩

theorem Registered.seperaterTimer (hc : c.Registered) : c.seperaterTimer.Registered := by
  obtain ⟨t, p, hsep⟩ := c.seperaterTimer_eq
  rw [hsep]
  exact ⟨hc.fd, hc.interest⟩

/-- A registered connection can be closed. -/
theorem Registered.exists_handleClose (hc : c.Registered) : ∃ d, c.handleClose = .ok d := by
  obtain ⟨p, hp⟩ := EPollPoller.exists_removeChannel hc.fd hc.interest
  rw [handleClose, hp]
  exact ⟨_, rfl⟩

/-- Its events can be settled: it is either updated or closed. -/
theorem Registered.exists_handleConn (hc : c.Registered) : ∃ d, c.handleConn = .ok d := by
  rw [handleConn_eq_rearm, rearm]
  by_cases hok : c.http.error = false ∧ c.http.connectionState = .connected
  · obtain ⟨r, hr⟩ := EPollPoller.exists_updateChannel c.poller
      (c.http.ownchannel.setEvents (rearmMask c.http.ownchannel.events)) c.http.id c.socket.now
      hc.fd (rearmMask_ne_zero _) hc.interest c.timeout_pos
    have hupdate : ∃ d, (c.setEvents (rearmMask c.http.ownchannel.events)).updateChannel
        c.timeout = .ok d := by
      rw [updateChannel]
      simp only [setEvents, hr]
      exact ⟨_, rfl⟩
    simpa only [if_pos hok] using hupdate
  · simpa only [if_neg hok] using hc.exists_handleClose

/-- A connection whose descriptor is not registered can be added. -/
theorem exists_newEvent (hfd : c.http.ownchannel.fd ≠ 0)
    (hinterest : c.poller.interest c.http.ownchannel.fd = none) : ∃ d, c.newEvent = .ok d := by
  have hevents : DEFAULT_EVENT ≠ 0 := by decide
  obtain ⟨r, hr⟩ := EPollPoller.exists_addChannel c.poller
    (c.http.ownchannel.setEvents DEFAULT_EVENT) c.http.id c.socket.now hfd hevents hinterest
    (show 0 < DEFAULT_EXPIRED_TIME by decide)
  rw [newEvent]
  simp only [setEvents, hr]
  exact ⟨_, rfl⟩

/-- A callback for reading or writing leaves the registration alone, and fails with
    an exception. -/
theorem callIf_registered {revents mask : Mask} (hc : c.Registered)
    (h : Channel.callIf revents mask (some (handleRead fs)) c = .ok d) : d.Registered := by
  rcases callIf_kept h with hkept | ⟨-, rfl⟩
  · exact hc.seperaterTimer.kept hkept
  · exact hc

/-- A callback that is only called for some events fails as `handleRead` does. -/
theorem callIf_thrown {revents mask : Mask}
    (h : Channel.callIf revents mask (some (handleRead fs)) c = .error e) : e.1.Thrown := by
  rw [Channel.callIf] at h
  split at h
  · exact handleRead_thrown h
  · cases h

/-- Handling events of a connection that is registered. -/
theorem handleEvents_thrown (hc : c.Registered) (h : c.handleEvents fs = .error e) :
    e.1.Thrown := by
  have hstart : (channel.set { channel.get c with eventHandling := true } c).Registered :=
    ⟨hc.fd, hc.interest⟩
  rw [handleEvents, Channel.handleEvents] at h
  split at h
  · cases h
  · split at h
    · cases h
    · rcases error_or_of_bind_eq_error h with hread | ⟨s₁, hread, h⟩
      · exact callIf_thrown hread
      · have hs₁ := callIf_registered hstart hread
        rcases error_or_of_bind_eq_error h with hwrite | ⟨s₂, hwrite, h⟩
        · exact callIf_thrown hwrite
        · obtain ⟨s₃, hconn⟩ := (callIf_registered hs₁ hwrite).exists_handleConn
          have hcall : Channel.call (callbacks fs).conn s₂ = .ok s₃ := by
            simp only [Channel.call, callbacks, hconn]
            rfl
          rw [hcall] at h
          cases h

/-- Handling events keeps the table in step with the interest set. -/
theorem handleEvents_matches (hc : c.poller.Matches) (hfd : c.http.ownchannel.fd ≠ 0)
    (hreported : Registry.Reported c.http.ownchannel.revents) (h : c.handleEvents fs = .ok d) :
    d.poller.Matches := by
  rcases handleEvents_cases hreported h with hkept | ⟨d₁, d₂, hkept, hconn, hkept'⟩
  · rw [hkept.poller]
    exact hc
  · obtain ⟨t, p, hsep⟩ := c.seperaterTimer_eq
    have hd₁ : d₁.poller.Matches := by
      rw [hkept.poller, hsep]
      exact ⟨hc.keys, hc.http⟩
    have hfd₁ : d₁.http.ownchannel.fd ≠ 0 := by
      rw [hkept.fd, hsep]
      exact hfd
    rw [hkept'.poller]
    rcases hconn with hrenewed | hdropped
    · obtain ⟨expiredTime, events, hpoller⟩ := hrenewed.poller
      rw [hpoller]
      exact hd₁.renew hfd₁
    · rw [hdropped.poller]
      exact hd₁.drop

end Conn

namespace Registry

/-! ## The calls -/

/-- The connection is kept alive, by the poller or by a timer node. -/
def Kept (s : Registry) (id : HttpId) : Prop :=
  (∃ fd, s.poller.httpdatas fd = some id) ∨ ∃ node ∈ s.queue, node.ownHttp = some id

/-- A descriptor that may be accepted: no connection that is kept alive has it. -/
def Unused (s : Registry) (fd : Fd) : Prop :=
  fd ≠ 0 ∧ ∀ id h, s.Kept id → s.https id = some h → h.ownchannel.fd ≠ fd

/-- A phase of the loop, and what comes of it. The events reported for a connection
    are restricted by `Rep`. -/
inductive Call (Rep : Mask → Prop) (s : Registry) : Event → Except Fault Registry → Prop
  | newEvent {fd : Fd} (method : Option HttpMethod) (events revents : Mask) (now : Timeval) :
      s.Unused fd → Call Rep s (.newEvent fd) (s.newEvent fd method events revents now)
  | handleEvents {fd : Fd} {id : HttpId} {revents : Mask} (fs : FileSystem)
      (reads : List ReadResult) (writes : List WriteResult) (now : Timeval) :
      s.poller.channels fd = some (.http id) → Rep revents →
      Call Rep s (.handleEvents id) (s.handleEvents fs id revents reads writes now)
  | handleExpired (top : ℕ → MinQueue.Top TimerNode.expiredTime) (clock : ℕ → Timeval) :
      Call Rep s .handleExpired (s.handleExpired top clock)

/-- The runs of these calls, from an empty poller. -/
def calls (Rep : Mask → Prop) : System Registry Event where
  init := {empty}
  step s e s' := Call Rep s e (.ok s')

/-- The table of channels matches the kernel's interest set, and holds the channels
    of the connections that the poller keeps alive. -/
structure MatchesKernel (s : Registry) : Prop where
  keys : ∀ fd, s.poller.channels fd = none ↔ s.poller.interest fd = none
  channel : ∀ fd ch, s.poller.channels fd = some ch →
    ∃ id h, ch = .http id ∧ s.https id = some h ∧ h.ownchannel.fd = fd
  httpdatas : ∀ fd id, s.poller.httpdatas fd = some id ↔ s.poller.channels fd = some (.http id)

variable {s s' : Registry}

/-- A call that does not fail is a step of the loop. -/
theorem Call.step {e : Event} (h : Call Reported s e (.ok s')) : Step s e s' := by
  generalize hr : (Except.ok s' : Except Fault Registry) = r at h
  cases h with
  | newEvent method events revents now _ => exact .newEvent hr.symm
  | handleEvents fs reads writes now hfd hreported => exact .handleEvents hfd hreported hr.symm
  | handleExpired top clock => exact .handleExpired hr.symm

/-- The calls of a loop are among the steps of the registry. -/
theorem reachable_of_calls (hs : (calls Reported).Reachable s) : system.Reachable s := by
  refine System.ReachableBy.invariant (S := calls Reported) (I := system.Reachable)
    (fun s hs => ?_) (fun s e s' _ hs _ hst => .step hs trivial hst.step) hs
  rw [Set.mem_singleton_iff.1 hs]
  exact .init started_empty

/-- The invariant of the registry holds in every run of calls. -/
theorem inv_of_calls (hs : (calls Reported).Reachable s) : Inv s :=
  inv_of_reachable (reachable_of_calls hs)

/-! ## The matching, from call to call -/

/-- What is registered for a descriptor is a connection that is kept alive. -/
theorem Inv.exists_registered (hs : Inv s) (hp : s.poller.Matches) {fd : Fd} {ch : ChannelId}
    (hch : s.poller.channels fd = some ch) :
    ∃ id h, ch = .http id ∧ s.poller.httpdatas fd = some id ∧ s.https id = some h ∧
      h.ownchannel.fd = fd := by
  obtain ⟨-, id, rfl⟩ := hp.http fd ch hch
  have hfd := (hs.consistent.registered fd id).1 hch
  obtain ⟨h, hh, -, hfd'⟩ := hs.consistent.exists_http hfd
  exact ⟨id, h, rfl, hfd, hh, hfd'⟩

/-- The kernel does not watch a descriptor that is not used. -/
theorem Unused.interest {fd : Fd} (hfd : s.Unused fd) (hs : Inv s) (hp : s.poller.Matches) :
    s.poller.interest fd = none := by
  rw [← hp.keys]
  by_contra hne
  obtain ⟨ch, hch⟩ := Option.ne_none_iff_exists'.1 hne
  obtain ⟨id, h, -, hhttp, hh, hfd'⟩ := hs.exists_registered hp hch
  exact hfd.2 id h (.inl ⟨fd, hhttp⟩) hh hfd'

/-- A connection that is registered, taken out. -/
theorem Inv.registered (hs : Inv s) (hp : s.poller.Matches) {fd : Fd} {id : HttpId}
    (hfd : s.poller.httpdatas fd = some id) {h : HttpData} (hh : h.ownchannel.fd = fd)
    (socket : Socket) : (s.conn h socket).Registered := by
  have hch := (hs.consistent.registered fd id).2 hfd
  refine ⟨?_, ?_⟩
  · rw [conn, hh]
    exact (hp.http fd _ hch).1
  · rw [conn, hh]
    exact hs.consistent.interest fd id hfd

/-- A new connection is known to the table and to the kernel. -/
theorem matches_of_newEvent (hp : s.poller.Matches) {fd : Fd} (hfd : fd ≠ 0)
    {method : Option HttpMethod} {events revents : Mask} {now : Timeval}
    (h : s.newEvent fd method events revents now = .ok s') : s'.poller.Matches := by
  rw [newEvent] at h
  split at h
  · cases h
  · next c hnew =>
    cases h
    obtain ⟨-, hrenewed⟩ := Conn.newEvent_renewed hnew
    obtain ⟨expiredTime, events, hpoller⟩ := hrenewed.poller
    rw [store_poller, hpoller]
    exact hp.renew hfd

/-- A connection on a descriptor that is not used can be registered. -/
theorem exists_newEvent (hs : Inv s) (hp : s.poller.Matches) {fd : Fd} (hfd : s.Unused fd)
    (method : Option HttpMethod) (events revents : Mask) (now : Timeval) :
    ∃ s', s.newEvent fd method events revents now = .ok s' := by
  obtain ⟨c, hc⟩ := Conn.exists_newEvent
    (c := s.conn (.new s.nextId fd method events revents) ⟨[], [], [], now⟩) hfd.1
    (hfd.interest hs hp)
  rw [newEvent, hc]
  exact ⟨_, rfl⟩

section Events

variable {fs : FileSystem} {fd : Fd} {id : HttpId} {revents : Mask} {reads : List ReadResult}
  {writes : List WriteResult} {now : Timeval}

/-- Handling events keeps the table and the kernel in step. -/
theorem matches_of_handleEvents (hs : Inv s) (hp : s.poller.Matches)
    (hfd : s.poller.channels fd = some (.http id)) (hreported : Reported revents)
    (h : s.handleEvents fs id revents reads writes now = .ok s') : s'.poller.Matches := by
  have hfd' := (hs.consistent.registered fd id).1 hfd
  obtain ⟨http, hhttp, -, hch⟩ := hs.consistent.exists_http hfd'
  rw [handleEvents, hhttp] at h
  simp only at h
  split at h
  · cases h
  · next c hevents =>
    cases h
    obtain ⟨hne, -⟩ := hs.registered hp hfd' hch ⟨reads, writes, [], now⟩
    exact Conn.handleEvents_matches (by exact hp) (by exact hne) (by exact hreported) hevents

/-- Handling the events of a registered channel fails neither by an assertion nor by a null
    pointer. -/
theorem thrown_of_handleEvents (hs : Inv s) (hp : s.poller.Matches)
    (hfd : s.poller.channels fd = some (.http id)) {f : Fault}
    (h : s.handleEvents fs id revents reads writes now = .error f) : f.Thrown := by
  have hfd' := (hs.consistent.registered fd id).1 hfd
  obtain ⟨http, hhttp, -, hch⟩ := hs.consistent.exists_http hfd'
  obtain ⟨hne, hinterest⟩ := hs.registered hp hfd' hch ⟨reads, writes, [], now⟩
  rw [handleEvents, hhttp] at h
  simp only at h
  split at h
  · next hevents =>
    cases h
    exact Conn.handleEvents_thrown (by exact ⟨hne, hinterest⟩) hevents
  · cases h

end Events

/-- Destroying a node that is taken out of the queue. -/
theorem exists_destroy (hs : Inv s) (hp : s.poller.Matches) {node expired : TimerNode}
    (hnode : node ∈ s.queue) (hown : expired.ownHttp = node.ownHttp) :
    ∃ s', (s.pop node).destroy expired = .ok s' ∧ s'.poller.Matches := by
  rw [destroy, hown]
  cases hid : node.ownHttp with
  | none => exact ⟨_, rfl, hp.keys, hp.http⟩
  | some id =>
    obtain ⟨http, hhttp, -, hfd⟩ := hs.exists_http hnode hid
    obtain ⟨hne, hinterest⟩ := hs.registered hp hfd rfl ⟨[], [], [], ⟨0, 0⟩⟩
    have hregistered : ((s.pop node).conn http ⟨[], [], [], ⟨0, 0⟩⟩).Registered := ⟨hne, hinterest⟩
    obtain ⟨c, hc⟩ := hregistered.exists_handleClose
    have hhttp : (s.pop node).https id = some http := hhttp
    simp only [hhttp, hc]
    refine ⟨_, rfl, ?_⟩
    have hp : (s.pop node).poller.Matches := ⟨hp.keys, hp.http⟩
    rw [store_poller, (Conn.handleClose_dropped hc).poller]
    exact hp.drop

/-- The expiry of connections does not fail. -/
theorem exists_handleExpired (hs : Inv s) (hp : s.poller.Matches)
    (top : ℕ → MinQueue.Top TimerNode.expiredTime) (clock : ℕ → Timeval) :
    ∃ s', s.handleExpired top clock = .ok s' ∧ s'.poller.Matches := by
  -- By induction on the length of the queue, as every round takes a node out of it.
  induction hn : s.queue.length using Nat.strong_induction_on generalizing s top clock with
  | _ n ih =>
    rcases hs.handleExpired_cases top clock with
      hend | ⟨node, expired, clock', hnode, hlt, hown, -, -, hround⟩
    · exact ⟨s, hend, hp⟩
    · obtain ⟨s₁, hdestroy, hp₁⟩ := exists_destroy hs hp hnode hown
      obtain ⟨hs₁, hqueue, -⟩ := hs.destroy hnode hown hdestroy
      rw [hround, hdestroy]
      exact ih _ (hn ▸ hlt) hs₁ hp₁ _ clock' (congrArg List.length hqueue)

/-- The table and the kernel agree in every run of calls. -/
theorem matches_of_calls (hs : (calls Reported).Reachable s) : s.poller.Matches := by
  refine System.ReachableBy.invariant (S := calls Reported) (I := fun s => s.poller.Matches)
    (fun s hs => ?_) (fun s e s' hs hp _ hst => ?_) hs
  · obtain rfl := Set.mem_singleton_iff.1 hs
    exact ⟨fun _ => ⟨fun _ => rfl, fun _ => rfl⟩, fun fd ch h => by cases h⟩
  · have hinv := inv_of_calls hs
    have hcall : Call Reported s e (.ok s') := hst
    generalize hr : (Except.ok s' : Except Fault Registry) = r at hcall
    cases hcall with
    | newEvent method events revents now hfd => exact matches_of_newEvent hp hfd.1 hr.symm
    | handleEvents fs reads writes now hfd hreported =>
      exact matches_of_handleEvents hinv hp hfd hreported hr.symm
    | handleExpired top clock =>
      obtain ⟨s₁, hs₁, hp₁⟩ := exists_handleExpired hinv hp top clock
      cases hr.trans hs₁
      exact hp₁

/-! ## The poller and the kernel -/

/-- The table of channels always matches the interest set, and no call fails an
    assertion or dereferences a null pointer. -/
theorem matchesKernel_of_reachable (hs : (calls Reported).Reachable s) :
    s.MatchesKernel ∧ ∀ e r, Call Reported s e r →
      r ≠ .error .assertFailed ∧ r ≠ .error .nullDereference := by
  have hinv := inv_of_calls hs
  have hp := matches_of_calls hs
  refine ⟨⟨hp.keys, fun fd ch hch => ?_, fun fd id => (hinv.consistent.registered fd id).symm⟩,
    fun e r hcall => ?_⟩
  · obtain ⟨id, h, hid, -, hh, hfd⟩ := hinv.exists_registered hp hch
    exact ⟨id, h, hid, hh, hfd⟩
  · cases hcall with
    | newEvent method events revents now hfd =>
      obtain ⟨s', hs'⟩ := exists_newEvent hinv hp hfd method events revents now
      rw [hs']
      exact ⟨nofun, nofun⟩
    | handleEvents fs reads writes now hfd hreported =>
      refine ⟨fun h => ?_, fun h => ?_⟩
      · rcases thrown_of_handleEvents hinv hp hfd h with h | h <;> cases h
      · rcases thrown_of_handleEvents hinv hp hfd h with h | h <;> cases h
    | handleExpired top clock =>
      obtain ⟨s', hs', -⟩ := exists_handleExpired hinv hp top clock
      rw [hs']
      exact ⟨nofun, nofun⟩

/-- A run that registers a connection, and handles events reported for it. -/
theorem exists_calls (Rep : Mask → Prop) (revents : Mask) (hrep : Rep revents)
    (reads : List ReadResult) {p : Registry → Bool}
    (h : (empty.newEvent 5 none 0 0 ⟨1, 0⟩).toOption.any (fun s =>
      decide (s.poller.channels 5 = some (.http 0)) &&
        (s.handleEvents (.logHtml (bytes "hi")) 0 revents reads [] ⟨2, 0⟩).toOption.any p) = true) :
    ∃ s, (calls Rep).Reachable s ∧ p s = true := by
  obtain ⟨s₁, hnew, h⟩ := exists_ok_of_any h
  rw [Bool.and_eq_true, decide_eq_true_eq] at h
  obtain ⟨hfd, h⟩ := h
  obtain ⟨s₂, hevents, hp⟩ := exists_ok_of_any h
  have hunused : empty.Unused 5 := ⟨by decide, fun id h _ hh => by cases hh⟩
  have hnew : Call Rep empty (.newEvent 5) (.ok s₁) := hnew ▸ .newEvent none 0 0 ⟨1, 0⟩ hunused
  have hevents : Call Rep s₁ (.handleEvents 0) (.ok s₂) :=
    hevents ▸ .handleEvents (.logHtml (bytes "hi")) reads [] ⟨2, 0⟩ hfd hrep
  exact ⟨s₂, .step (.step (.init rfl) trivial hnew) trivial hevents, hp⟩

/-- A connection on the descriptor 5 that has handled a request. -/
theorem exists_registered_reachable :
    ∃ s, (calls Reported).Reachable s ∧ s.poller.channels 5 = some (.http 0) := by
  obtain ⟨s, hs, hfd⟩ := exists_calls Reported EPOLLIN (by decide) [.data Conn.getStartPage]
    (p := fun s => decide (s.poller.channels 5 = some (.http 0))) (by decide +kernel)
  exact ⟨s, hs, of_decide_eq_true hfd⟩

theorem matchesKernel_of_reachable_empty :
    ∃ s, (calls Reported).Reachable s ∧ s.poller.channels 5 = some (.http 0) ∧ s.MatchesKernel ∧
      ∀ e r, Call Reported s e r → r ≠ .error .assertFailed ∧ r ≠ .error .nullDereference := by
  obtain ⟨s, hs, hfd⟩ := exists_registered_reachable
  exact ⟨s, hs, hfd, matchesKernel_of_reachable hs⟩

/-- If nothing is reported, the connection gets a second timer node, and the first
    one keeps its right to close it: both do. -/
theorem not_matchesKernel :
    ¬∀ s, (calls fun _ => True).Reachable s →
      ∀ e r, Call (fun _ => True) s e r → r ≠ .error .assertFailed := by
  intro hall
  obtain ⟨s, hs, hexpired⟩ := exists_calls (fun _ => True) 0 trivial []
    (p := fun s => match s.handleExpired (fun _ => .first _) fun _ => ⟨9, 0⟩ with
      | .error f => decide (f = .assertFailed)
      | .ok _ => false) (by decide +kernel)
  refine hall s hs .handleExpired _ (.handleExpired (fun _ => .first _) fun _ => ⟨9, 0⟩) ?_
  split at hexpired
  · next h => exact h.trans (congrArg _ (of_decide_eq_true hexpired))
  · cases hexpired

end Registry

end Webserver
