import Webserver.Http.Order
import Webserver.Loop.Ownership

/-!
# What a connection waits for

Handling an event ends with `handleConn`, which registers the connection again
for the events it is to wait for, or closes it (`Conn.rearm`). The mask it finds
was made along the way: `handleWrite` overwrites it or adds `EPOLLOUT`,
`handleRead` adds `EPOLLIN`, and a hang-up clears it.

* `Conn.Settled`: what `handleRead` leaves, if there is no error. It is carried
  through the turns by `Conn.turn_settled`, and from one event to the next by the
  weaker `Conn.Waiting`.
* `Conn.armed_of_reachable`: a connection that is registered again waits for
  output if bytes are left to write, and for input if not, and never for both.
-/

namespace Webserver

open Transition

namespace Conn

/-! ## Registering again -/

/-- The mask to register a connection with that has found `events`: of input and
    output it waits for output only, and of nothing it waits for input. -/
def rearmMask (events : Mask) : Mask :=
  if events = 0 then EPOLLIN ||| EPOLLET
  else if events &&& EPOLLIN ≠ 0 ∧ events &&& EPOLLOUT ≠ 0 then EPOLLOUT ||| EPOLLET
  else events ||| EPOLLET

/-- The timeout to register the connection with. -/
def timeout (c : Conn) : ℕ :=
  if c.http.isKeepAlive then DEFAULT_KEEP_ALIVE_TIME else DEFAULT_EXPIRED_TIME

/-- The mask and the timeout the connection is registered with, unless it is
    closed. -/
def rearm (c : Conn) : Option (Mask × ℕ) :=
  if c.http.error = false ∧ c.http.connectionState = .connected then
    some (rearmMask c.http.ownchannel.events, c.timeout)
  else none

/-- `handleConn` registers the connection with what `rearm` says, or closes it. -/
theorem handleConn_eq_rearm (c : Conn) :
    c.handleConn =
      match c.rearm with
      | none => c.handleClose
      | some (mask, timeout) => (c.setEvents mask).updateChannel timeout := by
  rw [handleConn, rearm]
  split
  · by_cases hevents : c.http.ownchannel.events = 0
    · -- Without an event the two branches of the source differ in the timeout only.
      simp only [rearmMask, timeout, hevents, ne_eq, not_true_eq_false, if_false, if_true]
      split <;> rfl
    · simp only [rearmMask, timeout, hevents, ne_eq, not_false_eq_true, if_false, if_true]
      split <;> rfl
  · rfl

theorem rearmMask_edge (events : Mask) : rearmMask events &&& EPOLLET ≠ 0 := by
  rw [rearmMask]
  split
  · decide
  · split
    · decide
    · exact or_and_of_subset (by decide)

theorem rearmMask_ne_zero (events : Mask) : rearmMask events ≠ 0 := by
  intro h
  refine rearmMask_edge events ?_
  rw [h]
  decide

theorem rearmMask_out (events : Mask) :
    rearmMask events &&& EPOLLOUT ≠ 0 ↔ events &&& EPOLLOUT ≠ 0 := by
  rw [rearmMask]
  split
  · next hzero =>
    rw [hzero]
    decide
  · split
    · next hboth => exact iff_of_true (by decide) hboth.2
    · rw [or_and_of_disjoint (by decide)]

theorem rearmMask_in (events : Mask) :
    rearmMask events &&& EPOLLIN ≠ 0 ↔
      (events = 0 ∨ events &&& EPOLLIN ≠ 0) ∧ events &&& EPOLLOUT = 0 := by
  rw [rearmMask]
  split
  · next hzero =>
    rw [hzero]
    decide
  · next hne =>
    split
    · next hboth => exact iff_of_false (by decide) fun h => hboth.2 h.2
    · next hboth =>
      rw [or_and_of_disjoint (by decide)]
      tauto

/-! ## Runs of events -/

/-- What the kernel reports for a connection, and will answer while its events are
    handled. -/
structure Report where
  revents : Mask
  reads : List ReadResult
  writes : List WriteResult
  now : Timeval

/-- The connection when its events are reported. -/
def deliver (c : Conn) (r : Report) : Conn :=
  c.report r.reads r.writes r.now (c.http.ownchannel.setRevents r.revents)

/-- A connection handles the events reported for it, as long as it is connected.
    `epoll_wait` reports no descriptor without an event. -/
inductive Handles (fs : FileSystem) : Conn → Report → Conn → Prop
  | mk {c c' : Conn} {r : Report} : c.http.connectionState = .connected →
      Registry.Reported r.revents → (c.deliver r).handleEvents fs = .ok c' → Handles fs c r c'

/-- The runs of a connection, one event at a time. -/
def events (fs : FileSystem) : System Conn Report where
  init := {c | c.Fresh}
  step := Handles fs

/-! ## What the output and the mask have to do with each other -/

/-- Before `handleRead`: the parser is not left in its last state, and nothing to
    write is not waited for. -/
structure Waiting (c : Conn) : Prop where
  state : c.http.state ≠ .finish
  quiet : c.http.outBuffer = [] → c.http.ownchannel.events &&& EPOLLOUT = 0

/-- After `handleRead`: output is waited for exactly if there is something to
    write, and if there is not, input is, or nothing. -/
structure Settled (c : Conn) : Prop where
  state : c.http.state ≠ .finish
  output : c.http.ownchannel.events &&& EPOLLOUT ≠ 0 ↔ c.http.outBuffer ≠ []
  input : c.http.outBuffer = [] →
    c.http.ownchannel.events = 0 ∨ c.http.ownchannel.events &&& EPOLLIN ≠ 0

/-- After registering: input or output is waited for, by edges. -/
structure Armed (c : Conn) : Prop where
  edge : c.http.ownchannel.events &&& EPOLLET ≠ 0
  output : c.http.ownchannel.events &&& EPOLLOUT ≠ 0 ↔ c.http.outBuffer ≠ []
  input : c.http.ownchannel.events &&& EPOLLIN ≠ 0 ↔ c.http.outBuffer = []
  interest : c.poller.interest c.http.ownchannel.fd = some c.http.ownchannel.events

theorem Settled.waiting {c : Conn} (hc : c.Settled) : c.Waiting :=
  ⟨hc.state, fun hout => by_contra fun h => hc.output.1 h hout⟩

section Turns

variable {fs : FileSystem} {c d : Conn}

/-- No response is empty. -/
theorem ne_nil_of_reply {r : Request} {s : Bytes} (h : r.reply fs = .answered s) : s ≠ [] := by
  have hfile : ∀ {url : Bytes} {m : Headers} {head : Bool},
      fileReply fs url m head = .answered s → s ≠ [] := by
    intro url m head h
    rw [fileReply] at h
    split at h
    · cases h
    · split at h
      · cases h
        decide +kernel
      · split at h
        · cases h
        · next hresponse =>
          cases h
          simp only [response, Option.bind_eq_some_iff, Option.map_eq_some_iff] at hresponse
          obtain ⟨size, -, body, -, rfl⟩ := hresponse
          have hstatus : bytes "HTTP/1.1 200 OK\r\n" ≠ [] := by decide +kernel
          simp [responseHeader, statusLines, hstatus]
  rw [Request.reply] at h
  split at h
  · exact hfile h
  · exact hfile h
  · cases h
  · cases h

/-- Only an answer leaves no error behind. -/
theorem act_request {h' : HttpData} (hstate : h'.state = .analysis)
    (h : c.act fs (.request h') = .ok d) (herror : d.http.error = false) :
    ∃ r o, h'.request.reply fs = .answered r ∧ (o = h'.outBuffer ∨ o = []) ∧
      d = { ({ c with http := h' } : Conn).analyse with
        http.outBuffer := o ++ r, http.state := .finish } := by
  rw [act, analysisPhase, if_pos hstate, analysisRequest_eq_reply] at h
  simp only at h
  cases hreply : h'.request.reply fs with
  | crash f => rw [hreply] at h; cases h
  | notFound => rw [hreply] at h; cases h; cases herror
  | unsupported => rw [hreply] at h; cases h; cases herror
  | answered r =>
    rw [hreply, handleReply] at h
    cases h
    split
    · exact ⟨r, [], rfl, .inr rfl, rfl⟩
    · exact ⟨r, h'.outBuffer, rfl, .inl rfl, rfl⟩

/-- An error is not forgotten. -/
theorem act_error (h : c.act fs c.http.outcome = .ok d) (herror : d.http.error = false) :
    c.http.error = false := by
  obtain ⟨i, mt, u, v, m, s, hframe⟩ := c.http.outcome_http
  have hsame : c.http.outcome.http.error = c.http.error := by rw [hframe]
  cases hout : c.http.outcome with
  | crash f h' => rw [hout] at h; cases h
  | bad h' => rw [hout] at h; cases h; cases herror
  | wait h' =>
    rw [hout] at h hsame
    cases h
    exact hsame.symm.trans herror
  | request h' =>
    rw [hout] at h hsame
    obtain ⟨r, o, -, -, rfl⟩ := act_request (request_state hout) h herror
    exact hsame.symm.trans herror

/-- The phases after reading only add to the output, and end with a response in it
    if they end a request. -/
theorem act_waiting (hc : c.Waiting) (h : c.act fs c.http.outcome = .ok d)
    (herror : d.http.error = false) : d.http.outBuffer = [] → d.Waiting := by
  obtain ⟨i, mt, u, v, m, s, hframe⟩ := c.http.outcome_http
  have hsame : c.http.outcome.http.outBuffer = c.http.outBuffer ∧
      c.http.outcome.http.ownchannel = c.http.ownchannel := by rw [hframe]; exact ⟨rfl, rfl⟩
  have hsound := HttpData.outcome_state hc.state
  intro hempty
  cases hout : c.http.outcome with
  | crash f h' => rw [hout] at h; cases h
  | bad h' => rw [hout] at h; cases h; cases herror
  | wait h' =>
    rw [hout] at h hsame hsound
    cases h
    refine ⟨?_, fun _ => ?_⟩
    · rcases hsound with hstate | hstate <;> simp [hstate]
    · rw [show h'.ownchannel = _ from hsame.2]
      exact hc.quiet (hsame.1.symm.trans hempty)
  | request h' =>
    rw [hout] at h
    obtain ⟨r, o, hreply, -, rfl⟩ := act_request (request_state hout) h herror
    exact absurd hempty (by simp [ne_nil_of_reply hreply])

/-- Writing what is left to write settles what is waited for. -/
theorem flush_output (herror : c.http.error = false) (hconn : c.http.connectionState = .connected)
    (hquiet : c.http.outBuffer = [] → c.http.ownchannel.events &&& EPOLLOUT = 0) :
    (c.flush.http.ownchannel.events &&& EPOLLOUT ≠ 0 ↔ c.flush.http.outBuffer ≠ []) ∧
      (c.http.outBuffer ≠ [] → c.flush.http.outBuffer = [] →
        c.flush.http.ownchannel.events = 0) := by
  rw [flush]
  split
  · next hpos =>
    have hout := List.length_pos_iff.1 hpos
    rw [handleWrite_of_ok hout herror (by rw [hconn]; decide)]
    by_cases hleft : c.seperaterTimer.writen.2.http.outBuffer = []
    · rw [if_neg (not_not.2 hleft)]
      have hzero : (0 : Mask) &&& EPOLLOUT = 0 := by decide
      exact ⟨iff_of_false (fun h => h hzero) fun h => h hleft, fun _ _ => rfl⟩
    · rw [if_pos hleft]
      exact ⟨iff_of_true (or_and_of_subset (by decide)) hleft, fun _ h => absurd h hleft⟩
  · next hpos =>
    have hout : c.http.outBuffer = [] := by simpa using hpos
    exact ⟨iff_of_false (fun h => h (hquiet hout)) fun h => h hout, fun h => absurd hout h⟩

/-- What follows the phases. Where `handleRead` is called again, no input need be
    waited for yet. -/
theorem finishTurn_settled (herror : c.http.error = false)
    (hconn : c.http.connectionState = .connected) (hc : c.http.outBuffer = [] → c.Waiting) :
    c.finishTurn.conn.Settled := by
  obtain ⟨houtput, hempty⟩ := flush_output herror hconn fun h => (hc h).quiet h
  obtain ⟨t, p, o, ev, w, s, hflush⟩ := c.flush_eq
  have hsame : c.flush.http.error = false ∧ c.flush.http.state = c.http.state := by
    rw [hflush]
    exact ⟨herror, rfl⟩
  rw [finishTurn, if_pos ⟨herror, hconn⟩]
  simp only [if_pos hsame.1, settle, hsame.2]
  split
  · next hfinish =>
    -- A request has been answered, so there was something to write.
    have hne : c.http.outBuffer ≠ [] := fun hnil => (hc hnil).state hfinish
    have hsettled : ({ c.flush with http := c.flush.http.reset } : Conn).Settled :=
      ⟨ProcessState.noConfusion, houtput, fun hnil => .inl (hempty hne hnil)⟩
    split <;> exact hsettled
  · next hfinish =>
    refine ⟨?_, ?_, fun _ => .inr (or_and_of_subset (by decide))⟩
    · exact fun h => hfinish (hsame.2.symm.trans h)
    · exact (iff_of_eq (congrArg (· ≠ 0) (or_and_of_disjoint (by decide)))).trans houtput

/-- A turn that leaves no error has come to the end of its phases without one. -/
theorem exists_process {t : Turn} (h : c.turn fs = .ok t) (herror : t.conn.http.error = false) :
    ∃ d, c.seperaterTimer.process fs = .ok d ∧ d.http.error = false ∧ t = d.finishTurn := by
  rw [turn] at h
  split at h
  · cases h
  · next d hprocess =>
    cases h
    refine ⟨d, hprocess, ?_, rfl⟩
    by_contra hd
    rw [Bool.not_eq_false] at hd
    rw [finishTurn_of_error hd] at herror
    exact absurd (hd.symm.trans herror) (by decide)

theorem turn_error {t : Turn} (h : c.turn fs = .ok t) (herror : t.conn.http.error = false) :
    c.http.error = false := by
  obtain ⟨d, hprocess, hd, -⟩ := exists_process h herror
  obtain ⟨tm, p, hsep⟩ := c.seperaterTimer_eq
  rw [hsep, process_eq] at hprocess
  split at hprocess
  · cases hprocess
    cases hd
  · have herror := act_error hprocess hd
    exact herror

theorem turn_settled {t : Turn} (hc : c.Waiting) (hconn : c.http.connectionState = .connected)
    (h : c.turn fs = .ok t) (herror : t.conn.http.error = false) : t.conn.Settled := by
  obtain ⟨d, hprocess, hd, rfl⟩ := exists_process h herror
  have hconn' : d.http.connectionState = .connected :=
    (process_kept hprocess).connectionState.trans (c.seperaterTimer_connectionState.trans hconn)
  obtain ⟨tm, p, hsep⟩ := c.seperaterTimer_eq
  rw [hsep, process_eq] at hprocess
  split at hprocess
  · cases hprocess
    cases hd
  · exact finishTurn_settled hd hconn' (act_waiting (by exact ⟨hc.state, hc.quiet⟩) hprocess hd)

/-- `handleRead` is called again after a reset only. -/
theorem error_of_again (h : c.turn fs = .ok (.again d)) : d.http.error = false := by
  rw [turn] at h
  split at h
  · cases h
  · next e hprocess =>
    rw [Except.ok.injEq, finishTurn] at h
    split at h
    · simp only [settle] at h
      split at h
      · split at h
        · split at h <;> cases h
          rfl
        · cases h
      · cases h
    · cases h

/-- `handleRead` forgets no error, and settles the connection if it leaves none. -/
theorem handleRead_error (h : c.handleRead fs = .ok d) (herror : d.http.error = false) :
    c.http.error = false := by
  rw [handleRead] at h
  split at h
  · cases h
  · next heq => cases h; exact turn_error heq herror
  · next heq => exact turn_error heq (error_of_again heq)

theorem handleRead_settled (hc : c.Waiting) (hconn : c.http.connectionState = .connected)
    (h : c.handleRead fs = .ok d) (herror : d.http.error = false) : d.Settled := by
  -- By induction on the turns: what a turn leaves is what the next one needs.
  induction c using handleRead.induct fs with
  | case1 c e heq => rw [handleRead, heq] at h; cases h
  | case2 c c' heq =>
    rw [handleRead, heq] at h
    cases h
    exact turn_settled hc hconn heq herror
  | case3 c c' heq ih =>
    rw [handleRead, heq] at h
    have hconn' : c'.http.connectionState = .connected :=
      (turn_kept heq).connectionState.trans (c.seperaterTimer_connectionState.trans hconn)
    exact ih (turn_settled hc hconn heq (error_of_again heq)).waiting hconn' h

/-- A callback that is called settles the connection, unless it ends in an error;
    one that is not leaves everything as it is. -/
theorem callIf_settled {revents mask : Mask} (hc : c.Waiting)
    (hconn : c.http.connectionState = .connected)
    (h : Channel.callIf revents mask (some (handleRead fs)) c = .ok d)
    (herror : d.http.error = false) : revents &&& mask = 0 ∧ d = c ∨ d.Settled := by
  rcases Channel.callIf_ok h with h | hidle
  · exact .inr (handleRead_settled hc hconn h herror)
  · exact .inl hidle

theorem callIf_connected {revents mask : Mask} (hconn : c.http.connectionState = .connected)
    (h : Channel.callIf revents mask (some (handleRead fs)) c = .ok d) :
    d.http.connectionState = .connected := by
  rcases Channel.callIf_ok h with h | ⟨-, rfl⟩
  · exact handleRead_connected hconn h
  · exact hconn

theorem callIf_error {revents mask : Mask}
    (h : Channel.callIf revents mask (some (handleRead fs)) c = .ok d)
    (herror : d.http.error = false) : c.http.error = false := by
  rcases Channel.callIf_ok h with h | ⟨-, rfl⟩
  · exact handleRead_error h herror
  · exact herror

/-- The calls of `handleRead` for an event. One of them is made, and what the first
    one leaves is what the second one needs. -/
theorem callbacks_settled {revents : Mask} (hreported : Registry.Reported revents)
    (hdispatched : Channel.Dispatched revents) (hc : c.Waiting)
    (hconn : c.http.connectionState = .connected) {c' : Conn}
    (hread : Channel.callIf revents (EPOLLIN ||| EPOLLPRI ||| EPOLLRDHUP)
      (some (handleRead fs)) c = .ok c')
    (hwrite : Channel.callIf revents EPOLLOUT (some (handleRead fs)) c' = .ok d)
    (herror : d.http.error = false) : d.Settled := by
  have hread' := callIf_settled hc hconn hread (callIf_error hwrite herror)
  have hconn' := callIf_connected hconn hread
  rcases hread' with ⟨hin, rfl⟩ | hsettled
  · rcases callIf_settled hc hconn hwrite herror with ⟨hout, -⟩ | hsettled
    · rcases hreported.called hdispatched with hcalled | hcalled
      · exact absurd hin hcalled
      · exact absurd hout hcalled
    · exact hsettled
  · rcases callIf_settled hsettled.waiting hconn' hwrite herror with ⟨-, rfl⟩ | hsettled'
    · exact hsettled
    · exact hsettled'

theorem timeout_pos (c : Conn) : 0 < c.timeout := by
  rw [timeout]
  split <;> decide

/-- A connection that is still open after `handleConn` has been registered again. -/
theorem handleConn_open (h : c.handleConn = .ok d) (hopen : d.http.connectionState = .connected) :
    c.http.error = false ∧ c.http.connectionState = .connected ∧
      d = { c.setEvents (rearmMask c.http.ownchannel.events) with
        http.timer := some c.poller.timermanager.nextNode
        poller := c.poller.renew c.http.ownchannel.fd c.http.id
          (c.socket.now.clock + c.timeout) (rearmMask c.http.ownchannel.events) } := by
  rw [handleConn_eq_rearm, rearm] at h
  by_cases hok : c.http.error = false ∧ c.http.connectionState = .connected
  · simp only [if_pos hok] at h
    exact ⟨hok.1, hok.2, updateChannel_renew (c := c.setEvents _) c.timeout_pos h⟩
  · simp only [if_neg hok] at h
    obtain ⟨p, rfl⟩ := handleClose_eq h
    cases hopen

/-- A settled connection is armed when it is registered again. -/
theorem Settled.armed (hc : c.Settled) (h : c.handleConn = .ok d)
    (hopen : d.http.connectionState = .connected) : d.Waiting ∧ d.Armed := by
  obtain ⟨-, -, rfl⟩ := handleConn_open h hopen
  have hout := rearmMask_out c.http.ownchannel.events
  have hin := rearmMask_in c.http.ownchannel.events
  refine ⟨⟨hc.state, fun hempty => ?_⟩, ⟨?_, ?_, ?_, ?_⟩⟩
  · by_contra h
    exact hc.output.1 (hout.1 h) hempty
  · exact rearmMask_edge _
  · exact hout.trans hc.output
  · refine hin.trans ⟨fun h => ?_, fun h => ⟨hc.input h, ?_⟩⟩
    · exact by_contra fun hne => hc.output.2 hne h.2
    · exact by_contra fun hne => hc.output.1 hne h
  · exact Function.update_self _ _ _

end Turns

/-! ## What holds between two events -/

/-- Between two events: as long as the connection is registered, there is no error,
    and `handleRead` finds what it needs. -/
def Rests (c : Conn) : Prop :=
  c.http.connectionState = .connected → c.http.error = false ∧ c.Waiting

section Events

variable {fs : FileSystem} {c d : Conn} {r : Report}

theorem Fresh.rests (hc : c.Fresh) : c.Rests := by
  intro _
  obtain ⟨id, fd, method, events, revents, socket, poller, -, hnew⟩ := hc
  obtain ⟨t, p, rfl⟩ := newEvent_eq hnew
  have hquiet : DEFAULT_EVENT &&& EPOLLOUT = 0 := by decide
  exact ⟨rfl, ProcessState.noConfusion, fun _ => hquiet⟩

/-- A run of events is a run of turns. -/
theorem system_reachable (hc : (events fs).Reachable c) : (system fs).Reachable c := by
  refine System.ReachableBy.invariant (S := events fs) (I := fun c => (system fs).Reachable c)
    (fun c hc => .init hc) (fun c r d _ hc _ h => ?_) hc
  obtain ⟨hconn, -, h⟩ := h
  exact reachable_handleEvents (reachable_report hc r.reads r.writes r.now
    (c.http.ownchannel.setRevents r.revents)) hconn h

/-- Events that no callback is called for leave the connection alone, but a hang-up
    clears its mask. -/
theorem rests_of_not_dispatched (hc : c.Rests) (h : Handles fs c r d)
    (hdispatched : ¬Channel.Dispatched r.revents) : d.Rests := by
  intro _
  obtain ⟨hconn, -, h⟩ := h
  obtain ⟨herror, hwaiting⟩ := hc hconn
  have hzero : (0 : Mask) &&& EPOLLOUT = 0 := by decide
  rw [handleEvents] at h
  rcases Channel.handleEvents_ok rfl h with hclose | herr | ⟨hdispatched', -⟩
  · cases hclose
    exact ⟨herror, hwaiting.state, fun _ => hzero⟩
  · cases herr
    exact ⟨herror, hwaiting.state, hwaiting.quiet⟩
  · exact absurd hdispatched' hdispatched

/-- An event whose callbacks are called leaves the connection armed, or closed. -/
theorem armed_of_dispatched (hc : c.Rests) (h : Handles fs c r d)
    (hdispatched : Channel.Dispatched r.revents) (hopen : d.http.connectionState = .connected) :
    d.http.error = false ∧ d.Waiting ∧ d.Armed := by
  obtain ⟨hconn, hreported, h⟩ := h
  obtain ⟨-, hwaiting⟩ := hc hconn
  rw [handleEvents, Channel.handleEvents_of_dispatched rfl hdispatched] at h
  obtain ⟨s₁, hread, h⟩ := exists_of_bind_eq_ok h
  obtain ⟨s₂, hwrite, h⟩ := exists_of_bind_eq_ok h
  obtain ⟨s₃, hcall, h⟩ := exists_of_bind_eq_ok h
  cases h
  have hcall : s₂.handleConn = .ok s₃ := ok_of_mapError_eq_ok hcall
  obtain ⟨herror, -, hs₃⟩ := handleConn_open hcall hopen
  have herror' : s₃.http.error = false := by rw [hs₃]; exact herror
  have hsettled : s₂.Settled :=
    callbacks_settled hreported hdispatched (by exact ⟨hwaiting.state, hwaiting.quiet⟩)
      (by exact hconn) hread hwrite herror
  obtain ⟨hwaiting', harmed⟩ := hsettled.armed hcall hopen
  exact ⟨herror', ⟨hwaiting'.state, hwaiting'.quiet⟩,
    ⟨harmed.edge, harmed.output, harmed.input, harmed.interest⟩⟩

theorem rests_of_reachable (hc : (events fs).Reachable c) : c.Rests := by
  refine System.ReachableBy.invariant (S := events fs) (I := Rests)
    (fun c (hc : c.Fresh) => hc.rests) (fun c r d _ hc _ h => ?_) hc
  by_cases hdispatched : Channel.Dispatched r.revents
  · intro hopen
    obtain ⟨herror, hwaiting, -⟩ := armed_of_dispatched hc h hdispatched hopen
    exact ⟨herror, hwaiting⟩
  · exact rests_of_not_dispatched hc h hdispatched

/-- A connection that is still open after `handleConn` waits for output if bytes are
    left to write, and for input if not. -/
theorem armed_of_reachable (hc : (events fs).Reachable c) (h : (events fs).step c r d)
    (hdispatched : Channel.Dispatched r.revents) (hopen : d.http.connectionState = .connected) :
    d.Armed :=
  (armed_of_dispatched (rests_of_reachable hc) h hdispatched hopen).2.2

end Events

/-- The first connection waits for output, after a request of whose response the
    socket has taken ten bytes. -/
theorem armed_of_reachable_first :
    ∃ d, (events (.logHtml (bytes "hi"))).step first
        ⟨EPOLLIN, [.data getStartPage], [.accept 9, .eagain], ⟨1, 0⟩⟩ d ∧
      d.http.outBuffer ≠ [] ∧ d.Armed := by
  obtain ⟨d, hevent, hd⟩ := exists_ok_of_any (x := (first.deliver
      ⟨EPOLLIN, [.data getStartPage], [.accept 9, .eagain], ⟨1, 0⟩⟩).handleEvents
        (.logHtml (bytes "hi")))
    (p := fun d => decide (d.http.outBuffer ≠ [] ∧ d.http.connectionState = .connected))
    (by decide +kernel)
  obtain ⟨hout, hopen⟩ := of_decide_eq_true hd
  have hstep : (events (.logHtml (bytes "hi"))).step first _ d := .mk rfl (by decide) hevent
  exact ⟨d, hstep, hout, armed_of_reachable (.init first_fresh) hstep (by decide) hopen⟩

end Conn

end Webserver
