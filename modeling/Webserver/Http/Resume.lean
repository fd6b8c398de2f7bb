import Webserver.Http.Events

/-!
# Resuming a response

A response too long for the socket is left in `outBuffer`, to be continued when
the socket is writable again. But the callback for that event is `handleRead`:
it goes through the parser with nothing read, takes the empty buffer for a
complete request without a path, refuses it with an error page in the middle of
the response, and the connection is closed (`Conn.Stalled.handleEvents`).

* `Conn.resumes_iff`: a response that was not written at once is never resumed.
-/

namespace Webserver

open Transition

/-- A parser at the start of a request takes an empty buffer for a complete
    request. -/
theorem HttpData.outcome_of_empty {h : HttpData} (hstate : h.state = .parseUrl)
    (hbuf : h.inBuffer = []) (hmethod : h.method ≠ some .post) :
    h.outcome = .request { h with state := .analysis } := by
  have hcr : cr ∉ h.inBuffer := by simp [hbuf]
  rw [outcome, hstate, parseURL_of_notMem hstate hcr]
  simp only [headersOutcome, hbuf, ParsesTo.dry.eq, afterHeaders, if_neg hmethod]

/-- Nothing is found under the empty path. -/
theorem Request.reply_of_nil {fs : FileSystem} {r : Request} (hmethod : r.method = some .get)
    (hurl : r.url = []) : r.reply fs = .notFound := by
  have htype : filetype [] = .ok (getMime (bytes "default")) := rfl
  have hstat : fs.stat (cStr []) = none := by
    rw [FileSystem.stat, show cStr [] = [] from rfl, fs.lookup_nil, Option.map_none]
  rw [reply, hmethod, hurl]
  simp only [fileReply, htype, response, hstat, Option.bind_none]
  rw [if_neg (by decide +kernel)]

namespace Conn

/-- Bytes of a response are left to write, and the parser is at the start of the
    next request. -/
structure Stalled (c : Conn) : Prop where
  connected : c.http.connectionState = .connected
  error : c.http.error = false
  outBuffer : c.http.outBuffer ≠ []
  inBuffer : c.http.inBuffer = []
  state : c.http.state = .parseUrl

instance (c : Conn) : Decidable c.Stalled :=
  decidable_of_iff (c.http.connectionState = .connected ∧ c.http.error = false ∧
      c.http.outBuffer ≠ [] ∧ c.http.inBuffer = [] ∧ c.http.state = .parseUrl)
    ⟨fun ⟨h₁, h₂, h₃, h₄, h₅⟩ => ⟨h₁, h₂, h₃, h₄, h₅⟩,
      fun ⟨h₁, h₂, h₃, h₄, h₅⟩ => ⟨h₁, h₂, h₃, h₄, h₅⟩⟩

/-- A writable event: there is nothing to read, and writes may be partial. -/
structure Writable where
  reads : List ReadResult
  writes : List WriteResult
  now : Timeval
  silent : Delivers reads []
  soft : Soft writes

/-- The connection when the event is reported. -/
def onWritable (c : Conn) (e : Writable) : Conn :=
  c.report e.reads e.writes e.now (c.http.ownchannel.setRevents EPOLLOUT)

/-- The handling of writable events, until the connection is closed. -/
def resume (fs : FileSystem) (c : Conn) : List Writable → Except (Fault × Conn) Conn
  | [] => .ok c
  | e :: events =>
    if c.http.connectionState = .disconnected then .ok c
    else
      match (c.onWritable e).handleEvents fs with
      | .error e => .error e
      | .ok c => c.resume fs events

/-- Handling the events has put the next bytes of the output on the socket and
    nothing else, and has left the rest of the connection alone. -/
def Resumes (fs : FileSystem) (c : Conn) (events : List Writable) : Prop :=
  ∃ c' w, c.resume fs events = .ok c' ∧ c'.socket.sent = c.socket.sent ++ w ∧
    w ++ c'.http.outBuffer = c.http.outBuffer ∧ c'.http.error = false ∧
    c'.http.connectionState = .connected ∧ c'.closed = c.closed ∧
    c'.http.state = .parseUrl ∧ c'.http.request = c.http.request

variable {fs : FileSystem} {c : Conn}

/-- A cycle of a stalled connection sends an error page. -/
theorem Stalled.turn (hstalled : c.Stalled) (hc : c.Inv) (hreads : Delivers c.socket.reads []) :
    ∃ d, c.turn fs = .ok (.done d) ∧ d.http.error = true ∧
      d.socket.sent = (c.handleError 404 (bytes "Not Fount!")).socket.sent := by
  obtain ⟨hurl, hmethod⟩ := hc.restarted hstalled.error hstalled.state
  have hmethod := hmethod.resolve_left hstalled.outBuffer
  obtain ⟨t, p, hsep⟩ := c.seperaterTimer_eq
  -- `parseURL` answers `again`, the empty header is complete, the empty path is nowhere.
  rw [Conn.turn, process, hsep]
  obtain ⟨reads, -, hread⟩ := readPhase_of_delivers (s := [])
    (c := { c with http.timer := t, poller.timermanager := p }) hreads (by decide)
  rw [hread]
  simp only [parse_eq]
  rw [HttpData.outcome_of_empty (by exact hstalled.state)
    (by rw [HttpData.receive, List.append_nil]; exact hstalled.inBuffer)
    (by rw [HttpData.receive]; simp [hmethod])]
  rw [act, analysisPhase, if_pos rfl, analysisRequest_eq_reply,
    Request.reply_of_nil (by exact hmethod) (by exact hurl)]
  simp only [handleReply, notFound]
  rw [finishTurn_of_error rfl]
  refine ⟨_, rfl, rfl, ?_⟩
  split <;> rfl

/-- A writable event on a stalled connection ends it, if not the process. -/
theorem Stalled.handleEvents (hstalled : c.Stalled) (hc : c.Inv) (e : Writable) {c' : Conn}
    (h : (c.onWritable e).handleEvents fs = .ok c') :
    c'.http.error = true ∧ c'.http.connectionState = .disconnected := by
  rw [Conn.handleEvents, Channel.handleEvents_out rfl] at h
  obtain ⟨d, hwrite, h⟩ := exists_of_bind_eq_ok h
  obtain ⟨d', hconn, h⟩ := exists_of_bind_eq_ok h
  cases h
  obtain ⟨d₀, hturn, herror, -⟩ := @Stalled.turn fs
    (channel.set { channel.get (c.onWritable e) with eventHandling := true } (c.onWritable e))
    ⟨hstalled.connected, hstalled.error, hstalled.outBuffer, hstalled.inBuffer, hstalled.state⟩
    ⟨hc.rooted, hc.restarted⟩ e.silent
  have hread := hwrite
  rw [callbacks, Channel.call, handleRead, hturn] at hread
  cases hread
  have hclose := ok_of_mapError_eq_ok hconn
  rw [handleConn, if_neg (by simp [herror])] at hclose
  obtain ⟨p, rfl⟩ := handleClose_eq hclose
  exact ⟨herror, rfl⟩

/-- A response that was not written at once is resumed by no writable event. -/
theorem resumes_iff (hc : (system fs).Reachable c) (hstalled : c.Stalled)
    (events : List Writable) : c.Resumes fs events ↔ events = [] := by
  constructor
  · rintro ⟨c', w, hrun, -, -, herror, -⟩
    cases events with
    | nil => rfl
    | cons e events =>
      rw [resume, if_neg (by simp [hstalled.connected])] at hrun
      cases hevent : (c.onWritable e).handleEvents fs with
      | error f => rw [hevent] at hrun; cases hrun
      | ok d =>
        obtain ⟨herror', hclosed⟩ := hstalled.handleEvents (inv_of_reachable hc) e hevent
        -- The first event has closed the connection: the others are not handled.
        have hrun' : d.resume fs events = .ok d := by
          cases events with
          | nil => rfl
          | cons e events => rw [resume, if_pos hclosed]
        rw [hevent] at hrun
        cases hrun'.symm.trans hrun
        rw [herror] at herror'
        cases herror'
  · rintro rfl
    exact ⟨c, [], rfl, by simp, rfl, hstalled.error, hstalled.connected, rfl, hstalled.state, rfl⟩

/-- The first connection stalls on its first response. -/
theorem exists_stalled :
    ∃ c, (system (.logHtml (bytes "hi"))).Reachable c ∧ c.Stalled := by
  obtain ⟨c, hc, hstalled⟩ := exists_halfSent (p := fun c => decide c.Stalled) (by decide +kernel)
  exact ⟨c, hc, of_decide_eq_true hstalled⟩

/-- A writable event that lets the socket take what is left. -/
def Writable.all : Writable := ⟨[], [], ⟨2, 0⟩, delivers_nil, soft_nil⟩

theorem resumes_iff_first :
    ∃ c, (system (.logHtml (bytes "hi"))).Reachable c ∧ c.Stalled ∧
      (c.Resumes (.logHtml (bytes "hi")) [.all] ↔ [Writable.all] = []) := by
  obtain ⟨c, hc, hstalled⟩ := exists_stalled
  exact ⟨c, hc, hstalled, resumes_iff hc hstalled _⟩

/-- The response that stalls the first connection is not resumed, although the
    socket takes everything. -/
theorem not_resumes_first :
    ¬∀ (fs : FileSystem) (c : Conn), (system fs).Reachable c → c.Stalled →
      ∀ events : List Writable, c.Resumes fs events := by
  intro h
  obtain ⟨c, hc, hstalled⟩ := exists_stalled
  obtain ⟨c', w, hrun, -, -, herror, -⟩ := h _ c hc hstalled [.all]
  rw [resume, if_neg (by simp [hstalled.connected])] at hrun
  cases hevent : (c.onWritable .all).handleEvents (.logHtml (bytes "hi")) with
  | error f => rw [hevent] at hrun; cases hrun
  | ok d =>
    rw [hevent] at hrun
    cases hrun
    have hfailed := (hstalled.handleEvents (inv_of_reachable hc) .all hevent).1
    rw [herror] at hfailed
    cases hfailed

end Conn

end Webserver
