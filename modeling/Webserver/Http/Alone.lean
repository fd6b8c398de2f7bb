import Webserver.Http.Interest

/-!
# A connection by itself

A connection works on the poller of its loop, which it shares with others. But the poller
is only told what the connection waits for, and never asked: what a connection reads,
parses, answers and writes would be the same if it were alone.

* `Conn.alone`: the connection, without anything that it shares or that tells it from
  another one.
* `Conn.respond`: how it handles events, where `handleConn` only changes the mask.
* `Conn.respond_of_handleEvents`: whatever the poller and the timers, a connection that
  handles its events does what it would do alone.
-/

namespace Webserver

open Text

/-! ## Parsing -/

namespace HttpData

/-- The `HttpData` without its identity, its descriptor and its timer. -/
def alone (h : HttpData) : HttpData :=
  { h with id := 0, fd := 0, ownchannel := { h.ownchannel with fd := 0 }, timer := none }

/-- The request line is parsed in the same way. -/
theorem parseRequestLine_alone (h : HttpData) (line : Bytes) :
    h.alone.parseRequestLine line =
      ((h.parseRequestLine line).1, (h.parseRequestLine line).2.alone) := by
  simp only [parseRequestLine]
  cases find sp (past line (find sp line)) <;> rfl

theorem parseURL_alone (h : HttpData) :
    h.alone.parseURL = (h.parseURL.1, h.parseURL.2.alone) := by
  by_cases hstate : h.state = .parseUrl
  · cases hpos : find cr h.inBuffer with
    | none =>
      have hcr := find_eq_none_iff.1 hpos
      rw [parseURL_of_notMem hstate hcr, parseURL_of_notMem (h := h.alone) hstate hcr]
    | some pos =>
      obtain ⟨line, rest, hbuf, hcr, -⟩ := exists_of_find hpos
      rw [parseURL_cons hstate hbuf hcr, parseURL_cons (h := h.alone) hstate hbuf hcr]
      exact parseRequestLine_alone { h with inBuffer := rest.drop 1 } line
  · rw [parseURL, parseURL, if_neg hstate, if_neg (show h.alone.state ≠ _ from hstate)]

/-- So are the headers. -/
theorem headersOutcome_alone (h : HttpData) :
    h.alone.headersOutcome = h.headersOutcome.map alone := by
  have hbuf : h.alone.inBuffer = h.inBuffer := rfl
  have hheaders : h.alone.headtToValue = h.headtToValue := rfl
  rw [headersOutcome, headersOutcome, hbuf, hheaders]
  cases parseHeadersLoop h.inBuffer h.headtToValue with
  | error f => rfl
  | ok r =>
    obtain ⟨flag, str, m⟩ := r
    cases flag with
    | again => rfl
    | error => rfl
    | success =>
      have hmethod : h.alone.method = h.method := rfl
      simp only [afterHeaders, hmethod]
      split <;> rfl

/-- Where parsing leads does not depend on the identity of the connection. -/
theorem outcome_alone (h : HttpData) : h.alone.outcome = h.outcome.map alone := by
  have hstate : h.alone.state = h.state := rfl
  rw [outcome, outcome, hstate, parseURL_alone]
  obtain ⟨flag, h'⟩ := h.parseURL
  cases h.state with
  | parseUrl =>
    cases flag with
    | error => rfl
    | again => exact headersOutcome_alone { h' with state := .parseHeaders }
    | success => exact headersOutcome_alone { h' with state := .parseHeaders }
  | parseHeaders => exact h.headersOutcome_alone
  | recvBody => rfl
  | analysis => rfl
  | finish => rfl

end HttpData

namespace Conn

/-! ## What the peer has to do with -/

/-- The report without the time. -/
def Report.untimed (r : Report) : Report := { r with now := ⟨0, 0⟩ }

/-- The connection by itself, after having sent some bytes and analysed some requests. -/
def alone (c : Conn) (sent : Bytes) (analysed : List Request) : Conn where
  http := c.http.alone
  socket := { c.socket with sent := sent ++ c.socket.sent, now := ⟨0, 0⟩ }
  poller := .new
  analysed := analysed ++ c.analysed
  closed := []

/-- `handleConn`, where nothing is registered. -/
def rearmed (c : Conn) : Conn :=
  match c.rearm with
  | none => { c with http.connectionState := .disconnected }
  | some (events, _) => c.setEvents events

/-- The connection handles the events reported for it by itself. -/
def respond (fs : FileSystem) (c : Conn) (r : Report) : Except (Fault × Conn) Conn :=
  Channel.handleEvents channel { callbacks fs with conn := some fun c => .ok c.rearmed }
    (c.deliver r)

/-- The connection handles one report after the other. -/
def responds (fs : FileSystem) (c : Conn) (rs : List Report) : Except (Fault × Conn) Conn :=
  rs.foldlM (respond fs) c

/-- A new connection, by itself. The constructor leaves the method open. -/
def solo (method : Option HttpMethod) : Conn where
  http := { HttpData.new 0 0 method 0 0 with ownchannel := ⟨0, DEFAULT_EVENT, 0, false⟩ }
  socket := ⟨[], [], [], ⟨0, 0⟩⟩
  poller := .new
  analysed := []
  closed := []

/-- How a turn ends for the connection by itself. -/
def Turn.alone (sent : Bytes) (analysed : List Request) : Turn → Turn
  | done c => done (c.alone sent analysed)
  | again c => again (c.alone sent analysed)

/-- What comes of something for the connection by itself, an exception included. -/
def aloneResult {α : Type} (f : α → α) (sent : Bytes) (analysed : List Request) :
    Except (Fault × Conn) α → Except (Fault × Conn) α
  | .ok a => .ok (f a)
  | .error (fault, c) => .error (fault, c.alone sent analysed)

variable {fs : FileSystem} {c d : Conn} {r : Report} (sent : Bytes) (analysed : List Request)

/-- The last report is handled after the others. -/
theorem responds_snoc (c : Conn) (rs : List Report) (r : Report) :
    c.responds fs (rs ++ [r]) = c.responds fs rs >>= (respond fs · r) := by
  rw [responds, responds, List.foldlM_append]
  cases rs.foldlM (respond fs) c with
  | error e => rfl
  | ok d => exact bind_pure (respond fs d r)

/-! ## The parts of a turn -/

theorem seperaterTimer_alone : (c.alone sent analysed).seperaterTimer = c.alone sent analysed := rfl

theorem alone_seperaterTimer : c.seperaterTimer.alone sent analysed = c.alone sent analysed := by
  obtain ⟨t, p, hsep⟩ := c.seperaterTimer_eq
  rw [hsep]
  rfl

/-- What is written does not depend on what has been written before. -/
theorem writenRaw_alone (buffer : Bytes) :
    (c.alone sent analysed).writenRaw buffer = (c.writenRaw buffer).alone sent analysed := by
  simp only [writenRaw, alone, List.append_assoc]

theorem handleError_alone (errnum : ℕ) (shortmsg : Bytes) :
    (c.alone sent analysed).handleError errnum shortmsg =
      (c.handleError errnum shortmsg).alone sent analysed := by
  rw [handleError, handleError, writenRaw_alone, writenRaw_alone]

/-- A reply is sent in the same way. -/
theorem handleReply_alone (reply : Reply) :
    (c.alone sent analysed).handleReply fs reply =
      aloneResult (fun r => (r.1, r.2.alone sent analysed)) sent analysed
        (c.handleReply fs reply) := by
  have hurl : (c.alone sent analysed).http.url = c.http.url := rfl
  cases reply with
  | crash f => rfl
  | answered s =>
    rw [handleReply, handleReply, hurl]
    split <;> rfl
  | notFound =>
    rw [handleReply, handleReply, hurl]
    split
    · exact congrArg (fun d => Except.ok (AnalysisState.error, d))
        (handleError_alone (c := c.clearOutput) _ _ _ _)
    · exact congrArg (fun d => Except.ok (AnalysisState.error, d)) (handleError_alone _ _ _ _)
  | unsupported => rfl

theorem analyse_alone :
    (c.alone sent analysed).analyse = c.analyse.alone sent analysed := by
  simp only [analyse, alone, List.append_assoc]
  rfl

/-- The phases after reading do the same, and fail in the same way. -/
theorem act_alone (o : Outcome) :
    (c.alone sent analysed).act fs (o.map HttpData.alone) =
      aloneResult (alone · sent analysed) sent analysed (c.act fs o) := by
  cases o with
  | crash f h => rfl
  | bad h =>
    exact congrArg Except.ok (handleError_alone (c := { c with http := { h with error := true } })
      _ _ _ _)
  | wait h => rfl
  | request h =>
    have hstate : h.alone.state = h.state := rfl
    have hrequest : h.alone.request = h.request := rfl
    have hanalyse : ({ c.alone sent analysed with http := h.alone } : Conn).analyse =
        ({ c with http := h } : Conn).analyse.alone sent analysed :=
      analyse_alone (c := { c with http := h }) _ _
    simp only [act, Outcome.map, analysisPhase, analysisRequest_eq_reply, hstate, hrequest,
      hanalyse, handleReply_alone]
    split
    · obtain ⟨f, d⟩ | ⟨flag, d⟩ := ({ c with http := h } : Conn).analyse.handleReply fs
        (h.request.reply fs)
      · rfl
      · cases flag <;> rfl
    · rfl

/-- So are those of a whole activation. -/
theorem process_alone :
    (c.alone sent analysed).process fs =
      aloneResult (alone · sent analysed) sent analysed (c.process fs) := by
  have hreadn : (c.alone sent analysed).readn = (c.readn.1, c.readn.2.alone sent analysed) := rfl
  rw [process, process, readPhase, readPhase, hreadn]
  by_cases hneg : toInt c.readn.1 < 0
  · simp only [if_pos hneg]
    exact congrArg Except.ok
      (handleError_alone (c := { c.readn.2 with http := { c.readn.2.http with error := true } })
        _ _ _ _)
  · simp only [if_neg hneg, parse_eq]
    rw [show (c.readn.2.alone sent analysed).http = c.readn.2.http.alone from rfl,
      HttpData.outcome_alone, act_alone]

/-- Writing goes on in the same way. -/
theorem handleWrite_alone :
    (c.alone sent analysed).handleWrite = c.handleWrite.alone sent analysed := by
  obtain ⟨t, p, hsep⟩ := c.seperaterTimer_eq
  have hwriten : (c.alone sent analysed).writen.2 =
      c.seperaterTimer.writen.2.alone sent analysed := by
    rw [hsep]
    simp only [writen, alone, List.append_assoc]
    rfl
  have hout : (c.alone sent analysed).http.outBuffer = c.seperaterTimer.http.outBuffer := by
    rw [hsep]
    rfl
  have herror : (c.alone sent analysed).http.error = c.seperaterTimer.http.error := by
    rw [hsep]
    rfl
  have hstate : (c.alone sent analysed).http.connectionState =
      c.seperaterTimer.http.connectionState := by
    rw [hsep]
    rfl
  have hrest : (c.seperaterTimer.writen.2.alone sent analysed).http.outBuffer =
      c.seperaterTimer.writen.2.http.outBuffer := rfl
  simp only [handleWrite, Nat.not_lt_zero, if_false, seperaterTimer_alone, hwriten, hout, herror,
    hstate, hrest]
  split
  · split
    · split <;> rfl
    · exact (alone_seperaterTimer sent analysed).symm
  · exact (alone_seperaterTimer sent analysed).symm

theorem flush_alone : (c.alone sent analysed).flush = c.flush.alone sent analysed := by
  have hout : (c.alone sent analysed).http.outBuffer = c.http.outBuffer := rfl
  rw [flush, flush, hout]
  split
  · exact handleWrite_alone _ _
  · rfl

theorem settle_alone : (c.alone sent analysed).settle = c.settle.alone sent analysed := by
  have hstate : (c.alone sent analysed).http.state = c.http.state := rfl
  have hin : (c.alone sent analysed).http.reset.inBuffer = c.http.reset.inBuffer := rfl
  simp only [settle, hstate, hin]
  split
  · split <;> rfl
  · rfl

/-- The end of an activation is the same. -/
theorem finishTurn_alone :
    (c.alone sent analysed).finishTurn = c.finishTurn.alone sent analysed := by
  have herror : (c.alone sent analysed).http.error = c.http.error := rfl
  have hstate : (c.alone sent analysed).http.connectionState = c.http.connectionState := rfl
  have hflush : (c.flush.alone sent analysed).http.error = c.flush.http.error := rfl
  simp only [finishTurn, herror, hstate, flush_alone, hflush, settle_alone]
  split
  · split <;> rfl
  · rfl

/-! ## Events -/

/-- So is the activation, whether it is followed by another one or not. -/
theorem turn_alone :
    (c.alone sent analysed).turn fs =
      aloneResult (Turn.alone sent analysed) sent analysed (c.turn fs) := by
  have hprocess : (c.seperaterTimer.alone sent analysed).process fs = _ :=
    process_alone sent analysed
  rw [alone_seperaterTimer] at hprocess
  rw [turn, turn, seperaterTimer_alone, hprocess]
  obtain ⟨f, d⟩ | d := c.seperaterTimer.process fs
  · rfl
  · exact congrArg Except.ok (finishTurn_alone _ _)

/-- `handleRead` is the same, by induction on its activations. -/
theorem handleRead_alone (c : Conn) :
    (c.alone sent analysed).handleRead fs =
      aloneResult (alone · sent analysed) sent analysed (c.handleRead fs) := by
  induction c using handleRead.induct fs with
  | case1 c e heq => rw [handleRead, turn_alone, heq, handleRead, heq]; rfl
  | case2 c d heq => rw [handleRead, turn_alone, heq, handleRead, heq]; rfl
  | case3 c d heq ih =>
    have hagain : c.handleRead fs = d.handleRead fs := by rw [handleRead, heq]
    rw [handleRead, turn_alone, heq, hagain, ← ih]
    rfl

/-- The poller is told what the connection waits for, or that it is closed. -/
theorem handleConn_alone (h : c.handleConn = .ok d) :
    (c.alone sent analysed).rearmed = d.alone sent analysed := by
  have hrearm : (c.alone sent analysed).rearm = c.rearm := rfl
  rw [handleConn_eq_rearm] at h
  rw [rearmed, hrearm]
  cases hcase : c.rearm with
  | none =>
    rw [hcase] at h
    obtain ⟨p, rfl⟩ := handleClose_eq h
    rfl
  | some rearm =>
    obtain ⟨mask, timeout⟩ := rearm
    rw [hcase] at h
    obtain ⟨t, p, rfl⟩ := updateChannel_eq h
    rfl

/-- A callback for reading or writing. -/
theorem callIf_alone (revents mask : Mask) (c : Conn) :
    Channel.callIf revents mask (some (handleRead fs)) (c.alone sent analysed) =
      aloneResult (alone · sent analysed) sent analysed
        (Channel.callIf revents mask (some (handleRead fs)) c) := by
  rw [Channel.callIf, Channel.callIf]
  split
  · exact handleRead_alone sent analysed c
  · rfl

/-- A connection that handles its events does what it would do by itself, whatever the
    poller and the clock. -/
theorem respond_of_handleEvents (h : (c.deliver r).handleEvents fs = .ok d) :
    (c.alone sent analysed).respond fs r.untimed = .ok (d.alone sent analysed) := by
  have hcall : ∀ {mask : Mask} {c d : Conn},
      Channel.callIf r.revents mask (some (handleRead fs)) c = .ok d →
      Channel.callIf r.revents mask (some (handleRead fs)) (c.alone sent analysed) =
        .ok (d.alone sent analysed) := by
    intro mask c d h
    rw [callIf_alone, h]
    rfl
  have hdeliver : (c.alone sent analysed).deliver r.untimed =
      (c.deliver r).alone sent analysed := rfl
  rw [respond, hdeliver]
  generalize hd : c.deliver r = e at h ⊢
  have hrevents : e.http.ownchannel.revents = r.revents := by rw [← hd]; rfl
  have hget : (channel.get (channel.set { channel.get e with eventHandling := true } e)).revents =
      r.revents := hrevents
  have hstart : channel.set { channel.get (e.alone sent analysed) with eventHandling := true }
      (e.alone sent analysed) =
        (channel.set { channel.get e with eventHandling := true } e).alone sent analysed := rfl
  have hget' : (channel.get ((channel.set { channel.get e with eventHandling := true } e).alone
      sent analysed)).revents = r.revents := hrevents
  rw [handleEvents] at h
  simp only [Channel.handleEvents, hget] at h
  simp only [Channel.handleEvents, hstart, hget']
  split at h
  · next hhup =>
    cases h
    rw [if_pos hhup]
    rfl
  · next hhup =>
    rw [if_neg hhup]
    split at h
    · next herr =>
      cases h
      rw [if_pos herr]
      rfl
    · next herr =>
      obtain ⟨c₁, hread, h⟩ := exists_of_bind_eq_ok h
      obtain ⟨c₂, hwrite, h⟩ := exists_of_bind_eq_ok h
      obtain ⟨c₃, hconn, h⟩ := exists_of_bind_eq_ok h
      cases h
      have hread := hcall hread
      have hwrite := hcall hwrite
      have hconn := handleConn_alone sent analysed (ok_of_mapError_eq_ok hconn)
      rw [if_neg herr]
      simp only [callbacks, hread, hwrite, hconn, bind, Except.bind, Channel.call]
      rfl

end Conn

end Webserver
