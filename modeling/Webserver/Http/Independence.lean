import Webserver.Http.Grammar
import Webserver.Http.History
import Webserver.Http.WriteErrors

/-!
# What one request leaves for the next

A connection that has answered all requests starts over with the next one, on
the fields that `reset` has restored or that the request overwrites. The one
field that is neither is `isKeepAlive`: it is set by a request that asks for the
connection to be kept, and never cleared.

* `Conn.exchange_eq`: what a request is answered is a function of its bytes, of
  the file system and of `isKeepAlive` (`Head.exchange`).
* `Conn.exchange_eq_iff`: two connections answer a request alike, except that one
  that is answered gets the longer timeout if any request before it has asked for
  it.
-/

namespace Webserver

open Text Transition HeadLine

/-! ## Parsing a request head -/

/-- The line of a field, as it is parsed: the byte after the colon is skipped. -/
def Field.headLine (f : Field) : HeadLine := ⟨f.name, f.text.headD sp, f.text.tail, cr⟩

theorem Field.headLine_writes {f : Field} (h : f.text ≠ []) : f.headLine.Writes f := by
  obtain ⟨x, text, htext⟩ := List.exists_cons_of_ne_nil h
  have hline : f.headLine.text = f.line := by
    simp [Field.headLine, HeadLine.text, Field.line, htext]
  refine ⟨⟨f.name_plain.1, ?_, ?_⟩, hline⟩
  · rw [hline]
    exact f.lf_notMem_line
  · rw [hline]
    exact f.head_line_ne

/-- The header fields of a head are read one after the other, up to the first one
    with nothing after its colon. -/
theorem parsesTo_fields (fs : List Field) (m : Headers) :
    ParsesTo (Field.render fs ++ [cr, lf]) m
      (if ∃ f ∈ fs, f.text = [] then .error .lengthError
        else .ok (.success, [], fields (fs.map Field.headLine) m)) := by
  induction fs generalizing m with
  | nil =>
    rw [if_neg (by simp)]
    exact .blank (t := [lf]) List.mem_cons_self
  | cons f fs ih =>
    rw [Field.render_cons, List.append_assoc, List.cons_append]
    by_cases h : f.text = []
    · rw [if_pos ⟨f, List.mem_cons_self, h⟩]
      have hline : f.line = f.name ++ colon :: [cr] := by simp [Field.line, h]
      have hlf := f.lf_notMem_line
      have hhead := f.head_line_ne
      rw [hline] at hlf hhead ⊢
      exact .short hlf hhead f.name_plain.1 (by decide)
    · have hwrites := Field.headLine_writes h
      rw [← hwrites.2]
      refine .line hwrites.1 ?_
      have ih := ih (m.insert f.headLine.name f.headLine.value)
      simpa [h] using ih

namespace Head

variable (r : Head)

/-- A field has nothing after its colon, not even a space. -/
def Short : Prop := ∃ f ∈ r.fields, f.text = []

instance : Decidable r.Short := inferInstanceAs (Decidable (∃ f ∈ r.fields, _))

/-- The request, as it is handed to `analysisRequest`. -/
def request : Request where
  method := some r.method
  url := r.url
  version := r.version
  headtToValue := HeadLine.fields (r.fields.map Field.headLine) ∅

variable {r}

/-- Parsing a request head ends the process, or removes the head. -/
theorem outcome_eq {h : HttpData} (hstate : h.state = .parseUrl) (hheaders : h.headtToValue = ∅)
    (hbuf : h.inBuffer = r.render) (hmethod : r.method ≠ .post) :
    (r.Short → ∃ h', h.outcome = .crash .lengthError h') ∧
      (¬r.Short → h.outcome = .request { h with
        inBuffer := [], method := some r.method, url := r.url, version := r.version
        headtToValue := r.request.headtToValue, state := .analysis }) := by
  have hbuf : h.inBuffer = r.line ++ cr :: (lf :: (Field.render r.fields ++ [cr, lf])) := hbuf
  have hloop := (parsesTo_fields r.fields ∅).eq
  have hurl : h.parseURL = (.success, { h with
      inBuffer := Field.render r.fields ++ [cr, lf], method := some r.method, url := r.url
      version := r.version }) := by
    rw [HttpData.parseURL_cons hstate hbuf r.cr_notMem_line, line,
      HttpData.parseRequestLine_cut _ r.method.sp_notMem_token r.target_plain.1]
    simp only [r.method.methodOf_token, List.drop_succ_cons, List.drop_zero]
    rfl
  have hpost : ¬some r.method = some HttpMethod.post := fun h => hmethod (Option.some.inj h)
  constructor
  · intro hshort
    rw [if_pos (by exact hshort)] at hloop
    refine ⟨{ h with
      inBuffer := Field.render r.fields ++ [cr, lf], method := some r.method, url := r.url
      version := r.version, state := .parseHeaders }, ?_⟩
    rw [HttpData.outcome, hstate, hurl]
    simp only [HttpData.headersOutcome, hheaders, hloop, HttpData.afterHeaders]
  · intro hshort
    rw [if_neg (by exact hshort)] at hloop
    rw [HttpData.outcome, hstate, hurl]
    simp only [HttpData.headersOutcome, hheaders, hloop, HttpData.afterHeaders, if_neg hpost]
    rfl

end Head

/-! ## What a request is answered -/

/-- How the connection is left: the process ends, the connection is closed, or it
    is registered again with a timeout. -/
inductive Verdict
  | crashed (f : Fault)
  | closed
  | kept (timeout : ℕ)

/-- What a request shows of a connection: the bytes sent, those left to send, and
    how the connection is left. -/
structure Exchange where
  sent : Bytes
  left : Bytes
  verdict : Verdict

/-- What the socket takes of an error page. -/
def pageSent (writes : List WriteResult) (errnum : ℕ) (shortmsg : Bytes) : Bytes :=
  let header := writenRaw writes (cStr (errorHeader errnum shortmsg))
  header.accepted ++ (writenRaw header.writes (cStr (errorBody errnum shortmsg))).accepted

/-- What a request shows that has been parsed. -/
def Request.exchange (fs : FileSystem) (r : Request) (isKeepAlive : Bool)
    (writes : List WriteResult) : Exchange :=
  match r.reply fs with
  | .crash f => ⟨[], [], .crashed f⟩
  | .notFound => ⟨pageSent writes 404 (bytes "Not Fount!"), [], .closed⟩
  | .unsupported => ⟨[], [], .closed⟩
  | .answered response => ⟨(writen writes response).accepted, (writen writes response).buffer,
      .kept (if isKeepAlive || r.keeps then DEFAULT_KEEP_ALIVE_TIME else DEFAULT_EXPIRED_TIME)⟩

/-- What a request shows of a connection on which nothing else happens. -/
def Head.exchange (fs : FileSystem) (r : Head) (isKeepAlive : Bool) (writes : List WriteResult) :
    Exchange :=
  if toInt r.render.length < 0 then ⟨pageSent writes 400 (bytes "Bad Request"), [], .closed⟩
  else if r.Short then ⟨[], [], .crashed .lengthError⟩
  else r.request.exchange fs isKeepAlive writes

/-- The answers to a request differ in the timeout only. -/
theorem Request.exchange_congr_iff {fs : FileSystem} {r : Request} {k₁ k₂ : Bool}
    {writes : List WriteResult} :
    r.exchange fs k₁ writes = r.exchange fs k₂ writes ↔
      (r.Answered fs → r.keeps = false → k₁ = k₂) := by
  rw [Request.answered_iff, exchange, exchange]
  cases hreply : r.reply fs with
  | answered response =>
    have htimeouts : DEFAULT_KEEP_ALIVE_TIME ≠ DEFAULT_EXPIRED_TIME := by decide
    cases hkeeps : r.keeps with
    | true => simp
    | false => cases k₁ <;> cases k₂ <;> simp [htimeouts, htimeouts.symm]
  | _ => simp

theorem Head.exchange_congr_iff {fs : FileSystem} {r : Head} {k₁ k₂ : Bool}
    {writes : List WriteResult} :
    r.exchange fs k₁ writes = r.exchange fs k₂ writes ↔
      (0 ≤ toInt r.render.length → ¬r.Short → r.request.Answered fs →
        r.request.keeps = false → k₁ = k₂) := by
  rw [exchange, exchange]
  by_cases hneg : toInt r.render.length < 0
  · simp [hneg, Int.not_le.2 hneg]
  · by_cases hshort : r.Short
    · simp [hshort]
    · rw [if_neg hneg, if_neg hneg, if_neg hshort, if_neg hshort, Request.exchange_congr_iff]
      exact ⟨fun h _ _ => h, fun h => h (Int.not_lt.1 hneg) hshort⟩

namespace Conn

/-- How `handleConn` will leave the connection. -/
def verdict (c : Conn) : Verdict :=
  match c.rearm with
  | none => .closed
  | some (_, timeout) => .kept timeout

/-- The connection when the callbacks are called for its events. -/
def start (c : Conn) (report : Report) : Conn :=
  c.report report.reads report.writes report.now
    { c.http.ownchannel with revents := report.revents, eventHandling := true }

/-- What `handleRead` shows that was called for an event, and the `handleConn` that
    follows it. -/
def exchange (fs : FileSystem) (c : Conn) (report : Report) : Exchange :=
  match (c.start report).handleRead fs with
  | .error (f, d) => ⟨d.socket.sent.drop c.socket.sent.length, d.http.outBuffer, .crashed f⟩
  | .ok d => ⟨d.socket.sent.drop c.socket.sent.length, d.http.outBuffer, d.verdict⟩

/-- The connection rests between two requests: all have been answered, and the
    answers sent. -/
structure Idle (c : Conn) : Prop where
  connectionState : c.http.connectionState = .connected
  state : c.http.state = .parseUrl
  inBuffer : c.http.inBuffer = []
  outBuffer : c.http.outBuffer = []

instance (c : Conn) : Decidable c.Idle :=
  decidable_of_iff (c.http.connectionState = .connected ∧ c.http.state = .parseUrl ∧
      c.http.inBuffer = [] ∧ c.http.outBuffer = [])
    ⟨fun ⟨h, h', h'', h'''⟩ => ⟨h, h', h'', h'''⟩, fun ⟨h, h', h'', h'''⟩ => ⟨h, h', h'', h'''⟩⟩

variable {fs : FileSystem} {c d : Conn} {r : Head} {report : Report}

theorem handleError_sent_eq (c : Conn) (errnum : ℕ) (shortmsg : Bytes) :
    (c.handleError errnum shortmsg).socket.sent =
      c.socket.sent ++ pageSent c.socket.writes errnum shortmsg := List.append_assoc _ _ _

/-! ## The turn that answers a request -/

theorem handleRead_of_done (h : c.turn fs = .ok (.done d)) : c.handleRead fs = .ok d := by
  rw [handleRead, h]

/-- The process ends. -/
theorem exchange_of_crash {f : Fault}
    (h : (c.start report).seperaterTimer.process fs = .error (f, d)) :
    c.exchange fs report =
      ⟨d.socket.sent.drop c.socket.sent.length, d.http.outBuffer, .crashed f⟩ := by
  have hturn : (c.start report).turn fs = .error (f, d) := by rw [turn, h]
  have hread : (c.start report).handleRead fs = .error (f, d) := by rw [handleRead, hturn]
  simp only [exchange, hread]

/-- The connection is closed. -/
theorem exchange_of_error (h : (c.start report).seperaterTimer.process fs = .ok d)
    (herror : d.http.error = true) :
    c.exchange fs report =
      ⟨d.socket.sent.drop c.socket.sent.length, d.http.outBuffer, .closed⟩ := by
  have hturn : (c.start report).turn fs = .ok (.done d) := by
    rw [turn, h, ← finishTurn_of_error herror]
  have hrearm : d.rearm = none := if_neg (by simp [herror])
  simp only [exchange, handleRead_of_done hturn, verdict, hrearm]

/-- A response is written, and the connection is registered again. -/
theorem exchange_of_finish (h : (c.start report).seperaterTimer.process fs = .ok d)
    (herror : d.http.error = false) (hconn : d.http.connectionState = .connected)
    (hstate : d.http.state = .finish) (hin : d.http.inBuffer = []) (hout : d.http.outBuffer ≠ []) :
    c.exchange fs report =
      ⟨(d.socket.sent ++ (Webserver.writen d.socket.writes d.http.outBuffer).accepted).drop
          c.socket.sent.length,
        (Webserver.writen d.socket.writes d.http.outBuffer).buffer, .kept d.timeout⟩ := by
  obtain ⟨t, p, hwrite⟩ := handleWrite_of_open hout herror (by rw [hconn]; decide)
  have hflush : d.flush = d.handleWrite := if_pos (List.length_pos_iff.2 hout)
  have hsettle : d.finishTurn = d.handleWrite.settle := by
    rw [finishTurn, if_pos ⟨herror, hconn⟩, hflush]
    simp only [hwrite, if_pos herror]
  have hfinish : d.finishTurn =
      .done { d.handleWrite with http := d.handleWrite.http.reset } := by
    have hempty : ¬d.handleWrite.http.inBuffer.length > 0 := by simp [hwrite, hin]
    rw [hsettle, settle, if_pos (by rw [hwrite]; exact hstate)]
    exact if_neg hempty
  have hturn : (c.start report).turn fs =
      .ok (.done { d.handleWrite with http := d.handleWrite.http.reset }) := by
    rw [turn, h, ← hfinish]
  have hrearm : ({ d.handleWrite with http := d.handleWrite.http.reset } : Conn).rearm =
      some (rearmMask d.handleWrite.http.ownchannel.events, d.timeout) := by
    rw [rearm, if_pos (by rw [hwrite]; exact ⟨rfl, hconn⟩), hwrite]
    rfl
  simp only [exchange, handleRead_of_done hturn, verdict, hrearm]
  rw [hwrite]
  rfl

variable (fs) in
/-- The phases that handle the request, once it has been read. -/
theorem process_start (hc : c.Idle) (hreads : Delivers report.reads r.render) :
    ∃ e : Conn, (∃ ch t, e.http =
        { c.http with ownchannel := ch, timer := t, inBuffer := r.render }) ∧
      e.socket.sent = c.socket.sent ∧ e.socket.writes = report.writes ∧
      (c.start report).seperaterTimer.process fs =
        if toInt r.render.length < 0 then .ok e.badRequest else e.act fs e.http.outcome := by
  obtain ⟨t, p, hsep⟩ := (c.start report).seperaterTimer_eq
  obtain ⟨hret, hbuffer, -⟩ := hreads.readn [] 0
  rw [List.nil_append] at hbuffer
  refine ⟨(c.start report).seperaterTimer.readn.2, ⟨?_, ?_⟩, ?_, ?_, ?_⟩
  · exact (c.start report).http.ownchannel
  · refine ⟨t, ?_⟩
    rw [hsep, ← hbuffer, ← hc.inBuffer]
    rfl
  · rw [hsep]
    rfl
  · rw [hsep]
    rfl
  · have hnarrow : toInt (c.start report).seperaterTimer.readn.1 = toInt r.render.length := by
      have hreadn : (c.start report).seperaterTimer.readn.1 =
          (Webserver.readn report.reads c.http.inBuffer 0).ret := by
        rw [hsep]
        rfl
      rw [hreadn, hc.inBuffer, hret, Int.zero_add, toInt_toSizeT]
    rw [process_eq, hnarrow, outcome]

/-- What follows the parsing of a request. -/
theorem exchange_of_request {g : Conn} (hc : c.Idle) (herror : c.http.error = false)
    (h : (c.start report).seperaterTimer.process fs = g.analysisPhase fs)
    (hg : ∃ ch t, g.http = { c.http with
      ownchannel := ch, timer := t, inBuffer := [], method := some r.method, url := r.url
      version := r.version, headtToValue := r.request.headtToValue, state := .analysis })
    (hsent : g.socket.sent = c.socket.sent) (hwrites : g.socket.writes = report.writes) :
    c.exchange fs report = r.request.exchange fs c.http.isKeepAlive report.writes := by
  obtain ⟨ch, t, hg⟩ := hg
  have hrequest : g.http.request = r.request := by rw [hg]; rfl
  have hout : g.http.outBuffer = [] := by rw [hg]; exact hc.outBuffer
  have hdrop : ∀ s : Bytes, (g.socket.sent ++ s).drop c.socket.sent.length = s := by
    intro s
    rw [hsent, List.drop_left]
  have hnone : g.socket.sent.drop c.socket.sent.length = [] := by rw [hsent, List.drop_length]
  rw [analysisPhase, if_pos (by rw [hg]), analysisRequest_eq_reply, hrequest] at h
  rw [Request.exchange]
  cases hreply : r.request.reply fs with
  | crash f =>
    rw [hreply] at h
    rw [exchange_of_crash h]
    simp only [analyse, hnone, hout]
  | notFound =>
    obtain ⟨d, hd, hnotFound⟩ := handleReply_notFound fs g.analyse
    -- The output may be cleared, but there is none.
    have hsame : d.http.outBuffer = [] ∧ d.socket = g.socket := by
      rcases hd with rfl | rfl
      · exact ⟨hout, rfl⟩
      · exact ⟨rfl, rfl⟩
    rw [hreply, hnotFound] at h
    rw [exchange_of_error h rfl]
    simp only [handleError_sent_eq, hsame.2, hdrop, hwrites]
    exact congrArg (Exchange.mk _ · _) hsame.1
  | unsupported =>
    rw [hreply] at h
    rw [exchange_of_error h rfl]
    simp only [analyse, hnone, hout]
  | answered response =>
    have hhello : ¬(g.analyse.http.url = bytes "hello" ∨ g.analyse.http.url = bytes "Hello") := by
      rw [analyse, hg]
      exact not_hello_of_root (HttpData.root_prefix_urlOf r.target)
    have hresponse : ({ g.analyse.output response with http.state := .finish } :
        Conn).http.outBuffer = response := by
      simp only [output, analyse, hout, List.nil_append]
    rw [hreply, handleReply_answered hhello] at h
    rw [exchange_of_finish h (by rw [output, analyse, hg]; exact herror)
      (by rw [output, analyse, hg]; exact hc.connectionState) rfl (by rw [output, analyse, hg])
      (by rw [hresponse]; exact ne_nil_of_reply hreply), hresponse]
    simp only [output, analyse, hdrop, hwrites, timeout, hrequest]
    rw [hg]

/-- What a request is answered by a connection on which nothing else happens. -/
theorem exchange_eq (hc : c.Idle) (herror : c.http.error = false)
    (hheaders : c.http.headtToValue = ∅) (hmethod : r.method ≠ .post)
    (hreads : Delivers report.reads r.render) :
    c.exchange fs report = r.exchange fs c.http.isKeepAlive report.writes := by
  obtain ⟨e, ⟨ch, t, hhttp⟩, hsent, hwrites, hprocess⟩ := process_start fs hc hreads
  obtain ⟨hcrash, hrequest⟩ := Head.outcome_eq (r := r) (h := e.http)
    (by rw [hhttp]; exact hc.state) (by rw [hhttp]; exact hheaders) (by rw [hhttp]) hmethod
  have hout : e.http.outBuffer = [] := by rw [hhttp]; exact hc.outBuffer
  rw [Head.exchange]
  split at hprocess
  · next hneg =>
    rw [if_pos hneg, exchange_of_error hprocess rfl, badRequest, handleError_sent_eq, hsent,
      List.drop_left, hwrites]
    exact congrArg (Exchange.mk _ · _) hout
  · next hneg =>
    rw [if_neg hneg]
    by_cases hshort : r.Short
    · obtain ⟨h', hcrash⟩ := hcrash hshort
      have hout' := e.http.outcome_outBuffer
      rw [hcrash] at hprocess hout'
      rw [if_pos hshort, exchange_of_crash hprocess, hsent, List.drop_length]
      exact congrArg (Exchange.mk _ · _) (hout'.trans hout)
    · rw [if_neg hshort]
      rw [hrequest hshort] at hprocess
      exact exchange_of_request hc herror hprocess ⟨ch, t, by rw [hhttp]⟩ hsent hwrites

/-! ## Two histories -/

/-- Input is reported, and neither output, for which an idle connection is not
    registered, nor an error. -/
def InputOnly (revents : Mask) : Prop :=
  revents &&& EPOLLIN ≠ 0 ∧ revents &&& EPOLLOUT = 0 ∧ revents &&& EPOLLERR = 0

/-- An exchange is what handling an event of input consists of. -/
theorem handleEvents_of_inputOnly (h : InputOnly report.revents) :
    (c.deliver report).handleEvents fs = (do
      let d ← (c.start report).handleRead fs
      let d ← d.handleConn.mapError (·, d)
      .ok (channel.set { channel.get d with eventHandling := false } d)) := by
  have hread : report.revents &&& (EPOLLIN ||| EPOLLPRI ||| EPOLLRDHUP) ≠ 0 := by
    intro hzero
    rw [BitVec.and_or_distrib_left, BitVec.and_or_distrib_left] at hzero
    exact h.1 (BitVec.or_eq_zero_iff.1 (BitVec.or_eq_zero_iff.1 hzero).1).1
  rw [handleEvents, Channel.handleEvents_of_dispatched (show _ = report.revents from rfl)
    ⟨fun hhup => h.1 hhup.2, h.2.2⟩, Channel.callIf, if_pos hread]
  simp only [Channel.callIf, h.2.1, ne_eq, not_true_eq_false, if_false]
  rfl

/-- What a reachable connection has restored when it rests. -/
theorem Idle.restored (hc : (events fs).Reachable c) (hidle : c.Idle) :
    c.http.error = false ∧ c.http.headtToValue = ∅ ∧
      c.http.isKeepAlive = c.analysed.any Request.keeps := by
  obtain ⟨herror, -⟩ := rests_of_reachable hc hidle.connectionState
  have hrecorded := recorded_of_reachable (system_reachable hc)
  exact ⟨herror, hrecorded.headtToValue herror hidle.state, hrecorded.isKeepAlive⟩

/-- Two connections that rest answer a `GET` or `HEAD` request alike, whatever they
    have answered before, exactly if they choose the same timeout: if the request is
    answered without asking for the connection to be kept alive, an earlier request
    has asked for it on both of them or on none. -/
theorem exchange_eq_iff {c₁ c₂ : Conn} (h₁ : (events fs).Reachable c₁)
    (h₂ : (events fs).Reachable c₂) (hidle₁ : c₁.Idle) (hidle₂ : c₂.Idle)
    (hmethod : r.method ≠ .post) {report₁ report₂ : Report}
    (hreads₁ : Delivers report₁.reads r.render) (hreads₂ : Delivers report₂.reads r.render)
    (hwrites : report₁.writes = report₂.writes) :
    c₁.exchange fs report₁ = c₂.exchange fs report₂ ↔
      (0 ≤ toInt r.render.length → ¬r.Short → r.request.Answered fs → r.request.keeps = false →
        c₁.analysed.any Request.keeps = c₂.analysed.any Request.keeps) := by
  obtain ⟨herror₁, hheaders₁, hkeep₁⟩ := hidle₁.restored h₁
  obtain ⟨herror₂, hheaders₂, hkeep₂⟩ := hidle₂.restored h₂
  rw [exchange_eq hidle₁ herror₁ hheaders₁ hmethod hreads₁,
    exchange_eq hidle₂ herror₂ hheaders₂ hmethod hreads₂, hwrites, Head.exchange_congr_iff, hkeep₁,
    hkeep₂]

theorem slash_plain : sp ∉ bytes "/" ∧ cr ∉ bytes "/" ∧ lf ∉ bytes "/" := by decide +kernel

/-- A request for the start page, as a request head. -/
def startPage : Head where
  method := .get
  target := bytes "/"
  version := bytes "HTTP/1.1"
  fields := []
  target_plain := slash_plain
  version_plain := by decide +kernel

def onStartPage : Report :=
  ⟨EPOLLIN, [.data ⟨startPage.render, by decide +kernel, by decide +kernel⟩], [], ⟨2, 0⟩⟩

theorem delivers_onStartPage : Delivers onStartPage.reads startPage.render := by
  have h := Delivers.data ⟨startPage.render, by decide +kernel, by decide +kernel⟩ delivers_nil
  rwa [List.append_nil] at h

/-- A request for it that asks for the connection to be kept alive. -/
def keepStartPage : Piece :=
  ⟨bytes "GET / HTTP/1.1\r\nConnection: keep-alive\r\n\r\n", by decide +kernel, by decide +kernel⟩

/-- The first connection, after its first request. -/
theorem exists_idle (piece : Piece) {p : Conn → Bool}
    (h : ((first.deliver ⟨EPOLLIN, [.data piece], [], ⟨1, 0⟩⟩).handleEvents
      (.logHtml (bytes "hi"))).toOption.any (fun c => decide c.Idle && p c) = true) :
    ∃ c, (events (.logHtml (bytes "hi"))).Reachable c ∧ c.Idle ∧ p c = true := by
  obtain ⟨c, hevent, hc⟩ := exists_ok_of_any h
  rw [Bool.and_eq_true, decide_eq_true_eq] at hc
  have hfirst : (events (.logHtml (bytes "hi"))).Reachable first := .init first_fresh
  have hreported : Registry.Reported EPOLLIN := by decide
  exact ⟨c, .step hfirst trivial (.mk rfl hreported hevent), hc⟩

theorem first_idle : first.Idle := ⟨rfl, rfl, rfl, rfl⟩

/-- A request before, that has not asked for the connection to be kept alive, makes
    no difference. -/
theorem exchange_eq_iff_startPage :
    ∃ c, (events (.logHtml (bytes "hi"))).Reachable c ∧ c.analysed ≠ [] ∧
      (first.exchange (.logHtml (bytes "hi")) onStartPage =
          c.exchange (.logHtml (bytes "hi")) onStartPage ↔
        (0 ≤ toInt startPage.render.length → ¬startPage.Short →
          startPage.request.Answered (.logHtml (bytes "hi")) → startPage.request.keeps = false →
          first.analysed.any Request.keeps = c.analysed.any Request.keeps)) := by
  obtain ⟨c, hc, hidle, hanalysed⟩ := exists_idle getStartPage
    (p := fun c => decide (c.analysed ≠ [])) (by decide +kernel)
  exact ⟨c, hc, of_decide_eq_true hanalysed, exchange_eq_iff (.init first_fresh) hc first_idle hidle
    HttpMethod.noConfusion delivers_onStartPage delivers_onStartPage rfl⟩

/-- One that has asked for it does: the next request gets the longer timeout. -/
theorem not_exchange_eq :
    ¬∀ (fs : FileSystem) (c₁ c₂ : Conn), (events fs).Reachable c₁ → (events fs).Reachable c₂ →
      c₁.Idle → c₂.Idle → ∀ r : Head, r.method ≠ .post → ∀ report₁ report₂ : Report,
      Delivers report₁.reads r.render → Delivers report₂.reads r.render →
      report₁.writes = report₂.writes → c₁.exchange fs report₁ = c₂.exchange fs report₂ := by
  intro hall
  obtain ⟨c, hc, hidle, hkeep⟩ := exists_idle keepStartPage (p := fun c => c.http.isKeepAlive)
    (by decide +kernel)
  have heq := hall _ first c (.init first_fresh) hc first_idle hidle startPage
    HttpMethod.noConfusion _ _ delivers_onStartPage delivers_onStartPage rfl
  obtain ⟨herror, hheaders, -⟩ := hidle.restored hc
  rw [exchange_eq first_idle rfl rfl HttpMethod.noConfusion delivers_onStartPage,
    exchange_eq hidle herror hheaders HttpMethod.noConfusion delivers_onStartPage,
    Head.exchange_congr_iff, hkeep] at heq
  have hanswered : startPage.request.Answered (.logHtml (bytes "hi")) :=
    Request.answered_iff.2
      ⟨startPage.request.responseOf (.logHtml (bytes "hi")), by decide +kernel⟩
  have hfirst : first.http.isKeepAlive = true :=
    heq (by decide +kernel) (by decide +kernel) hanswered (by decide +kernel)
  cases hfirst

end Conn

end Webserver
