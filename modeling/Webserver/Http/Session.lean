import Webserver.Http.Read

/-!
# Sessions

What a connection comes to when every write completes. Timers, event masks and
pending output then play no part, and a run of `handleRead` is a function of
the parser's fields and of the bytes in `inBuffer`: the requests it analyses,
the bytes it sends and how it ends (`HttpData.session`).

* `Conn.parse_eq`: the phases of `handleRead` after reading only depend on the
  `HttpData`, through its `outcome`, and on the reply of `analysisRequest`.
* `Conn.handleRead_matches`: `handleRead` does what the session says.
-/

namespace Webserver

open Text

/-! ## Where parsing leads -/

/-- Where parsing the buffer of a connection leads: it may be incomplete, be
    refused, make a request, or end the process. -/
inductive Outcome
  | crash (f : Fault) (h : HttpData)
  | bad (h : HttpData)
  | wait (h : HttpData)
  | request (h : HttpData)

/-- The outcome, with its `HttpData` changed. -/
def Outcome.map (f : HttpData → HttpData) : Outcome → Outcome
  | crash fault h => .crash fault (f h)
  | bad h => .bad (f h)
  | wait h => .wait (f h)
  | request h => .request (f h)

/-- The `HttpData` of an outcome. -/
def Outcome.http : Outcome → HttpData
  | crash _ h => h
  | bad h => h
  | wait h => h
  | request h => h

/-- The state of the parser is the one that goes with the outcome. -/
def Outcome.Sound : Outcome → Prop
  | wait h => h.state = .parseHeaders ∨ h.state = .recvBody
  | request h => h.state = .analysis
  | _ => True

/-- How a session ends: the connection waits for more bytes, or it failed, or
    the process ended. -/
inductive Ending
  | waiting (h : HttpData)
  | failed
  | crashed (f : Fault)

/-- What a session shows: the requests analysed, the bytes sent, and the end. -/
structure Play where
  analysed : List Request
  sent : Bytes
  ending : Ending

/-- The play, after another request and its response. -/
def Play.after (p : Play) (r : Request) (response : Bytes) : Play :=
  { p with analysed := r :: p.analysed, sent := response ++ p.sent }

namespace HttpData

/-- Where an answer of the loop of `parseHeaders` leads. -/
def afterHeaders (h : HttpData) : Except Fault (HeaderState × Bytes × Headers) → Outcome
  | .error f => .crash f h
  | .ok (.again, str, m) => .wait { h with inBuffer := str, headtToValue := m }
  | .ok (.error, str, m) => .bad { h with inBuffer := str, headtToValue := m }
  | .ok (.success, str, m) =>
    if h.method = some .post then
      .wait { h with inBuffer := str, headtToValue := m, state := .recvBody }
    else .request { h with inBuffer := str, headtToValue := m, state := .analysis }

/-- Where parsing header lines leads. -/
def headersOutcome (h : HttpData) : Outcome :=
  h.afterHeaders (parseHeadersLoop h.inBuffer h.headtToValue)

/-- Where parsing leads, from the present state of the parser. -/
def outcome (h : HttpData) : Outcome :=
  match h.state with
  | .parseUrl =>
    match h.parseURL with
    | (.error, h) => .bad { h with inBuffer := [] }
    -- `again` goes on like `success`.
    | (_, h) => { h with state := .parseHeaders }.headersOutcome
  | .parseHeaders => h.headersOutcome
  | .recvBody => .wait h
  | .analysis => .request h
  | .finish => .wait h

/-- Parsing changes the buffer, the request fields and the state only. -/
theorem headersOutcome_http (h : HttpData) :
    ∃ i m s, h.headersOutcome.http = { h with inBuffer := i, headtToValue := m, state := s } := by
  rw [headersOutcome]
  cases parseHeadersLoop h.inBuffer h.headtToValue with
  | error f => exact ⟨_, _, _, rfl⟩
  | ok r =>
    obtain ⟨flag, str, m⟩ := r
    cases flag with
    | again => exact ⟨_, _, _, rfl⟩
    | error => exact ⟨_, _, _, rfl⟩
    | success =>
      rw [afterHeaders]
      split <;> exact ⟨_, _, _, rfl⟩

theorem parseURL_eq (h : HttpData) :
    ∃ i mt u v, h.parseURL.2 = { h with inBuffer := i, method := mt, url := u, version := v } := by
  rw [parseURL]
  split
  · split
    · exact ⟨_, _, _, _, rfl⟩
    · simp only [parseRequestLine]
      split <;> exact ⟨_, _, _, _, rfl⟩
  · exact ⟨_, _, _, _, rfl⟩

theorem outcome_http (h : HttpData) :
    ∃ i mt u v m s, h.outcome.http = { h with
      inBuffer := i, method := mt, url := u, version := v, headtToValue := m, state := s } := by
  rw [outcome]
  split
  · obtain ⟨i, mt, u, v, hurl⟩ := h.parseURL_eq
    split
    · next heq =>
      rw [heq] at hurl
      obtain rfl := hurl
      exact ⟨_, _, _, _, _, _, rfl⟩
    · next heq =>
      rw [heq] at hurl
      obtain rfl := hurl
      obtain ⟨i, m, s, hheaders⟩ := headersOutcome_http { h with
        inBuffer := i, method := mt, url := u, version := v, state := .parseHeaders }
      exact ⟨_, _, _, _, _, _, hheaders⟩
  · obtain ⟨i, m, s, hheaders⟩ := h.headersOutcome_http
    exact ⟨_, _, _, _, _, _, hheaders⟩
  · exact ⟨_, _, _, _, _, _, rfl⟩
  · exact ⟨_, _, _, _, _, _, rfl⟩
  · exact ⟨_, _, _, _, _, _, rfl⟩

theorem outcome_outBuffer (h : HttpData) : h.outcome.http.outBuffer = h.outBuffer := by
  obtain ⟨i, mt, u, v, m, s, hframe⟩ := h.outcome_http
  rw [hframe]

/-- A request that is complete is ready to be analysed, and one that is not is
    in the middle of its header or of its body. -/
theorem headersOutcome_state {h : HttpData} (hstate : h.state = .parseHeaders) :
    h.headersOutcome.Sound := by
  rw [headersOutcome]
  cases parseHeadersLoop h.inBuffer h.headtToValue with
  | error f => trivial
  | ok r =>
    obtain ⟨flag, str, m⟩ := r
    cases flag with
    | again => exact .inl hstate
    | error => trivial
    | success =>
      rw [afterHeaders]
      split
      · exact .inr rfl
      · exact rfl

theorem outcome_state {h : HttpData} (hstate : h.state ≠ .finish) : h.outcome.Sound := by
  rw [outcome]
  split
  · split
    · trivial
    · exact headersOutcome_state rfl
  · next hheaders => exact headersOutcome_state hheaders
  · next hbody => exact .inr hbody
  · next hanalysis => exact hanalysis
  · next hfinish => exact absurd hfinish hstate

/-- A request that is complete has been removed from the buffer. -/
theorem headersOutcome_request_length {h h' : HttpData} (heq : h.headersOutcome = .request h')
    (hbuf : h'.inBuffer ≠ []) : h'.inBuffer.length < h.inBuffer.length := by
  rw [headersOutcome] at heq
  cases hloop : parseHeadersLoop h.inBuffer h.headtToValue with
  | error f => rw [hloop] at heq; cases heq
  | ok r =>
    obtain ⟨flag, str, m⟩ := r
    rw [hloop] at heq
    cases flag with
    | again => cases heq
    | error => cases heq
    | success =>
      rw [afterHeaders] at heq
      split at heq
      · cases heq
      · cases heq
        -- Only the empty buffer is accepted without a byte removed.
        refine length_lt_of_parseHeadersLoop hloop fun hnil => hbuf ?_
        have hsuffix := parseHeadersLoop_suffix hloop
        rwa [hnil, List.suffix_nil] at hsuffix

theorem outcome_request_length {h h' : HttpData} (heq : h.outcome = .request h')
    (hbuf : h'.inBuffer ≠ []) :
    h'.inBuffer.length < h.inBuffer.length + if h.state = .analysis then 1 else 0 := by
  rw [outcome] at heq
  split at heq
  · next hstate =>
    have hsuffix := h.parseURL_suffix
    split at heq
    · cases heq
    · next hurl =>
      rw [hurl] at hsuffix
      have hlt := headersOutcome_request_length heq hbuf
      exact Nat.lt_add_right _ (hlt.trans_le hsuffix.length_le)
  · exact Nat.lt_add_right _ (headersOutcome_request_length heq hbuf)
  · cases heq
  · next hstate =>
    cases heq
    rw [if_pos hstate]
    exact Nat.lt_succ_self _
  · cases heq

/-! ## Sessions -/

/-- The `HttpData` with the fields forgotten that parsing does not depend on. -/
def erase (h : HttpData) : HttpData :=
  { h with ownchannel := ⟨h.fd, 0, 0, false⟩, timer := none, isKeepAlive := false }

theorem parseRequestLine_erase (h : HttpData) (line : Bytes) :
    h.erase.parseRequestLine line =
      ((h.parseRequestLine line).1, (h.parseRequestLine line).2.erase) := by
  simp only [parseRequestLine]
  cases find sp (past line (find sp line)) <;> rfl

theorem parseURL_erase (h : HttpData) :
    h.erase.parseURL = (h.parseURL.1, h.parseURL.2.erase) := by
  by_cases hstate : h.state = .parseUrl
  · cases hpos : find cr h.inBuffer with
    | none =>
      have hcr := find_eq_none_iff.1 hpos
      rw [parseURL_of_notMem hstate hcr, parseURL_of_notMem (h := h.erase) hstate hcr]
    | some pos =>
      obtain ⟨line, rest, hbuf, hcr, -⟩ := exists_of_find hpos
      rw [parseURL_cons hstate hbuf hcr, parseURL_cons (h := h.erase) hstate hbuf hcr]
      exact parseRequestLine_erase { h with inBuffer := rest.drop 1 } line
  · rw [parseURL, parseURL, if_neg hstate, if_neg (show h.erase.state ≠ _ from hstate)]

theorem headersOutcome_erase (h : HttpData) :
    h.erase.headersOutcome = h.headersOutcome.map erase := by
  simp only [headersOutcome, erase]
  cases parseHeadersLoop h.inBuffer h.headtToValue with
  | error f => rfl
  | ok r =>
    obtain ⟨flag, str, m⟩ := r
    cases flag with
    | again => rfl
    | error => rfl
    | success =>
      simp only [afterHeaders]
      split <;> rfl

theorem outcome_erase (h : HttpData) : h.erase.outcome = h.outcome.map erase := by
  have hsame : h.erase.state = h.state := rfl
  rw [outcome, outcome, hsame, parseURL_erase]
  obtain ⟨flag, h'⟩ := h.parseURL
  cases h.state with
  | parseUrl =>
    cases flag with
    | error => rfl
    | again => exact headersOutcome_erase { h' with state := .parseHeaders }
    | success => exact headersOutcome_erase { h' with state := .parseHeaders }
  | parseHeaders => exact h.headersOutcome_erase
  | recvBody => rfl
  | analysis => rfl
  | finish => rfl

theorem reset_erase {h : HttpData} (t : Option NodeId) (ch : Channel) (hout : h.outBuffer = []) :
    { h with timer := t, ownchannel := ch, outBuffer := [] }.reset.erase = h.erase.reset := by
  rw [← hout]
  rfl

/-- More bytes at the end of the buffer. -/
def receive (h : HttpData) (s : Bytes) : HttpData := { h with inBuffer := h.inBuffer ++ s }

theorem receive_receive (h : HttpData) (s t : Bytes) :
    (h.receive s).receive t = h.receive (s ++ t) := by
  simp only [receive, List.append_assoc]

/-- The session on the bytes in the buffer. -/
def session (fs : FileSystem) (h : HttpData) : Play :=
  match _h : h.outcome with
  | .crash f _ => ⟨[], [], .crashed f⟩
  | .bad _ => ⟨[], errorPage 400 (bytes "Bad Request"), .failed⟩
  | .wait h => ⟨[], [], .waiting h⟩
  | .request h =>
    match h.request.reply fs with
    | .crash f => ⟨[h.request], [], .crashed f⟩
    | .notFound => ⟨[h.request], errorPage 404 (bytes "Not Fount!"), .failed⟩
    | .unsupported => ⟨[h.request], [], .failed⟩
    | .answered r =>
      if h.inBuffer.length > 0 then (session fs h.reset).after h.request r
      else ⟨[h.request], r, .waiting h.reset⟩
termination_by h.inBuffer.length + if h.state = .analysis then 1 else 0
decreasing_by
  have hlt := outcome_request_length _h (List.length_pos_iff.1 ‹_›)
  simpa [reset] using hlt

/-- The play of a request that is complete. -/
def requestPlay (fs : FileSystem) (h : HttpData) : Play :=
  match h.request.reply fs with
  | .crash f => ⟨[h.request], [], .crashed f⟩
  | .notFound => ⟨[h.request], errorPage 404 (bytes "Not Fount!"), .failed⟩
  | .unsupported => ⟨[h.request], [], .failed⟩
  | .answered r =>
    if h.inBuffer.length > 0 then (session fs h.reset).after h.request r
    else ⟨[h.request], r, .waiting h.reset⟩

end HttpData

/-- The play of an outcome. -/
def Outcome.play (fs : FileSystem) : Outcome → Play
  | crash f _ => ⟨[], [], .crashed f⟩
  | bad _ => ⟨[], errorPage 400 (bytes "Bad Request"), .failed⟩
  | wait h => ⟨[], [], .waiting h⟩
  | request h => h.requestPlay fs

/-- The session is the play of the outcome of parsing. -/
theorem HttpData.session_eq (fs : FileSystem) (h : HttpData) :
    h.session fs = h.outcome.play fs := by
  rw [session]
  split <;> simp only [*, Outcome.play, requestPlay]

namespace Conn

/-- What the phases do with an outcome of parsing. -/
def act (fs : FileSystem) (c : Conn) : Outcome → Except (Fault × Conn) Conn
  | .crash f h => .error (f, { c with http := h })
  | .bad h => .ok { c with http := h }.badRequest
  | .wait h => .ok { c with http := h }
  | .request h => ({ c with http := h } : Conn).analysisPhase fs

theorem parseRest_eq (fs : FileSystem) {c : Conn} (hstate : c.http.state = .parseHeaders) :
    c.parseRest fs = c.act fs c.http.headersOutcome := by
  rw [parseRest, headersPhase, if_pos hstate, HttpData.headersOutcome, HttpData.parseHeaders]
  cases HttpData.parseHeadersLoop c.http.inBuffer c.http.headtToValue with
  | error f => rfl
  | ok r =>
    obtain ⟨flag, str, m⟩ := r
    cases flag with
    | again => rfl
    | error => rfl
    | success =>
      by_cases hpost : c.http.method = some .post
      · simp [hpost, act, analysisPhase, HttpData.afterHeaders]
      · simp [hpost, act, HttpData.afterHeaders]

/-- The phases after reading: parsing, and then analysis. -/
theorem parse_eq (fs : FileSystem) (c : Conn) : c.parse fs = c.act fs c.http.outcome := by
  cases hstate : c.http.state with
  | parseUrl =>
    rw [parse, urlPhase, if_pos hstate, HttpData.outcome, hstate]
    obtain ⟨flag, h⟩ := c.http.parseURL
    cases flag with
    | error => rfl
    | again => exact parseRest_eq fs (c := { c with http := { h with state := .parseHeaders } }) rfl
    | success =>
      exact parseRest_eq fs (c := { c with http := { h with state := .parseHeaders } }) rfl
  | parseHeaders =>
    rw [parse, urlPhase, if_neg (by rw [hstate]; decide), HttpData.outcome, hstate]
    exact parseRest_eq fs hstate
  | recvBody => simp [parse, parseRest, urlPhase, headersPhase, analysisPhase, act,
      HttpData.outcome, hstate]
  | analysis => simp [parse, parseRest, urlPhase, headersPhase, act, HttpData.outcome, hstate]
  | finish => simp [parse, parseRest, urlPhase, headersPhase, analysisPhase, act,
      HttpData.outcome, hstate]

/-! ## Fresh connections -/

theorem setTimerHolder_eq (c : Conn) (node : Option NodeId) :
    ∃ t, c.setTimerHolder node = { c with http.timer := t } := by
  cases node with
  | none => exact ⟨c.http.timer, rfl⟩
  | some node => exact ⟨some node, rfl⟩

/-- What registering a connection changes. -/
theorem newEvent_eq {c c' : Conn} (h : c.newEvent = .ok c') :
    ∃ t p, c' = { c with
      http.timer := t, http.ownchannel := c.http.ownchannel.setEvents DEFAULT_EVENT
      poller := p } := by
  rw [newEvent] at h
  cases hadd : (c.setEvents DEFAULT_EVENT).poller.addChannel
      (c.setEvents DEFAULT_EVENT).http.ownchannel (.http (c.setEvents DEFAULT_EVENT).http.id)
      DEFAULT_EXPIRED_TIME (c.setEvents DEFAULT_EVENT).socket.now with
  | error f =>
    simp only [hadd] at h
    cases h
  | ok r =>
    simp only [hadd] at h
    obtain ⟨t, ht⟩ := setTimerHolder_eq { c.setEvents DEFAULT_EVENT with poller := r.2 } r.1
    cases h.symm.trans (congrArg Except.ok ht)
    exact ⟨t, _, rfl⟩

/-- A connection that has just been made and registered. -/
def Fresh (c : Conn) : Prop :=
  ∃ (id : HttpId) (fd : Fd) (method : Option HttpMethod) (events revents : Mask) (socket : Socket)
    (poller : EPollPoller), socket.sent = [] ∧
    ({ http := .new id fd method events revents, socket := socket, poller := poller,
       analysed := [], closed := [] } : Conn).newEvent = .ok c

/-- What a fresh connection is like. -/
theorem Fresh.eq {c : Conn} (hc : c.Fresh) :
    c.socket.sent = [] ∧ c.analysed = [] ∧ ∃ id fd method ch t, c.http =
      { HttpData.new id fd method 0 0 with ownchannel := ch, timer := t } := by
  obtain ⟨id, fd, method, events, revents, socket, poller, hsent, hnew⟩ := hc
  obtain ⟨t, p, rfl⟩ := newEvent_eq hnew
  exact ⟨hsent, rfl, id, fd, method, _, t, rfl⟩

/-- The first connection of a server, on descriptor 5. -/
def first : Conn where
  http := { HttpData.new 0 5 none 0 0 with
    ownchannel := ⟨5, DEFAULT_EVENT, 0, false⟩, timer := some 0 }
  socket := ⟨[], [], [], ⟨0, 0⟩⟩
  poller :=
    { EPollPoller.new with
      httpdatas := Function.update EPollPoller.new.httpdatas 5 (some 0)
      interest := Function.update EPollPoller.new.interest 5 (some DEFAULT_EVENT)
      channels := Function.update EPollPoller.new.channels 5 (some (.http 0))
      timermanager := ⟨[⟨0, DEFAULT_EXPIRED_TIME, some 0, false⟩], 1⟩ }
  analysed := []
  closed := []

theorem first_fresh : first.Fresh :=
  ⟨0, 5, none, 0, 0, ⟨[], [], [], ⟨0, 0⟩⟩, .new, rfl, rfl⟩

/-- A request for the start page. -/
def getStartPage : Piece :=
  ⟨bytes "GET / HTTP/1.1\r\n\r\n", by decide +kernel, by decide +kernel⟩

/-- An event, with what the kernel answers to reads and writes. -/
def onEvent (c : Conn) (reads : List ReadResult) (writes : List WriteResult) : Conn :=
  { c with socket.reads := reads, socket.writes := writes }

/-! ## Runs whose writes complete -/

/-- Nothing is wrong, and nothing is left to write: every write completes. -/
structure Calm (c : Conn) : Prop where
  error : c.http.error = false
  connected : c.http.connectionState = .connected
  receiving : c.http.state ≠ .finish
  outBuffer : c.http.outBuffer = []
  writes : c.socket.writes = []

/-- A fresh connection is calm, as long as writes complete. -/
theorem Fresh.calm {c : Conn} (hc : c.Fresh) (reads : List ReadResult) :
    (c.onEvent reads []).Calm := by
  obtain ⟨-, -, id, fd, method, ch, t, hhttp⟩ := hc.eq
  constructor <;> simp only [onEvent, hhttp, HttpData.new]
  exact ProcessState.noConfusion

/-- The result of `handleRead` on `c` is what the play says. -/
def Matches (c : Conn) (p : Play) : Except (Fault × Conn) Conn → Prop
  | .error (f, c') => p.ending = .crashed f ∧ c'.analysed = c.analysed ++ p.analysed ∧
      c'.socket.sent = c.socket.sent ++ p.sent ∧ c'.http.error = false
  | .ok c' => c'.analysed = c.analysed ++ p.analysed ∧ c'.socket.sent = c.socket.sent ++ p.sent ∧
      match p.ending with
      | .waiting h => c'.http.erase = h ∧ c'.Calm ∧ Delivers c'.socket.reads []
      | .failed => c'.http.error = true
      | .crashed _ => False

/-- What the kernel does not refuse is sent. -/
theorem handleError_nil {c : Conn} (hwrites : c.socket.writes = []) (errnum : ℕ)
    (shortmsg : Bytes) :
    c.handleError errnum shortmsg =
      { c with socket.sent := c.socket.sent ++ errorPage errnum shortmsg } := by
  simp [handleError, writenRaw, Webserver.writenRaw, hwrites, errorPage]

/-- Writing, when every write completes, sends the output. -/
theorem flush_nil {c : Conn} (herror : c.http.error = false)
    (hconn : c.http.connectionState = .connected) (hwrites : c.socket.writes = []) :
    ∃ t p ch, c.flush = { c with
      http.timer := t, poller.timermanager := p, http.ownchannel := ch
      http.outBuffer := [], socket.sent := c.socket.sent ++ c.http.outBuffer } := by
  rw [flush]
  split
  · next hpos =>
    obtain ⟨t, p, hc⟩ := c.seperaterTimer_eq
    rw [handleWrite_of_ok (List.length_pos_iff.1 hpos) herror (by rw [hconn]; decide), hc]
    simp only [writen, hwrites, writen_nil, setEvents]
    exact ⟨_, _, _, rfl⟩
  · next hpos =>
    have hout : c.http.outBuffer = [] := by simpa using hpos
    have hhttp : c.http = { c.http with outBuffer := [] } := by rw [← hout]
    refine ⟨c.http.timer, c.poller.timermanager, c.http.ownchannel, ?_⟩
    rw [hout, List.append_nil]
    exact congrArg (fun h : HttpData => ({ c with http := h } : Conn)) hhttp

/-- Reading, when the bytes delivered are counted right. -/
theorem readPhase_of_delivers {c : Conn} {s : Bytes} (hreads : Delivers c.socket.reads s)
    (hs : 0 ≤ toInt s.length) :
    ∃ reads, Delivers reads [] ∧
      c.readPhase = .next { c with http := c.http.receive s, socket.reads := reads } := by
  obtain ⟨hret, hbuffer, hrest⟩ := hreads.readn c.http.inBuffer 0
  refine ⟨_, hrest, ?_⟩
  have hnarrow : ¬toInt (Webserver.readn c.socket.reads c.http.inBuffer 0).ret < 0 := by
    rw [hret, Int.zero_add, toInt_toSizeT]
    exact Int.not_lt.2 hs
  rw [readPhase]
  simp only [readn, if_neg hnarrow, hbuffer, HttpData.receive]

/-- What is shown from a later state comes after what has been shown before. -/
theorem Matches.trans {c c' : Conn} {p : Play} {result : Except (Fault × Conn) Conn}
    {analysed : List Request} {sent : Bytes} (h : c'.Matches p result)
    (hanalysed : c'.analysed = c.analysed ++ analysed)
    (hsent : c'.socket.sent = c.socket.sent ++ sent) :
    c.Matches ⟨analysed ++ p.analysed, sent ++ p.sent, p.ending⟩ result := by
  cases result with
  | error e =>
    obtain ⟨hend, ha, hs, herror⟩ := h
    rw [hanalysed, List.append_assoc] at ha
    rw [hsent, List.append_assoc] at hs
    exact ⟨hend, ha, hs, herror⟩
  | ok d =>
    obtain ⟨ha, hs, hend⟩ := h
    rw [hanalysed, List.append_assoc] at ha
    rw [hsent, List.append_assoc] at hs
    exact ⟨ha, hs, hend⟩

/-- How a turn ends matches the play: by returning, or with another turn whose
    play follows what this one has shown. -/
def TurnMatches (fs : FileSystem) (c : Conn) (p : Play) : Except (Fault × Conn) Turn → Prop
  | .error e => c.Matches p (.error e)
  | .ok (.done c') => c.Matches p (.ok c')
  | .ok (.again c') => ∃ r response, p = (c'.http.erase.session fs).after r response ∧ c'.Calm ∧
      Delivers c'.socket.reads [] ∧ c'.analysed = c.analysed ++ [r] ∧
      c'.socket.sent = c.socket.sent ++ response

/-- Waiting for more bytes. -/
theorem finishTurn_of_wait {c : Conn} (hc : c.Calm) :
    ∃ ch, c.finishTurn = .done { c with http.ownchannel := ch } := by
  have hflush : c.flush = c := by simp [flush, hc.outBuffer]
  rw [finishTurn, if_pos ⟨hc.error, hc.connected⟩]
  simp only [hflush, if_pos hc.error, settle, if_neg hc.receiving]
  exact ⟨_, rfl⟩

/-- After an error there is nothing to do. -/
theorem finishTurn_of_error {c : Conn} (herror : c.http.error = true) :
    c.finishTurn = .done c := by
  rw [finishTurn, if_neg (by simp [herror])]

/-- After a request has been answered. -/
theorem finishTurn_of_finish {c : Conn} (herror : c.http.error = false)
    (hconn : c.http.connectionState = .connected) (hwrites : c.socket.writes = [])
    (hstate : c.http.state = .finish) :
    ∃ t p ch, ∃ d : Conn, d = { c with
      http := { c.http with timer := t, ownchannel := ch, outBuffer := [] }.reset
      poller.timermanager := p, socket.sent := c.socket.sent ++ c.http.outBuffer } ∧
      c.finishTurn = if c.http.inBuffer.length > 0 then .again d else .done d := by
  obtain ⟨t, p, ch, hwrite⟩ := flush_nil herror hconn hwrites
  refine ⟨t, p, ch, _, rfl, ?_⟩
  rw [finishTurn, if_pos ⟨herror, hconn⟩]
  simp only [hwrite, if_pos herror, settle, if_pos hstate]
  rfl

/-- A turn on a request that is complete. -/
theorem request_matches {fs : FileSystem} {c : Conn} (hstate : c.http.state = .analysis)
    (herror : c.http.error = false) (hconn : c.http.connectionState = .connected)
    (hout : c.http.outBuffer = []) (hwrites : c.socket.writes = [])
    (hreads : Delivers c.socket.reads []) :
    c.TurnMatches fs (c.http.erase.requestPlay fs)
      (match c.analysisPhase fs with
        | .error e => .error e
        | .ok c => .ok c.finishTurn) := by
  have hrequest : c.http.erase.request = c.http.request := rfl
  rw [analysisPhase, if_pos hstate, analysisRequest_eq_reply, HttpData.requestPlay, hrequest]
  cases c.http.request.reply fs with
  | crash f => exact ⟨rfl, rfl, (List.append_nil _).symm, herror⟩
  | notFound =>
    obtain ⟨d, hd, hreply⟩ := handleReply_notFound fs c.analyse
    have hsame : d.analysed = c.analysed ++ [c.http.request] ∧ d.socket = c.socket := by
      rcases hd with rfl | rfl <;> exact ⟨rfl, rfl⟩
    have hwrites : d.socket.writes = [] := by rw [hsame.2, hwrites]
    simp only [hreply, notFound, handleError_nil hwrites]
    rw [finishTurn_of_error rfl]
    exact ⟨hsame.1, by rw [hsame.2], rfl⟩
  | unsupported =>
    simp only [handleReply]
    rw [finishTurn_of_error rfl]
    exact ⟨rfl, (List.append_nil _).symm, rfl⟩
  | answered r =>
    simp only [handleReply]
    -- Nothing is pending, so replacing the output and appending to it are the same.
    obtain ⟨d, hd, hsame⟩ : ∃ d : Conn,
        (if c.analyse.http.url = bytes "hello" ∨ c.analyse.http.url = bytes "Hello" then
          c.analyse.clearOutput.output r else c.analyse.output r) = d ∧
        d = { c.analyse with http.outBuffer := r } := by
      refine ⟨_, rfl, ?_⟩
      split
      · rfl
      · simp only [output, analyse, hout, List.nil_append]
    subst hsame
    rw [hd]
    obtain ⟨t, p, ch, e, rfl, hturn⟩ := finishTurn_of_finish
      (c := { c.analyse with http.outBuffer := r, http.state := .finish }) herror hconn hwrites rfl
    have hcalm : ({ c.analyse with
        http := { c.analyse.http with timer := t, ownchannel := ch, outBuffer := [] }.reset
        poller.timermanager := p, socket.sent := c.socket.sent ++ r } : Conn).Calm :=
      ⟨rfl, hconn, ProcessState.noConfusion, rfl, hwrites⟩
    have herase := HttpData.reset_erase t ch hout
    -- Bytes left over start another turn.
    by_cases hbuf : c.http.inBuffer.length > 0
    · have hagain := hturn.trans (if_pos hbuf)
      simp only [hagain]
      rw [if_pos (show c.http.erase.inBuffer.length > 0 from hbuf)]
      exact ⟨_, _, by rw [← herase]; rfl, hcalm, hreads, rfl, rfl⟩
    · have hdone := hturn.trans (if_neg hbuf)
      simp only [hdone]
      rw [if_neg (show ¬c.http.erase.inBuffer.length > 0 from hbuf)]
      exact ⟨rfl, rfl, herase, hcalm, hreads⟩

/-- The phases after reading, and what follows them. -/
theorem parse_matches {fs : FileSystem} {c : Conn} (hc : c.Calm)
    (hreads : Delivers c.socket.reads []) :
    c.TurnMatches fs (c.http.erase.session fs)
      (match c.parse fs with
        | .error e => .error e
        | .ok c => .ok c.finishTurn) := by
  rw [parse_eq, HttpData.session_eq, HttpData.outcome_erase]
  obtain ⟨i, mt, u, v, m, st, hframe⟩ := c.http.outcome_http
  have hsound := HttpData.outcome_state hc.receiving
  cases hout : c.http.outcome with
  | crash f h =>
    rw [hout] at hframe
    obtain rfl : h = _ := hframe
    exact ⟨rfl, (List.append_nil _).symm, (List.append_nil _).symm, hc.error⟩
  | bad h =>
    simp only [act, Outcome.map, badRequest]
    rw [handleError_nil (by exact hc.writes), finishTurn_of_error rfl]
    exact ⟨(List.append_nil _).symm, rfl, rfl⟩
  | wait h =>
    rw [hout] at hframe hsound
    obtain rfl : h = _ := hframe
    have hreceiving : st ≠ .finish := by rcases hsound with h | h <;> simp [show st = _ from h]
    -- The turn ends by asking for input, which changes the channel.
    have hcalm := fun ch : Channel =>
      (⟨hc.error, hc.connected, hreceiving, hc.outBuffer, hc.writes⟩ :
        ({ c with http := { c.http with
          inBuffer := i, method := mt, url := u, version := v, headtToValue := m, state := st
          ownchannel := ch } } : Conn).Calm)
    obtain ⟨ch, hturn⟩ := finishTurn_of_wait (hcalm c.http.ownchannel)
    simp only [act, Outcome.map, hturn]
    exact ⟨(List.append_nil _).symm, (List.append_nil _).symm, rfl, hcalm ch, hreads⟩
  | request h =>
    rw [hout] at hframe hsound
    obtain rfl : h = _ := hframe
    exact request_matches (c := { c with http := { c.http with
      inBuffer := i, method := mt, url := u, version := v, headtToValue := m, state := st } })
      hsound hc.error hc.connected hc.outBuffer hc.writes hreads

/-- One turn of `handleRead` shows what the session says. -/
theorem turn_matches (fs : FileSystem) {c : Conn} {s : Bytes} (hc : c.Calm)
    (hreads : Delivers c.socket.reads s) (hs : 0 ≤ toInt s.length) :
    c.TurnMatches fs ((c.http.erase.receive s).session fs) (c.turn fs) := by
  obtain ⟨t, p, hsep⟩ := c.seperaterTimer_eq
  rw [turn, process, hsep]
  obtain ⟨reads, hrest, hread⟩ := readPhase_of_delivers (s := s)
    (c := { c with http.timer := t, poller.timermanager := p }) hreads hs
  rw [hread]
  exact parse_matches (c := { c with
    http := { c.http with timer := t }.receive s, socket.reads := reads
    poller.timermanager := p })
    ⟨hc.error, hc.connected, hc.receiving, hc.outBuffer, hc.writes⟩ hrest

/-- `handleRead` shows what the session says. -/
theorem handleRead_matches (fs : FileSystem) {c : Conn} {s : Bytes} (hc : c.Calm)
    (hreads : Delivers c.socket.reads s) (hs : 0 ≤ toInt s.length) :
    c.Matches ((c.http.erase.receive s).session fs) (c.handleRead fs) := by
  -- By induction on the turns: only the first one reads anything.
  have hturn := turn_matches fs hc hreads hs
  induction c using handleRead.induct fs generalizing s with
  | case1 c e heq =>
    rw [heq] at hturn
    rw [handleRead, heq]
    exact hturn
  | case2 c c' heq =>
    rw [heq] at hturn
    rw [handleRead, heq]
    exact hturn
  | case3 c c' heq ih =>
    rw [heq] at hturn
    obtain ⟨r, response, hplay, hc', hreads', hanalysed, hsent⟩ := hturn
    have hzero : 0 ≤ toInt ([] : Bytes).length := by decide
    rw [handleRead, heq, hplay]
    have ih := ih hc' hreads' hzero (turn_matches fs hc' hreads' hzero)
    rw [HttpData.receive, List.append_nil] at ih
    exact ih.trans hanalysed hsent

/-- Reading that is taken for a failure: an error page, and nothing else. -/
theorem handleRead_of_ret_neg (fs : FileSystem) {c : Conn} (hret : toInt c.readn.1 < 0) :
    ∃ t p, c.handleRead fs =
      .ok ({ c with http.timer := t, poller.timermanager := p } : Conn).readn.2.badRequest := by
  obtain ⟨t, p, hsep⟩ := c.seperaterTimer_eq
  have hret' : toInt ({ c with http.timer := t, poller.timermanager := p } : Conn).readn.1 < 0 :=
    hret
  refine ⟨t, p, ?_⟩
  -- The error ends the first turn, and with it the run.
  have hturn : c.turn fs = .ok (.done
      ({ c with http.timer := t, poller.timermanager := p } : Conn).readn.2.badRequest) := by
    rw [turn, process, hsep, readPhase]
    simp only [if_pos hret']
    rw [finishTurn_of_error rfl]
  rw [handleRead, hturn]

/-- Bytes whose number is negative once it is an `int` are taken for an error. -/
theorem ret_neg_of_delivers {c : Conn} {s : Bytes} (hreads : Delivers c.socket.reads s)
    (hs : toInt s.length < 0) : toInt c.readn.1 < 0 := by
  rw [readn, (hreads.readn c.http.inBuffer 0).1, Int.zero_add, toInt_toSizeT]
  exact hs

theorem handleRead_of_neg {fs : FileSystem} {c c' : Conn} {s : Bytes}
    (hreads : Delivers c.socket.reads s) (hs : toInt s.length < 0)
    (h : c.handleRead fs = .ok c') : c'.http.error = true := by
  obtain ⟨t, p, hread⟩ := handleRead_of_ret_neg fs (ret_neg_of_delivers hreads hs)
  cases h.symm.trans hread
  rfl

end Conn

end Webserver
