import Webserver.Http.Response

/-!
# Handling events

`handleRead` reads what has arrived, parses and answers a request, writes the
response, and starts over if there are more bytes in `inBuffer`; one turn of
this is a `Conn.turn`. The `do` block of the source, which it leaves by `break`,
is a sequence of phases that `stop` or go on to the `next` one.

The recursion of `handleRead` is well-founded: a turn that calls it again has
removed at least one byte, from the buffer or from those still to be read
(`Conn.turn_lt`).

Both the read and the write callback of a connection are `handleRead`, as its
constructor binds them (`Conn.callbacks`).
-/

namespace Webserver

namespace Conn

/-! ## Writing -/

/-- Writes what is left to write. The result of `writen` is a `size_t`, so that
    it is never found to be negative. -/
def handleWrite (c : Conn) : Conn :=
  let c := c.seperaterTimer
  if c.http.outBuffer.length > 0 then
    if c.http.error = false ∧ c.http.connectionState ≠ .disconnected then
      let (n, c) := c.writen
      -- Never taken: `n` is a `size_t`.
      if n < 0 then { c.setEvents 0 with http.error := true }
      else if c.http.outBuffer.length > 0 then
        c.setEvents (c.http.ownchannel.events ||| EPOLLOUT)
      else c.setEvents 0
    else c
  else c

/-! ## Reading -/

/-- How a phase ends: by leaving the `do` block, or by going on. -/
inductive Flow
  | stop (c : Conn)
  | next (c : Conn)

/-- Answers a request that cannot be understood. -/
def badRequest (c : Conn) : Conn :=
  { c with http.error := true }.handleError 400 (bytes "Bad Request")

/-- Reads what has arrived. A negative number is an error. -/
def readPhase (c : Conn) : Flow :=
  let r := c.readn
  if toInt r.1 < 0 then .stop r.2.badRequest else .next r.2

/-- An incomplete request line is not waited for: the state moves on as if it
    had been complete. -/
def urlPhase (c : Conn) : Flow :=
  if c.http.state = .parseUrl then
    match c.http.parseURL with
    -- The rest of the buffer is thrown away with the line.
    | (.error, h) => .stop { c with http := { h with inBuffer := [] } }.badRequest
    | (_, h) => .next { c with http := { h with state := .parseHeaders } }
  else .next c

/-- Parses header lines, and waits for the rest of them. -/
def headersPhase (c : Conn) : Except (Fault × Conn) Flow :=
  if c.http.state = .parseHeaders then
    match c.http.parseHeaders with
    | .error f => .error (f, c)
    | .ok (.again, h) => .ok (.stop { c with http := h })
    | .ok (.error, h) => .ok (.stop { c with http := h }.badRequest)
    | .ok (.success, h) => .ok (.next { c with http :=
        { h with state := if h.method = some .post then .recvBody else .analysis } })
  else .ok (.next c)

/-- A body is never received: the state `recvBody` is never left. -/
def analysisPhase (fs : FileSystem) (c : Conn) : Except (Fault × Conn) Conn :=
  if c.http.state = .analysis then
    match c.analysisRequest fs with
    | .error e => .error e
    | .ok (.success, c) => .ok { c with http.state := .finish }
    | .ok (.error, c) => .ok { c with http.error := true }
  else .ok c

/-- The phases after the request line. -/
def parseRest (fs : FileSystem) (c : Conn) : Except (Fault × Conn) Conn :=
  match c.headersPhase with
  | .error e => .error e
  | .ok (.stop c) => .ok c
  | .ok (.next c) => c.analysisPhase fs

/-- The phases after reading. -/
def parse (fs : FileSystem) (c : Conn) : Except (Fault × Conn) Conn :=
  match c.urlPhase with
  | .stop c => .ok c
  | .next c => c.parseRest fs

/-- The `do` block of `handleRead`. -/
def process (fs : FileSystem) (c : Conn) : Except (Fault × Conn) Conn :=
  match c.readPhase with
  | .stop c => .ok c
  | .next c => c.parse fs

/-- How a turn of `handleRead` ends: by returning, or by calling it again. -/
inductive Turn
  | done (c : Conn)
  | again (c : Conn)

/-- What `handleRead` does after its `do` block, when there is no error. -/
def settle (c : Conn) : Turn :=
  if c.http.state = .finish then
    let c := { c with http := c.http.reset }
    if c.http.inBuffer.length > 0 then .again c else .done c
  else .done (c.setEvents (c.http.ownchannel.events ||| EPOLLIN))

/-- Writes, if there is something to write. -/
def flush (c : Conn) : Conn := if c.http.outBuffer.length > 0 then c.handleWrite else c

/-- What `handleRead` does after its `do` block. -/
def finishTurn (c : Conn) : Turn :=
  if c.http.error = false ∧ c.http.connectionState = .connected then
    -- Pending output is flushed even if nothing was parsed.
    let c := c.flush
    if c.http.error = false then c.settle else .done c
  else .done c

/-- One activation of `handleRead`, up to its recursive call. -/
def turn (fs : FileSystem) (c : Conn) : Except (Fault × Conn) Turn :=
  match c.seperaterTimer.process fs with
  | .error e => .error e
  | .ok c => .ok c.finishTurn

/-! ## What the parts leave alone -/

/-- The fields that only `seperaterTimer` changes. -/
theorem seperaterTimer_eq (c : Conn) :
    ∃ t p, c.seperaterTimer = { c with http.timer := t, poller.timermanager := p } := by
  rw [seperaterTimer]
  split
  · exact ⟨_, _, rfl⟩
  · exact ⟨_, _, rfl⟩

theorem serve_eq (fs : FileSystem) (c : Conn) (head : Bool) (filetype : Bytes) :
    ∃ o w s, (c.serve fs head filetype).2 =
      { c with http.outBuffer := o, socket.writes := w, socket.sent := s } := by
  simp only [serve, notFound, output, clearOutput]
  split
  · exact ⟨_, _, _, rfl⟩
  · split
    · exact ⟨_, _, _, rfl⟩
    · split
      · exact ⟨_, _, _, rfl⟩
      · split <;> exact ⟨_, _, _, rfl⟩

theorem answer_eq {fs : FileSystem} {c c' : Conn} {head : Bool} {flag : AnalysisState}
    (h : c.answer fs head = .ok (flag, c')) :
    ∃ o k w s, c' = { c with
      http.outBuffer := o, http.isKeepAlive := k, socket.writes := w, socket.sent := s } := by
  simp only [answer] at h
  split at h
  · cases h
  · next t _ =>
    split at h
    · cases h
      exact ⟨_, _, _, _, rfl⟩
    · obtain ⟨o, w, s, hs⟩ := serve_eq fs { c with
        http.isKeepAlive := c.http.isKeepAlive || keepAlive c.http.headtToValue } head t
      rw [Except.ok.injEq] at h
      rw [h] at hs
      exact ⟨o, _, w, s, hs⟩

/-- What `analysisRequest` changes. -/
theorem analysisRequest_eq {fs : FileSystem} {c c' : Conn} {flag : AnalysisState}
    (h : c.analysisRequest fs = .ok (flag, c')) :
    ∃ o k w s, c' = { c with
      http.outBuffer := o, http.isKeepAlive := k, socket.writes := w, socket.sent := s,
      analysed := c.analysed ++ [c.http.request] } := by
  simp only [analysisRequest] at h
  split at h
  · obtain ⟨o, k, w, s, rfl⟩ := answer_eq h
    exact ⟨_, _, _, _, rfl⟩
  · obtain ⟨o, k, w, s, rfl⟩ := answer_eq h
    exact ⟨_, _, _, _, rfl⟩
  · cases h
    exact ⟨_, _, _, _, rfl⟩
  · cases h
    exact ⟨_, _, _, _, rfl⟩

/-- Writing, when there is something to write and nothing against it. -/
theorem handleWrite_of_ok {c : Conn} (hout : c.http.outBuffer ≠ []) (herror : c.http.error = false)
    (hopen : c.http.connectionState ≠ .disconnected) :
    c.handleWrite = c.seperaterTimer.writen.2.setEvents
      (if c.seperaterTimer.writen.2.http.outBuffer ≠ [] then
        c.http.ownchannel.events ||| EPOLLOUT else 0) := by
  obtain ⟨t, p, hc⟩ := c.seperaterTimer_eq
  have hlen : c.seperaterTimer.http.outBuffer.length > 0 := by
    rw [hc]
    exact List.length_pos_iff.2 hout
  have hok : c.seperaterTimer.http.error = false ∧
      c.seperaterTimer.http.connectionState ≠ .disconnected := by
    rw [hc]
    exact ⟨herror, hopen⟩
  have hevents : c.seperaterTimer.writen.2.http.ownchannel.events = c.http.ownchannel.events := by
    rw [hc]
    rfl
  rw [handleWrite, if_pos hlen, if_pos hok]
  simp only [Nat.not_lt_zero, if_false, List.length_pos_iff, gt_iff_lt, hevents]
  split <;> rfl

/-- What `handleWrite` changes. -/
theorem handleWrite_eq (c : Conn) :
    ∃ t p o e w s, c.handleWrite = { c with
      http.timer := t, poller.timermanager := p, http.outBuffer := o,
      http.ownchannel := c.http.ownchannel.setEvents e, socket.writes := w,
      socket.sent := s } := by
  obtain ⟨t, p, hc⟩ := c.seperaterTimer_eq
  have hsame : c.http.ownchannel = c.http.ownchannel.setEvents c.http.ownchannel.events := rfl
  simp only [handleWrite, Nat.not_lt_zero, if_false, hc]
  split
  · split
    · split <;> exact ⟨_, _, _, _, _, _, rfl⟩
    · exact ⟨_, _, _, _, _, _, rfl⟩
  · exact ⟨_, _, _, _, _, _, rfl⟩

/-- What `flush` changes. -/
theorem flush_eq (c : Conn) :
    ∃ t p o e w s, c.flush = { c with
      http.timer := t, poller.timermanager := p, http.outBuffer := o,
      http.ownchannel := c.http.ownchannel.setEvents e, socket.writes := w,
      socket.sent := s } := by
  rw [flush]
  split
  · exact c.handleWrite_eq
  · exact ⟨c.http.timer, c.poller.timermanager, c.http.outBuffer, c.http.ownchannel.events,
      c.socket.writes, c.socket.sent, rfl⟩

/-! ## Termination -/

/-- The bytes that are still to be parsed, or to be read. -/
def work (c : Conn) : ℕ := c.http.inBuffer.length + pendingBytes c.socket.reads

/-- A request has been parsed already. -/
def late (c : Conn) : ℕ := if c.http.state = .analysis ∨ c.http.state = .finish then 1 else 0

theorem urlPhase_work {c c' : Conn} (h : c.urlPhase = .next c') :
    c'.work ≤ c.work ∧ c'.late = c.late := by
  rw [urlPhase] at h
  split at h
  · next hstate =>
    split at h
    · cases h
    · next flag hd _ heq =>
      cases h
      have hsuffix := c.http.parseURL_suffix
      rw [heq] at hsuffix
      exact ⟨Nat.add_le_add_right hsuffix.length_le _, by simp [late, hstate]⟩
  · cases h
    exact ⟨le_rfl, rfl⟩

theorem headersPhase_work {c c' : Conn} (h : c.headersPhase = .ok (.next c'))
    (hbuf : c'.http.inBuffer ≠ []) : c'.work + c'.late ≤ c.work + c.late := by
  rw [headersPhase] at h
  split at h
  · next hstate =>
    simp only [HttpData.parseHeaders] at h
    cases heq : HttpData.parseHeadersLoop c.http.inBuffer c.http.headtToValue with
    | error f => rw [heq] at h; cases h
    | ok r =>
      obtain ⟨flag, rest, m⟩ := r
      rw [heq] at h
      cases flag with
      | again => cases h
      | error => cases h
      | success =>
        cases h
        have hne : c.http.inBuffer ≠ [] := by
          intro hnil
          have hsuffix := parseHeadersLoop_suffix heq
          rw [hnil, List.suffix_nil] at hsuffix
          exact hbuf hsuffix
        have hlt := length_lt_of_parseHeadersLoop heq hne
        have hlate : c.late = 0 := by simp [late, hstate]
        have hle : ∀ d : Conn, d.late ≤ 1 := fun d => by
          rw [late]
          split <;> omega
        -- The byte removed pays for `late`, which goes from 0 to at most 1.
        refine (Nat.add_le_add_left (hle _) _).trans ?_
        simp only [work, hlate]
        omega
  · cases h
    exact le_rfl

theorem analysisPhase_work {fs : FileSystem} {c c' : Conn} (h : c.analysisPhase fs = .ok c')
    (hstate : c'.http.state = .finish) : c'.work + 1 = c.work + c.late := by
  rw [analysisPhase] at h
  split at h
  · next hanalysis =>
    have hlate : c.late = 1 := by simp [late, hanalysis]
    split at h
    · cases h
    · next heq =>
      obtain ⟨o, k, w, s, rfl⟩ := analysisRequest_eq heq
      cases h
      rw [hlate]
      rfl
    · next heq =>
      obtain ⟨o, k, w, s, rfl⟩ := analysisRequest_eq heq
      cases h
      exact absurd (hanalysis.symm.trans hstate) (by decide)
  · cases h
    simp [late, hstate]

theorem readPhase_work {c c' : Conn} (h : c.readPhase = .next c') :
    c'.work ≤ c.work ∧ c'.late = c.late := by
  rw [readPhase] at h
  split at h
  · cases h
  · cases h
    exact ⟨readn_pendingBytes _ _ _, rfl⟩

/-- The `do` block, when it has parsed and answered a request. -/
theorem process_work {fs : FileSystem} {c c' : Conn} (h : c.process fs = .ok c')
    (hstate : c'.http.state = .finish) (herror : c'.http.error = false)
    (hbuf : c'.http.inBuffer ≠ []) : c'.work + 1 ≤ c.work + c.late := by
  simp only [process, parse, parseRest] at h
  -- A phase that stops has failed, or leaves the state before `analysis`.
  cases hread : c.readPhase with
  | stop d =>
    rw [hread] at h
    rw [readPhase] at hread
    split at hread <;> cases hread
    cases h
    cases herror
  | next d =>
    rw [hread] at h
    obtain ⟨hle, hlate⟩ := readPhase_work hread
    cases hurl : d.urlPhase with
    | stop e =>
      simp only [hurl, Except.ok.injEq] at h
      subst h
      rw [urlPhase] at hurl
      split at hurl
      · split at hurl <;> cases hurl
        cases herror
      · cases hurl
    | next e =>
      obtain ⟨hle', hlate'⟩ := urlPhase_work hurl
      simp only [hurl] at h
      cases hheaders : e.headersPhase with
      | error f => rw [hheaders] at h; cases h
      | ok flow =>
        cases flow with
        | stop f =>
          simp only [hheaders, Except.ok.injEq] at h
          subst h
          rw [headersPhase] at hheaders
          split at hheaders
          · next hparse =>
            split at hheaders <;> cases hheaders
            · next heq =>
              simp only [HttpData.parseHeaders] at heq
              split at heq <;> cases heq
              exact absurd (hparse.symm.trans hstate) (by decide)
            · cases herror
          · cases hheaders
        | next f =>
          simp only [hheaders] at h
          have hanalysis := analysisPhase_work h hstate
          have hsame : c'.http.inBuffer = f.http.inBuffer := by
            rw [analysisPhase] at h
            split at h
            · split at h
              · cases h
              · next heq => obtain ⟨o, k, w, s, rfl⟩ := analysisRequest_eq heq; cases h; rfl
              · next heq => obtain ⟨o, k, w, s, rfl⟩ := analysisRequest_eq heq; cases h; rfl
            · cases h; rfl
          have hheaders := headersPhase_work hheaders (hsame ▸ hbuf)
          omega

/-- A turn that calls `handleRead` again has removed a byte. -/
theorem turn_lt {fs : FileSystem} {c c' : Conn} (h : c.turn fs = .ok (.again c')) :
    c'.work + c'.late < c.work + c.late := by
  obtain ⟨t, p, hc⟩ := c.seperaterTimer_eq
  rw [turn] at h
  split at h
  · cases h
  · next d hprocess =>
    rw [Except.ok.injEq, finishTurn] at h
    split at h
    · next hok =>
      -- Writing leaves the buffer, the state and the error alone.
      obtain ⟨e, he, hsame⟩ : ∃ e : Conn, d.flush = e ∧
          (e.http.inBuffer = d.http.inBuffer ∧ e.http.state = d.http.state ∧
            e.socket.reads = d.socket.reads) := by
        obtain ⟨t, p, o, ev, w, s, hw⟩ := d.flush_eq
        exact ⟨_, hw, rfl, rfl, rfl⟩
      simp only [he, settle] at h
      split at h
      · split at h
        · next hfinish =>
          split at h
          · next hpos =>
            cases h
            have hbuf : d.http.inBuffer ≠ [] := hsame.1 ▸ List.length_pos_iff.1 hpos
            have hwork := process_work hprocess (hsame.2.1 ▸ hfinish) hok.1 hbuf
            have hseparate : c.seperaterTimer.work = c.work ∧ c.seperaterTimer.late = c.late := by
              rw [hc]
              exact ⟨rfl, rfl⟩
            have hagain : ({ e with http := e.http.reset } : Conn).work = d.work := by
              simp only [work, HttpData.reset, hsame.1, hsame.2.2]
            have hfresh : ({ e with http := e.http.reset } : Conn).late = 0 := rfl
            -- Resetting takes `late` back to 0, so that the byte removed counts.
            omega
          · cases h
        · cases h
      · cases h
    · cases h

/-- Reads and answers one request after the other, as long as the buffer holds more. -/
def handleRead (fs : FileSystem) (c : Conn) : Except (Fault × Conn) Conn :=
  match _h : c.turn fs with
  | .error e => .error e
  | .ok (.done c) => .ok c
  | .ok (.again c) => handleRead fs c
termination_by c.work + c.late
decreasing_by exact turn_lt _h

/-! ## Events -/

/-- Where the channel of a connection is found. -/
def channel : Channel.Place Conn where
  get c := c.http.ownchannel
  set channel c := { c with http.ownchannel := channel }

/-- The callbacks of a connection, as its constructor binds them. -/
def callbacks (fs : FileSystem) : Channel.Callbacks (Fault × Conn) Conn where
  read := some (handleRead fs)
  write := some (handleRead fs)
  close := none
  conn := some fun c => c.handleConn.mapError (·, c)
  error := none

/-- `Channel::handleEvents` on the channel of a connection. -/
def handleEvents (fs : FileSystem) (c : Conn) : Except (Fault × Conn) Conn :=
  Channel.handleEvents channel (callbacks fs) c

end Conn

end Webserver
