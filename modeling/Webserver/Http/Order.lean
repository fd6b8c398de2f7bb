import Webserver.Http.Events

/-!
# The order of responses

Responses go through `outBuffer`, error pages do not: they are written straight
to the socket, in front of whatever `outBuffer` still holds, or instead of it.

* `Conn.Clear`: the cycles in which this does not happen, by the state before
  them, and in which `writen` is not fooled by a comparison of lengths.
* `Conn.inOrder_of_clear`: such a cycle only appends to what has been sent and
  what is left to send.
* `Conn.inOrder_of_run`: so does a run of such cycles, and what it appends are
  the responses to the requests analysed meanwhile.
* `Conn.wire_of_reachable`: the whole run, from the registration on.
-/

namespace Webserver

open Transition

/-! ## The new response -/

/-- The response to a request, if it is answered. -/
def Request.responseOf (fs : FileSystem) (r : Request) : Bytes :=
  match r.reply fs with
  | .answered response => response
  | _ => []

/-- The request handed to `analysisRequest`, if parsing has led to one. -/
def Outcome.requests : Outcome → List Request
  | request h => [h.request]
  | _ => []

/-- The response a cycle adds. -/
def Outcome.newResponse (fs : FileSystem) (o : Outcome) : Bytes :=
  o.requests.flatMap (Request.responseOf fs)

/-- An error page is sent, instead of a response. -/
def Outcome.Refused (fs : FileSystem) : Outcome → Prop
  | bad _ => True
  | request h => h.request.reply fs = .notFound
  | _ => False

instance (fs : FileSystem) (o : Outcome) : Decidable (o.Refused fs) :=
  match o with
  | .bad _ => isTrue trivial
  | .request _ => inferInstanceAs (Decidable (_ = _))
  | .crash _ _ => isFalse not_false
  | .wait _ => isFalse not_false

theorem Outcome.requests_erase (o : Outcome) : (o.map HttpData.erase).requests = o.requests := by
  cases o <;> rfl

theorem Outcome.refused_erase {fs : FileSystem} {o : Outcome} :
    (o.map HttpData.erase).Refused fs ↔ o.Refused fs := by
  cases o <;> rfl

namespace Conn

/-- Where parsing what has arrived leads. -/
def outcome (c : Conn) : Outcome := c.readn.2.http.outcome

/-- The request of the cycle is answered by `handleError`. -/
def Refused (fs : FileSystem) (c : Conn) : Prop := toInt c.readn.1 < 0 ∨ c.outcome.Refused fs

instance (fs : FileSystem) (c : Conn) : Decidable (c.Refused fs) :=
  inferInstanceAs (Decidable (_ ∨ _))

/-- The cycle neither sends an error page while responses are left to send, nor
    takes a part of them for all. -/
structure Clear (fs : FileSystem) (c : Conn) : Prop where
  refused : c.Refused fs → c.http.outBuffer = []
  aliased : ¬Aliased c.socket.writes (c.http.outBuffer ++ c.outcome.newResponse fs)

instance (fs : FileSystem) (c : Conn) : Decidable (c.Clear fs) :=
  decidable_of_iff ((c.Refused fs → c.http.outBuffer = []) ∧
      ¬Aliased c.socket.writes (c.http.outBuffer ++ c.outcome.newResponse fs))
    ⟨fun ⟨h, h'⟩ => ⟨h, h'⟩, fun ⟨h, h'⟩ => ⟨h, h'⟩⟩

/-- What has been sent since, followed by what is left to send, is what was left
    to send, followed by a response. -/
def InOrder (c c' : Conn) (response : Bytes) : Prop :=
  ∃ w, c'.socket.sent = c.socket.sent ++ w ∧ w ++ c'.http.outBuffer = c.http.outBuffer ++ response

theorem InOrder.refl (c : Conn) : InOrder c c [] := ⟨[], by simp, by simp⟩

theorem InOrder.append {c d e : Conn} {r r' : Bytes} (h : InOrder c d r) (h' : InOrder d e r') :
    InOrder c e (r ++ r') := by
  obtain ⟨w, hsent, happ⟩ := h
  obtain ⟨w', hsent', happ'⟩ := h'
  refine ⟨w ++ w', by rw [hsent', hsent, List.append_assoc], ?_⟩
  rw [List.append_assoc, happ', ← List.append_assoc, happ, List.append_assoc]

theorem InOrder.trans {c d e : Conn} {response : Bytes} (h : InOrder c d response)
    (h' : InOrder d e []) : InOrder c e response := by
  simpa using h.append h'

/-! ## What writing does -/

theorem writen_inOrder {c : Conn} (hsoft : Soft c.socket.writes)
    (halias : ¬Aliased c.socket.writes c.http.outBuffer) : InOrder c c.writen.2 [] := by
  obtain ⟨hfailed, -⟩ := hsoft.writeLoop c.http.outBuffer
  refine ⟨_, congrArg _ (writen_accepted _ _), ?_⟩
  rw [writen, writen_buffer hfailed halias, writeLoop_append, List.append_nil]

theorem handleWrite_inOrder {c : Conn} (hc : c.Separated) (hsoft : Soft c.socket.writes)
    (halias : ¬Aliased c.socket.writes c.http.outBuffer) : InOrder c c.handleWrite [] := by
  have hwriten := writen_inOrder hsoft halias
  rw [handleWrite]
  simp only [hc.seperaterTimer, Nat.not_lt_zero, if_false]
  split
  · split
    · split <;> exact hwriten
    · exact .refl c
  · exact .refl c

theorem finishTurn_inOrder {c : Conn} (hc : c.Separated) (hsoft : Soft c.socket.writes)
    (halias : ¬Aliased c.socket.writes c.http.outBuffer) : InOrder c c.finishTurn.conn [] := by
  have hflush : InOrder c c.flush [] := by
    rw [flush]
    split
    · exact handleWrite_inOrder hc hsoft halias
    · exact .refl c
  have hsettle : ∀ d : Conn, InOrder d d.settle.conn [] := by
    intro d
    rw [settle]
    split
    · simp only
      split <;> exact ⟨[], by simp [Turn.conn], by simp [Turn.conn, HttpData.reset]⟩
    · exact ⟨[], by simp [Turn.conn, setEvents], by simp [Turn.conn, setEvents]⟩
  rw [finishTurn]
  split
  · simp only
    split
    · exact hflush.trans (hsettle c.flush)
    · exact hflush
  · exact .refl c

theorem finishTurn_analysed (c : Conn) : c.finishTurn.conn.analysed = c.analysed := by
  obtain ⟨t, p, o, e, w, s, hflush⟩ := c.flush_eq
  rw [finishTurn, hflush]
  split
  · simp only [settle]
    split
    · split
      · split <;> rfl
      · rfl
    · rfl
  · rfl

/-! ## What the phases do -/

theorem request_state {h h' : HttpData} (ho : h.outcome = .request h') : h'.state = .analysis := by
  by_cases hfinish : h.state = .finish
  · rw [HttpData.outcome, hfinish] at ho
    cases ho
  · have hsound := HttpData.outcome_state hfinish
    rw [ho] at hsound
    exact hsound

theorem RootedUrl.not_hello {url : Bytes} (h : RootedUrl url) :
    ¬(url = bytes "hello" ∨ url = bytes "Hello") := by
  rcases h with rfl | h
  · decide +kernel
  · exact not_hello_of_root h

/-- The phases append the new response, unless the request is refused. -/
theorem act_of_not_refused {fs : FileSystem} {c d : Conn} (hurl : RootedUrl c.http.url)
    (h : c.act fs c.http.outcome = .ok d) (hrefused : ¬c.http.outcome.Refused fs) :
    d.socket = c.socket ∧ d.analysed = c.analysed ++ c.http.outcome.requests ∧
      d.http.outBuffer = c.http.outBuffer ++ c.http.outcome.newResponse fs := by
  have houtBuffer := c.http.outcome_outBuffer
  have hrooted := outcome_rooted hurl
  cases hout : c.http.outcome with
  | crash f h' => rw [hout] at h; cases h
  | bad h' => exact absurd (by rw [hout]; trivial) hrefused
  | wait h' =>
    rw [hout] at h houtBuffer
    cases h
    exact ⟨rfl, (List.append_nil _).symm, houtBuffer.trans (List.append_nil _).symm⟩
  | request h' =>
    rw [hout] at h hrooted houtBuffer hrefused
    rw [act, analysisPhase, if_pos (request_state hout), analysisRequest_eq_reply] at h
    simp only [Outcome.newResponse, Outcome.requests, List.flatMap_singleton, Request.responseOf]
    -- An unsupported request is neither answered nor refused: nothing is sent.
    cases hreply : h'.request.reply fs with
    | crash f => rw [hreply] at h; cases h
    | notFound => exact absurd hreply hrefused
    | unsupported =>
      rw [hreply] at h
      cases h
      exact ⟨rfl, rfl, houtBuffer.trans (List.append_nil _).symm⟩
    | answered r =>
      rw [hreply, handleReply_answered hrooted.not_hello] at h
      cases h
      exact ⟨rfl, rfl, congrArg (· ++ r) houtBuffer⟩

theorem handleError_sent (c : Conn) (errnum : ℕ) (shortmsg : Bytes) :
    ∃ w, (c.handleError errnum shortmsg).socket.sent = c.socket.sent ++ w :=
  ⟨_, List.append_assoc _ _ _⟩

/-- A refused request is answered with an error page, and nothing is left to
    send if nothing was. -/
theorem act_of_refused {fs : FileSystem} {c d : Conn} (hempty : c.http.outBuffer = [])
    (h : c.act fs c.http.outcome = .ok d) (hrefused : c.http.outcome.Refused fs) :
    d.http.error = true ∧ d.http.outBuffer = [] ∧ ∃ w, d.socket.sent = c.socket.sent ++ w := by
  have houtBuffer := c.http.outcome_outBuffer.trans hempty
  cases hout : c.http.outcome with
  | crash f h' => rw [hout] at hrefused; exact hrefused.elim
  | wait h' => rw [hout] at hrefused; exact hrefused.elim
  | bad h' =>
    rw [hout] at h houtBuffer
    cases h
    exact ⟨rfl, houtBuffer, handleError_sent _ _ _⟩
  | request h' =>
    rw [hout] at h houtBuffer hrefused
    have hreply : h'.request.reply fs = .notFound := hrefused
    rw [act, analysisPhase, if_pos (request_state hout), analysisRequest_eq_reply] at h
    obtain ⟨e, he, hnotFound⟩ := handleReply_notFound fs ({ c with http := h' } : Conn).analyse
    rw [hreply, hnotFound] at h
    cases h
    refine ⟨rfl, ?_, ?_⟩
    · rcases he with rfl | rfl
      · exact houtBuffer
      · rfl
    · rcases he with rfl | rfl <;> exact handleError_sent _ _ _

/-! ## What a cycle does -/

/-- Separating the timer changes nothing that parsing depends on. -/
theorem seperaterTimer_same (fs : FileSystem) (c : Conn) :
    c.seperaterTimer.readn.1 = c.readn.1 ∧ c.seperaterTimer.socket = c.socket ∧
      c.seperaterTimer.http.outBuffer = c.http.outBuffer ∧
      c.seperaterTimer.http.url = c.http.url ∧
      c.seperaterTimer.analysed = c.analysed ∧
      (c.seperaterTimer.outcome.Refused fs ↔ c.outcome.Refused fs) ∧
      c.seperaterTimer.outcome.requests = c.outcome.requests := by
  obtain ⟨t, p, hsep⟩ := c.seperaterTimer_eq
  -- Parsing does not look at the timer, which `erase` forgets.
  have herase : c.seperaterTimer.outcome.map HttpData.erase = c.outcome.map HttpData.erase := by
    rw [outcome, outcome, ← HttpData.outcome_erase, ← HttpData.outcome_erase, hsep]
    rfl
  refine ⟨by rw [hsep]; rfl, by rw [hsep], by rw [hsep], by rw [hsep], by rw [hsep], ?_, ?_⟩
  · rw [← Outcome.refused_erase, herase, Outcome.refused_erase]
  · rw [← Outcome.requests_erase, herase, Outcome.requests_erase]

theorem process_eq (fs : FileSystem) (c : Conn) :
    c.process fs =
      if toInt c.readn.1 < 0 then .ok c.readn.2.badRequest else c.readn.2.act fs c.outcome := by
  rw [process, readPhase]
  split
  · next heq =>
    split at heq <;> cases heq
    rw [if_pos ‹_›]
  · next heq =>
    split at heq <;> cases heq
    rw [if_neg ‹_›, parse_eq, outcome]

/-- A clear cycle only appends to what has been sent and what is left to send. -/
theorem inOrder_of_turn {fs : FileSystem} {c : Conn} {t : Turn} (hrooted : RootedUrl c.http.url)
    (hsoft : Soft c.socket.writes) (hclear : c.Clear fs) (hturn : c.turn fs = .ok t) :
    ∃ response, InOrder c t.conn response ∧ (¬c.Refused fs →
      response = c.outcome.newResponse fs ∧
        t.conn.analysed = c.analysed ++ c.outcome.requests) := by
  obtain ⟨hret, hsocket, hbuffer, hurl, hanalysed, hrefused, hrequests⟩ := c.seperaterTimer_same fs
  rw [turn, process_eq] at hturn
  -- An error page goes to the socket at once, where nothing is left to send.
  have hfail : ∀ {d : Conn} {w : Bytes}, c.Refused fs → d.http.error = true →
      d.http.outBuffer = [] → d.socket.sent = c.socket.sent ++ w →
      ∃ response, InOrder c d.finishTurn.conn response ∧ (¬c.Refused fs →
        response = c.outcome.newResponse fs ∧
          d.finishTurn.conn.analysed = c.analysed ++ c.outcome.requests) := by
    intro d w hrefused herror hout hsent
    rw [finishTurn_of_error herror]
    exact ⟨w, ⟨w, hsent, by rw [Turn.conn, hout, hclear.refused hrefused]; simp⟩,
      fun h => absurd hrefused h⟩
  split at hturn
  · cases hturn
  · next d hprocess =>
    cases hturn
    split at hprocess
    · next hneg =>
      cases hprocess
      have hr : c.Refused fs := .inl (hret ▸ hneg)
      obtain ⟨w, hw⟩ := handleError_sent { c.seperaterTimer.readn.2 with http.error := true } 400
        (bytes "Bad Request")
      refine hfail hr rfl ?_ (w := w) ?_
      · exact hbuffer.trans (hclear.refused hr)
      · rw [← hsocket]
        exact hw
    · next hneg =>
      by_cases hr : c.seperaterTimer.outcome.Refused fs
      · have hrc : c.Refused fs := .inr (hrefused.1 hr)
        obtain ⟨herror, hout, w, hsent⟩ := act_of_refused (c := c.seperaterTimer.readn.2)
          (hbuffer.trans (hclear.refused hrc)) hprocess hr
        refine hfail hrc herror hout (w := w) ?_
        rw [← hsocket]
        exact hsent
      · have hrc : ¬c.Refused fs := by
          rintro (h | h)
          · exact hneg (hret ▸ h)
          · exact hr (hrefused.2 h)
        -- The response goes behind what is left to send, and writing keeps the order.
        obtain ⟨hsame, hnew, hout⟩ := act_of_not_refused (c := c.seperaterTimer.readn.2)
          (by exact hurl ▸ hrooted) hprocess hr
        have hout : d.http.outBuffer = c.http.outBuffer ++ c.outcome.newResponse fs := by
          rw [← hbuffer, Outcome.newResponse, ← hrequests]
          exact hout
        have hnew : d.analysed = c.analysed ++ c.outcome.requests := by
          rw [← hanalysed, ← hrequests]
          exact hnew
        have hsame : d.socket.writes = c.socket.writes ∧ d.socket.sent = c.socket.sent := by
          rw [hsame, ← hsocket]
          exact ⟨rfl, rfl⟩
        have hsep : d.Separated := (act_kept hprocess).separated (c.separated_seperaterTimer)
        refine ⟨_, InOrder.trans ⟨[], by rw [hsame.2, List.append_nil], hout⟩
          (finishTurn_inOrder hsep (hsame.1 ▸ hsoft) ?_),
          fun _ => ⟨rfl, (finishTurn_analysed d).trans hnew⟩⟩
        rw [hsame.1, hout]
        exact hclear.aliased

theorem inOrder_of_clear {fs : FileSystem} {c : Conn} {t : Turn} (hc : (system fs).Reachable c)
    (hsoft : Soft c.socket.writes) (hclear : c.Clear fs) (hturn : c.turn fs = .ok t) :
    ∃ response, InOrder c t.conn response ∧ (¬c.Refused fs →
      response = c.outcome.newResponse fs ∧
        t.conn.analysed = c.analysed ++ c.outcome.requests) :=
  inOrder_of_turn (inv_of_reachable hc).rooted hsoft hclear hturn

/-- The condition on the steps of a run: every cycle is clear, and no write
    fails. -/
def Orderly (fs : FileSystem) (c : Conn) : Event → Prop
  | .cycle => Soft c.socket.writes ∧ c.Clear fs
  | _ => True

/-- No error page is sent. -/
def Accepting (fs : FileSystem) (c : Conn) : Event → Prop
  | .cycle => ¬c.Refused fs
  | _ => True

/-- A step under the condition only appends to what has been sent and what is
    left to send. -/
theorem inOrder_of_step {fs : FileSystem} {c d : Conn} {e : Event} (hc : (system fs).Reachable c)
    (hok : Orderly fs c e) (hst : Step fs c e d) :
    ∃ response, InOrder c d response ∧ (Accepting fs c e →
      ∃ rs, d.analysed = c.analysed ++ rs ∧ response = rs.flatMap (Request.responseOf fs)) := by
  cases hst with
  | kernel => exact ⟨[], .refl c, fun _ => ⟨[], (List.append_nil _).symm, rfl⟩⟩
  | cycle hconn hturn =>
    obtain ⟨response, hinOrder, h⟩ := inOrder_of_clear hc hok.1 hok.2 hturn
    refine ⟨response, hinOrder, fun hrefused => ?_⟩
    obtain ⟨rfl, hanalysed⟩ := h hrefused
    exact ⟨_, hanalysed, rfl⟩
  | conn h =>
    obtain ⟨t, ch, p, s, l, rfl⟩ := handleConn_eq h
    exact ⟨[], .refl c, fun _ => ⟨[], (List.append_nil _).symm, rfl⟩⟩
  | expire h =>
    obtain ⟨p, rfl⟩ := handleClose_eq h
    exact ⟨[], .refl c, fun _ => ⟨[], (List.append_nil _).symm, rfl⟩⟩

/-- From any reachable state on, a run of clear cycles sends what was left to
    send first, and then the responses to the requests it analyses. -/
theorem inOrder_of_run {fs : FileSystem} {c d : Conn} {ps : List (Conn × Event)}
    (hc : (system fs).Reachable c) (hrun : (system fs).Run c ps d)
    (hok : ∀ p ∈ ps, Orderly fs p.1 p.2) :
    ∃ response, InOrder c d response ∧ ((∀ p ∈ ps, Accepting fs p.1 p.2) →
      ∃ rs, d.analysed = c.analysed ++ rs ∧ response = rs.flatMap (Request.responseOf fs)) := by
  induction hrun with
  | nil => exact ⟨[], .refl _, fun _ => ⟨[], (List.append_nil _).symm, rfl⟩⟩
  | @cons c c' d e ps hst hrun ih =>
    rw [List.forall_mem_cons] at hok
    obtain ⟨r, hr, hstep⟩ := inOrder_of_step hc hok.1 hst
    obtain ⟨r', hr', hrest⟩ := ih (.step hc trivial hst) hok.2
    refine ⟨r ++ r', hr.append hr', fun haccepting => ?_⟩
    rw [List.forall_mem_cons] at haccepting
    obtain ⟨rs, hrs, rfl⟩ := hstep haccepting.1
    obtain ⟨rs', hrs', rfl⟩ := hrest haccepting.2
    exact ⟨rs ++ rs', by rw [hrs', hrs, List.append_assoc], List.flatMap_append.symm⟩

/-- The connection when more bytes have arrived, and the socket takes everything. -/
def more (c : Conn) (piece : Piece) : Conn :=
  c.report [.data piece] [] ⟨2, 0⟩ (c.http.ownchannel.setRevents EPOLLOUT)

/-- A request for a file that does not exist. -/
def getNothing : Piece :=
  ⟨bytes "GET /none HTTP/1.1\r\n\r\n", by decide +kernel, by decide +kernel⟩

/-- A response sent in part is followed by the next one. -/
theorem inOrder_of_run_continue :
    ∃ c d ps, (system (.logHtml (bytes "hi"))).Reachable c ∧ c.http.outBuffer ≠ [] ∧
      (system (.logHtml (bytes "hi"))).Run c ps d ∧ ∃ response, InOrder c d response ∧
      ((∀ p ∈ ps, Accepting (.logHtml (bytes "hi")) p.1 p.2) → ∃ rs,
        d.analysed = c.analysed ++ rs ∧
          response = rs.flatMap (Request.responseOf (.logHtml (bytes "hi")))) := by
  obtain ⟨c, hc, hp⟩ := exists_halfSent (p := fun c => decide (c.http.outBuffer ≠ []) &&
    decide (c.http.connectionState = .connected) &&
    decide ((c.more getStartPage).Clear (.logHtml (bytes "hi"))) &&
    ((c.more getStartPage).turn (.logHtml (bytes "hi"))).toOption.isSome) (by decide +kernel)
  simp only [Bool.and_eq_true, decide_eq_true_eq] at hp
  obtain ⟨⟨⟨hout, hconn⟩, hclear⟩, hturn⟩ := hp
  cases heq : (c.more getStartPage).turn (.logHtml (bytes "hi")) with
  | error e => rw [heq] at hturn; cases hturn
  | ok t =>
    have hreach := reachable_report hc [.data getStartPage] [] ⟨2, 0⟩
      (c.http.ownchannel.setRevents EPOLLOUT)
    have hrun := System.Run.single (S := system (.logHtml (bytes "hi")))
      (Step.cycle (show (c.more getStartPage).http.connectionState = .connected from hconn) heq)
    exact ⟨c.more getStartPage, t.conn, _, hreach, hout, hrun,
      inOrder_of_run hreach hrun (by simpa [Orderly] using ⟨soft_nil, hclear⟩)⟩

/-- A response sent in part is interrupted by an error page. -/
theorem not_inOrder_interrupt :
    ¬∀ (fs : FileSystem) (c : Conn) (t : Turn), (system fs).Reachable c →
      c.http.connectionState = .connected → c.http.outBuffer ≠ [] → Soft c.socket.writes →
      c.turn fs = .ok t → ∃ response, InOrder c t.conn response := by
  intro h
  obtain ⟨c, hc, hp⟩ := exists_halfSent (p := fun c => decide (c.http.outBuffer ≠ []) &&
    decide (c.http.connectionState = .connected) &&
    ((c.more getNothing).turn (.logHtml (bytes "hi"))).toOption.any fun t =>
      decide (¬c.http.outBuffer <+:
        t.conn.socket.sent.drop c.socket.sent.length ++ t.conn.http.outBuffer)) (by decide +kernel)
  simp only [Bool.and_eq_true, decide_eq_true_eq] at hp
  obtain ⟨⟨hout, hconn⟩, hturn⟩ := hp
  obtain ⟨t, heq, hprefix⟩ := exists_ok_of_any hturn
  have hreach := reachable_report hc [.data getNothing] [] ⟨2, 0⟩
    (c.http.ownchannel.setRevents EPOLLOUT)
  obtain ⟨response, w, hsent, happ⟩ := h _ (c.more getNothing) t hreach hconn hout soft_nil heq
  have hsent : t.conn.socket.sent = c.socket.sent ++ w := hsent
  have happ : w ++ t.conn.http.outBuffer = c.http.outBuffer ++ response := happ
  refine absurd ?_ (of_decide_eq_true hprefix)
  rw [hsent, List.drop_left, happ]
  exact List.prefix_append _ _

/-- In a run of clear cycles that refuse no request, what has been sent and what
    is left to send are the responses to the requests analysed, in order. -/
theorem wire_of_reachable {fs : FileSystem} {c : Conn}
    (hc : (system fs).ReachableBy (fun c e => Orderly fs c e ∧ Accepting fs c e) c) :
    c.socket.sent ++ c.http.outBuffer = c.analysed.flatMap (Request.responseOf fs) := by
  refine System.ReachableBy.invariant (S := system fs)
    (I := fun c : Conn => c.socket.sent ++ c.http.outBuffer =
      c.analysed.flatMap (Request.responseOf fs))
    (fun d (hd : d.Fresh) => ?_) (fun d e d' hd hwire hok hst => ?_) hc
  · obtain ⟨hsent, hanalysed, id, fd, method, ch, t, hhttp⟩ := hd.eq
    rw [hsent, hanalysed, hhttp]
    rfl
  · obtain ⟨response, ⟨w, hsent, happ⟩, h⟩ := inOrder_of_step hd.reachable hok.1 hst
    obtain ⟨rs, hanalysed, rfl⟩ := h hok.2
    rw [hsent, hanalysed, List.append_assoc, happ, ← List.append_assoc, hwire, List.flatMap_append]

end Conn

end Webserver
