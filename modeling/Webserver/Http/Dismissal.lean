import Webserver.Http.Service

/-!
# Being dismissed

What cannot be read, parsed or found is answered by an error page, and is the last thing
that a connection reads: the connection is closed, whatever the client sends behind it.

* `Conn.exists_handleRead_of_refused`: a cycle that refuses a request sends a whole page.
* `Conn.Ready.exists_dismissed`: a connection that is ready for a request sends the page and
  is closed.
* `Conn.refuses_of_eof`, `Conn.refuses_of_not_serves`: the end of file is refused, and so is
  a request for something that is not there.
* `RequestText.readAll_dismissed`: the client reads the responses, and then the page.
-/

namespace Webserver

open Text

/-- The length that the header of a message announces. -/
theorem HttpMessage.Sized.bodyLength {m : HttpMessage} (hm : m.Sized)
    {method : Option HttpMethod} (hmethod : method ≠ some .head) :
    bodyLength method m.fields = some m.body.length := by
  have hvalue : m.fields.lookup (bytes "Content-Length") = some (toStr m.body.length) := hm
  rw [Webserver.bodyLength, if_neg hmethod, hvalue, Option.bind_some, toStr_eq,
    ascii.readNat_natText (by decide)]

/-- The page for what cannot be read or parsed. -/
def badRequestMessage : HttpMessage := errorMessage 400 (bytes "Bad Request") (by decide +kernel)

theorem render_badRequestMessage : badRequestMessage.render = badRequestPage :=
  render_errorMessage _ (by decide +kernel)

/-- A well-formed request for something that cannot be served is refused. -/
theorem RequestText.reply_request_of_not_serves {fs : FileSystem} {r : RequestText}
    (hfits : DotFits r.url) (hserves : ¬Serves fs r.url (decide (r.method = .head))) :
    r.request.reply fs = .notFound := by
  obtain ⟨t, ht⟩ := filetype_of_fits hfits
  have hhello : ¬(r.url = bytes "hello" ∨ r.url = bytes "Hello") :=
    not_hello_of_root (HttpData.root_prefix_urlOf r.target)
  have hnone : Webserver.response fs r.url r.request.headtToValue (decide (r.method = .head)) t =
      none := by
    rwa [serves_iff r.request.headtToValue t, ← Option.ne_none_iff_exists', not_not] at hserves
  have hreply : fileReply fs r.url r.request.headtToValue (decide (r.method = .head)) =
      .notFound := by
    simp only [fileReply, ht, if_neg hhello, hnone]
  rw [← hreply, Request.reply, request]
  cases hmethod : r.method with
  | get => rfl
  | head => rfl
  | post => exact absurd hmethod r.method_ne

namespace Conn

/-- The page that is sent in a cycle that refuses a request: if it has been parsed, there is
    nothing to serve. -/
def page (c : Conn) : HttpMessage :=
  if toInt c.readn.1 < 0 ∨ c.outcome.requests = [] then badRequestMessage else notFoundPage

/-- Whatever requests the connection has answered, what it reads next is refused. -/
def Refuses (fs : FileSystem) (r : Report) (m : HttpMessage) : Prop :=
  ∀ c : Conn, c.Ready → (c.start r).Refused fs ∧ (c.start r).page = m

variable {fs : FileSystem} {c d : Conn} {r : Report}

theorem sized_page (c : Conn) : c.page.Sized := by
  rw [page]
  split <;> exact sized_errorMessage _

/-! ## A cycle -/

theorem exists_process_of_refused (hwrites : c.socket.writes = []) (hrefused : c.Refused fs) :
    ∃ d, c.process fs = .ok d ∧ d.http.error = true ∧
      d.socket.sent = c.socket.sent ++ c.page.render := by
  rw [process_eq, page]
  by_cases hneg : toInt c.readn.1 < 0
  · rw [if_pos hneg, if_pos (.inl hneg), render_badRequestMessage, badRequest,
      handleError_nil (by exact hwrites)]
    exact ⟨_, rfl, rfl, rfl⟩
  · have hrefused := hrefused.resolve_left hneg
    rw [if_neg hneg]
    cases hout : c.outcome with
    | crash f h => rw [hout] at hrefused; exact hrefused.elim
    | wait h => rw [hout] at hrefused; exact hrefused.elim
    | bad h =>
      rw [if_pos (.inr rfl), render_badRequestMessage, act, badRequest,
        handleError_nil (by exact hwrites)]
      exact ⟨_, rfl, rfl, rfl⟩
    | request h =>
      rw [hout] at hrefused
      have hreply : h.request.reply fs = .notFound := hrefused
      obtain ⟨e, he, hnotFound⟩ :=
        handleReply_notFound fs ({ c.readn.2 with http := h } : Conn).analyse
      -- The output may have been cleared, but the socket is the same.
      have hsocket : e.socket = c.readn.2.socket := by rcases he with rfl | rfl <;> rfl
      have hpage : ¬(toInt c.readn.1 < 0 ∨ (Outcome.request h).requests = []) := by
        rintro (hret | hnil)
        · exact hneg hret
        · cases hnil
      rw [if_neg hpage, render_notFoundPage, act, analysisPhase, if_pos (request_state hout),
        analysisRequest_eq_reply, hreply, hnotFound]
      refine ⟨_, rfl, rfl, ?_⟩
      rw [handleError_nil (by rw [hsocket]; exact hwrites), hsocket]
      rfl

/-- A refused request is answered with a whole page, if the socket takes it. -/
theorem exists_handleRead_of_refused (hwrites : c.socket.writes = []) (hrefused : c.Refused fs) :
    ∃ d, c.handleRead fs = .ok d ∧ d.http.error = true ∧
      d.socket.sent = c.socket.sent ++ c.page.render := by
  obtain ⟨hret, hsocket, -, -, -, hsame, hrequests⟩ := c.seperaterTimer_same fs
  have hpage : c.seperaterTimer.page = c.page := by rw [page, page, hret, hrequests]
  obtain ⟨d, hprocess, herror, hsent⟩ := exists_process_of_refused (c := c.seperaterTimer)
    (by rw [hsocket]; exact hwrites) (hrefused.imp (hret ▸ ·) hsame.2)
  refine ⟨d, handleRead_of_done ?_, herror, by rw [hsent, hsocket, hpage]⟩
  rw [turn, hprocess, ← finishTurn_of_error herror]

/-- A connection that is ready for a request, and reads what it refuses, sends the page and
    is closed. -/
theorem Ready.exists_dismissed (hc : c.Ready) (hr : Readable r)
    (hrefused : (c.start r).Refused fs) :
    ∃ d, (c.deliver r).handleEvents fs = .ok d ∧ d.http.connectionState = .disconnected ∧
      d.socket.sent = c.socket.sent ++ (c.start r).page.render := by
  obtain ⟨e, hread, herror, hsent⟩ :=
    exists_handleRead_of_refused (c := c.start r) hr.writes hrefused
  obtain ⟨d, hd⟩ := hc.exists_handleEvents hr.input hread
  obtain ⟨e₁, e', hread₁, hconn, rfl⟩ := exists_handleRead hr.input hd
  cases hread.symm.trans hread₁
  obtain ⟨hsame, hclosed⟩ := closed_of_error herror hconn
  exact ⟨_, hd, hclosed, hsame.trans hsent⟩

/-! ## What is refused -/

/-- The end of file, whatever has been read before it. -/
theorem refuses_of_eof {s : Bytes} (hreads : DeliversEof r.reads s) :
    Refuses fs r badRequestMessage := fun c _ =>
  have hneg := ret_neg_of_eof c hreads
  ⟨.inl hneg, if_pos (.inl hneg)⟩

/-- A request for something that cannot be served, whatever follows it. -/
theorem refuses_of_not_serves {q : RequestText} {rest : Bytes}
    (hreads : Delivers r.reads (q.render ++ rest))
    (hlen : 0 ≤ toInt (q.render ++ rest).length) (hfits : DotFits q.url)
    (hserves : ¬Serves fs q.url (decide (q.method = .head))) : Refuses fs r notFoundPage := by
  intro c hc
  obtain ⟨hret, hbuffer, -⟩ := hreads.readn c.http.inBuffer 0
  rw [hc.inBuffer, List.nil_append] at hbuffer
  have hnneg : ¬toInt (c.start r).readn.1 < 0 := by
    have hreadn : (c.start r).readn.1 = toSizeT (0 + (q.render ++ rest).length) := hret
    rw [hreadn, Int.zero_add, toInt_toSizeT]
    exact Int.not_lt.2 hlen
  have hbuffer : (c.start r).readn.2.http.inBuffer = q.render ++ rest := by
    rw [← hbuffer, ← hc.inBuffer]
    rfl
  have hstate : (c.start r).readn.2.http.state = .parseUrl := hc.state
  have hout := q.outcome_render hstate hbuffer
  have hheaders : (c.start r).readn.2.http.headtToValue = ∅ := hc.headtToValue
  rw [hheaders] at hout
  refine ⟨.inr ?_, if_neg ?_⟩
  · rw [outcome, hout]
    exact RequestText.reply_request_of_not_serves hfits hserves
  · rw [outcome, hout]
    rintro (h | h)
    · exact hnneg h
    · cases h

end Conn

/-! ## The client -/

/-- From the responses to well-formed requests for files, with an error page behind them, all
    of them are read, and the page. -/
theorem RequestText.readAll_dismissed {fs : FileSystem} {rs : List RequestText} {m : HttpMessage}
    (hfile : ∀ r ∈ rs, r.Names fs) (hfits : ∀ r ∈ rs, DotFits r.url) (hm : m.Sized) :
    ∃ frames, readAll crlf ((rs.map fun r => bodyLength r.method) ++ [bodyLength none])
        (responses fs rs ++ m.render) = (frames ++ [m.frame], []) ∧
      List.Forall₂ (Request.Gets fs) (rs.map request) frames := by
  obtain ⟨ms, hrender, hlens, hgets⟩ := exists_messages hfile hfits
  rw [List.map_map] at hlens
  have hall : Measured ((rs.map fun r => bodyLength r.method) ++ [bodyLength none]) (ms ++ [m]) :=
    List.rel_append hlens (.cons (hm.bodyLength nofun) .nil)
  refine ⟨ms.map Text.Message.frame, ?_, List.forall₂_map_right_iff.2 hgets⟩
  rw [hrender, ← List.flatMap_singleton Text.Message.render m, ← List.flatMap_append,
    readAll_flatMap hall, List.map_append, List.map_singleton]

end Webserver
