import Webserver.Http.Grammar
import Webserver.Http.Session

/-!
# Pipelined requests

Well-formed requests sent one after the other, and arriving in one readable
event, are answered in order by the recursion of `handleRead`.

* `RequestText.outcome_render`: parsing removes exactly one request from the
  front of the buffer, with the fields that are written in it.
* `session_renderAll`: the induction over the requests.
* `Conn.servesAll_iff`: all requests are answered exactly if two numbers survive
  their conversion to `int`: that of the bytes read, and in each path, the
  position of the first dot.
-/

namespace Webserver

open Text

/-- A request that is well formed, and has no body. -/
structure RequestText extends Head where
  method_ne : method ≠ .post
  spaced : toHead.Spaced

/-- An accepted request without a body is handed to `analysisRequest`. -/
theorem HttpData.Accepts.outcome {h h₂ : HttpData} (haccepts : h.Accepts h₂)
    (hstate : h.state = .parseUrl) (hmethod : h₂.method ≠ some .post) :
    h.outcome = .request { h₂ with state := .analysis } := by
  obtain ⟨h₁, hurl, hheaders⟩ := haccepts
  rw [parseHeaders] at hheaders
  cases hloop : parseHeadersLoop h₁.inBuffer h₁.headtToValue with
  | error f => simp only [hloop] at hheaders; cases hheaders
  | ok out =>
    obtain ⟨flag, str, m⟩ := out
    simp only [hloop, Except.ok.injEq, Prod.mk.injEq] at hheaders
    obtain ⟨rfl, rfl⟩ := hheaders
    rw [HttpData.outcome, hstate, hurl]
    simp only [headersOutcome, hloop, afterHeaders, if_neg hmethod]

namespace RequestText

variable (r : RequestText)

/-- The last value of the field `Connection` asks for the connection to be kept
    alive. -/
def KeepsAlive : Prop :=
  r.lastValue (bytes "Connection") = some (bytes "keep-alive") ∨
    r.lastValue (bytes "Connection") = some (bytes "Keep-Alive")

instance : Decidable r.KeepsAlive := inferInstanceAs (Decidable (_ ∨ _))

/-- The response to the request, for a file of the given type and content. -/
def response (filetype content : Bytes) : Bytes :=
  bytes "HTTP/1.1 200 OK\r\n" ++
    (if r.KeepsAlive then
      bytes "Connection: Keep-Alive\r\n" ++ bytes "Keep-Alive: timeout=5000\r\n" else []) ++
    bytes "Content-Type: " ++ filetype ++ bytes "\r\n" ++
    bytes "Content-Length: " ++ toStr content.length ++ bytes "\r\n" ++
    bytes "Server: ZHF's web server\r\n" ++ bytes "\r\n" ++
    if r.method = .head then [] else content

/-- Parsing removes exactly the request from the front of the buffer. -/
theorem outcome_render {h : HttpData} {rest : Bytes} (hstate : h.state = .parseUrl)
    (hbuf : h.inBuffer = r.render ++ rest) :
    h.outcome = .request { h with
      inBuffer := rest, method := some r.method, url := r.url, version := r.version
      headtToValue := HeadLine.fields r.headLines h.headtToValue, state := .analysis } := by
  -- The cut of the buffer is known, and it is unique in what it makes of the fields.
  have haccepts := HttpData.parse_cut hstate (r.cut r.spaced hbuf)
  have hmethod : HttpData.methodOf r.method.token h.method = some r.method :=
    r.method.methodOf_token h.method
  have hout := haccepts.outcome hstate
    (by change HttpData.methodOf r.method.token h.method ≠ _; simp [hmethod, r.method_ne])
  rw [hout, ← hmethod]
  rfl

/-! ## The reply to a well-formed request -/

theorem keepAlive_fields : keepAlive (HeadLine.fields r.headLines ∅) = decide r.KeepsAlive := by
  have hvalues : lastValue (bytes "Connection") (r.headLines.map HeadLine.entry) =
      r.lastValue (bytes "Connection") :=
    lastValue_eq_of_spaced r.spaced.writes Head.spacedLast_headLines _
  rw [keepAlive, lookup_fields, hvalues, AList.lookup_empty, Option.or_none]
  rfl

/-- The request, as it is handed to `analysisRequest`. -/
def request : Request where
  method := some r.method
  url := r.url
  version := r.version
  headtToValue := HeadLine.fields r.headLines ∅

/-- The content of the file the request asks for. -/
def content (fs : FileSystem) : Bytes :=
  match fs.lookup (cStr r.url) with
  | some (.regular content _) => content
  | _ => []

/-- The path of the request names a regular file that can be read, and is not
    empty. -/
def Names (fs : FileSystem) : Prop :=
  ∃ content, content ≠ [] ∧ fs.lookup (cStr r.url) = some (.regular content true)

/-- The type of the file the request asks for. -/
def contentType : Bytes := (filetype r.url).toOption.getD []

/-- The response is the one made for the file. -/
theorem response_eq {fs : FileSystem} (hfile : r.Names fs) (filetype : Bytes) :
    Webserver.response fs r.url (HeadLine.fields r.headLines ∅) (decide (r.method = .head))
      filetype = some (r.response filetype (r.content fs)) := by
  obtain ⟨content, hne, hlookup⟩ := hfile
  have hcontent : r.content fs = content := by rw [RequestText.content, hlookup]
  -- The timeout is printed from its number.
  have htimeout : bytes "Keep-Alive: timeout=" ++ toStr DEFAULT_KEEP_ALIVE_TIME ++ bytes "\r\n" =
      bytes "Keep-Alive: timeout=5000\r\n" := by decide +kernel
  have hstatus : statusLines (HeadLine.fields r.headLines ∅) = bytes "HTTP/1.1 200 OK\r\n" ++
      if r.KeepsAlive then
        bytes "Connection: Keep-Alive\r\n" ++ bytes "Keep-Alive: timeout=5000\r\n" else [] := by
    rw [statusLines, keepAlive_fields, ← htimeout]
    simp only [decide_eq_true_eq, List.append_assoc]
  rw [response_of_stores hlookup hne, hcontent, responseHeader, hstatus, RequestText.response]
  simp only [decide_eq_true_eq]

/-- A well-formed request for a file is answered, unless its type cannot be
    told. -/
theorem reply_request {fs : FileSystem} (hfile : r.Names fs) (hfits : DotFits r.url) :
    r.request.reply fs = .answered (r.response r.contentType (r.content fs)) := by
  obtain ⟨t, ht⟩ := filetype_of_fits hfits
  have htype : r.contentType = t := by rw [contentType, ht]; rfl
  have hreply : r.request.reply fs =
      fileReply fs r.url (HeadLine.fields r.headLines ∅) (decide (r.method = .head)) := by
    rw [Request.reply, request]
    cases hmethod : r.method with
    | get => rfl
    | head => rfl
    | post => exact absurd hmethod r.method_ne
  rw [hreply, fileReply, ht]
  have hhello : ¬(r.url = bytes "hello" ∨ r.url = bytes "Hello") :=
    not_hello_of_root (HttpData.root_prefix_urlOf r.target)
  simp only [if_neg hhello, r.response_eq hfile t, htype]

theorem reply_request_of_not_fits (fs : FileSystem) (hfits : ¬DotFits r.url) :
    r.request.reply fs = .crash .outOfRange := by
  rw [Request.reply, request]
  cases hmethod : r.method with
  | post => exact absurd hmethod r.method_ne
  | get | head => simp only [fileReply, filetype_of_not_fits hfits]

/-- The text of some requests, one after the other. -/
def renderAll (rs : List RequestText) : Bytes := rs.flatMap fun r => r.render

/-- The responses to some requests, one after the other. -/
def responses (fs : FileSystem) (rs : List RequestText) : Bytes :=
  rs.flatMap fun r => r.response r.contentType (r.content fs)

theorem renderAll_ne_nil {rs : List RequestText} (h : rs ≠ []) : renderAll rs ≠ [] := by
  cases rs with
  | nil => exact absurd rfl h
  | cons r rs => simp [renderAll, Head.render]

end RequestText

open RequestText

/-! ## The induction over the requests -/

/-- The parser is at the start of a request. -/
structure HttpData.Restarted (h : HttpData) : Prop where
  state : h.state = .parseUrl
  error : h.error = false
  headtToValue : h.headtToValue = ∅

/-- The session on one well-formed request, followed by others or not. -/
theorem session_render {fs : FileSystem} {h : HttpData} {r : RequestText} (rest : Bytes)
    (hh : h.Restarted) (hbuf : h.inBuffer = r.render ++ rest) (hfile : r.Names fs)
    (hfits : DotFits r.url) :
    ∃ h' : HttpData, h'.Restarted ∧ h'.inBuffer = rest ∧ h'.outBuffer = h.outBuffer ∧
      h.session fs =
        if rest.length > 0 then
          (h'.session fs).after r.request (r.response r.contentType (r.content fs))
        else ⟨[r.request], r.response r.contentType (r.content fs), .waiting h'⟩ := by
  refine ⟨{ h with inBuffer := rest }.reset, ⟨rfl, rfl, rfl⟩, rfl, rfl, ?_⟩
  rw [HttpData.session_eq, r.outcome_render hh.state hbuf, hh.headtToValue, Outcome.play,
    HttpData.requestPlay]
  have hreply := r.reply_request hfile hfits
  simp only [HttpData.request]
  rw [RequestText.request] at hreply
  simp only [hreply]
  rfl

/-- The session on some well-formed requests whose types can be told. -/
theorem session_renderAll {fs : FileSystem} {rs : List RequestText} (hrs : rs ≠ [])
    (hfile : ∀ r ∈ rs, r.Names fs) (hfits : ∀ r ∈ rs, DotFits r.url) {h : HttpData}
    (hh : h.Restarted) (hbuf : h.inBuffer = renderAll rs) :
    ∃ h' : HttpData, h'.Restarted ∧ h'.inBuffer = [] ∧ h'.outBuffer = h.outBuffer ∧
      h.session fs = ⟨rs.map RequestText.request, responses fs rs, .waiting h'⟩ := by
  induction rs generalizing h with
  | nil => exact absurd rfl hrs
  | cons r rs ih =>
    rw [List.forall_mem_cons] at hfile hfits
    obtain ⟨h', hh', hbuf', hout', hsession⟩ :=
      session_render (renderAll rs) hh hbuf hfile.1 hfits.1
    -- After the last request nothing is left over, and the recursion ends.
    by_cases hnil : rs = []
    · subst hnil
      exact ⟨h', hh', hbuf', hout', by simpa [responses, renderAll] using hsession⟩
    · have hpos : (renderAll rs).length > 0 := List.length_pos_iff.2 (renderAll_ne_nil hnil)
      obtain ⟨h'', hh'', hbuf'', hout'', hsession'⟩ := ih hnil hfile.2 hfits.2 hh' hbuf'
      refine ⟨h'', hh'', hbuf'', hout''.trans hout', ?_⟩
      rw [hsession, if_pos hpos, hsession']
      rfl

/-- The session ends the process at a request whose type cannot be told. -/
theorem session_renderAll_of_not_fits {fs : FileSystem} {rs : List RequestText}
    (hfile : ∀ r ∈ rs, r.Names fs) (hfits : ¬∀ r ∈ rs, DotFits r.url) {h : HttpData}
    (hh : h.Restarted) (hbuf : h.inBuffer = renderAll rs) :
    (h.session fs).ending = .crashed .outOfRange := by
  induction rs generalizing h with
  | nil => exact absurd (by simp) hfits
  | cons r rs ih =>
    rw [List.forall_mem_cons] at hfile
    by_cases hfirst : DotFits r.url
    · obtain ⟨h', hh', hbuf', -, hsession⟩ :=
        session_render (renderAll rs) hh hbuf hfile.1 hfirst
      have hfits : ¬∀ r ∈ rs, DotFits r.url := fun h => hfits (List.forall_mem_cons.2 ⟨hfirst, h⟩)
      have hnil : rs ≠ [] := by
        rintro rfl
        exact hfits (by simp)
      rw [hsession, if_pos (List.length_pos_iff.2 (renderAll_ne_nil hnil))]
      exact ih hfile.2 hfits hh' hbuf'
    · rw [HttpData.session_eq, r.outcome_render hh.state hbuf, hh.headtToValue, Outcome.play,
        HttpData.requestPlay]
      have hreply := r.reply_request_of_not_fits fs hfirst
      simp only [HttpData.request]
      rw [RequestText.request] at hreply
      simp only [hreply]

/-! ## Pipelined requests -/

namespace Conn

/-- Handling the requests has answered each of them, exactly once and in order,
    and has left the connection ready for the next one. -/
def ServesAll (fs : FileSystem) (c : Conn) (reads : List ReadResult) (rs : List RequestText) :
    Prop :=
  ∃ c', (c.onEvent reads []).handleRead fs = .ok c' ∧
    c'.analysed = rs.map RequestText.request ∧ c'.socket.sent = responses fs rs ∧
    c'.http.inBuffer = [] ∧ c'.http.outBuffer = [] ∧ c'.http.error = false ∧
    c'.http.state = .parseUrl

/-- Well-formed requests for files that arrive in one readable event are all
    answered exactly if the number of their bytes is not negative once it is an
    `int`, and in each path, the position of the first dot survives too. -/
theorem servesAll_iff {fs : FileSystem} {c : Conn} (hc : c.Fresh) {rs : List RequestText}
    (hrs : rs ≠ []) (hfile : ∀ r ∈ rs, r.Names fs) {reads : List ReadResult}
    (hreads : Delivers reads (renderAll rs)) :
    c.ServesAll fs reads rs ↔
      0 ≤ toInt (renderAll rs).length ∧ ∀ r ∈ rs, DotFits r.url := by
  obtain ⟨hsent, hanalysed, id, fd, method, ch, t, hhttp⟩ := hc.eq
  have hh : (c.http.erase.receive (renderAll rs)).Restarted := by
    rw [hhttp]
    exact ⟨rfl, rfl, rfl⟩
  have hbuf : (c.http.erase.receive (renderAll rs)).inBuffer = renderAll rs := by
    rw [hhttp]
    rfl
  have hmatch : 0 ≤ toInt (renderAll rs).length →
      c.Matches ((c.http.erase.receive (renderAll rs)).session fs)
        ((c.onEvent reads []).handleRead fs) :=
    fun hlen => handleRead_matches fs (hc.calm reads) hreads hlen
  constructor
  · rintro ⟨c', hrun, -, -, -, -, herror, -⟩
    -- Otherwise the read counts as failed, and `error` is set.
    have hlen : 0 ≤ toInt (renderAll rs).length := by
      by_contra hneg
      have hbad := handleRead_of_neg (c := c.onEvent reads []) hreads (Int.not_le.1 hneg) hrun
      rw [herror] at hbad
      cases hbad
    refine ⟨hlen, ?_⟩
    -- Otherwise the session crashes, and so does `handleRead`.
    by_contra hfits
    have hend := hmatch hlen
    rw [hrun] at hend
    have hend := hend.2.2
    rw [session_renderAll_of_not_fits hfile hfits hh hbuf] at hend
    exact hend
  · rintro ⟨hlen, hfits⟩
    obtain ⟨h', hh', hbuf', hout', hsession⟩ := session_renderAll hrs hfile hfits hh hbuf
    have hmatch := hmatch hlen
    rw [hsession] at hmatch
    cases hrun : (c.onEvent reads []).handleRead fs with
    | error e =>
      rw [hrun] at hmatch
      cases hmatch.1
    | ok c' =>
      rw [hrun] at hmatch
      obtain ⟨ha, hs, herase, hcalm, -⟩ := hmatch
      rw [hanalysed] at ha
      rw [hsent] at hs
      refine ⟨c', hrun, ha, hs, ?_, hcalm.outBuffer, hcalm.error, ?_⟩
      · rw [← hbuf', ← herase]
        rfl
      · rw [← hh'.state, ← herase]
        rfl

/-- A request for the start page, with a version of any length. -/
def getStart (n : ℕ) : RequestText where
  method := .get
  target := bytes "/"
  version := List.replicate n 49
  fields := [⟨bytes "Connection", true, bytes "keep-alive", by decide +kernel, by decide +kernel,
    by decide +kernel⟩]
  target_plain := by decide +kernel
  version_plain := by simp [List.mem_replicate, sp, cr, lf]
  method_ne := HttpMethod.noConfusion
  spaced := by simp [Head.Spaced]

def headStart (n : ℕ) : RequestText :=
  { getStart n with method := .head, method_ne := HttpMethod.noConfusion }

theorem names_of_target {r : RequestText} (htarget : r.target = bytes "/") :
    r.Names (.logHtml (bytes "hi")) := by
  refine ⟨bytes "hi", by decide +kernel, ?_⟩
  rw [Head.url, htarget]
  decide +kernel

theorem length_getStart (n : ℕ) : (renderAll [getStart n]).length = n + 34 := by
  have htoken : (bytes "GET").length = 3 := by decide +kernel
  have htarget : (bytes "/").length = 1 := by decide +kernel
  have hname : (bytes "Connection").length = 10 := by decide +kernel
  have hvalue : (bytes "keep-alive").length = 10 := by decide +kernel
  simp [renderAll, Head.render, Head.line, HttpMethod.token, Field.line, Field.text, getStart,
    htoken, htarget, hname, hvalue]
  omega

/-- Two short requests are answered. -/
theorem servesAll_iff_startPage :
    first.ServesAll (.logHtml (bytes "hi"))
        [.data ⟨renderAll [getStart 1, headStart 1], by decide +kernel,
          by decide +kernel⟩]
        [getStart 1, headStart 1] ↔
      0 ≤ toInt (renderAll [getStart 1, headStart 1]).length ∧
        ∀ r ∈ [getStart 1, headStart 1], DotFits r.url :=
  servesAll_iff first_fresh (by simp) (by
      simp only [List.forall_mem_cons, List.not_mem_nil]
      exact ⟨names_of_target rfl, names_of_target rfl, by simp⟩) (by
    simpa using Delivers.data ⟨renderAll [getStart 1, headStart 1], by decide +kernel,
      by decide +kernel⟩ delivers_nil)

/-- A request of more than `2 ^ 31` bytes is taken for a read error. -/
theorem not_servesAll_long :
    ¬∀ (fs : FileSystem) (c : Conn), c.Fresh → ∀ rs : List RequestText, rs ≠ [] →
      (∀ r ∈ rs, r.Names fs) → ∀ reads : List ReadResult, Delivers reads (renderAll rs) →
      c.ServesAll fs reads rs := by
  intro h
  obtain ⟨reads, hreads⟩ := exists_delivers (renderAll [getStart 0x80000000])
  obtain ⟨c', hrun, -, -, -, -, herror, -⟩ := h (.logHtml (bytes "hi")) first first_fresh
    [getStart 0x80000000] (by simp) (by simpa using names_of_target rfl) reads hreads
  have hneg : toInt (renderAll [getStart 0x80000000]).length < 0 := by
    rw [length_getStart]
    decide
  have hbad := handleRead_of_neg (c := first.onEvent reads []) hreads hneg hrun
  rw [herror] at hbad
  cases hbad

end Conn

end Webserver
