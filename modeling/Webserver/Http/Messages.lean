import Webserver.Decimal
import Webserver.Http.Session
import Webserver.Lib.Message

/-!
# Responses as messages

What `analysisRequest` and `handleError` write are messages with a start line,
header fields and a body (`okMessage`, `errorMessage`), which whoever reads the
response can tell apart.

* `Conn.headAgrees_iff`: a `HEAD` request is answered with the head of the response
  to a `GET` request, if there is a file that is not empty. Else there is an error
  page, which has a body, or only the `GET` request is refused.
* `Conn.returnsFile_iff`: a `GET` request is answered with the file, or with an error
  page if there is none, unless the file is empty.

In both, the paths `hello` and `Hello` are an exception.
-/

namespace Webserver

open Text

/-- Lines end with CR LF. A colon and a space follow the name of a header field. -/
def crlf : Delimiters UInt8 := ⟨cr, [lf], colon, [sp], by decide⟩

abbrev HttpMessage := Text.Message crlf

/-- The header says how long the body is. -/
def HttpMessage.Sized (m : HttpMessage) : Prop :=
  m.value (bytes "Content-Length") = some (toStr m.body.length)

/-! ## What the parts of a response contain -/

theorem cr_notMem_getMime (suffix : Bytes) : cr ∉ getMime suffix := by
  have hmime : ∀ p ∈ mime, cr ∉ p.2 := by decide +kernel
  rw [getMime]
  split
  · decide +kernel
  · next filetype hlookup =>
    obtain ⟨l₁, l₂, hl, -⟩ := List.lookup_eq_some_iff.1 hlookup
    exact hmime (suffix, filetype) (by simp [hl])

theorem cr_notMem_filetype {url t : Bytes} (h : filetype url = .ok t) : cr ∉ t := by
  rw [filetype] at h
  split at h
  · cases h
    exact cr_notMem_getMime _
  · split at h
    · cases h
      exact cr_notMem_getMime _
    · cases h

/-! ## The response for a file -/

theorem isField_mk {name value : Bytes} (hname : colon ∉ name ∧ cr ∉ name)
    (hvalue : cr ∉ value) : crlf.IsField (name, value) := ⟨hname.1, hname.2, hvalue⟩

theorem field_crlf (name value : Bytes) :
    crlf.field (name, value) = name ++ bytes ": " ++ value ++ bytes "\r\n" := by
  have hsep : bytes ": " = [colon, sp] := by decide +kernel
  have heol : bytes "\r\n" = [cr, lf] := by decide +kernel
  simp [hsep, heol, Delimiters.field, Delimiters.line, crlf]

/-- The header fields that say how long the connection is kept alive. -/
def connectionFields (m : Headers) : List (Bytes × Bytes) :=
  if keepAlive m then
    [(bytes "Connection", bytes "Keep-Alive"),
      (bytes "Keep-Alive", bytes "timeout=" ++ toStr DEFAULT_KEEP_ALIVE_TIME)]
  else []

theorem isField_connectionFields {m : Headers} : ∀ f ∈ connectionFields m, crlf.IsField f := by
  rw [connectionFields]
  split
  · decide +kernel
  · exact nofun

/-- The response for a file of the given type and content. -/
def okMessage (m : Headers) (filetype content : Bytes) (hfiletype : cr ∉ filetype) :
    HttpMessage where
  start := bytes "HTTP/1.1 200 OK"
  fields := connectionFields m ++
    [(bytes "Content-Type", filetype), (bytes "Content-Length", toStr content.length),
      (bytes "Server", bytes "ZHF's web server")]
  body := content
  eol_notMem_start := by decide +kernel
  isField := by
    refine List.forall_mem_append.2 ⟨isField_connectionFields, ?_⟩
    simp only [List.forall_mem_cons]
    exact ⟨isField_mk (by decide +kernel) hfiletype,
      isField_mk (by decide +kernel) (notMem_toStr (by decide) _), by decide +kernel, nofun⟩

theorem statusLines_eq (m : Headers) : statusLines m =
    crlf.line (bytes "HTTP/1.1 200 OK") ++ crlf.fieldLines (connectionFields m) := by
  rw [statusLines, connectionFields]
  split <;> decide +kernel

theorem head_okMessage {m : Headers} {filetype content : Bytes} (hfiletype : cr ∉ filetype) :
    (okMessage m filetype content hfiletype).head = responseHeader m filetype content.length := by
  have htype : bytes "Content-Type: " = bytes "Content-Type" ++ bytes ": " := by decide +kernel
  have hlength : bytes "Content-Length: " = bytes "Content-Length" ++ bytes ": " := by
    decide +kernel
  have hserver : bytes "Server: ZHF's web server\r\n" =
      crlf.field (bytes "Server", bytes "ZHF's web server") := by decide +kernel
  have hempty : bytes "\r\n" = crlf.line [] := by decide +kernel
  rw [responseHeader, statusLines_eq, htype, hlength, hserver, Text.Message.head, okMessage]
  simp only [Delimiters.fieldLines_append, Delimiters.fieldLines_cons, field_crlf, ← hempty,
    Delimiters.fieldLines_nil, List.append_assoc, List.append_nil]

theorem sized_okMessage {m : Headers} {filetype content : Bytes} (hfiletype : cr ∉ filetype) :
    (okMessage m filetype content hfiletype).Sized := by
  have hconnection : (connectionFields m).lookup (bytes "Content-Length") = none := by
    rw [connectionFields]
    split <;> decide +kernel
  have hname : (bytes "Content-Length" == bytes "Content-Type") = false := by decide +kernel
  rw [HttpMessage.Sized, Text.Message.value, okMessage, List.lookup_append, hconnection,
    Option.none_or, List.lookup_cons, hname, List.lookup_cons_self]

/-! ## Error pages -/

/-- An error page. -/
def errorMessage (errnum : ℕ) (shortmsg : Bytes) (hshortmsg : cr ∉ shortmsg) : HttpMessage where
  start := bytes "HTTP/1.1 " ++ toStr errnum ++ (bytes " " ++ shortmsg)
  fields :=
    [(bytes "Content-Type", bytes "text/html"), (bytes "Connection", bytes "Close"),
      (bytes "Content-Length", toStr (errorBody errnum shortmsg).length),
      (bytes "Server", bytes "Z's Web Server")]
  body := errorBody errnum shortmsg
  eol_notMem_start := by
    simp only [List.mem_append, not_or]
    exact ⟨⟨by decide +kernel, notMem_toStr (by decide) _⟩, by decide +kernel, hshortmsg⟩
  isField := by
    simp only [List.forall_mem_cons]
    exact ⟨by decide +kernel, by decide +kernel,
      isField_mk (by decide +kernel) (notMem_toStr (by decide) _), by decide +kernel, nofun⟩

theorem sized_errorMessage {errnum : ℕ} {shortmsg : Bytes} (hshortmsg : cr ∉ shortmsg) :
    (errorMessage errnum shortmsg hshortmsg).Sized := by
  have htype : (bytes "Content-Length" == bytes "Content-Type") = false := by decide +kernel
  have hconnection : (bytes "Content-Length" == bytes "Connection") = false := by decide +kernel
  rw [HttpMessage.Sized, Text.Message.value, errorMessage, List.lookup_cons, htype,
    List.lookup_cons, hconnection, List.lookup_cons_self]

theorem head_errorMessage {errnum : ℕ} {shortmsg : Bytes} (hshortmsg : cr ∉ shortmsg) :
    (errorMessage errnum shortmsg hshortmsg).head = errorHeader errnum shortmsg := by
  have htype : bytes "Content-Type: text/html\r\n" =
      crlf.field (bytes "Content-Type", bytes "text/html") := by decide +kernel
  have hconnection : bytes "Connection: Close\r\n" =
      crlf.field (bytes "Connection", bytes "Close") := by decide +kernel
  have hlength : bytes "Content-Length: " = bytes "Content-Length" ++ bytes ": " := by
    decide +kernel
  have hserver : bytes "Server: Z's Web Server\r\n" =
      crlf.field (bytes "Server", bytes "Z's Web Server") := by decide +kernel
  have hempty : crlf.line [] = bytes "\r\n" := by decide +kernel
  have hline : ∀ s, crlf.line s = s ++ bytes "\r\n" := fun s => by
    rw [← hempty]; rfl
  rw [errorHeader, htype, hconnection, hlength, hserver, Text.Message.head, errorMessage, hline]
  simp only [Delimiters.fieldLines_cons, field_crlf, hempty,
    Delimiters.fieldLines_nil, List.append_assoc, List.append_nil]

/-- A message without NUL is sent as it is. -/
theorem render_errorMessage {errnum : ℕ} {shortmsg : Bytes} (hshortmsg : cr ∉ shortmsg)
    (hnul : 0 ∉ shortmsg) :
    (errorMessage errnum shortmsg hshortmsg).render = errorPage errnum shortmsg := by
  have hbody : 0 ∉ errorBody errnum shortmsg := by
    simp only [errorBody, List.mem_append, not_or, and_assoc]
    exact ⟨by decide +kernel, by decide +kernel, notMem_toStr (by decide) _, by decide +kernel,
      hnul, by decide +kernel⟩
  have hhead : 0 ∉ errorHeader errnum shortmsg := by
    simp only [errorHeader, List.mem_append, not_or, and_assoc]
    exact ⟨by decide +kernel, notMem_toStr (by decide) _, by decide +kernel, hnul,
      by decide +kernel, by decide +kernel, by decide +kernel, by decide +kernel,
      notMem_toStr (by decide) _, by decide +kernel, by decide +kernel, by decide +kernel⟩
  rw [Text.Message.render, head_errorMessage, errorPage, cStr_eq_self hhead, cStr_eq_self hbody]
  rfl

/-- The page for a request that is refused. -/
def notFoundPage : HttpMessage := errorMessage 404 (bytes "Not Fount!") (by decide +kernel)

theorem render_notFoundPage : notFoundPage.render = errorPage 404 (bytes "Not Fount!") :=
  render_errorMessage _ (by decide +kernel)

/-! ## The response to a request -/

/-- What a reply comes to: the value returned, and the bytes of the response. -/
def Reply.outcome : Reply → Except Fault (AnalysisState × Bytes)
  | .crash f => .error f
  | .answered r => .ok (.success, r)
  | .notFound => .ok (.error, notFoundPage.render)
  | .unsupported => .ok (.error, [])

namespace Conn

variable {fs : FileSystem} {c : Conn}

/-- The value returned by `analysisRequest`, and the bytes that it has sent or left to
    send. -/
def produced : Except (Fault × Conn) (AnalysisState × Conn) → Except Fault (AnalysisState × Bytes)
  | .error (f, _) => .error f
  | .ok (state, c) => .ok (state, c.socket.sent ++ c.http.outBuffer)

/-- The connection about to answer a request by the given method, with nothing to send
    and a socket that takes all it is given. -/
def asked (c : Conn) (method : HttpMethod) : Conn :=
  { c with
    http.method := some method
    http.outBuffer := []
    socket.writes := []
    socket.sent := [] }

/-- What `analysisRequest` answers. -/
def answerTo (fs : FileSystem) (c : Conn) (method : HttpMethod) :
    Except Fault (AnalysisState × Bytes) :=
  produced ((c.asked method).analysisRequest fs)

theorem produced_handleReply (hout : c.http.outBuffer = []) (hsent : c.socket.sent = [])
    (hwrites : c.socket.writes = []) (reply : Reply) :
    produced (c.handleReply fs reply) = reply.outcome := by
  cases reply with
  | crash f => rfl
  | answered r =>
    rw [handleReply]
    split <;> simp [produced, Reply.outcome, output, clearOutput, hout, hsent]
  | notFound =>
    obtain ⟨d, hd, hreply⟩ := c.handleReply_notFound fs
    rw [hreply, notFound, handleError_nil (by rcases hd with rfl | rfl <;> exact hwrites),
      ← render_notFoundPage]
    rcases hd with rfl | rfl <;> simp [produced, Reply.outcome, clearOutput, hout, hsent]
  | unsupported => simp [produced, Reply.outcome, handleReply, hout, hsent]

theorem answerTo_get : c.answerTo fs .get =
    (fileReply fs c.http.url c.http.headtToValue false).outcome := by
  rw [answerTo, analysisRequest_eq_reply]
  exact produced_handleReply rfl rfl rfl _

theorem answerTo_head : c.answerTo fs .head =
    (fileReply fs c.http.url c.http.headtToValue true).outcome := by
  rw [answerTo, analysisRequest_eq_reply]
  exact produced_handleReply rfl rfl rfl _

end Conn

/-! ## Files -/

/-- Only files that are not empty can be mapped. -/
theorem serves_get_iff {fs : FileSystem} {url : Bytes} :
    Serves fs url false ↔ ∃ content, content ≠ [] ∧ fs.Stores url content := by
  simp only [Serves, Bool.false_eq_true, false_or]
  constructor
  · rintro ⟨inode, hinode, hread, hmap⟩
    cases inode with
    | regular content readable =>
      refine ⟨content, ?_, hinode.trans (by rw [show readable = true from hread])⟩
      rintro rfl
      cases hmap
    | directory size readable => cases hmap
    | special size readable => cases hmap
  · rintro ⟨content, hne, hstores⟩
    exact ⟨_, hstores, rfl, by simp [Inode.mmap, Inode.size, hne]⟩

section Reply

variable {fs : FileSystem} {url content : Bytes} {m : Headers}

/-- A file that is not empty is answered with its content, or with the header for it. -/
theorem fileReply_of_stores (hfits : DotFits url)
    (hhello : ¬(url = bytes "hello" ∨ url = bytes "Hello")) (hne : content ≠ [])
    (hstores : fs.Stores url content) :
    ∃ t, ∃ ht : cr ∉ t,
      fileReply fs url m false = .answered (okMessage m t content ht).render ∧
      fileReply fs url m true = .answered (okMessage m t content ht).head := by
  obtain ⟨t, ht⟩ := filetype_of_fits hfits
  refine ⟨t, cr_notMem_filetype ht, ?_⟩
  simp only [fileReply, ht, if_neg hhello, response_of_stores hstores hne, Text.Message.render,
    head_okMessage]
  exact ⟨rfl, congrArg Reply.answered (List.append_nil _)⟩

/-- Without a file that is not empty, a `GET` request is refused. -/
theorem fileReply_of_not_stores (hfits : DotFits url)
    (hhello : ¬(url = bytes "hello" ∨ url = bytes "Hello"))
    (hstores : ¬∃ content, content ≠ [] ∧ fs.Stores url content) :
    fileReply fs url m false = .notFound := by
  obtain ⟨t, ht⟩ := filetype_of_fits hfits
  rw [← serves_get_iff, serves_iff m t, ← Option.ne_none_iff_exists', not_not] at hstores
  simp only [fileReply, ht, if_neg hhello, hstores]

/-- The type of the path cannot be told. -/
theorem fileReply_of_not_fits (hfits : ¬DotFits url) (head : Bool) :
    fileReply fs url m head = .crash .outOfRange := by
  rw [fileReply, filetype_of_not_fits hfits]

/-- The message that answers the paths `hello` and `Hello`. -/
def helloMessage : HttpMessage where
  start := bytes "HTTP/1.1 200 OK"
  fields := [(bytes "Content-type", bytes "text/plain")]
  body := bytes "Hello World"
  eol_notMem_start := by decide +kernel
  isField := by decide +kernel

theorem fileReply_of_hello (hfits : DotFits url)
    (hhello : url = bytes "hello" ∨ url = bytes "Hello") (head : Bool) :
    fileReply fs url m head = .answered helloMessage.render := by
  have hrender : helloMessage.render = helloWorld := by decide +kernel
  obtain ⟨t, ht⟩ := filetype_of_fits hfits
  simp only [fileReply, ht, if_pos hhello, hrender]

end Reply

/-! ## `HEAD` and `GET` requests -/

/-- The same value is returned, and the second response is the head of the first. -/
def IsHead : Except Fault (AnalysisState × Bytes) → Except Fault (AnalysisState × Bytes) → Prop
  | .error f, .error f' => f = f'
  | .ok (state, s), .ok (state', s') =>
    state = state' ∧ ∃ m : HttpMessage, m.render = s ∧ m.head = s'
  | _, _ => False

/-- A message with a body is not the head of itself. -/
theorem not_isHead_render {m : HttpMessage} (hbody : m.body ≠ []) (state : AnalysisState) :
    ¬IsHead (.ok (state, m.render)) (.ok (state, m.render)) := by
  rintro ⟨-, m', hrender, hhead⟩
  obtain rfl := Text.Message.render_injective hrender
  exact hbody (List.self_eq_append_right.1 hhead)

namespace Conn

/-- A `HEAD` request is answered with the head of what a `GET` request is answered with. -/
def HeadAgrees (fs : FileSystem) (c : Conn) : Prop :=
  IsHead (c.answerTo fs .get) (c.answerTo fs .head)

variable {fs : FileSystem} {c : Conn}

theorem headAgrees_of_stores {content : Bytes} (hfits : DotFits c.http.url)
    (hhello : ¬(c.http.url = bytes "hello" ∨ c.http.url = bytes "Hello")) (hne : content ≠ [])
    (hstores : fs.Stores c.http.url content) : c.HeadAgrees fs := by
  obtain ⟨t, ht, hget, hhead⟩ := fileReply_of_stores hfits hhello hne hstores
  rw [HeadAgrees, answerTo_get, answerTo_head, hget, hhead]
  exact ⟨rfl, _, rfl, rfl⟩

/-- A `GET` request that is refused is refused with a page. If the `HEAD` request is
    refused as well, it is with the same page. -/
theorem not_headAgrees_of_not_stores (hfits : DotFits c.http.url)
    (hhello : ¬(c.http.url = bytes "hello" ∨ c.http.url = bytes "Hello"))
    (hstores : ¬∃ content, content ≠ [] ∧ fs.Stores c.http.url content) :
    ¬c.HeadAgrees fs := by
  rw [HeadAgrees, answerTo_get, answerTo_head, fileReply_of_not_stores hfits hhello hstores]
  cases fileReply fs c.http.url c.http.headtToValue true with
  | crash f => exact id
  | answered r => exact fun h => AnalysisState.noConfusion h.1
  | notFound => exact not_isHead_render (by decide +kernel) .error
  | unsupported =>
    rintro ⟨-, m, -, hhead⟩
    exact absurd hhead (by simp [Text.Message.head, Delimiters.line])

theorem not_headAgrees_of_hello (hfits : DotFits c.http.url)
    (hhello : c.http.url = bytes "hello" ∨ c.http.url = bytes "Hello") : ¬c.HeadAgrees fs := by
  rw [HeadAgrees, answerTo_get, answerTo_head, fileReply_of_hello hfits hhello,
    fileReply_of_hello hfits hhello]
  exact not_isHead_render (by decide +kernel) .success

/-- `HEAD` and `GET` requests agree on a file that is not empty, and where the process
    ends. -/
theorem headAgrees_iff (fs : FileSystem) (c : Conn) :
    c.HeadAgrees fs ↔
      ¬DotFits c.http.url ∨
        ¬(c.http.url = bytes "hello" ∨ c.http.url = bytes "Hello") ∧
          ∃ content, content ≠ [] ∧ fs.Stores c.http.url content := by
  by_cases hfits : DotFits c.http.url
  · rw [or_iff_right (not_not_intro hfits)]
    by_cases hhello : c.http.url = bytes "hello" ∨ c.http.url = bytes "Hello"
    · exact iff_of_false (not_headAgrees_of_hello hfits hhello) fun h => h.1 hhello
    · rw [and_iff_right hhello]
      constructor
      · intro hagrees
        by_contra hstores
        exact not_headAgrees_of_not_stores hfits hhello hstores hagrees
      · rintro ⟨content, hne, hstores⟩
        exact headAgrees_of_stores hfits hhello hne hstores
  · rw [HeadAgrees, answerTo_get, answerTo_head, fileReply_of_not_fits hfits,
      fileReply_of_not_fits hfits]
    exact iff_of_true rfl (.inl hfits)

/-- A path that names nothing. -/
theorem not_headAgrees_missing :
    ¬({ first with http.url := bytes "root/missing" } : Conn).HeadAgrees (.logHtml []) := by
  refine not_headAgrees_of_not_stores (by decide +kernel) (by decide +kernel) ?_
  rintro ⟨content, -, hstores⟩
  have hlookup : (FileSystem.logHtml []).lookup (cStr (bytes "root/missing")) = none := by
    decide +kernel
  cases hlookup.symm.trans hstores

/-- A `GET` request is answered with the file that its path names, or with an error page
    if there is none. -/
structure ReturnsFile (fs : FileSystem) (c : Conn) : Prop where
  found : ∀ content, fs.Stores c.http.url content → ∃ m : HttpMessage,
    c.answerTo fs .get = .ok (.success, m.render) ∧ m.start = bytes "HTTP/1.1 200 OK" ∧
      m.Sized ∧ m.body = content
  missing : (¬∃ content, fs.Stores c.http.url content) → ∃ m : HttpMessage,
    c.answerTo fs .get = .ok (.error, m.render) ∧ bytes "HTTP/1.1 404 " <+: m.start ∧ m.Sized

theorem returnsFile_of_not_nil (hfits : DotFits c.http.url)
    (hhello : ¬(c.http.url = bytes "hello" ∨ c.http.url = bytes "Hello"))
    (hnil : ¬fs.Stores c.http.url []) : c.ReturnsFile fs where
  found content hstores := by
    have hne : content ≠ [] := by
      rintro rfl
      exact hnil hstores
    obtain ⟨t, ht, hget, -⟩ := fileReply_of_stores hfits hhello hne hstores
    refine ⟨okMessage c.http.headtToValue t content ht, ?_, rfl, sized_okMessage ht, rfl⟩
    rw [answerTo_get, hget]
    rfl
  missing hstores := by
    refine ⟨notFoundPage, ?_, by decide +kernel, sized_errorMessage _⟩
    rw [answerTo_get, fileReply_of_not_stores hfits hhello fun ⟨content, _, h⟩ =>
      hstores ⟨content, h⟩]
    rfl

/-- An empty file is not found. -/
theorem not_returnsFile_of_nil (hfits : DotFits c.http.url)
    (hhello : ¬(c.http.url = bytes "hello" ∨ c.http.url = bytes "Hello"))
    (hnil : fs.Stores c.http.url []) : ¬c.ReturnsFile fs := by
  have hstores : ¬∃ content, content ≠ [] ∧ fs.Stores c.http.url content := by
    rintro ⟨content, hne, hstores⟩
    have heq := hnil.symm.trans hstores
    simp only [Option.some.injEq, Inode.regular.injEq, and_true] at heq
    exact hne heq.symm
  intro hreturns
  obtain ⟨m, hm, -⟩ := hreturns.found [] hnil
  rw [answerTo_get, fileReply_of_not_stores hfits hhello hstores] at hm
  cases hm

/-- In any case, there is an answer that says how long it is. -/
theorem ReturnsFile.exists_sized (h : c.ReturnsFile fs) :
    ∃ (state : AnalysisState) (m : HttpMessage),
      c.answerTo fs .get = .ok (state, m.render) ∧ m.Sized := by
  by_cases hstores : ∃ content, fs.Stores c.http.url content
  · obtain ⟨content, hstores⟩ := hstores
    obtain ⟨m, hm, -, hsized, -⟩ := h.found content hstores
    exact ⟨.success, m, hm, hsized⟩
  · obtain ⟨m, hm, -, hsized⟩ := h.missing hstores
    exact ⟨.error, m, hm, hsized⟩

/-- What answers the paths `hello` and `Hello` does not say how long it is. -/
theorem not_returnsFile_of_hello (hfits : DotFits c.http.url)
    (hhello : c.http.url = bytes "hello" ∨ c.http.url = bytes "Hello") : ¬c.ReturnsFile fs := by
  intro hreturns
  obtain ⟨state, m, hm, hsized⟩ := hreturns.exists_sized
  rw [answerTo_get, fileReply_of_hello hfits hhello, Reply.outcome, Except.ok.injEq,
    Prod.mk.injEq] at hm
  obtain rfl := Text.Message.render_injective hm.2
  exact absurd hsized (by rw [HttpMessage.Sized]; decide +kernel)

theorem not_returnsFile_of_not_fits (hfits : ¬DotFits c.http.url) : ¬c.ReturnsFile fs := by
  intro hreturns
  obtain ⟨state, m, hm, -⟩ := hreturns.exists_sized
  rw [answerTo_get, fileReply_of_not_fits hfits] at hm
  cases hm

/-- Files are returned except for the empty ones. -/
theorem returnsFile_iff (fs : FileSystem) (c : Conn) :
    c.ReturnsFile fs ↔
      DotFits c.http.url ∧ ¬(c.http.url = bytes "hello" ∨ c.http.url = bytes "Hello") ∧
        ¬fs.Stores c.http.url [] := by
  constructor
  · intro hreturns
    have hfits : DotFits c.http.url := by
      by_contra hfits
      exact not_returnsFile_of_not_fits hfits hreturns
    have hhello : ¬(c.http.url = bytes "hello" ∨ c.http.url = bytes "Hello") :=
      fun hhello => not_returnsFile_of_hello hfits hhello hreturns
    exact ⟨hfits, hhello, fun hnil => not_returnsFile_of_nil hfits hhello hnil hreturns⟩
  · rintro ⟨hfits, hhello, hnil⟩
    exact returnsFile_of_not_nil hfits hhello hnil

/-- An empty file. -/
theorem not_returnsFile_empty :
    ¬({ first with http.url := bytes "root/log.html" } : Conn).ReturnsFile (.logHtml []) :=
  not_returnsFile_of_nil (by decide +kernel) (by decide +kernel) (by decide +kernel)

end Conn

end Webserver
