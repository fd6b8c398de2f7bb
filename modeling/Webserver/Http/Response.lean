import Webserver.Http.Parse

/-!
# Answering requests

`analysisRequest` answers a parsed request from the file system, appending the
response to `outBuffer`; `handleError` answers one that failed, writing an error
page straight to the socket.

The file system is fixed, and does what POSIX says of `stat`, `open` and
`mmap`: the empty path names nothing, and only regular files with at least one
byte can be mapped.
-/

namespace Webserver

open Text

/-! ## The file system -/

/-- What a path can name. -/
inductive Inode
  | regular (content : Bytes) (readable : Bool)
  | directory (size : ℕ) (readable : Bool)
  | special (size : ℕ) (readable : Bool)
  deriving DecidableEq

namespace Inode

/-- `st_size`. -/
def size : Inode → ℕ
  | regular content _ => content.length
  | directory size _ => size
  | special size _ => size

/-- Whether it can be opened for reading. -/
def readable : Inode → Bool
  | regular _ readable => readable
  | directory _ readable => readable
  | special _ readable => readable

/-- Mapping the first bytes of an open file. -/
def mmap (inode : Inode) (length : ℕ) : Option Bytes :=
  match inode with
  | regular content _ => if length = 0 then none else some (content.take length)
  | _ => none

end Inode

/-- What the paths of the file system name. The empty path names nothing. -/
structure FileSystem where
  lookup : Bytes → Option Inode
  lookup_nil : lookup [] = none

namespace FileSystem

/-- The size of what a path names, if it names something. -/
def stat (fs : FileSystem) (path : Bytes) : Option ℕ := (fs.lookup path).map Inode.size

/-- Opening a path for reading. -/
def openRead (fs : FileSystem) (path : Bytes) : Option Inode :=
  (fs.lookup path).filter Inode.readable

/-- A file system with one file, `root/log.html`. -/
def logHtml (content : Bytes) : FileSystem where
  lookup path := if path = bytes "root/log.html" then some (.regular content true) else none
  lookup_nil := if_neg (by decide +kernel)

end FileSystem

/-! ## Content types -/

/-- The content types of file extensions. -/
def mime : List (Bytes × Bytes) :=
  [(bytes ".html", bytes "text/html"),
   (bytes ".avi", bytes "video/x-msvideo"),
   (bytes ".bmp", bytes "image/bmp"),
   (bytes ".c", bytes "text/plain"),
   (bytes ".doc", bytes "application/msword"),
   (bytes ".gif", bytes "image/gif"),
   (bytes ".gz", bytes "application/x-gzip"),
   (bytes ".htm", bytes "text/html"),
   (bytes ".ico", bytes "image/x-icon"),
   (bytes ".jpg", bytes "image/jpeg"),
   (bytes ".png", bytes "image/png"),
   (bytes ".txt", bytes "text/plain"),
   (bytes ".mp3", bytes "audio/mp3"),
   (bytes "default", bytes "text/html")]

def getMime (suffix : Bytes) : Bytes :=
  match mime.lookup suffix with
  | none => (mime.lookup (bytes "default")).getD []
  | some filetype => filetype

/-- The position of the first dot of a path, as the `int` it is kept in. -/
def dotPos (url : Bytes) : ℤ :=
  match find dot url with
  | none => -1
  | some pos => toInt pos

/-- The content type of a path. A position past the end of the path makes
    `substr` throw. -/
def filetype (url : Bytes) : Except Fault Bytes :=
  if dotPos url = -1 then .ok (getMime (bytes "default"))
  else if toSizeT (dotPos url) ≤ url.length then .ok (getMime (url.drop (toSizeT (dotPos url))))
  else .error .outOfRange

/-- The type of a path can be told: it has no dot, or the position of its first
    dot survives the conversion to `int` and back. -/
def DotFits (url : Bytes) : Prop := dotPos url = -1 ∨ toSizeT (dotPos url) ≤ url.length

instance (url : Bytes) : Decidable (DotFits url) :=
  inferInstanceAs (Decidable (_ ∨ _))

theorem filetype_of_fits {url : Bytes} (h : DotFits url) : ∃ t, filetype url = .ok t := by
  rw [filetype]
  split
  · exact ⟨_, rfl⟩
  · next hpos => exact ⟨_, if_pos (h.resolve_left hpos)⟩

theorem filetype_of_not_fits {url : Bytes} (h : ¬DotFits url) :
    filetype url = .error .outOfRange := by
  rw [DotFits, not_or] at h
  rw [filetype, if_neg h.1, if_neg h.2]

/-- A dot before position `2 ^ 31`, or none, is no problem. -/
theorem dotFits_of_lt {url : Bytes} (h : ∀ pos, find dot url = some pos → pos < 0x80000000) :
    DotFits url := by
  rw [DotFits, dotPos]
  cases hpos : find dot url with
  | none => exact .inl rfl
  | some pos =>
    refine .inr ?_
    have hlt := lt_length_of_find hpos
    simp only [toInt_of_lt (h pos hpos), toSizeT]
    omega

/-! ## Responses -/

/-- Whether the request asks for the connection to be kept alive. -/
def keepAlive (m : Headers) : Bool :=
  m.lookup (bytes "Connection") = some (bytes "keep-alive") ∨
    m.lookup (bytes "Connection") = some (bytes "Keep-Alive")

/-- The first lines of the response header. -/
def statusLines (m : Headers) : Bytes :=
  bytes "HTTP/1.1 200 OK\r\n" ++
    if keepAlive m then
      bytes "Connection: Keep-Alive\r\n" ++ bytes "Keep-Alive: timeout=" ++
        toStr DEFAULT_KEEP_ALIVE_TIME ++ bytes "\r\n"
    else []

/-- The header of the response for something of the given type and size. -/
def responseHeader (m : Headers) (filetype : Bytes) (size : ℕ) : Bytes :=
  statusLines m ++ bytes "Content-Type: " ++ filetype ++ bytes "\r\n" ++
    bytes "Content-Length: " ++ toStr size ++ bytes "\r\n" ++
    bytes "Server: ZHF's web server\r\n" ++ bytes "\r\n"

def errorBody (errnum : ℕ) (shortmsg : Bytes) : Bytes :=
  bytes "<html><title>哎~出错了</title>" ++ bytes "<body bgcolor=\"ffffff\">" ++
    (toStr errnum ++ (bytes " " ++ shortmsg)) ++
    bytes "<hr><em> Z's Web Server</em>\n</body></html>"

def errorHeader (errnum : ℕ) (shortmsg : Bytes) : Bytes :=
  bytes "HTTP/1.1 " ++ toStr errnum ++ (bytes " " ++ shortmsg) ++ bytes "\r\n" ++
    bytes "Content-Type: text/html\r\n" ++ bytes "Connection: Close\r\n" ++
    bytes "Content-Length: " ++ toStr (errorBody errnum shortmsg).length ++ bytes "\r\n" ++
    bytes "Server: Z's Web Server\r\n" ++ bytes "\r\n"

/-- The reply to a request for the paths `hello` and `Hello`. -/
def helloWorld : Bytes :=
  bytes "HTTP/1.1 200 OK\r\nContent-type: text/plain\r\n\r\nHello World"

/-- A path from the root is not one of those answered by `helloWorld`. -/
theorem not_hello_of_root {url : Bytes} (h : bytes "root" <+: url) :
    ¬(url = bytes "hello" ∨ url = bytes "Hello") := by
  obtain ⟨t, rfl⟩ := h
  -- The paths differ from it in their first four bytes.
  have htake : (bytes "root" ++ t).take 4 = bytes "root" := List.take_left' (by decide +kernel)
  rintro (h | h) <;> rw [h] at htake
  · exact absurd htake (by decide +kernel)
  · exact absurd htake (by decide +kernel)

namespace Conn

/-- Sends an error page, or what the socket takes of it at once. -/
def handleError (c : Conn) (errnum : ℕ) (shortmsg : Bytes) : Conn :=
  (c.writenRaw (cStr (errorHeader errnum shortmsg))).writenRaw (cStr (errorBody errnum shortmsg))

/-- Gives up on a response: an error page instead. -/
def notFound (c : Conn) : AnalysisState × Conn :=
  (.error, c.handleError 404 (bytes "Not Fount!"))

/-- Appending to the output. -/
def output (c : Conn) (s : Bytes) : Conn := { c with http.outBuffer := c.http.outBuffer ++ s }

/-- Clearing the output. -/
def clearOutput (c : Conn) : Conn := { c with http.outBuffer := [] }

/-- The part of `analysisRequest` that answers from the file system. -/
def serve (fs : FileSystem) (c : Conn) (head : Bool) (filetype : Bytes) : AnalysisState × Conn :=
  let path := cStr c.http.url
  match fs.stat path with
  | none => c.notFound
  | some size =>
    let c := c.output (responseHeader c.http.headtToValue filetype size)
    if head then (.success, c)
    else
      match fs.openRead path with
      -- What is cleared may hold responses that were not sent yet.
      | none => c.clearOutput.notFound
      | some file =>
        match file.mmap size with
        | none => c.clearOutput.notFound
        | some content => (.success, c.output content)

/-- The answer to a `GET` or `HEAD` request. -/
def answer (fs : FileSystem) (c : Conn) (head : Bool) :
    Except (Fault × Conn) (AnalysisState × Conn) :=
  let c := { c with http.isKeepAlive := c.http.isKeepAlive || keepAlive c.http.headtToValue }
  match filetype c.http.url with
  | .error f => .error (f, c)
  | .ok filetype =>
    -- The reply takes the place of the output instead of being appended.
    if c.http.url = bytes "hello" ∨ c.http.url = bytes "Hello" then
      .ok (.success, { c with http.outBuffer := helloWorld })
    else .ok (c.serve fs head filetype)

/-- Answers a request, or refuses it. The request is recorded. -/
def analysisRequest (fs : FileSystem) (c : Conn) :
    Except (Fault × Conn) (AnalysisState × Conn) :=
  let c := { c with analysed := c.analysed ++ [c.http.request] }
  match c.http.method with
  | some .get => c.answer fs false
  | some .head => c.answer fs true
  | some .post => .ok (.error, c)
  | none => .ok (.error, c)

end Conn

/-! ## What a request is answered -/

/-- The error page as it is sent. -/
def errorPage (errnum : ℕ) (shortmsg : Bytes) : Bytes :=
  cStr (errorHeader errnum shortmsg) ++ cStr (errorBody errnum shortmsg)

/-- What follows the header of a response: the content of the file, for a `GET`
    request, if it can be opened and mapped. -/
def body (fs : FileSystem) (path : Bytes) (head : Bool) (size : ℕ) : Option Bytes :=
  if head then some [] else (fs.openRead path).bind (Inode.mmap · size)

/-- The response from the file system, if there is one. -/
def response (fs : FileSystem) (url : Bytes) (m : Headers) (head : Bool) (filetype : Bytes) :
    Option Bytes :=
  (fs.stat (cStr url)).bind fun size =>
    (body fs (cStr url) head size).map (responseHeader m filetype size ++ ·)

/-- The path names a regular file that can be read. -/
def FileSystem.Stores (fs : FileSystem) (url content : Bytes) : Prop :=
  fs.lookup (cStr url) = some (.regular content true)

instance (fs : FileSystem) (url content : Bytes) : Decidable (fs.Stores url content) :=
  inferInstanceAs (Decidable (_ = _))

/-- The response for a file that is not empty. -/
theorem response_of_stores {fs : FileSystem} {url content : Bytes} {m : Headers}
    (hstores : fs.Stores url content) (hne : content ≠ []) (head : Bool) (filetype : Bytes) :
    response fs url m head filetype =
      some (responseHeader m filetype content.length ++ if head then [] else content) := by
  have hstat : fs.stat (cStr url) = some content.length := by
    rw [FileSystem.stat, hstores]
    rfl
  have hbody : body fs (cStr url) head content.length = some (if head then [] else content) := by
    cases head with
    | true => rfl
    | false =>
      have hopen : fs.openRead (cStr url) = some (.regular content true) := by
        rw [FileSystem.openRead, hstores]
        rfl
      have hlen : content.length ≠ 0 := by simpa using hne
      simp [body, hopen, Inode.mmap, hlen]
  rw [response, hstat, Option.bind_some, hbody, Option.map_some]

/-- What a request comes to: the process ends, a response is appended to the
    output, an error page is sent, or nothing is. -/
inductive Reply
  | crash (f : Fault)
  | answered (response : Bytes)
  | notFound
  | unsupported
  deriving DecidableEq

/-- The reply to a `GET` or `HEAD` request. -/
def fileReply (fs : FileSystem) (url : Bytes) (m : Headers) (head : Bool) : Reply :=
  match filetype url with
  | .error f => .crash f
  | .ok filetype =>
    if url = bytes "hello" ∨ url = bytes "Hello" then .answered helloWorld
    else
      match response fs url m head filetype with
      | none => .notFound
      | some r => .answered r

/-- The request is analysed, and asks for the connection to be kept alive. -/
def Request.keeps (r : Request) : Bool :=
  (r.method = some .get ∨ r.method = some .head) && keepAlive r.headtToValue

/-- The reply to a request. -/
def Request.reply (fs : FileSystem) (r : Request) : Reply :=
  match r.method with
  | some .get => fileReply fs r.url r.headtToValue false
  | some .head => fileReply fs r.url r.headtToValue true
  | some .post => .unsupported
  | none => .unsupported

/-- `serve` sends the response, if there is one. -/
theorem Conn.serve_of_some {fs : FileSystem} {c : Conn} {head : Bool} {filetype r : Bytes}
    (h : response fs c.http.url c.http.headtToValue head filetype = some r) :
    c.serve fs head filetype = (.success, c.output r) := by
  simp only [response, Option.bind_eq_some_iff, Option.map_eq_some_iff] at h
  obtain ⟨size, hsize, body, hbody, rfl⟩ := h
  simp only [serve, hsize]
  rw [Webserver.body] at hbody
  -- A `HEAD` request is answered without opening the file.
  cases head with
  | true =>
    cases hbody
    rw [List.append_nil]
    rfl
  | false =>
    obtain ⟨file, hfile, hmap⟩ := Option.bind_eq_some_iff.1 hbody
    simp only [Bool.false_eq_true, if_false, hfile, hmap, output, List.append_assoc]

/-- `serve` sends an error page, if there is no response. The output is lost if
    the file was found but could not be read. -/
theorem Conn.serve_of_none {fs : FileSystem} {c : Conn} {head : Bool} {filetype : Bytes}
    (h : response fs c.http.url c.http.headtToValue head filetype = none) :
    c.serve fs head filetype =
      (if (fs.stat (cStr c.http.url)).isSome then c.clearOutput else c).notFound := by
  simp only [serve]
  cases hsize : fs.stat (cStr c.http.url) with
  | none => rfl
  | some size =>
    rw [response, hsize, Option.bind_some, Option.map_eq_none_iff, Webserver.body] at h
    cases head with
    | true => cases h
    | false =>
      simp only [Bool.false_eq_true, if_false, Option.isSome_some, if_true]
      cases hfile : fs.openRead (cStr c.http.url) with
      | none => rfl
      | some file =>
        rw [if_neg Bool.false_ne_true, hfile, Option.bind_some] at h
        simp only [h]
        rfl

namespace Conn

/-- A request is recorded, and it may ask for the connection to be kept. -/
def analyse (c : Conn) : Conn :=
  { c with
    analysed := c.analysed ++ [c.http.request]
    http.isKeepAlive := c.http.isKeepAlive || c.http.request.keeps }

/-- What `analysisRequest` does with a reply. -/
def handleReply (fs : FileSystem) (c : Conn) : Reply → Except (Fault × Conn) (AnalysisState × Conn)
  | .crash f => .error (f, c)
  | .answered r => .ok (.success,
      if c.http.url = bytes "hello" ∨ c.http.url = bytes "Hello" then c.clearOutput.output r
      else c.output r)
  | .notFound => .ok (if (fs.stat (cStr c.http.url)).isSome then c.clearOutput else c).notFound
  | .unsupported => .ok (.error, c)

/-- A response is appended, except to one of the paths without a file. -/
theorem handleReply_answered {fs : FileSystem} {c : Conn} {r : Bytes}
    (hhello : ¬(c.http.url = bytes "hello" ∨ c.http.url = bytes "Hello")) :
    c.handleReply fs (.answered r) = .ok (.success, c.output r) := by
  rw [handleReply, if_neg hhello]

/-- A request for nothing that can be read is refused; the output may be lost. -/
theorem handleReply_notFound (fs : FileSystem) (c : Conn) :
    ∃ d, (d = c ∨ d = c.clearOutput) ∧ c.handleReply fs .notFound = .ok d.notFound := by
  refine ⟨_, ?_, rfl⟩
  split
  · exact .inr rfl
  · exact .inl rfl

theorem serve_eq_reply (fs : FileSystem) (c : Conn) (head : Bool) (filetype : Bytes)
    (hhello : ¬(c.http.url = bytes "hello" ∨ c.http.url = bytes "Hello")) :
    .ok (c.serve fs head filetype) =
      c.handleReply fs (match response fs c.http.url c.http.headtToValue head filetype with
        | none => .notFound
        | some r => .answered r) := by
  cases hr : response fs c.http.url c.http.headtToValue head filetype with
  | none => rw [serve_of_none hr, handleReply]
  | some r => rw [serve_of_some hr, handleReply, if_neg hhello]

theorem answer_eq_reply (fs : FileSystem) (c : Conn) (head : Bool) :
    c.answer fs head =
      { c with http.isKeepAlive := c.http.isKeepAlive || keepAlive c.http.headtToValue }.handleReply
        fs (fileReply fs c.http.url c.http.headtToValue head) := by
  simp only [answer, fileReply]
  cases filetype c.http.url with
  | error f => rfl
  | ok t =>
    by_cases hhello : c.http.url = bytes "hello" ∨ c.http.url = bytes "Hello"
    · simp only [if_pos hhello, handleReply]
      rfl
    · simp only [if_neg hhello]
      exact serve_eq_reply fs _ head t hhello

/-- `analysisRequest` does what the reply to the request says. -/
theorem analysisRequest_eq_reply (fs : FileSystem) (c : Conn) :
    c.analysisRequest fs = c.analyse.handleReply fs (c.http.request.reply fs) := by
  have hfile : ∀ head, c.http.request.keeps = keepAlive c.http.headtToValue →
      ({ c with analysed := c.analysed ++ [c.http.request] } : Conn).answer fs head =
        c.analyse.handleReply fs (fileReply fs c.http.url c.http.headtToValue head) := by
    intro head hkeeps
    rw [answer_eq_reply, analyse, hkeeps]
  have hother : c.http.request.keeps = false →
      c.analyse = { c with analysed := c.analysed ++ [c.http.request] } := by
    intro hkeeps
    rw [analyse, hkeeps, Bool.or_false]
  -- Only `GET` and `HEAD` requests get as far as their header fields.
  simp only [analysisRequest]
  split
  · next h => rw [hfile] <;> simp [Request.reply, Request.keeps, HttpData.request, h]
  · next h => rw [hfile] <;> simp [Request.reply, Request.keeps, HttpData.request, h]
  · next h =>
    rw [hother (by simp [Request.keeps, HttpData.request, h])]
    simp [Request.reply, HttpData.request, h, handleReply]
  · next h =>
    rw [hother (by simp [Request.keeps, HttpData.request, h])]
    simp [Request.reply, HttpData.request, h, handleReply]

end Conn

/-! ## Which requests are answered -/

/-- The path of a request can be served, to a `HEAD` or a `GET` request. -/
def Serves (fs : FileSystem) (url : Bytes) (head : Bool) : Prop :=
  ∃ inode, fs.lookup (cStr url) = some inode ∧
    (head = true ∨ inode.readable = true ∧ (inode.mmap inode.size).isSome = true)

/-- The request is one that is answered, rather than refused: a `GET` or `HEAD`
    request for something that can be served, whose type can be told. -/
def Request.Answered (fs : FileSystem) (r : Request) : Prop :=
  ∃ head, r.method = some (if head then .head else .get) ∧ DotFits r.url ∧
    (r.url = bytes "hello" ∨ r.url = bytes "Hello" ∨ Serves fs r.url head)

theorem serves_iff {fs : FileSystem} {url : Bytes} (m : Headers) {head : Bool} (filetype : Bytes) :
    Serves fs url head ↔ ∃ r, response fs url m head filetype = some r := by
  simp only [Serves, response, FileSystem.stat, Option.bind_eq_some_iff, Option.map_eq_some_iff,
    body, FileSystem.openRead]
  constructor
  · rintro ⟨inode, hinode, rfl | ⟨hread, hmap⟩⟩
    · exact ⟨_, _, ⟨inode, hinode, rfl⟩, [], rfl, rfl⟩
    · obtain ⟨content, hcontent⟩ := Option.isSome_iff_exists.1 hmap
      refine ⟨_, _, ⟨inode, hinode, rfl⟩, if head then [] else content, ?_, rfl⟩
      cases head with
      | true => rfl
      | false => simpa [hinode, Option.filter_some, hread] using hcontent
  · rintro ⟨_, _, ⟨inode, hinode, rfl⟩, b, hb, -⟩
    refine ⟨inode, hinode, ?_⟩
    cases head with
    | true => exact .inl rfl
    | false =>
      simp only [Bool.false_eq_true, if_false, hinode, Option.filter_some] at hb
      split at hb
      · next hread =>
        rw [Option.bind_some] at hb
        exact .inr ⟨hread, by rw [hb]; rfl⟩
      · cases hb

theorem fileReply_answered_iff {fs : FileSystem} {url : Bytes} {m : Headers} {head : Bool} :
    (∃ r, fileReply fs url m head = .answered r) ↔
      DotFits url ∧ (url = bytes "hello" ∨ url = bytes "Hello" ∨ Serves fs url head) := by
  by_cases hfits : DotFits url
  · obtain ⟨t, ht⟩ := filetype_of_fits hfits
    simp only [fileReply, ht, hfits, true_and, ← or_assoc]
    split
    · next hhello => simp [hhello]
    · next hhello =>
      rw [or_iff_right hhello, serves_iff m t]
      cases response fs url m head t <;> simp
  · simp [fileReply, filetype_of_not_fits hfits, hfits]

/-- The requests that are answered are those with a response. -/
theorem Request.answered_iff {fs : FileSystem} {r : Request} :
    r.Answered fs ↔ ∃ s, r.reply fs = .answered s := by
  rw [Answered, reply]
  cases r.method with
  | none => simp
  | some method =>
    cases method with
    | get => simp [fileReply_answered_iff]
    | head => simp [fileReply_answered_iff]
    | post => simp

end Webserver
