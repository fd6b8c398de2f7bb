import Webserver.Http.HalfClose
import Webserver.Http.History
import Webserver.Http.Messages
import Webserver.Lib.Framing

/-!
# What a client reads

A client knows which requests it has made, and reads the responses off the bytes that it
receives: a head up to the empty line, and as much of a body as the header announces. The
response to a `HEAD` request has no body, whatever its header announces.

* `Conn.gets_of_reachable`: at any time, whatever the pieces in which requests arrive and
  responses leave, the client has read the responses to the first requests, and all of
  them when nothing is left to send.
* `Conn.exists_gets`: a client that sends well-formed requests for files, a batch at a
  time, reads the responses to all of them.
-/

namespace Webserver

open Text

/-- How long the body of the response to a request is. -/
def bodyLength (method : Option HttpMethod) : BodyLength UInt8 := fun fields =>
  if method = some .head then some 0
  else (fields.lookup (bytes "Content-Length")).bind ascii.readNat

/-- The responses to some requests that are read from the bytes received, and the bytes
    left. -/
def readResponses (rs : List Request) (received : Bytes) : List (Frame UInt8) × Bytes :=
  readAll crlf (rs.map fun r => bodyLength r.method) received

namespace Request

/-- The response says what there is to say of the file, and has its content if it was
    asked for. -/
structure Gets (fs : FileSystem) (r : Request) (f : Frame UInt8) : Prop where
  start : f.start = bytes "HTTP/1.1 200 OK"
  connection : f.value (bytes "Connection") =
    if keepAlive r.headtToValue then some (bytes "Keep-Alive") else none
  contentType : f.value (bytes "Content-Type") = (filetype r.url).toOption
  contentLength : f.value (bytes "Content-Length") = (fs.stat (cStr r.url)).map toStr
  get : r.method = some .get → fs.Stores r.url f.body
  head : r.method = some .head → f.body = []

/-- A response with the header for something of the given type and size. -/
def message (m : Headers) (filetype : Bytes) (size : ℕ) (body : Bytes)
    (hfiletype : cr ∉ filetype) : HttpMessage :=
  { okMessage m filetype (List.replicate size 0) hfiletype with body := body }

variable {fs : FileSystem} {r : Request} {m : Headers} {url t b : Bytes} {size : ℕ}

theorem render_message (ht : cr ∉ t) :
    (message m t size b ht).render = responseHeader m t size ++ b := by
  have hhead : (okMessage m t (List.replicate size 0) ht).head = _ := head_okMessage ht
  rw [List.length_replicate] at hhead
  rw [← hhead]
  rfl

theorem contentLength_message (ht : cr ∉ t) :
    (message m t size b ht).frame.value (bytes "Content-Length") = some (toStr size) := by
  have hsized : (okMessage m t (List.replicate size 0) ht).Sized := sized_okMessage ht
  refine hsized.trans ?_
  rw [okMessage, List.length_replicate]

theorem contentType_message (ht : cr ∉ t) :
    (message m t size b ht).frame.value (bytes "Content-Type") = some t := by
  have hconnection : (connectionFields m).lookup (bytes "Content-Type") = none := by
    rw [connectionFields]
    split <;> decide +kernel
  rw [Frame.value, Text.Message.frame, message, okMessage, List.lookup_append, hconnection,
    Option.none_or, List.lookup_cons_self]

theorem connection_message (ht : cr ∉ t) :
    (message m t size b ht).frame.value (bytes "Connection") =
      if keepAlive m then some (bytes "Keep-Alive") else none := by
  have htype : (bytes "Connection" == bytes "Content-Type") = false := by decide +kernel
  have hlength : (bytes "Connection" == bytes "Content-Length") = false := by decide +kernel
  have hserver : (bytes "Connection" == bytes "Server") = false := by decide +kernel
  rw [Frame.value, Text.Message.frame, message, okMessage, List.lookup_append, connectionFields]
  split
  · rw [List.lookup_cons_self, Option.some_or]
  · rw [List.lookup_nil, Option.none_or, List.lookup_cons, htype, List.lookup_cons, hlength,
      List.lookup_cons, hserver, List.lookup_nil]

/-- What is sent as the content of a file is all of it. -/
theorem stores_of_body (hstat : fs.stat (cStr url) = some size)
    (hbody : Webserver.body fs (cStr url) false size = some b) :
    fs.Stores url b ∧ size = b.length := by
  obtain ⟨inode, hinode, rfl⟩ := Option.map_eq_some_iff.1 hstat
  obtain ⟨file, hfile, hmap⟩ := Option.bind_eq_some_iff.1 hbody
  obtain ⟨hlookup, hreadable⟩ := Option.filter_eq_some_iff.1 hfile
  obtain rfl : inode = file := Option.some.inj (hinode.symm.trans hlookup)
  cases inode with
  | regular content readable =>
    have hcontent : content.take content.length = b :=
      Option.some.inj (Option.ite_none_left_eq_some.1 hmap).2
    rw [List.take_length] at hcontent
    have hreadable : readable = true := hreadable
    exact ⟨by rw [FileSystem.Stores, hinode, hreadable, hcontent], congrArg List.length hcontent⟩
  | directory size readable => cases hmap
  | special size readable => cases hmap

/-- The response to a request that is answered can be read. -/
theorem exists_message (hr : r.Answered fs)
    (hhello : ¬(r.url = bytes "hello" ∨ r.url = bytes "Hello")) :
    ∃ m : HttpMessage, r.responseOf fs = m.render ∧
      bodyLength r.method m.fields = some m.body.length ∧ r.Gets fs m.frame := by
  obtain ⟨head, hmethod, hfits, hserves⟩ := hr
  rw [← or_assoc, or_iff_right hhello] at hserves
  obtain ⟨t, ht⟩ := filetype_of_fits hfits
  obtain ⟨s, hs⟩ := (serves_iff r.headtToValue t).1 hserves
  have hreply : r.responseOf fs = s := by
    rw [responseOf, reply, hmethod]
    cases head <;> simp [fileReply, ht, hhello, hs]
  simp only [response, Option.bind_eq_some_iff, Option.map_eq_some_iff] at hs
  obtain ⟨size, hstat, b, hbody, rfl⟩ := hs
  have hcr := cr_notMem_filetype ht
  have hgets : (r.method = some .get → fs.Stores r.url b ∧ size = b.length) ∧
      (r.method = some .head → b = []) := by
    rw [hmethod]
    cases head with
    | true =>
      refine ⟨fun h => ?_, fun _ => (Option.some.inj hbody).symm⟩
      cases h
    | false =>
      refine ⟨fun _ => stores_of_body hstat hbody, fun h => ?_⟩
      cases h
  refine ⟨message r.headtToValue t size b hcr, hreply.trans (render_message hcr).symm, ?_, rfl,
    connection_message hcr, ?_, ?_, fun h => (hgets.1 h).1, hgets.2⟩
  · rw [bodyLength]
    split
    · next hhead =>
      obtain rfl := hgets.2 hhead
      rfl
    · next hhead =>
      have hget : r.method = some .get := by
        cases head with
        | true => exact absurd hmethod hhead
        | false => exact hmethod
      have hvalue : (message r.headtToValue t size b hcr).fields.lookup (bytes "Content-Length") =
          some (toStr size) := contentLength_message hcr
      rw [hvalue, Option.bind_some, toStr_eq, ascii.readNat_natText (by decide), (hgets.1 hget).2]
      rfl
  · rw [contentType_message, ht]
    rfl
  · rw [contentLength_message, hstat]
    rfl

/-- The responses to requests that are answered are a stream of messages. -/
theorem exists_messages {rs : List Request} (hrs : ∀ r ∈ rs, r.Answered fs)
    (hhello : ∀ r ∈ rs, ¬(r.url = bytes "hello" ∨ r.url = bytes "Hello")) :
    ∃ ms : List HttpMessage, rs.flatMap (responseOf fs) = ms.flatMap Text.Message.render ∧
      Measured (rs.map fun r => bodyLength r.method) ms ∧
      List.Forall₂ (fun r m => r.Gets fs m.frame) rs ms := by
  induction rs with
  | nil => exact ⟨[], rfl, .nil, .nil⟩
  | cons r rs ih =>
    rw [List.forall_mem_cons] at hrs hhello
    obtain ⟨m, hrender, hlen, hgets⟩ := exists_message hrs.1 hhello.1
    obtain ⟨ms, hrenders, hlens, hall⟩ := ih hrs.2 hhello.2
    exact ⟨m :: ms, by rw [List.flatMap_cons, List.flatMap_cons, hrender, hrenders],
      .cons hlen hlens, .cons hgets hall⟩

end Request

/-- From the first bytes of the responses to some requests, the first responses are read. -/
theorem readResponses_of_prefix {fs : FileSystem} {rs : List Request} {received : Bytes}
    (hrs : ∀ r ∈ rs, r.Answered fs)
    (hhello : ∀ r ∈ rs, ¬(r.url = bytes "hello" ∨ r.url = bytes "Hello"))
    (hreceived : received <+: rs.flatMap (Request.responseOf fs)) :
    ∃ k frames rest, readResponses rs received = (frames, rest) ∧
      List.Forall₂ (Request.Gets fs) (rs.take k) frames ∧
      (received = rs.flatMap (Request.responseOf fs) → rs.take k = rs ∧ rest = []) := by
  obtain ⟨ms, hrender, hlens, hgets⟩ := Request.exists_messages hrs hhello
  rw [hrender] at hreceived ⊢
  obtain ⟨k, rest, hread, -, hall⟩ := readAll_of_prefix hlens hreceived
  refine ⟨k, _, rest, hread, ?_, fun heq => ?_⟩
  · rw [List.forall₂_map_right_iff]
    exact List.forall₂_take k hgets
  · obtain ⟨htake, hrest⟩ := hall heq
    refine ⟨List.take_of_length_le ?_, hrest⟩
    rw [hgets.length_eq, ← htake]
    exact List.length_take_le k ms

/-- So are the responses to well-formed requests for files. -/
theorem RequestText.exists_messages {fs : FileSystem} {rs : List RequestText}
    (hfile : ∀ r ∈ rs, r.Names fs) (hfits : ∀ r ∈ rs, DotFits r.url) :
    ∃ ms : List HttpMessage, responses fs rs = ms.flatMap Text.Message.render ∧
      Measured ((rs.map request).map fun r => bodyLength r.method) ms ∧
      List.Forall₂ (fun r m => r.Gets fs m.frame) (rs.map request) ms := by
  have hreply : ∀ r ∈ rs,
      r.request.reply fs = .answered (r.response r.contentType (r.content fs)) :=
    fun r hr => r.reply_request (hfile r hr) (hfits r hr)
  have hresponses : responses fs rs = (rs.map request).flatMap (Request.responseOf fs) := by
    rw [responses, List.flatMap_map]
    refine List.flatMap_congr fun r hr => ?_
    rw [Request.responseOf, hreply r hr]
  have hanswered : ∀ r ∈ rs.map request, r.Answered fs := by
    rw [List.forall_mem_map]
    exact fun r hr => Request.answered_iff.2 ⟨_, hreply r hr⟩
  have hhello : ∀ r ∈ rs.map request, ¬(r.url = bytes "hello" ∨ r.url = bytes "Hello") := by
    rw [List.forall_mem_map]
    exact fun r _ => not_hello_of_root (HttpData.root_prefix_urlOf r.target)
  rw [hresponses]
  exact Request.exists_messages hanswered hhello

/-- From the responses to well-formed requests for files, all of them are read. -/
theorem RequestText.exists_readResponses {fs : FileSystem} {rs : List RequestText}
    (hfile : ∀ r ∈ rs, r.Names fs) (hfits : ∀ r ∈ rs, DotFits r.url) :
    ∃ frames, readResponses (rs.map request) (responses fs rs) = (frames, []) ∧
      List.Forall₂ (Request.Gets fs) (rs.map request) frames := by
  obtain ⟨ms, hrender, hlens, hgets⟩ := exists_messages hfile hfits
  refine ⟨ms.map Text.Message.frame, ?_, List.forall₂_map_right_iff.2 hgets⟩
  rw [readResponses, hrender, readAll_flatMap hlens]

namespace Conn

open Transition

variable {fs : FileSystem} {c : Conn}

/-- What has been sent and what is left to send are the responses to the requests analysed,
    which have been parsed. -/
structure Wired (fs : FileSystem) (c : Conn) : Prop where
  wire : c.socket.sent ++ c.http.outBuffer = c.analysed.flatMap (Request.responseOf fs)
  inv : c.Inv
  recorded : c.Recorded

theorem wired_of_reachable
    (hc : (system fs).ReachableBy (fun c e => Orderly fs c e ∧ Accepting fs c e) c) :
    c.Wired fs :=
  ⟨wire_of_reachable hc, inv_of_reachable hc.reachable, recorded_of_reachable hc.reachable⟩

/-- The client has read the responses to the first of the requests. -/
theorem Wired.gets (hc : c.Wired fs) (hanswered : ∀ r ∈ c.analysed, r.Answered fs) :
    ∃ k frames rest, readResponses c.analysed c.socket.sent = (frames, rest) ∧
      List.Forall₂ (Request.Gets fs) (c.analysed.take k) frames ∧
      (c.http.outBuffer = [] → c.analysed.take k = c.analysed ∧ rest = []) := by
  have hhello : ∀ r ∈ c.analysed, ¬(r.url = bytes "hello" ∨ r.url = bytes "Hello") := by
    intro r hr
    rcases hc.recorded.urls r hr with hurl | ⟨target, hurl⟩
    · rw [hurl]
      decide +kernel
    · rw [hurl]
      exact not_hello_of_root (HttpData.root_prefix_urlOf target)
  have hsent : c.socket.sent <+: c.analysed.flatMap (Request.responseOf fs) :=
    hc.wire ▸ List.prefix_append _ _
  obtain ⟨k, frames, rest, hread, hgets, hall⟩ := readResponses_of_prefix hanswered hhello hsent
  refine ⟨k, frames, rest, hread, hgets, fun hout => hall ?_⟩
  rw [← hc.wire, hout, List.append_nil]

/-- In a run of clear cycles that refuse no request, the client has read the responses to
    the first of the requests analysed, and all of them when nothing is left to send. -/
theorem gets_of_reachable
    (hc : (system fs).ReachableBy (fun c e => Orderly fs c e ∧ Accepting fs c e) c)
    (hanswered : ∀ r ∈ c.analysed, r.Answered fs) :
    ∃ k frames rest, readResponses c.analysed c.socket.sent = (frames, rest) ∧
      List.Forall₂ (Request.Gets fs) (c.analysed.take k) frames ∧
      (c.http.outBuffer = [] → c.analysed.take k = c.analysed ∧ rest = []) :=
  (wired_of_reachable hc).gets hanswered

/-- A request for the start page has been answered. -/
theorem gets_of_reachable_first : ∃ c : Conn, c.http.outBuffer = [] ∧ c.analysed.length = 1 ∧
    ∃ k frames rest, readResponses c.analysed c.socket.sent = (frames, rest) ∧
      List.Forall₂ (Request.Gets (.logHtml (bytes "hi"))) (c.analysed.take k) frames ∧
      (c.http.outBuffer = [] → c.analysed.take k = c.analysed ∧ rest = []) := by
  let asked := first.report [.data getStartPage] [] ⟨1, 0⟩
    (first.http.ownchannel.setRevents EPOLLIN)
  have hasked : (system (.logHtml (bytes "hi"))).ReachableBy
      (fun c e => Orderly (.logHtml (bytes "hi")) c e ∧ Accepting (.logHtml (bytes "hi")) c e)
      asked :=
    .step (e := .kernel _ _ _ _) (.init first_fresh) ⟨trivial, trivial⟩ (.kernel _ _ _ _)
  have hok : asked.Clear (.logHtml (bytes "hi")) ∧ ¬asked.Refused (.logHtml (bytes "hi")) := by
    decide +kernel
  obtain ⟨t, hturn, ht⟩ := exists_ok_of_any (x := asked.turn (.logHtml (bytes "hi")))
    (p := fun t => decide (t.conn.http.outBuffer = []) && decide (t.conn.analysed.length = 1) &&
      t.conn.analysed.all fun r => decide (r.reply (.logHtml (bytes "hi")) =
        .answered (r.responseOf (.logHtml (bytes "hi"))))) (by decide +kernel)
  rw [Bool.and_eq_true, Bool.and_eq_true, decide_eq_true_eq, decide_eq_true_eq,
    List.all_eq_true] at ht
  obtain ⟨⟨hout, hlength⟩, hanswered⟩ := ht
  refine ⟨t.conn, hout, hlength, gets_of_reachable
    (hasked.step (e := .cycle) ⟨⟨soft_nil, hok.1⟩, hok.2⟩ (.cycle rfl hturn)) fun r hr => ?_⟩
  exact Request.answered_iff.2 ⟨_, of_decide_eq_true (hanswered r hr)⟩

/-! ## A conversation -/

/-- Batches of requests, each of which arrives in one readable event. -/
inductive Converses : List RequestText → List Report → Prop
  | nil : Converses [] []
  | batch {rs rest : List RequestText} {r : Report} {reports : List Report} : Readable r →
      rs ≠ [] → Delivers r.reads (RequestText.renderAll rs) →
      0 ≤ toInt (RequestText.renderAll rs).length → Converses rest reports →
      Converses (rs ++ rest) (r :: reports)

variable {rs : List RequestText} {reports : List Report}

/-- All batches are answered, one after the other. -/
theorem Ready.exists_converses (hc : c.Ready) (h : Converses rs reports)
    (hfile : ∀ r ∈ rs, r.Names fs) (hfits : ∀ r ∈ rs, DotFits r.url) :
    ∃ d, c.runReports fs reports = .ok d ∧ d.Ready ∧
      d.socket.sent = c.socket.sent ++ RequestText.responses fs rs := by
  induction h generalizing c with
  | nil => exact ⟨c, rfl, hc, (List.append_nil _).symm⟩
  | batch hr hrs hreads hlen _ ih =>
    obtain ⟨hfirst, hfile⟩ := List.forall_mem_append.1 hfile
    obtain ⟨hfits₁, hfits⟩ := List.forall_mem_append.1 hfits
    obtain ⟨e, hevent, he, hsent⟩ := hc.exists_batch hr hrs hreads hlen hfirst hfits₁
    obtain ⟨d, hrun, hd, hsent'⟩ := ih he hfile hfits
    refine ⟨d, ?_, hd, ?_⟩
    · rw [runReports, if_pos hc.connectionState, hevent]
      exact hrun
    · rw [hsent', hsent, RequestText.responses, RequestText.responses, RequestText.responses,
        List.flatMap_append, List.append_assoc]

/-- A client that sends well-formed requests for files, in batches that each arrive in one
    readable event, reads the responses to all of them, and nothing else. -/
theorem exists_gets (hc : c.Fresh) (h : Converses rs reports) (hfile : ∀ r ∈ rs, r.Names fs)
    (hfits : ∀ r ∈ rs, DotFits r.url) :
    ∃ d frames, c.runReports fs reports = .ok d ∧ d.http.connectionState = .connected ∧
      readResponses (rs.map RequestText.request) d.socket.sent = (frames, []) ∧
      List.Forall₂ (Request.Gets fs) (rs.map RequestText.request) frames := by
  obtain ⟨d, hrun, hd, hsent⟩ := hc.ready.exists_converses h hfile hfits
  rw [hc.eq.1, List.nil_append] at hsent
  obtain ⟨frames, hread, hgets⟩ := RequestText.exists_readResponses hfile hfits
  exact ⟨d, frames, hrun, hd.connectionState, hsent ▸ hread, hgets⟩

/-- The report of an event in which some requests arrive. -/
def arrival (rs : List RequestText) (hrs : rs ≠ [])
    (hlen : (RequestText.renderAll rs).length ≤ maxBuff) : Report where
  revents := EPOLLIN
  reads := [.data ⟨RequestText.renderAll rs, RequestText.renderAll_ne_nil hrs, hlen⟩]
  writes := []
  now := ⟨0, 0⟩

theorem converses_arrival {rest : List RequestText} (hrs : rs ≠ [])
    (hlen : (RequestText.renderAll rs).length ≤ maxBuff) (h : Converses rest reports) :
    Converses (rs ++ rest) (arrival rs hrs hlen :: reports) := by
  have hmax : maxBuff < 0x80000000 := by decide
  have hinput : InputOnly EPOLLIN := ⟨by decide, by decide⟩
  have hreads : Delivers (arrival rs hrs hlen).reads (RequestText.renderAll rs ++ []) :=
    .data ⟨RequestText.renderAll rs, RequestText.renderAll_ne_nil hrs, hlen⟩ delivers_nil
  rw [List.append_nil] at hreads
  refine .batch ⟨hinput, rfl⟩ hrs hreads ?_ h
  rw [toInt_of_lt (by omega)]
  exact Int.natCast_nonneg _

theorem length_get_le : (RequestText.renderAll [getStart 1]).length ≤ maxBuff := by
  decide +kernel

theorem length_get_head_le :
    (RequestText.renderAll [getStart 1, headStart 1]).length ≤ maxBuff := by
  decide +kernel

/-- A request for the start page, and then two in one event. -/
theorem exists_gets_startPage : ∃ d frames,
    first.runReports (.logHtml (bytes "hi"))
      [arrival [getStart 1] (List.cons_ne_nil _ _) length_get_le,
        arrival [getStart 1, headStart 1] (List.cons_ne_nil _ _) length_get_head_le] = .ok d ∧
      d.http.connectionState = .connected ∧
      readResponses ([getStart 1, getStart 1, headStart 1].map RequestText.request)
        d.socket.sent = (frames, []) ∧
      List.Forall₂ (Request.Gets (.logHtml (bytes "hi")))
        ([getStart 1, getStart 1, headStart 1].map RequestText.request) frames := by
  have hall {p : RequestText → Prop} (hget : p (getStart 1)) (hhead : p (headStart 1)) :
      ∀ r ∈ [getStart 1, getStart 1, headStart 1], p r :=
    List.forall_mem_cons.2 ⟨hget, List.forall_mem_cons.2 ⟨hget, List.forall_mem_singleton.2 hhead⟩⟩
  have hconverses : Converses ([getStart 1] ++ ([getStart 1, headStart 1] ++ []))
      [arrival [getStart 1] (List.cons_ne_nil _ _) length_get_le,
        arrival [getStart 1, headStart 1] (List.cons_ne_nil _ _) length_get_head_le] :=
    converses_arrival _ _ (converses_arrival _ _ .nil)
  exact exists_gets first_fresh hconverses
    (hall (names_of_target rfl) (names_of_target rfl))
    (hall (by decide +kernel) (by decide +kernel))

end Conn

end Webserver
