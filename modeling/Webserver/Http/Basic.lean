import Webserver.Poller
import Webserver.Util
import Mathlib.Data.List.AList

/-!
# Connections

The data of `HttpData.h`. An `HttpData` works on a socket and, through its loop,
on the poller: a `Conn` is an `HttpData` together with its socket and that
poller, the state on which its methods act.

What a connection is observed by is recorded along the way: the bytes the kernel
took (`Socket.sent`), the requests handed to `analysisRequest` (`Conn.analysed`)
and the connections closed (`Conn.closed`).
-/

namespace Webserver

inductive HttpMethod
  | get
  | post
  | head
  deriving DecidableEq

inductive UrlState
  | again
  | error
  | success
  deriving DecidableEq

/-- The main state machine. -/
inductive ProcessState
  | parseUrl
  | parseHeaders
  | recvBody
  | analysis
  | finish
  deriving DecidableEq

inductive ConnectionState
  | connected
  | disconnecting
  | disconnected
  deriving DecidableEq

inductive HeaderState
  | success
  | again
  | error
  deriving DecidableEq

inductive AnalysisState
  | success
  | error
  deriving DecidableEq

/-- The header fields of a request. -/
abbrev Headers := AList fun _ : Bytes => Bytes

/-- The constructor leaves `method` indeterminate: `none` is any value that is
    none of the three methods. -/
structure HttpData where
  id : HttpId
  fd : Fd
  ownchannel : Channel
  timer : Option NodeId
  inBuffer : Bytes
  outBuffer : Bytes
  method : Option HttpMethod
  url : Bytes
  version : Bytes
  headtToValue : Headers
  error : Bool
  isKeepAlive : Bool
  state : ProcessState
  connectionState : ConnectionState

def DEFAULT_EVENT : Mask := EPOLLIN ||| EPOLLET ||| EPOLLONESHOT

/-- In milliseconds. -/
def DEFAULT_EXPIRED_TIME : ℕ := 2000

/-- In milliseconds. -/
def DEFAULT_KEEP_ALIVE_TIME : ℕ := 5000

/-- The request fields handed to `analysisRequest`. -/
structure Request where
  method : Option HttpMethod
  url : Bytes
  version : Bytes
  headtToValue : Headers
  deriving DecidableEq

/-- The kernel's side of a socket, and its clock: how the next calls will end,
    and the bytes written so far. -/
structure Socket where
  reads : List ReadResult
  writes : List WriteResult
  sent : Bytes
  now : Timeval

/-- A connection: its `HttpData`, its socket, and the poller it is registered in, with the
    requests that have been handed to `analysisRequest` and the connections that have been
    closed. -/
structure Conn where
  http : HttpData
  socket : Socket
  poller : EPollPoller
  analysed : List Request
  closed : List HttpId

namespace HttpData

/-- The constructor, with the values it leaves indeterminate. -/
def new (id : HttpId) (fd : Fd) (method : Option HttpMethod) (events revents : Mask) :
    HttpData where
  id := id
  fd := fd
  ownchannel := ⟨fd, events, revents, false⟩
  timer := none
  inBuffer := []
  outBuffer := []
  method := method
  url := []
  version := []
  headtToValue := ∅
  error := false
  isKeepAlive := false
  state := .parseUrl
  connectionState := .connected

/-- Makes the connection ready for its next request, keeping its buffers. -/
def reset (h : HttpData) : HttpData :=
  { h with
    method := some .get
    url := []
    version := []
    headtToValue := ∅
    error := false
    state := .parseUrl }

/-- The request fields. -/
def request (h : HttpData) : Request := ⟨h.method, h.url, h.version, h.headtToValue⟩

end HttpData

namespace Conn

/-- Changing the events the channel waits for. -/
def setEvents (c : Conn) (evt : Mask) : Conn :=
  { c with http.ownchannel := c.http.ownchannel.setEvents evt }

/-- Takes the right to destroy the `HttpData` away from its timer node. -/
def seperaterTimer (c : Conn) : Conn :=
  match c.poller.timermanager.lock c.http.timer with
  | none => c
  | some node =>
    { c with
      http.timer := none
      poller.timermanager := c.poller.timermanager.clearHttp node }

/-- `readn` on the socket, into `inBuffer`. The value returned is narrowed to
    an `int` by the caller. -/
def readn (c : Conn) : ℕ × Conn :=
  let r := Webserver.readn c.socket.reads c.http.inBuffer 0
  (r.ret, { c with http.inBuffer := r.buffer, socket.reads := r.reads })

/-- `writen` on the socket, from `outBuffer`. -/
def writen (c : Conn) : ℕ × Conn :=
  let r := Webserver.writen c.socket.writes c.http.outBuffer
  (r.ret, { c with
    http.outBuffer := r.buffer
    socket.writes := r.writes
    socket.sent := c.socket.sent ++ r.accepted })

/-- `writen` on the socket, from a raw buffer. -/
def writenRaw (c : Conn) (buffer : Bytes) : Conn :=
  let r := Webserver.writenRaw c.socket.writes buffer
  { c with socket.writes := r.writes, socket.sent := c.socket.sent ++ r.accepted }

/-- Ends the connection: it is no longer registered. -/
def handleClose (c : Conn) : Except Fault Conn :=
  match c.poller.removeChannel c.http.ownchannel with
  | .error f => .error f
  | .ok poller => .ok { c with
      http.connectionState := .disconnected
      poller := poller
      closed := c.closed ++ [c.http.id] }

/-- The timer node made for the connection, if any, becomes its `timer`. -/
def setTimerHolder (c : Conn) : Option NodeId → Conn
  | none => c
  | some node => { c with http.timer := some node }

/-- Registers the connection with its loop. -/
def newEvent (c : Conn) : Except Fault Conn := do
  let c := c.setEvents DEFAULT_EVENT
  let (node, poller) ← c.poller.addChannel c.http.ownchannel (.http c.http.id)
    DEFAULT_EXPIRED_TIME c.socket.now
  .ok ({ c with poller := poller }.setTimerHolder node)

/-- `EventLoop::updateChannel` on the channel of the connection. -/
def updateChannel (c : Conn) (timeout : ℕ) : Except Fault Conn := do
  let (node, poller) ← c.poller.updateChannel c.http.ownchannel (.http c.http.id) timeout
    c.socket.now
  .ok ({ c with poller := poller }.setTimerHolder node)

/-- Registers the connection again, or closes it. It runs in the thread of the
    loop, where `runInLoop` calls its functor on the spot. -/
def handleConn (c : Conn) : Except Fault Conn :=
  let events := c.http.ownchannel.events
  if c.http.error = false ∧ c.http.connectionState = .connected then
    if events ≠ 0 then
      let timeout := if c.http.isKeepAlive then DEFAULT_KEEP_ALIVE_TIME else DEFAULT_EXPIRED_TIME
      -- Wanting both, the connection waits for output only.
      let events := if events &&& EPOLLIN ≠ 0 ∧ events &&& EPOLLOUT ≠ 0 then EPOLLOUT else events
      (c.setEvents (events ||| EPOLLET)).updateChannel timeout
    else if c.http.isKeepAlive then
      (c.setEvents (events ||| (EPOLLIN ||| EPOLLET))).updateChannel DEFAULT_KEEP_ALIVE_TIME
    else
      (c.setEvents (events ||| (EPOLLIN ||| EPOLLET))).updateChannel DEFAULT_EXPIRED_TIME
  else c.handleClose

end Conn

end Webserver
