import Webserver.Http.Interest

/-!
# Errors of writing

`writen` reports an error by `-1`, but as a `size_t`, which `handleWrite` never
finds to be negative. So a write that fails is taken for one that has not
completed: nothing is marked as wrong, the connection waits for output again, and
the bytes that the socket has taken before the error are kept to be written once
more (`Conn.Ignored`).

* `Conn.not_noticed`: no failed write is noticed.
-/

namespace Webserver

namespace Conn

/-- Writing the output is tried, and ends on an error. -/
structure WriteFails (c : Conn) : Prop where
  error : c.http.error = false
  connectionState : c.http.connectionState ≠ .disconnected
  outBuffer : c.http.outBuffer ≠ []
  failed : (writeLoop c.socket.writes c.http.outBuffer).failed = true

/-- `handleWrite` marks the connection as failed, `handleConn` then closes it, and
    no byte of the output is written twice, whatever the socket takes next. -/
structure Noticed (c : Conn) : Prop where
  error : c.handleWrite.http.error = true
  events : c.handleWrite.http.ownchannel.events = 0
  closed : c.handleWrite.rearm = none
  once : ∀ writes, ∃ sent, sent <+: c.http.outBuffer ∧
    (c.handleWrite.onEvent [] writes).handleWrite.socket.sent = c.socket.sent ++ sent

/-- `handleWrite` marks nothing, waits for output, and keeps the bytes that the
    socket has taken, to be written again. -/
structure Ignored (c : Conn) : Prop where
  error : c.handleWrite.http.error = false
  output : c.handleWrite.http.ownchannel.events &&& EPOLLOUT ≠ 0
  rearmed : c.http.connectionState = .connected → c.handleWrite.rearm =
    some (rearmMask c.handleWrite.http.ownchannel.events, c.timeout)
  outBuffer : c.handleWrite.http.outBuffer = c.http.outBuffer
  again : (c.handleWrite.onEvent [] []).handleWrite.socket.sent =
    c.socket.sent ++ (writeLoop c.socket.writes c.http.outBuffer).accepted ++ c.http.outBuffer

variable {c : Conn}

/-- Writing the output, unless the connection is closed. -/
theorem handleWrite_of_open (hout : c.http.outBuffer ≠ []) (herror : c.http.error = false)
    (hopen : c.http.connectionState ≠ .disconnected) :
    ∃ t p, c.handleWrite = { c with
      http.timer := t, poller.timermanager := p
      http.outBuffer := c.writen.2.http.outBuffer, socket := c.writen.2.socket
      http.ownchannel := c.http.ownchannel.setEvents
        (if c.writen.2.http.outBuffer ≠ [] then c.http.ownchannel.events ||| EPOLLOUT
          else 0) } := by
  obtain ⟨t, p, hsep⟩ := c.seperaterTimer_eq
  refine ⟨t, p, ?_⟩
  rw [handleWrite_of_ok hout herror hopen, hsep]
  rfl

/-- After an error the whole output is still there. -/
theorem WriteFails.handleWrite_eq (h : c.WriteFails) :
    ∃ t p, c.handleWrite = { c with
      http.timer := t, poller.timermanager := p
      http.ownchannel := c.http.ownchannel.setEvents (c.http.ownchannel.events ||| EPOLLOUT)
      socket.writes := (writeLoop c.socket.writes c.http.outBuffer).writes
      socket.sent := c.socket.sent ++ (writeLoop c.socket.writes c.http.outBuffer).accepted } := by
  have hwriten : c.writen.2.http.outBuffer = c.http.outBuffer ∧ c.writen.2.socket = { c.socket with
      writes := (writeLoop c.socket.writes c.http.outBuffer).writes
      sent := c.socket.sent ++ (writeLoop c.socket.writes c.http.outBuffer).accepted } := by
    simp only [writen, Webserver.writen, h.failed, if_true, and_self]
  obtain ⟨t, p, heq⟩ := handleWrite_of_open h.outBuffer h.error h.connectionState
  rw [hwriten.1, if_pos h.outBuffer, hwriten.2] at heq
  exact ⟨t, p, heq⟩

/-- A failed write is ignored. -/
theorem WriteFails.ignored (h : c.WriteFails) : c.Ignored := by
  obtain ⟨t, p, heq⟩ := h.handleWrite_eq
  constructor
  · rw [heq]
    exact h.error
  · rw [heq]
    exact or_and_of_subset (by decide)
  · intro hconn
    rw [heq, rearm, if_pos ⟨h.error, hconn⟩]
    rfl
  · rw [heq]
  · rw [heq]
    -- The next time, the socket takes everything.
    obtain ⟨t', p', heq'⟩ := handleWrite_of_open (c := onEvent { c with
      http.timer := t, poller.timermanager := p
      http.ownchannel := c.http.ownchannel.setEvents (c.http.ownchannel.events ||| EPOLLOUT)
      socket.writes := (writeLoop c.socket.writes c.http.outBuffer).writes
      socket.sent := c.socket.sent ++ (writeLoop c.socket.writes c.http.outBuffer).accepted } [] [])
      h.outBuffer h.error h.connectionState
    rw [heq']
    simp only [onEvent, writen, writen_nil]

/-- No failed write is noticed. -/
theorem not_noticed (h : c.WriteFails) : ¬c.Noticed := by
  intro hnoticed
  cases h.ignored.error.symm.trans hnoticed.error

/-- The first connection, with a response to write that the socket takes a part of
    before it fails. -/
def interrupted : Conn :=
  { first with
    http.outBuffer := bytes "HTTP/1.1 200 OK\r\n"
    socket.writes := [.accept 7, .fail] }

theorem writeFails_interrupted : interrupted.WriteFails :=
  ⟨rfl, by decide, by decide +kernel, by decide +kernel⟩

theorem not_noticed_interrupted : ¬interrupted.Noticed := not_noticed writeFails_interrupted

/-- Eight bytes have been taken, and are written again. -/
theorem exists_not_noticed : ¬∀ c : Conn, c.WriteFails → c.Noticed := by
  intro hall
  cases writeFails_interrupted.ignored.error.symm.trans (hall _ writeFails_interrupted).error

end Conn

end Webserver
