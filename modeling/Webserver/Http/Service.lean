import Webserver.Http.Alone
import Webserver.Http.Client

/-!
# Serving a client from any loop

What a connection does by itself, and what its client reads: the poller of the loop it
works in, which it shares with others, has no part in either.

* `Conn.Attended`: all cycles in which the connection handles some reports by itself are
  clear, and refuse no request.
* `Conn.Wired.responds`: then what it has sent and what it has left to send are the
  responses to the requests it has analysed.
* `Conn.Ready.responds`: a conversation is answered, batch by batch.
-/

namespace Webserver

namespace Conn

/-! ## Cycles -/

/-- No write fails in the cycle, and it neither sends an error page nor takes a part of the
    output for all. -/
structure Proper (fs : FileSystem) (c : Conn) : Prop where
  soft : Soft c.socket.writes
  clear : c.Clear fs
  accepted : ¬c.Refused fs

/-- All cycles of `handleRead` are proper. -/
inductive EachTurn (fs : FileSystem) : Conn → Prop
  | last {c : Conn} : c.Proper fs → (∀ d, c.turn fs ≠ .ok (.again d)) → EachTurn fs c
  | again {c d : Conn} : c.Proper fs → c.turn fs = .ok (.again d) → EachTurn fs d → EachTurn fs c

/-- The connection, when `handleEvents` starts. -/
def started (c : Conn) : Conn := channel.set { channel.get c with eventHandling := true } c

/-- Where the connection is when `handleEvents` calls `handleRead`, for input and for
    output. -/
inductive Calls (fs : FileSystem) (c : Conn) : Conn → Prop
  | read : c.http.ownchannel.revents &&& (EPOLLIN ||| EPOLLPRI ||| EPOLLRDHUP) ≠ 0 →
      Calls fs c c.started
  | write {d : Conn} :
      Channel.callIf c.http.ownchannel.revents (EPOLLIN ||| EPOLLPRI ||| EPOLLRDHUP)
        (some (handleRead fs)) c.started = .ok d →
      c.http.ownchannel.revents &&& EPOLLOUT ≠ 0 → Calls fs c d

/-- All cycles in which the connection handles the reports by itself are proper. -/
def Attended (fs : FileSystem) : Conn → List Report → Prop
  | _, [] => True
  | c, r :: rs => (∀ d, Calls fs (c.deliver r) d → EachTurn fs d) ∧
      ∀ d, c.respond fs r = .ok d → d.Attended fs rs

variable {fs : FileSystem} {c d : Conn} {r : Report}

/-! ## What keeps the wire -/

/-- The channel, and what the kernel is about to answer, have nothing to do with the wire. -/
theorem Wired.update (hc : c.Wired fs) (ch : Channel) (connectionState : ConnectionState)
    {socket : Socket} (hsent : socket.sent = c.socket.sent) :
    Wired fs { c with
      http := { c.http with ownchannel := ch, connectionState := connectionState }
      socket := socket } := by
  obtain ⟨hwire, ⟨hrooted, hrestarted⟩, ⟨hkeep, hurl, hurls, hheaders⟩⟩ := hc
  exact ⟨hsent ▸ hwire, ⟨hrooted, hrestarted⟩, ⟨hkeep, hurl, hurls, hheaders⟩⟩

theorem Wired.set (hc : c.Wired fs) (ch : Channel) : (channel.set ch c).Wired fs :=
  hc.update ch c.http.connectionState rfl

theorem Wired.deliver (hc : c.Wired fs) (r : Report) : (c.deliver r).Wired fs :=
  hc.update (c.http.ownchannel.setRevents r.revents) c.http.connectionState rfl

theorem Wired.rearmed (hc : c.Wired fs) : c.rearmed.Wired fs := by
  rw [Conn.rearmed]
  split
  · exact hc.update c.http.ownchannel .disconnected rfl
  · exact hc.set _

theorem Wired.turn (hc : c.Wired fs) (hproper : c.Proper fs) {t : Turn}
    (h : c.turn fs = .ok t) : t.conn.Wired fs := by
  obtain ⟨response, ⟨w, hsent, happ⟩, hresponse⟩ :=
    inOrder_of_turn hc.inv.rooted hproper.soft hproper.clear h
  obtain ⟨rfl, hanalysed⟩ := hresponse hproper.accepted
  refine ⟨?_, turn_inv hc.inv h, turn_recorded hc.recorded h⟩
  rw [hsent, hanalysed, List.append_assoc, happ, ← List.append_assoc, hc.wire,
    List.flatMap_append]
  rfl

theorem Wired.handleRead (hc : c.Wired fs) (hturns : EachTurn fs c)
    (h : c.handleRead fs = .ok d) : d.Wired fs := by
  induction hturns with
  | @last c hproper hlast =>
    rw [Conn.handleRead] at h
    split at h
    · cases h
    · next hturn =>
      cases h
      exact hc.turn hproper hturn
    · next hturn => exact absurd hturn (hlast _)
  | @again c c' hproper hturn _ ih =>
    rw [Conn.handleRead, hturn] at h
    exact ih (hc.turn hproper hturn) h

/-- A connection handles its events by itself, in proper cycles. -/
theorem Wired.respond (hc : c.Wired fs) (hcalls : ∀ d, Calls fs (c.deliver r) d → EachTurn fs d)
    (h : c.respond fs r = .ok d) : d.Wired fs := by
  have hstarted : (c.deliver r).started.Wired fs := (hc.deliver r).set _
  have hcall : ∀ {revents mask : Mask} {d e : Conn}, d.Wired fs →
      (revents &&& mask ≠ 0 → EachTurn fs d) →
      Channel.callIf revents mask (some (Conn.handleRead fs)) d = .ok e → e.Wired fs := by
    intro revents mask d e hd hturns h
    rw [Channel.callIf] at h
    split at h
    · next hmask => exact hd.handleRead (hturns hmask) h
    · cases h
      exact hd
  obtain h | h | ⟨-, s₁, s₂, s₃, hread, hwrite, hconn, rfl⟩ := Channel.handleEvents_ok rfl h
  · cases h
    exact hstarted.set _
  · cases h
    exact hstarted
  · have hs₁ := hcall hstarted (fun hmask => hcalls _ (.read hmask)) hread
    have hs₂ := hcall hs₁ (fun hmask => hcalls _ (.write hread hmask)) hwrite
    cases hconn
    exact hs₂.rearmed.set _

theorem wired_solo (method : Option HttpMethod) : (solo method).Wired fs where
  wire := rfl
  inv := ⟨.inl rfl, fun _ _ => ⟨rfl, .inl rfl⟩⟩
  recorded := ⟨rfl, .inl rfl, fun _ hr => absurd hr List.not_mem_nil, fun _ _ => rfl⟩

/-- So does one that handles one report after the other. -/
theorem Wired.responds (hc : c.Wired fs) {rs : List Report} (hattended : c.Attended fs rs)
    (h : c.responds fs rs = .ok d) : d.Wired fs := by
  induction rs generalizing c with
  | nil =>
    cases h
    exact hc
  | cons r rs ih =>
    obtain ⟨hcalls, hrest⟩ := hattended
    rw [Conn.responds, List.foldlM_cons] at h
    obtain ⟨e, he, h⟩ := exists_of_bind_eq_ok h
    exact ih (hc.respond hcalls he) (hrest e he) h

/-! ## A conversation -/

/-- A connection that is ready answers the batches of a conversation, in any loop, and is
    ready again. -/
theorem Ready.responds (hc : c.Ready) {rs : List RequestText} {reports : List Report}
    (h : Converses rs reports) (hfile : ∀ r ∈ rs, r.Names fs) (hfits : ∀ r ∈ rs, DotFits r.url) :
    ∃ d : Conn, (c.alone [] []).responds fs (reports.map Report.untimed) = .ok (d.alone [] []) ∧
      d.Ready ∧ d.socket.sent = c.socket.sent ++ RequestText.responses fs rs := by
  induction h generalizing c with
  | nil => exact ⟨c, rfl, hc, (List.append_nil _).symm⟩
  | batch hr hrs hreads hlen _ ih =>
    obtain ⟨hfirst, hfile⟩ := List.forall_mem_append.1 hfile
    obtain ⟨hfits₁, hfits⟩ := List.forall_mem_append.1 hfits
    obtain ⟨e, hevent, he, hsent⟩ := hc.exists_batch hr hrs hreads hlen hfirst hfits₁
    obtain ⟨d, hrun, hd, hsent'⟩ := ih he hfile hfits
    refine ⟨d, ?_, hd, ?_⟩
    · rw [List.map_cons, Conn.responds, List.foldlM_cons, respond_of_handleEvents [] [] hevent]
      exact hrun
    · rw [hsent', hsent, RequestText.responses, RequestText.responses, RequestText.responses,
        List.flatMap_append, List.append_assoc]

/-- A new connection by itself is like one that has been registered. -/
theorem exists_fresh_solo (method : Option HttpMethod) :
    ∃ c : Conn, c.Fresh ∧ c.alone [] [] = solo method := by
  let made : Conn := ⟨.new 0 5 method 0 0, ⟨[], [], [], ⟨0, 0⟩⟩, .new, [], []⟩
  cases hnew : made.newEvent with
  | error f => cases hnew
  | ok c =>
    refine ⟨c, ⟨0, 5, method, 0, 0, _, _, rfl, hnew⟩, ?_⟩
    obtain ⟨t, p, rfl⟩ := newEvent_eq hnew
    rfl

end Conn

end Webserver
