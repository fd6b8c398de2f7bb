import Webserver.Http.Session
import Webserver.Lib.Transition

/-!
# Runs of a connection

The steps a connection takes from its registration on (`Conn.system`): what the
kernel reports and will answer, the cycles of `handleRead`, `handleConn`, and
the expiry of its timer. They are finer than the events handled by the loop:
`Conn.handleEvents_steps` makes every event out of them, so that what holds of
all their runs holds of all runs of events.

* `Conn.Inv`: what holds of the parser between any two steps
  (`Conn.inv_of_reachable`).
-/

namespace Webserver

open Transition

namespace Conn

/-! ## What the parts change -/

theorem handleClose_eq {c c' : Conn} (h : c.handleClose = .ok c') :
    ∃ p, c' = { c with
      http.connectionState := .disconnected, poller := p, closed := c.closed ++ [c.http.id] } := by
  rw [handleClose] at h
  split at h <;> cases h
  exact ⟨_, rfl⟩

theorem updateChannel_eq {c c' : Conn} {timeout : ℕ} (h : c.updateChannel timeout = .ok c') :
    ∃ t p, c' = { c with http.timer := t, poller := p } := by
  rw [updateChannel] at h
  cases hupdate : c.poller.updateChannel c.http.ownchannel (.http c.http.id) timeout
      c.socket.now with
  | error f =>
    simp only [hupdate] at h
    cases h
  | ok r =>
    simp only [hupdate] at h
    obtain ⟨t, ht⟩ := setTimerHolder_eq { c with poller := r.2 } r.1
    cases h.symm.trans (congrArg Except.ok ht)
    exact ⟨t, _, rfl⟩

/-- `handleConn` registers the connection again, or closes it. -/
theorem handleConn_eq {c c' : Conn} (h : c.handleConn = .ok c') :
    ∃ t ch p s l, c' = { c with
      http.timer := t, http.ownchannel := ch, http.connectionState := s
      poller := p, closed := l } := by
  -- Three branches register, with different masks and timeouts.
  have hupdate : ∀ events timeout, (c.setEvents events).updateChannel timeout = .ok c' →
      ∃ t ch p s l, c' = { c with
        http.timer := t, http.ownchannel := ch, http.connectionState := s
        poller := p, closed := l } := by
    intro events timeout h
    obtain ⟨t, p, rfl⟩ := updateChannel_eq h
    exact ⟨_, _, _, _, _, rfl⟩
  rw [handleConn] at h
  split at h
  · split at h
    · exact hupdate _ _ h
    · split at h
      · exact hupdate _ _ h
      · exact hupdate _ _ h
  · obtain ⟨p, rfl⟩ := handleClose_eq h
    exact ⟨_, _, _, _, _, rfl⟩

/-! ## What a cycle leaves alone -/

/-- The connection after a cycle. -/
def Turn.conn : Turn → Conn
  | done c => c
  | again c => c

/-- The timer node of the connection, if it is still there, no longer owns it. -/
def Separated (c : Conn) : Prop := c.poller.timermanager.lock c.http.timer = none

theorem Separated.seperaterTimer {c : Conn} (h : c.Separated) : c.seperaterTimer = c := by
  rw [Conn.seperaterTimer, h]

theorem separated_seperaterTimer (c : Conn) : c.seperaterTimer.Separated := by
  rw [seperaterTimer]
  cases h : c.poller.timermanager.lock c.http.timer with
  | none => exact h
  | some node => rfl

theorem seperaterTimer_connectionState (c : Conn) :
    c.seperaterTimer.http.connectionState = c.http.connectionState := by
  obtain ⟨t, p, h⟩ := c.seperaterTimer_eq
  rw [h]

/-- The registration of the connection and its timer are the same. -/
structure Kept (c d : Conn) : Prop where
  id : d.http.id = c.http.id
  fd : d.http.ownchannel.fd = c.http.ownchannel.fd
  timer : d.http.timer = c.http.timer
  connectionState : d.http.connectionState = c.http.connectionState
  poller : d.poller = c.poller
  closed : d.closed = c.closed
  now : d.socket.now = c.socket.now

theorem Kept.refl (c : Conn) : Kept c c := ⟨rfl, rfl, rfl, rfl, rfl, rfl, rfl⟩

theorem Kept.trans {c d e : Conn} (h : Kept c d) (h' : Kept d e) : Kept c e :=
  ⟨h'.id.trans h.id, h'.fd.trans h.fd, h'.timer.trans h.timer,
    h'.connectionState.trans h.connectionState, h'.poller.trans h.poller,
    h'.closed.trans h.closed, h'.now.trans h.now⟩

theorem Kept.separated {c d : Conn} (h : Kept c d) (hc : c.Separated) : d.Separated := by
  rw [Separated, h.poller, h.timer]
  exact hc

theorem handleWrite_kept {c : Conn} (hc : c.Separated) : Kept c c.handleWrite := by
  rw [handleWrite]
  simp only [hc.seperaterTimer, Nat.not_lt_zero, if_false]
  split
  · split
    · split <;> exact ⟨rfl, rfl, rfl, rfl, rfl, rfl, rfl⟩
    · exact .refl c
  · exact .refl c

theorem act_kept {fs : FileSystem} {c d : Conn} (h : c.act fs c.http.outcome = .ok d) :
    Kept c d := by
  obtain ⟨i, mt, u, v, m, s, hframe⟩ := c.http.outcome_http
  cases hout : c.http.outcome with
  | crash f h' => rw [hout] at h; cases h
  | bad h' =>
    rw [hout] at h hframe
    obtain rfl : h' = _ := hframe
    cases h
    exact ⟨rfl, rfl, rfl, rfl, rfl, rfl, rfl⟩
  | wait h' =>
    rw [hout] at h hframe
    obtain rfl : h' = _ := hframe
    cases h
    exact ⟨rfl, rfl, rfl, rfl, rfl, rfl, rfl⟩
  | request h' =>
    rw [hout] at h hframe
    obtain rfl : h' = _ := hframe
    rw [act, analysisPhase] at h
    split at h
    · split at h
      · cases h
      · next heq =>
        obtain ⟨o, k, w, s, rfl⟩ := analysisRequest_eq heq
        cases h
        exact ⟨rfl, rfl, rfl, rfl, rfl, rfl, rfl⟩
      · next heq =>
        obtain ⟨o, k, w, s, rfl⟩ := analysisRequest_eq heq
        cases h
        exact ⟨rfl, rfl, rfl, rfl, rfl, rfl, rfl⟩
    · cases h
      exact ⟨rfl, rfl, rfl, rfl, rfl, rfl, rfl⟩

theorem process_kept {fs : FileSystem} {c d : Conn} (h : c.process fs = .ok d) : Kept c d := by
  rw [process, readPhase] at h
  by_cases hread : toInt c.readn.1 < 0
  · simp only [if_pos hread] at h
    cases h
    exact ⟨rfl, rfl, rfl, rfl, rfl, rfl, rfl⟩
  · simp only [if_neg hread, parse_eq] at h
    exact Kept.trans (d := c.readn.2) ⟨rfl, rfl, rfl, rfl, rfl, rfl, rfl⟩ (act_kept h)

theorem settle_kept (c : Conn) : Kept c c.settle.conn := by
  rw [settle]
  split
  · simp only
    split <;> exact ⟨rfl, rfl, rfl, rfl, rfl, rfl, rfl⟩
  · exact ⟨rfl, rfl, rfl, rfl, rfl, rfl, rfl⟩

theorem finishTurn_kept {c : Conn} (hc : c.Separated) : Kept c c.finishTurn.conn := by
  rw [finishTurn]
  split
  · have hwrite : Kept c c.flush := by
      rw [flush]
      split
      · exact handleWrite_kept hc
      · exact .refl c
    simp only
    split
    · exact hwrite.trans (settle_kept _)
    · exact hwrite
  · exact .refl c

/-- A cycle separates the connection from its timer, and leaves its registration
    alone. -/
theorem turn_kept {fs : FileSystem} {c : Conn} {t : Turn} (h : c.turn fs = .ok t) :
    Kept c.seperaterTimer t.conn := by
  rw [turn] at h
  cases hprocess : c.seperaterTimer.process fs with
  | error e => rw [hprocess] at h; cases h
  | ok d =>
    rw [hprocess] at h
    cases h
    have hkept := process_kept hprocess
    exact hkept.trans (finishTurn_kept (hkept.separated c.separated_seperaterTimer))

/-! ## The steps -/

inductive Event
  | kernel (reads : List ReadResult) (writes : List WriteResult) (now : Timeval)
      (channel : Channel)
  | cycle
  | conn
  | expire

/-- What the kernel reports, and will answer. -/
def report (c : Conn) (reads : List ReadResult) (writes : List WriteResult) (now : Timeval)
    (channel : Channel) : Conn :=
  { c with
    http.ownchannel := channel
    socket.reads := reads, socket.writes := writes, socket.now := now }

/-- The steps of a connection. Events are only reported while it is connected. -/
inductive Step (fs : FileSystem) : Conn → Event → Conn → Prop
  | kernel {c : Conn} (reads : List ReadResult) (writes : List WriteResult) (now : Timeval)
      (channel : Channel) :
      Step fs c (.kernel reads writes now channel) (c.report reads writes now channel)
  | cycle {c : Conn} {t : Turn} : c.http.connectionState = .connected →
      c.turn fs = .ok t → Step fs c .cycle t.conn
  | conn {c c' : Conn} : c.handleConn = .ok c' → Step fs c .conn c'
  | expire {c c' : Conn} : c.handleClose = .ok c' → Step fs c .expire c'

/-- The runs of a connection, from its registration on. -/
def system (fs : FileSystem) : System Conn Event where
  init := {c | c.Fresh}
  step := Step fs

/-! ## Events are made of steps -/

theorem handleRead_kept {fs : FileSystem} {c c' : Conn} (h : c.handleRead fs = .ok c') :
    Kept c.seperaterTimer c' := by
  induction c using handleRead.induct fs with
  | case1 c e heq =>
    rw [handleRead, heq] at h
    cases h
  | case2 c d heq =>
    rw [handleRead, heq] at h
    cases h
    exact turn_kept heq
  | case3 c d heq ih =>
    rw [handleRead, heq] at h
    have hkept := turn_kept heq
    -- After the first turn there is no timer left to separate from.
    have hsep := (hkept.separated c.separated_seperaterTimer).seperaterTimer
    have ih := ih h
    rw [Turn.conn] at hsep
    rw [hsep] at ih
    exact hkept.trans ih

theorem handleRead_steps {fs : FileSystem} {c c' : Conn}
    (hconn : c.http.connectionState = .connected) (h : c.handleRead fs = .ok c') :
    ∃ es, (system fs).Steps c es c' := by
  induction c using handleRead.induct fs with
  | case1 c e heq =>
    rw [handleRead, heq] at h
    cases h
  | case2 c d heq =>
    rw [handleRead, heq] at h
    cases h
    exact ⟨_, .single (Step.cycle hconn heq)⟩
  | case3 c d heq ih =>
    rw [handleRead, heq] at h
    have hconn' : d.http.connectionState = .connected :=
      (turn_kept heq).connectionState.trans (c.seperaterTimer_connectionState.trans hconn)
    obtain ⟨es, hes⟩ := ih hconn' h
    exact ⟨_, .cons (Step.cycle hconn heq) hes⟩

theorem handleRead_connected {fs : FileSystem} {c c' : Conn}
    (hconn : c.http.connectionState = .connected) (h : c.handleRead fs = .ok c') :
    c'.http.connectionState = .connected :=
  (handleRead_kept h).connectionState.trans (c.seperaterTimer_connectionState.trans hconn)

/-- Handling an event is a run of steps. -/
theorem handleEvents_steps {fs : FileSystem} {c c' : Conn}
    (hconn : c.http.connectionState = .connected) (h : c.handleEvents fs = .ok c') :
    ∃ es, (system fs).Steps c es c' := by
  have hchannel : ∀ (d : Conn) (ch : Channel),
      (system fs).step d (.kernel d.socket.reads d.socket.writes d.socket.now ch)
        (channel.set ch d) := fun d ch => .kernel _ _ _ _
  have hcallback : ∀ {d d' : Conn} {mask revents : Mask}, d.http.connectionState = .connected →
      Channel.callIf revents mask (some (handleRead fs)) d = .ok d' →
      d'.http.connectionState = .connected ∧ ∃ es, (system fs).Steps d es d' := by
    intro d d' mask revents hconn h
    rcases Channel.callIf_ok h with h | ⟨-, rfl⟩
    · exact ⟨handleRead_connected hconn h, handleRead_steps hconn h⟩
    · exact ⟨hconn, _, .nil⟩
  -- A hang-up and an error return early, as no callback is bound for them.
  obtain h | h | ⟨-, s₁, s₂, s₃, hread, hwrite, hconn', rfl⟩ := Channel.handleEvents_ok rfl h
  · cases h
    exact ⟨_, .cons (hchannel c _) (.single (hchannel _ _))⟩
  · cases h
    exact ⟨_, .single (hchannel c _)⟩
  · obtain ⟨hconn₁, es₁, hes₁⟩ := hcallback (by exact hconn) hread
    obtain ⟨-, es₂, hes₂⟩ := hcallback hconn₁ hwrite
    have hstep : (system fs).step s₂ .conn s₃ := by
      change s₂.handleConn.mapError (·, s₂) = .ok s₃ at hconn'
      cases hconn : s₂.handleConn with
      | error f => rw [hconn] at hconn'; cases hconn'
      | ok d => rw [hconn] at hconn'; cases hconn'; exact .conn hconn
    exact ⟨_, .cons (hchannel c _)
      (hes₁.append (hes₂.append (.cons hstep (.single (hchannel _ _)))))⟩

theorem reachable_report {fs : FileSystem} {c : Conn} (hc : (system fs).Reachable c)
    (reads : List ReadResult) (writes : List WriteResult) (now : Timeval) (ch : Channel) :
    (system fs).Reachable (c.report reads writes now ch) :=
  .step hc trivial (Step.kernel reads writes now ch)

theorem reachable_handleEvents {fs : FileSystem} {c c' : Conn} (hc : (system fs).Reachable c)
    (hconn : c.http.connectionState = .connected) (h : c.handleEvents fs = .ok c') :
    (system fs).Reachable c' := by
  obtain ⟨es, hes⟩ := handleEvents_steps hconn h
  exact System.Reachable.steps hc hes

/-- The first connection after a request for the start page, of whose response
    the socket has taken ten bytes. -/
theorem exists_halfSent {p : Conn → Bool}
    (h : ((first.report [.data getStartPage] [.accept 9, .eagain] ⟨1, 0⟩
      (first.http.ownchannel.setRevents EPOLLIN)).handleEvents
      (.logHtml (bytes "hi"))).toOption.any p = true) :
    ∃ c, (system (.logHtml (bytes "hi"))).Reachable c ∧ p c = true := by
  obtain ⟨c, hevent, hp⟩ := exists_ok_of_any h
  have hfirst : (system (.logHtml (bytes "hi"))).Reachable first := .init first_fresh
  exact ⟨c, reachable_handleEvents (reachable_report hfirst _ _ _ _) rfl hevent, hp⟩

/-! ## What holds of the parser -/

/-- A path made by `parseURL`, or none yet. -/
def RootedUrl (url : Bytes) : Prop := url = [] ∨ bytes "root" <+: url

/-- What holds of the path, and of every path that `parseURL` makes, holds of the
    path that parsing leaves. -/
theorem parseURL_url {P : Bytes → Prop} (hnew : ∀ target, P (HttpData.urlOf target))
    {h : HttpData} (hurl : P h.url) : P h.parseURL.2.url := by
  rw [HttpData.parseURL]
  split
  · split
    · exact hurl
    · simp only [HttpData.parseRequestLine]
      split
      · exact hurl
      · exact hnew _
  · exact hurl

theorem headersOutcome_url (h : HttpData) : h.headersOutcome.http.url = h.url := by
  obtain ⟨i, m, s, hframe⟩ := h.headersOutcome_http
  rw [hframe]

theorem outcome_url {P : Bytes → Prop} (hnew : ∀ target, P (HttpData.urlOf target))
    {h : HttpData} (hurl : P h.url) : P h.outcome.http.url := by
  have hparse := parseURL_url hnew hurl
  rw [HttpData.outcome]
  split
  · split
    · next heq =>
      rw [heq] at hparse
      exact hparse
    · next heq =>
      rw [heq] at hparse
      rw [headersOutcome_url]
      exact hparse
  · rw [headersOutcome_url]
    exact hurl
  all_goals exact hurl

theorem outcome_rooted {h : HttpData} (hurl : RootedUrl h.url) : RootedUrl h.outcome.http.url :=
  outcome_url (fun target => .inr (HttpData.root_prefix_urlOf target)) hurl

/-- What holds of a connection between two steps: the path, if there is one,
    starts at the root; and at the start of a request, the fields of the last
    one are gone, unless the connection is about to be closed. -/
structure Inv (c : Conn) : Prop where
  rooted : RootedUrl c.http.url
  restarted : c.http.error = false → c.http.state = .parseUrl →
    c.http.url = [] ∧ (c.http.outBuffer = [] ∨ c.http.method = some .get)

theorem Fresh.inv {c : Conn} (hc : c.Fresh) : c.Inv := by
  obtain ⟨-, -, id, fd, method, ch, t, hhttp⟩ := hc.eq
  constructor
  · rw [hhttp]
    exact .inl rfl
  · intro _ _
    rw [hhttp]
    exact ⟨rfl, .inl rfl⟩

/-- After the phases, either something is wrong or a request has begun. -/
theorem act_started {fs : FileSystem} {c d : Conn} (h : c.act fs c.http.outcome = .ok d)
    (herror : d.http.error = false) : d.http.state ≠ .parseUrl := by
  -- From `finish` no phase does anything: the state is not what it started from.
  by_cases hfinish : c.http.state = .finish
  · have hout : c.http.outcome = .wait c.http := by rw [HttpData.outcome, hfinish]
    rw [hout] at h
    cases h
    rw [hfinish]
    exact ProcessState.noConfusion
  · have hsound := HttpData.outcome_state hfinish
    cases hout : c.http.outcome with
    | crash f h' => rw [hout] at h; cases h
    | bad h' => rw [hout] at h; cases h; cases herror
    | wait h' =>
      rw [hout] at h hsound
      cases h
      rcases hsound with hstate | hstate <;> simp [hstate]
    | request h' =>
      rw [hout] at h hsound
      rw [act, analysisPhase, if_pos (show h'.state = .analysis from hsound)] at h
      split at h
      · cases h
      · cases h
        exact ProcessState.noConfusion
      · cases h
        cases herror

theorem act_rooted {fs : FileSystem} {c d : Conn} (hurl : RootedUrl c.http.url)
    (h : c.act fs c.http.outcome = .ok d) : RootedUrl d.http.url := by
  have hrooted := outcome_rooted hurl
  cases hout : c.http.outcome with
  | crash f h' => rw [hout] at h; cases h
  | bad h' => rw [hout] at h hrooted; cases h; exact hrooted
  | wait h' => rw [hout] at h hrooted; cases h; exact hrooted
  | request h' =>
    rw [hout] at h hrooted
    rw [act, analysisPhase] at h
    split at h
    · split at h
      · cases h
      · next heq =>
        obtain ⟨o, k, w, s, rfl⟩ := analysisRequest_eq heq
        cases h
        exact hrooted
      · next heq =>
        obtain ⟨o, k, w, s, rfl⟩ := analysisRequest_eq heq
        cases h
        exact hrooted
    · cases h
      exact hrooted

/-- What the phases leave makes the invariant hold after the cycle. -/
theorem finishTurn_inv {c : Conn} (hurl : RootedUrl c.http.url)
    (hstarted : c.http.error = false → c.http.state ≠ .parseUrl) : c.finishTurn.conn.Inv := by
  obtain ⟨t, p, o, ev, w, s, hflush⟩ := c.flush_eq
  rw [finishTurn, hflush]
  split
  · next hok =>
    simp only [if_pos hok.1, settle]
    split
    -- `reset` clears the path and makes the method `GET`.
    · split <;> exact ⟨.inl rfl, fun _ _ => ⟨rfl, .inr rfl⟩⟩
    · exact ⟨hurl, fun herror hstate => absurd hstate (hstarted herror)⟩
  · exact ⟨hurl, fun herror hstate => absurd hstate (hstarted herror)⟩

theorem turn_inv {fs : FileSystem} {c : Conn} {t : Turn} (hc : c.Inv) (h : c.turn fs = .ok t) :
    t.conn.Inv := by
  obtain ⟨tm, p, hsep⟩ := c.seperaterTimer_eq
  rw [turn, process, hsep, readPhase] at h
  split at h
  · cases h
  · next d hprocess =>
    cases h
    split at hprocess
    · next heq =>
      split at heq <;> cases heq
      cases hprocess
      exact finishTurn_inv hc.rooted fun herror => by cases herror
    · next heq =>
      split at heq <;> cases heq
      rw [parse_eq] at hprocess
      exact finishTurn_inv (act_rooted (by exact hc.rooted) hprocess) (act_started hprocess)

/-- The invariant holds between any two steps. -/
theorem inv_of_reachable {fs : FileSystem} {c : Conn} (hc : (system fs).Reachable c) : c.Inv := by
  refine System.ReachableBy.invariant (S := system fs) (I := Inv)
    (fun d (hd : d.Fresh) => hd.inv) (fun d e d' _ hd _ hst => ?_) hc
  cases hst with
  | kernel => exact ⟨hd.rooted, hd.restarted⟩
  | cycle hconn hturn => exact turn_inv hd hturn
  | conn h =>
    obtain ⟨t, ch, p, s, l, rfl⟩ := handleConn_eq h
    exact ⟨hd.rooted, hd.restarted⟩
  | expire h =>
    obtain ⟨p, rfl⟩ := handleClose_eq h
    exact ⟨hd.rooted, hd.restarted⟩

end Conn

end Webserver
