import Webserver.Http.Interest
import Webserver.Lib.Loop

/-!
# Termination

Handling an event is made of loops: the one of `parseHeaders`, a line a round, and the
recursion of `handleRead` on itself, a request a round. A round of the first that is
followed by another removes a line from the buffer; one of the second removes a byte,
from the buffer or from those still to be read.

* `exists_lines`, `Conn.exists_activations`: both end, and how many rounds they take at
  most.
* `Conn.shrinks_of_unparsed`: a request is not completed without removing a byte, as
  long as it has not been parsed when its cycle begins.
-/

namespace Webserver

open Loop Text Transition

/-! ## The loop of `parseHeaders` -/

namespace HttpData

/-- One round of the loop of `parseHeaders`. -/
def headersRound (s : Bytes × Headers) :
    (Bytes × Headers) ⊕ Except Fault (HeaderState × Bytes × Headers) :=
  let (str, headtToValue) := s
  match find lf str with
  | none =>
    .inr (if str ≠ [] then .ok (.again, str, headtToValue) else .ok (.success, [], headtToValue))
  | some pos =>
    if str.head? = some cr then
      .inr (.ok (.success, if str.length > 2 then str.drop 2 else [], headtToValue))
    else
      let headline := str.take pos
      let rest := if str.length > pos + 1 then str.drop (pos + 1) else []
      match find colon headline with
      | none => .inr (.ok (.error, rest, headtToValue))
      | some pos =>
        if pos + 2 ≤ headline.length - 1 then
          .inl (rest, headtToValue.insert (headline.take pos) (headline.dropLast.drop (pos + 2)))
        else .inr (.error .lengthError)

/-- The loop goes round by round. -/
theorem parseHeadersLoop_eq (s : Bytes × Headers) :
    parseHeadersLoop s.1 s.2 =
      (headersRound s).elim (fun s => parseHeadersLoop s.1 s.2) fun r => r := by
  obtain ⟨str, m⟩ := s
  rw [parseHeadersLoop]
  simp only [headersRound]
  split
  · next hpos => simp only [hpos]; rfl
  · next pos hpos =>
    simp only [hpos]
    split
    · rfl
    · cases find colon (str.take pos) with
      | none => rfl
      | some pos' =>
        simp only
        split <;> rfl

/-- A round that is followed by another removes a line. -/
theorem headersRound_lt {s s' : Bytes × Headers} (h : headersRound s = .inl s') :
    s'.1.length < s.1.length := by
  obtain ⟨str, m⟩ := s
  simp only [headersRound] at h
  split at h
  · cases h
  · next hpos =>
    have hlt := lt_length_of_find hpos
    split at h
    · cases h
    · split at h
      · cases h
      · split at h <;> cases h
        simp only [drop_or_clear, List.length_drop]
        omega

end HttpData

/-- The loop of `parseHeaders` ends, after no more rounds than there are bytes. -/
theorem exists_lines (str : Bytes) (headtToValue : Headers) :
    ∃ rounds, Runs HttpData.headersRound (str, headtToValue) rounds
        (HttpData.parseHeadersLoop str headtToValue) ∧
      rounds.length ≤ str.length := by
  exact exists_runs_eq HttpData.parseHeadersLoop_eq (fun s => s.1.length)
    (fun _ _ => HttpData.headersRound_lt) (str, headtToValue)

/-! ## The recursion of `handleRead` -/

namespace Conn

/-- One activation of `handleRead`. -/
def activation (fs : FileSystem) (c : Conn) : Conn ⊕ Except (Fault × Conn) Conn :=
  match c.turn fs with
  | .error e => .inr (.error e)
  | .ok (.done c) => .inr (.ok c)
  | .ok (.again c) => .inl c

/-- A cycle that begins at `c` and completes a request, on a buffer that is not empty,
    removes a byte from it. -/
def Shrinks (fs : FileSystem) (c : Conn) : Prop :=
  ∀ d, c.seperaterTimer.process fs = .ok d → d.http.state = .finish → d.http.error = false →
    c.readn.2.http.inBuffer ≠ [] → d.http.inBuffer.length < c.readn.2.http.inBuffer.length

/-- Without an error no request is left that has been parsed. -/
def Unparsed (c : Conn) : Prop :=
  c.http.error = false → c.http.state ≠ .analysis ∧ c.http.state ≠ .finish

variable {fs : FileSystem} {c c' : Conn}

theorem handleRead_eq (fs : FileSystem) (c : Conn) :
    c.handleRead fs = (c.activation fs).elim (handleRead fs) fun r => r := by
  rw [handleRead, activation]
  split <;> next h => simp only [h]; rfl

theorem activation_eq_inl (h : c.activation fs = .inl c') : c.turn fs = .ok (.again c') := by
  rw [activation] at h
  split at h <;> cases h
  assumption

/-- A further activation finds a buffer that is not empty, and a request to parse. -/
theorem again_of_turn (h : c.turn fs = .ok (.again c')) :
    c'.http.inBuffer ≠ [] ∧ c'.http.state = .parseUrl := by
  rw [turn] at h
  split at h
  · cases h
  · next d _ =>
    rw [Except.ok.injEq, finishTurn] at h
    split at h
    · simp only [settle] at h
      split at h
      · split at h
        · split at h
          · next hpos =>
            cases h
            exact ⟨List.length_pos_iff.1 hpos, rfl⟩
          · cases h
        · cases h
      · cases h
    · cases h

/-- The bound on the number of further activations: the bytes to be parsed or read, less
    the one that is left for the next activation. -/
def measure (c : Conn) : ℕ := c.work + c.late - 1

theorem measure_le_work (c : Conn) : c.measure ≤ c.work := by
  have hlate : c.late ≤ 1 := by
    rw [late]
    split <;> omega
  rw [measure]
  omega

theorem activation_lt (h : c.activation fs = .inl c') : c'.measure < c.measure := by
  have hturn := activation_eq_inl h
  have hlt := turn_lt hturn
  obtain ⟨hbuf, hstate⟩ := again_of_turn hturn
  have hlate : c'.late = 0 := by simp [late, hstate]
  have hpos : 0 < c'.work := Nat.add_pos_left (List.length_pos_iff.2 hbuf) _
  rw [measure, measure]
  omega

/-- The phases after reading, on a request that is still to be parsed: they leave it
    incomplete, or complete it and remove bytes. -/
theorem act_of_unparsed (hc : c.Unparsed) (h : c.act fs c.http.outcome = .ok c')
    (herror : c'.http.error = false) :
    c'.http.state = .parseHeaders ∨ c'.http.state = .recvBody ∨ c'.http.state = .finish ∧
      (c.http.inBuffer ≠ [] → c'.http.inBuffer.length < c.http.inBuffer.length) := by
  obtain ⟨hanalysis, hstate⟩ := hc (act_error h herror)
  have hsound := HttpData.outcome_state hstate
  cases hout : c.http.outcome with
  | crash f h' => rw [hout] at h; cases h
  | bad h' => rw [hout] at h; cases h; cases herror
  | wait h' =>
    rw [hout] at h hsound
    cases h
    exact hsound.imp_right .inl
  | request h' =>
    rw [hout] at h
    obtain ⟨r, o, -, -, rfl⟩ := act_request (request_state hout) h herror
    refine .inr (.inr ⟨rfl, fun hbuf => ?_⟩)
    change h'.inBuffer.length < c.http.inBuffer.length
    by_cases hnil : h'.inBuffer = []
    · rw [hnil]
      exact List.length_pos_iff.2 hbuf
    · have hlt := HttpData.outcome_request_length hout hnil
      rwa [if_neg hanalysis] at hlt

/-- The phases of an activation, on a request that is still to be parsed. -/
theorem process_of_unparsed (hc : c.Unparsed) (h : c.seperaterTimer.process fs = .ok c')
    (herror : c'.http.error = false) :
    c'.http.state = .parseHeaders ∨ c'.http.state = .recvBody ∨ c'.http.state = .finish ∧
      (c.readn.2.http.inBuffer ≠ [] →
        c'.http.inBuffer.length < c.readn.2.http.inBuffer.length) := by
  -- Before the phases only the timer has changed.
  have hsame : c.seperaterTimer.readn.2.http.error = c.http.error ∧
      c.seperaterTimer.readn.2.http.state = c.http.state ∧
      c.seperaterTimer.readn.2.http.inBuffer = c.readn.2.http.inBuffer := by
    obtain ⟨t, p, hsep⟩ := c.seperaterTimer_eq
    rw [hsep]
    exact ⟨rfl, rfl, rfl⟩
  rw [process_eq] at h
  split at h
  · cases h
    cases herror
  · have hunparsed : c.seperaterTimer.readn.2.Unparsed := by
      rw [Unparsed, hsame.1, hsame.2.1]
      exact hc
    rw [← hsame.2.2]
    exact act_of_unparsed hunparsed h herror

/-- A request that is still to be parsed is not completed without removing a byte. -/
theorem shrinks_of_unparsed (hc : c.Unparsed) : c.Shrinks fs := by
  intro d hprocess hfinish herror
  rcases process_of_unparsed hc hprocess herror with hheaders | hbody | ⟨-, hshrinks⟩
  · cases hheaders.symm.trans hfinish
  · cases hbody.symm.trans hfinish
  · exact hshrinks

/-- An activation leaves no request behind that has been parsed. -/
theorem turn_unparsed {t : Turn} (hc : c.Unparsed) (hconn : c.http.connectionState = .connected)
    (h : c.turn fs = .ok t) : t.conn.Unparsed := by
  intro herror
  obtain ⟨d, hprocess, hd, rfl⟩ := exists_process h herror
  have hconn' : d.http.connectionState = .connected :=
    (process_kept hprocess).connectionState.trans (c.seperaterTimer_connectionState.trans hconn)
  have hstate := process_of_unparsed hc hprocess hd
  obtain ⟨tm, p, o, ev, w, s, hflush⟩ := d.flush_eq
  rw [finishTurn, if_pos ⟨hd, hconn'⟩, hflush]
  simp only [if_pos hd, settle]
  split
  · split <;> exact ⟨ProcessState.noConfusion, ProcessState.noConfusion⟩
  · next hfinish =>
    change d.http.state ≠ .analysis ∧ d.http.state ≠ .finish
    refine ⟨?_, hfinish⟩
    rcases hstate with hheaders | hbody | ⟨hdone, -⟩
    · simp [hheaders]
    · simp [hbody]
    · exact absurd hdone hfinish

/-- Between two steps no request is left that has been parsed. -/
theorem unparsed_of_reachable (hc : (system fs).Reachable c) : c.Unparsed := by
  refine System.ReachableBy.invariant (S := system fs) (I := Unparsed)
    (fun d (hd : d.Fresh) => ?_) (fun d e d' _ hd _ hst => ?_) hc
  · obtain ⟨-, -, id, fd, method, ch, t, hhttp⟩ := hd.eq
    intro _
    rw [hhttp]
    exact ⟨ProcessState.noConfusion, ProcessState.noConfusion⟩
  · cases hst with
    | kernel => exact hd
    | cycle hconn hturn => exact turn_unparsed hd hconn hturn
    | conn h =>
      obtain ⟨t, ch, p, s, l, rfl⟩ := handleConn_eq h
      exact hd
    | expire h =>
      obtain ⟨p, rfl⟩ := handleClose_eq h
      exact hd

/-- The recursion of `handleRead` ends, after no more activations than there are bytes,
    of which those that follow another find a request to parse. -/
theorem exists_activations (fs : FileSystem) (c : Conn) :
    ∃ rounds, Runs (activation fs) c rounds (c.handleRead fs) ∧ rounds.length ≤ c.work ∧
      ∀ d ∈ rounds, d.Unparsed := by
  obtain ⟨rounds, hrun, hlen⟩ := exists_runs_eq (handleRead_eq fs) measure
    (fun _ _ => activation_lt) c
  refine ⟨rounds, hrun, hlen.trans c.measure_le_work, hrun.forall_of_step fun d d' h _ => ?_⟩
  rw [(again_of_turn (activation_eq_inl h)).2]
  exact ⟨ProcessState.noConfusion, ProcessState.noConfusion⟩

/-- Whatever is still to be read, however writing goes on, and whatever the state of the
    connection: `handleRead` ends, and calls itself at most once for every byte, and so
    does the loop of `parseHeaders`. No cycle completes a request without removing a byte
    of it, as long as the request has not been parsed before, as none ever is. -/
theorem handleRead_ends (fs : FileSystem) (c : Conn) (str : Bytes) (headtToValue : Headers) :
    (∃ rounds, Runs (activation fs) c rounds (c.handleRead fs) ∧ rounds.length ≤ c.work ∧
      (∀ d ∈ rounds, d.Shrinks fs) ∧ (c.Unparsed → c.Shrinks fs) ∧
      ((system fs).Reachable c → c.Unparsed)) ∧
    ∃ rounds, Runs HttpData.headersRound (str, headtToValue) rounds
        (HttpData.parseHeadersLoop str headtToValue) ∧ rounds.length ≤ str.length := by
  obtain ⟨rounds, hrun, hlen, hunparsed⟩ := exists_activations fs c
  exact ⟨⟨rounds, hrun, hlen, fun d hd => shrinks_of_unparsed (hunparsed d hd),
    shrinks_of_unparsed, unparsed_of_reachable⟩, exists_lines str headtToValue⟩

/-- The first connection is about to read two requests for the start page. -/
def pipelined : Conn :=
  first.report [.data getStartPage, .data getStartPage] [] ⟨1, 0⟩
    (first.http.ownchannel.setRevents EPOLLIN)

/-- The first activation answers one of the requests, whose bytes it removes, and is followed
    by another one, which is the last. -/
theorem handleRead_ends_pipelined : ∃ (rounds : List Conn) (d : Conn),
    Runs (activation (.logHtml (bytes "hi"))) pipelined rounds
      (pipelined.handleRead (.logHtml (bytes "hi"))) ∧
    rounds.length = 1 ∧ rounds.length ≤ pipelined.work ∧
    pipelined.seperaterTimer.process (.logHtml (bytes "hi")) = .ok d ∧
    d.http.inBuffer ≠ [] ∧ d.http.inBuffer.length < pipelined.readn.2.http.inBuffer.length := by
  obtain ⟨rounds, hrun, hlen, -, hshrinks, hunparsed⟩ :=
    (handleRead_ends (.logHtml (bytes "hi")) pipelined [] ∅).1
  have hreach : (system (.logHtml (bytes "hi"))).Reachable pipelined :=
    reachable_report (.init first_fresh) _ _ _ _
  obtain ⟨d, hprocess, hd⟩ := exists_ok_of_any
    (x := pipelined.seperaterTimer.process (.logHtml (bytes "hi")))
    (p := fun d => decide (d.http.state = .finish ∧ d.http.error = false ∧ d.http.inBuffer ≠ []))
    (by decide +kernel)
  obtain ⟨hfinish, herror, hrest⟩ := of_decide_eq_true hd
  have hnext : ((pipelined.activation (.logHtml (bytes "hi"))).elim
      (fun c => (c.activation (.logHtml (bytes "hi"))).isRight) fun _ => false) = true := by
    decide +kernel
  have hrounds : rounds.length = 1 := by
    cases hrun with
    | done h => simp [h] at hnext
    | again h hrun =>
      rw [h, Sum.elim_inl] at hnext
      cases hrun with
      | done => rfl
      | again h _ => simp [h] at hnext
  exact ⟨rounds, d, hrun, hrounds, hlen, hprocess, hrest,
    hshrinks (hunparsed hreach) d hprocess hfinish herror (by decide +kernel)⟩

end Conn

end Webserver
