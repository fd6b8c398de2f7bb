import Webserver.Http.Session
import Mathlib.Data.List.Induction

/-!
# Split packets

How the bytes of a connection are cut into readable events should not matter.
It does: an incomplete request line is not waited for, and a header whose lines
are used up before its empty line has arrived is taken to be complete.

* `HttpData.CutOk`: the cuts that avoid both, by what has arrived before them.
* `HttpData.session_receive`: at such a cut, parsing stops in a state from
  which it goes on as if the bytes before and after had arrived together.
* `Conn.observe_runEvents`: a run all of whose cuts are of this kind shows
  what a single event would have shown.
-/

namespace Webserver

open Text

/-! ## Runs of readable events -/

/-- A readable event: what `read` answers until it reports `EAGAIN`, and the
    bytes it delivers. -/
structure Chunk where
  reads : List ReadResult
  bytes : Bytes
  nonempty : bytes ≠ []
  delivers : Delivers reads bytes

/-- A chunk read in one piece. -/
def Chunk.single (s : Bytes) (hne : s ≠ []) (hlen : s.length ≤ maxBuff) : Chunk where
  reads := [.data ⟨s, hne, hlen⟩]
  bytes := s
  nonempty := hne
  delivers := by simpa using Delivers.data ⟨s, hne, hlen⟩ delivers_nil

/-- The bytes of some chunks. -/
def Chunk.concat (chunks : List Chunk) : Bytes := chunks.flatMap Chunk.bytes

/-- What can be seen of a connection from the outside. -/
structure Observed where
  analysed : List Request
  sent : Bytes
  error : Bool
  crash : Option Fault
  deriving DecidableEq

namespace Conn

/-- `handleRead` once for each chunk, until `error` is set. -/
def runEvents (fs : FileSystem) (c : Conn) : List Chunk → Except (Fault × Conn) Conn
  | [] => .ok c
  | chunk :: chunks =>
    if c.http.error then .ok c
    else
      match (c.onEvent chunk.reads []).handleRead fs with
      | .error e => .error e
      | .ok c => c.runEvents fs chunks

/-- What is seen of the connection, or of how it has failed. -/
def observe : Except (Fault × Conn) Conn → Observed
  | .ok c => ⟨c.analysed, c.socket.sent, c.http.error, none⟩
  | .error (f, c) => ⟨c.analysed, c.socket.sent, c.http.error, some f⟩

end Conn

/-! ## Good cuts -/

namespace HttpData

/-- The bytes in the buffer are a good place for a cut: the last request is bad
    already, or its request line is complete and its header lines are not used
    up; and all requests before it have been answered. -/
inductive CutOk (fs : FileSystem) : HttpData → Prop
  | badLine {h : HttpData} : h.parseURL.1 = .error → CutOk fs h
  | head {h : HttpData} : h.parseURL.1 = .success → ¬RunsDry h.parseURL.2.inBuffer →
      (∀ h', h.outcome = .request h' → h'.request.Answered fs → h'.inBuffer ≠ [] →
        CutOk fs h'.reset) → CutOk fs h

end HttpData

/-- The play, and then another one from where it waits. -/
def Play.andThen (p : Play) (next : HttpData → Play) : Play :=
  match p.ending with
  | .waiting h =>
    ⟨p.analysed ++ (next h).analysed, p.sent ++ (next h).sent, (next h).ending⟩
  | _ => p

theorem Play.after_andThen (p : Play) (r : Request) (response : Bytes) (next : HttpData → Play) :
    (p.after r response).andThen next = (p.andThen next).after r response := by
  obtain ⟨analysed, sent, ending⟩ := p
  cases ending with
  | waiting h => simp [andThen, after]
  | failed => rfl
  | crashed f => rfl

namespace HttpData

/-- What `parseURL` reads does not depend on what follows the request line. -/
theorem parseRequestLine_receive (h : HttpData) (line q : Bytes) :
    (h.receive q).parseRequestLine line =
      ((h.parseRequestLine line).1, (h.parseRequestLine line).2.receive q) := by
  simp only [parseRequestLine]
  cases find sp (past line (find sp line)) <;> rfl

theorem parseRequestLine_flag (h h' : HttpData) (line : Bytes) :
    (h.parseRequestLine line).1 = (h'.parseRequestLine line).1 := by
  simp only [parseRequestLine]
  cases find sp (past line (find sp line)) <;> rfl

/-- A bad request line is bad whatever follows it. -/
theorem parseURL_receive_of_error {h : HttpData} (hstate : h.state = .parseUrl)
    (hflag : h.parseURL.1 = .error) (q : Bytes) : (h.receive q).parseURL.1 = .error := by
  obtain ⟨line, rest, hbuf, hcr⟩ := exists_line hstate (by rw [hflag]; exact UrlState.noConfusion)
  rw [parseURL_cons hstate hbuf hcr] at hflag
  have hbuf' : (h.receive q).inBuffer = line ++ cr :: (rest ++ q) := by
    rw [receive, hbuf, List.append_assoc, List.cons_append]
  rw [parseURL_cons (h := h.receive q) hstate hbuf' hcr, ← hflag]
  exact parseRequestLine_flag _ _ line

/-- A good request line is read in the same way whatever follows the byte after
    its `CR`. -/
theorem parseURL_receive_of_success {h : HttpData} (hstate : h.state = .parseUrl)
    (hflag : h.parseURL.1 = .success) (hbuf : h.parseURL.2.inBuffer ≠ []) (q : Bytes) :
    (h.receive q).parseURL = (.success, h.parseURL.2.receive q) := by
  obtain ⟨line, rest, hline, hcr⟩ := exists_line hstate (by rw [hflag]; exact UrlState.noConfusion)
  -- A byte follows the `CR`: it is dropped, with or without `q`.
  rw [parseURL_cons hstate hline hcr, parseRequestLine_inBuffer] at hbuf
  obtain ⟨x, rest, rfl⟩ := List.exists_cons_of_ne_nil (l := rest) (by rintro rfl; exact hbuf rfl)
  rw [parseURL_cons hstate hline hcr] at hflag ⊢
  have hline' : (h.receive q).inBuffer = line ++ cr :: (x :: rest ++ q) := by
    rw [receive, hline, List.append_assoc, List.cons_append]
  rw [parseURL_cons (h := h.receive q) hstate hline' hcr, ← hflag]
  exact parseRequestLine_receive { h with inBuffer := rest } line q

/-- The outcomes lead to the same session: they are equal, or end it in the
    same way. -/
inductive Alike : Outcome → Outcome → Prop
  | refl {o : Outcome} : Alike o o
  | crash {f : Fault} {h h' : HttpData} : Alike (.crash f h) (.crash f h')
  | bad {h h' : HttpData} : Alike (.bad h) (.bad h')

theorem Alike.play_eq {fs : FileSystem} {o o' : Outcome} (h : Alike o o') :
    o.play fs = o'.play fs := by
  cases h <;> rfl

/-- The outcome of parsing header lines that are not used up, when more bytes
    follow them. -/
theorem headersOutcome_receive {h : HttpData} (hstate : h.state = .parseHeaders)
    (hdry : ¬RunsDry h.inBuffer) (q : Bytes) :
    Alike (h.receive q).headersOutcome
      (match h.headersOutcome with
      | .wait w => (w.receive q).outcome
      | o => o.map (·.receive q)) := by
  have happ := parseHeadersLoop_append hdry q h.headtToValue
  rw [headersOutcome, headersOutcome, receive, happ]
  cases parseHeadersLoop h.inBuffer h.headtToValue with
  | error f => exact .refl
  | ok r =>
    obtain ⟨flag, rest, m⟩ := r
    cases flag with
    | again =>
      -- The line that is not complete stays in the buffer, and is continued.
      simp only [afterHeaders, receive, outcome, hstate, headersOutcome]
      cases parseHeadersLoop (rest ++ q) m with
      | error f => exact .crash
      | ok r =>
        obtain ⟨flag, str, m⟩ := r
        cases flag <;> exact .refl
    | error => exact .refl
    | success =>
      simp only [afterHeaders]
      split <;> exact .refl

/-- The outcome of a buffer starting with a good request line is that of its
    header lines. -/
theorem outcome_of_success {h h' : HttpData} (hstate : h.state = .parseUrl)
    (hurl : h.parseURL = (.success, h')) :
    h.outcome = { h' with state := .parseHeaders }.headersOutcome := by
  rw [outcome, hstate, hurl]

theorem session_of_badLine {fs : FileSystem} {h : HttpData} (hstate : h.state = .parseUrl)
    (hflag : h.parseURL.1 = .error) :
    h.session fs = ⟨[], errorPage 400 (bytes "Bad Request"), .failed⟩ := by
  rw [session_eq, outcome, hstate]
  cases hurl : h.parseURL with
  | mk flag h' =>
    rw [hurl] at hflag
    cases hflag
    rfl

/-- At a good cut, parsing stops in a state from which it goes on as if the
    bytes before and after had arrived together. -/
theorem session_receive {fs : FileSystem} {h : HttpData} (hcut : CutOk fs h)
    (hstate : h.state = .parseUrl) {q : Bytes} (hq : q ≠ []) :
    (h.receive q).session fs = (h.session fs).andThen fun h => (h.receive q).session fs := by
  -- The induction is on the requests before the cut.
  induction hcut with
  | @badLine h hflag =>
    rw [session_of_badLine hstate hflag, session_of_badLine (h := h.receive q) hstate
      (parseURL_receive_of_error hstate hflag q)]
    rfl
  | @head h hflag hdry _ ih =>
    have hurl := parseURL_receive_of_success hstate hflag
      (fun hnil => hdry (hnil ▸ runsDry_nil)) q
    have hout := headersOutcome_receive (h := { h.parseURL.2 with state := .parseHeaders }) rfl
      hdry q
    have hout' : Alike (h.receive q).outcome (match h.outcome with
        | .wait w => (w.receive q).outcome
        | o => o.map (·.receive q)) := by
      rw [outcome_of_success hstate (by rw [← hflag]),
        outcome_of_success (h := h.receive q) hstate hurl]
      exact hout
    rw [session_eq fs h, session_eq fs (h.receive q), hout'.play_eq]
    -- What is crashed or bad stays so, and a request that waits goes on with `q`.
    cases ho : h.outcome with
    | crash f h' => rfl
    | bad h' => rfl
    | wait w => exact (session_eq fs (w.receive q)).symm
    | request h' =>
      have hrequest : (h'.receive q).request = h'.request := rfl
      simp only [Outcome.map, Outcome.play, requestPlay, hrequest]
      cases hreply : h'.request.reply fs with
      | crash f => rfl
      | notFound => rfl
      | unsupported => rfl
      | answered r =>
        have hpos : (h'.receive q).inBuffer.length > 0 := by
          rw [receive, List.length_append]
          exact Nat.add_pos_right _ (List.length_pos_iff.2 hq)
        simp only [if_pos hpos]
        split
        · next hbuf =>
          have hanswered : h'.request.Answered fs := Request.answered_iff.2 ⟨r, hreply⟩
          rw [Play.after_andThen, ← ih h' ho hanswered (List.length_pos_iff.1 hbuf) rfl]
          rfl
        · rfl

theorem CutOk.erase {fs : FileSystem} {h : HttpData} (hcut : CutOk fs h) :
    CutOk fs h.erase := by
  induction hcut with
  | @badLine h hflag => exact .badLine (by rw [parseURL_erase]; exact hflag)
  | @head h hflag hdry _ ih =>
    refine .head (by rw [parseURL_erase]; exact hflag) (by rw [parseURL_erase]; exact hdry)
      fun h' ho hanswered hbuf => ?_
    rw [outcome_erase] at ho
    cases hout : h.outcome with
    | request h'' =>
      rw [hout] at ho
      cases ho
      exact ih h'' hout hanswered hbuf
    | _ => rw [hout] at ho; cases ho

end HttpData

namespace Conn

variable {fs : FileSystem} {c : Conn}

/-! ## Runs all of whose cuts are good -/

theorem runEvents_of_error (herror : c.http.error = true) (chunks : List Chunk) :
    c.runEvents fs chunks = .ok c := by
  cases chunks with
  | nil => rfl
  | cons chunk chunks => rw [runEvents, if_pos herror]

theorem runEvents_singleton (herror : c.http.error = false) (chunk : Chunk) :
    c.runEvents fs [chunk] = (c.onEvent chunk.reads []).handleRead fs := by
  rw [runEvents, if_neg (by simp [herror])]
  cases (c.onEvent chunk.reads []).handleRead fs <;> rfl

theorem runEvents_append (chunks chunks' : List Chunk) :
    c.runEvents fs (chunks ++ chunks') =
      match c.runEvents fs chunks with
      | .error e => .error e
      | .ok c => c.runEvents fs chunks' := by
  induction chunks generalizing c with
  | nil => rfl
  | cons chunk chunks ih =>
    rw [List.cons_append, runEvents, runEvents]
    by_cases herror : c.http.error = true
    · rw [if_pos herror, if_pos herror]
      exact (runEvents_of_error herror chunks').symm
    · rw [if_neg herror, if_neg herror]
      cases (c.onEvent chunk.reads []).handleRead fs with
      | error e => rfl
      | ok c => exact ih

/-- One more chunk, when what has arrived so far can be cut. -/
theorem Matches.chunk {h : HttpData} {chunks : List Chunk} {chunk : Chunk}
    (hmatch : c.Matches (h.session fs) (c.runEvents fs chunks)) (hcut : HttpData.CutOk fs h)
    (hstate : h.state = .parseUrl) (hlen : 0 ≤ toInt chunk.bytes.length) :
    c.Matches ((h.receive chunk.bytes).session fs) (c.runEvents fs (chunks ++ [chunk])) := by
  rw [runEvents_append, HttpData.session_receive hcut hstate chunk.nonempty, Play.andThen]
  cases hrun : c.runEvents fs chunks with
  | error e =>
    rw [hrun] at hmatch
    have hending := hmatch.1
    rw [hending]
    exact hmatch
  | ok d =>
    rw [hrun] at hmatch
    obtain ⟨hanalysed, hsent, hend⟩ := hmatch
    -- A run that has failed ignores the chunk, as the session on all bytes ignores `q`.
    cases hending : (h.session fs).ending with
    | crashed f => rw [hending] at hend; exact hend.elim
    | failed =>
      rw [hending] at hend
      simp only [runEvents_of_error hend]
      exact ⟨hanalysed, hsent, by rw [hending]; exact hend⟩
    | waiting w =>
      rw [hending] at hend
      obtain ⟨herase, hcalm, -⟩ := hend
      have hmatch := handleRead_matches fs (c := d.onEvent chunk.reads [])
        ⟨hcalm.error, hcalm.connected, hcalm.receiving, hcalm.outBuffer, rfl⟩ chunk.delivers hlen
      simp only [runEvents_singleton hcalm.error, ← herase]
      exact hmatch.trans hanalysed hsent

/-- A run all of whose cuts are good shows what the session on all its bytes
    says. -/
theorem runEvents_matches (hc : c.Fresh) {chunks : List Chunk} (hne : chunks ≠ [])
    (hlen : ∀ chunk ∈ chunks, 0 ≤ toInt chunk.bytes.length)
    (hcut : ∀ n, 0 < n → n < chunks.length →
      HttpData.CutOk fs (c.http.receive (Chunk.concat (chunks.take n)))) :
    c.Matches ((c.http.erase.receive (Chunk.concat chunks)).session fs)
      (c.runEvents fs chunks) := by
  -- Chunk by chunk from the end: the cut before the last one is good too.
  induction chunks using List.reverseRecOn with
  | nil => exact absurd rfl hne
  | append_singleton chunks chunk ih =>
    have hconcat : Chunk.concat (chunks ++ [chunk]) = Chunk.concat chunks ++ chunk.bytes := by
      simp [Chunk.concat]
    have hchunk := hlen chunk (List.mem_append_right _ List.mem_cons_self)
    obtain ⟨-, -, id, fd, method, ch, t, hhttp⟩ := hc.eq
    have hstate : c.http.state = .parseUrl := by rw [hhttp]; rfl
    by_cases hnil : chunks = []
    · have herror : c.http.error = false := by rw [hhttp]; rfl
      have hmatch := handleRead_matches fs (hc.calm chunk.reads) chunk.delivers hchunk
      rw [hconcat, hnil, List.nil_append, runEvents_singleton herror]
      exact hmatch
    · have ih := ih hnil (fun chunk' h => hlen chunk' (List.mem_append_left _ h))
          fun n hpos hlt => by
        have hcut := hcut n hpos (by rw [List.length_append]; exact Nat.lt_add_right _ hlt)
        rwa [List.take_append_of_le_length hlt.le] at hcut
      have hcut := hcut chunks.length (List.length_pos_iff.2 hnil) (by simp)
      rw [List.take_left] at hcut
      rw [hconcat, ← HttpData.receive_receive]
      exact ih.chunk hcut.erase hstate hchunk

/-- What can be seen of a run that matches a play. -/
theorem Matches.observe_eq {p : Play} {result result' : Except (Fault × Conn) Conn}
    (h : c.Matches p result) (h' : c.Matches p result') : observe result = observe result' := by
  have hshow : ∀ {result : Except (Fault × Conn) Conn}, c.Matches p result → observe result =
      ⟨c.analysed ++ p.analysed, c.socket.sent ++ p.sent,
        match p.ending with
          | .failed => true
          | _ => false,
        match p.ending with
          | .crashed f => some f
          | _ => none⟩ := by
    intro result h
    cases result with
    | error e =>
      obtain ⟨f, d⟩ := e
      obtain ⟨hend, hanalysed, hsent, herror⟩ := h
      rw [observe, hanalysed, hsent, herror, hend]
    | ok d =>
      obtain ⟨hanalysed, hsent, hend⟩ := h
      cases hending : p.ending with
      | crashed f => rw [hending] at hend; exact hend.elim
      | failed =>
        rw [hending] at hend
        rw [observe, hanalysed, hsent, hend]
      | waiting h =>
        rw [hending] at hend
        rw [observe, hanalysed, hsent, hend.2.1.error]
  rw [hshow h, hshow h']

/-- A run all of whose cuts are good shows what a single event would have
    shown. -/
theorem observe_runEvents (hc : c.Fresh) {chunks : List Chunk} {whole : Chunk}
    (hwhole : whole.bytes = Chunk.concat chunks)
    (hlen : ∀ chunk ∈ whole :: chunks, 0 ≤ toInt chunk.bytes.length)
    (hcut : ∀ n, 0 < n → n < chunks.length →
      HttpData.CutOk fs (c.http.receive (Chunk.concat (chunks.take n)))) :
    observe (c.runEvents fs chunks) = observe (c.runEvents fs [whole]) := by
  have hne : chunks ≠ [] := by
    rintro rfl
    exact whole.nonempty hwhole
  rw [List.forall_mem_cons] at hlen
  -- Both runs match the session on all bytes.
  have hmatch := runEvents_matches hc hne hlen.2 hcut
  have hsingle := @runEvents_matches fs c hc [whole] (by simp) (by simpa using hlen.1)
    fun n hpos hlt => absurd hpos (by simpa using hlt)
  refine hmatch.observe_eq ?_
  rw [← hwhole]
  simpa [Chunk.concat] using hsingle

/-- Cutting a request between two of its header lines is no problem once the
    second one has begun. -/
theorem observe_runEvents_between_lines :
    observe (first.runEvents (.logHtml (bytes "hi"))
        [.single (bytes "GET / HTTP/1.1\r\nA: b\r\nC") (by decide +kernel) (by decide +kernel),
          .single (bytes ": d\r\n\r\n") (by decide +kernel) (by decide +kernel)]) =
      observe (first.runEvents (.logHtml (bytes "hi"))
        [.single (bytes "GET / HTTP/1.1\r\nA: b\r\nC: d\r\n\r\n") (by decide +kernel)
          (by decide +kernel)]) := by
  refine observe_runEvents first_fresh (by decide +kernel) (by decide +kernel) fun n hpos hlt => ?_
  obtain rfl : n = 1 := Nat.le_antisymm (Nat.le_of_lt_succ hlt) hpos
  refine .head (by decide +kernel) (fun hdry => ?_) fun h' hrequest => ?_
  · exact absurd hdry.getLast (by decide +kernel)
  · have hwait : ∀ o : Outcome, (match o with
        | .wait _ => true
        | _ => false) = true → o ≠ .request h' := by
      rintro o ho rfl
      cases ho
    exact absurd hrequest (hwait _ (by decide +kernel))

/-- An incomplete request line is not waited for. -/
theorem observe_runEvents_requestLine :
    ¬∀ (fs : FileSystem) (c : Conn), c.Fresh → ∀ (chunks : List Chunk) (whole : Chunk),
      whole.bytes = Chunk.concat chunks →
      observe (c.runEvents fs chunks) = observe (c.runEvents fs [whole]) := by
  intro h
  have heq := h (.logHtml (bytes "hi")) first first_fresh
    [.single (bytes "GE") (by decide +kernel) (by decide +kernel),
      .single (bytes "T / HTTP/1.1\r\n\r\n") (by decide +kernel) (by decide +kernel)]
    (.single (bytes "GET / HTTP/1.1\r\n\r\n") (by decide +kernel) (by decide +kernel))
    (by decide +kernel)
  exact absurd heq (by decide +kernel)

end Conn

end Webserver
