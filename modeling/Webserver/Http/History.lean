import Webserver.Http.Order

/-!
# What a connection remembers

The requests a connection has analysed, and what they leave behind in its fields
(`Conn.Recorded`): `reset` clears the fields of the last request, but
`isKeepAlive` tells of all requests so far.
-/

namespace Webserver

open Transition

/-- A path made by `parseURL`, or none. -/
def ParsedUrl (url : Bytes) : Prop := url = [] ∨ ∃ target, url = HttpData.urlOf target

theorem outcome_parsed {h : HttpData} (hurl : ParsedUrl h.url) : ParsedUrl h.outcome.http.url :=
  Conn.outcome_url (fun target => .inr ⟨target, rfl⟩) hurl

theorem Outcome.url_of_mem {o : Outcome} {r : Request} (hr : r ∈ o.requests) :
    r.url = o.http.url := by
  cases o with
  | request h =>
    obtain rfl := List.mem_singleton.1 hr
    rfl
  | _ => cases hr

namespace Conn

/-- What holds of the fields and of the requests analysed, between two steps. -/
structure Recorded (c : Conn) : Prop where
  isKeepAlive : c.http.isKeepAlive = c.analysed.any Request.keeps
  url : ParsedUrl c.http.url
  urls : ∀ r ∈ c.analysed, ParsedUrl r.url
  headtToValue : c.http.error = false → c.http.state = .parseUrl → c.http.headtToValue = ∅

variable {fs : FileSystem} {c d : Conn}

theorem Fresh.recorded (hc : c.Fresh) : c.Recorded := by
  obtain ⟨-, hanalysed, id, fd, method, ch, t, hhttp⟩ := hc.eq
  constructor
  · rw [hhttp, hanalysed]
    rfl
  · rw [hhttp]
    exact .inl rfl
  · rw [hanalysed]
    simp
  · intro _ _
    rw [hhttp]
    rfl

/-- A reply leaves the record alone. -/
theorem handleReply_recorded {reply : Reply} {flag : AnalysisState}
    (h : c.handleReply fs reply = .ok (flag, d)) :
    d.http.url = c.http.url ∧ d.analysed = c.analysed ∧
      d.http.isKeepAlive = c.http.isKeepAlive := by
  cases reply with
  | crash f => cases h
  | answered r =>
    cases h
    split <;> exact ⟨rfl, rfl, rfl⟩
  | notFound =>
    cases h
    simp only [handleError, writenRaw]
    split <;> exact ⟨rfl, rfl, rfl⟩
  | unsupported =>
    cases h
    exact ⟨rfl, rfl, rfl⟩

/-- The phases after reading record the request they have parsed. -/
theorem act_recorded (h : c.act fs c.http.outcome = .ok d) :
    d.http.url = c.http.outcome.http.url ∧ d.analysed = c.analysed ++ c.http.outcome.requests ∧
      d.http.isKeepAlive = (c.http.isKeepAlive || c.http.outcome.requests.any Request.keeps) := by
  obtain ⟨i, mt, u, v, m, s, hframe⟩ := c.http.outcome_http
  have hsame : c.http.outcome.http.isKeepAlive = c.http.isKeepAlive := by rw [hframe]
  cases hout : c.http.outcome with
  | crash f h' => rw [hout] at h; cases h
  | bad h' =>
    rw [hout] at h hsame
    cases h
    exact ⟨rfl, (List.append_nil _).symm, hsame.trans (Bool.or_false _).symm⟩
  | wait h' =>
    rw [hout] at h hsame
    cases h
    exact ⟨rfl, (List.append_nil _).symm, hsame.trans (Bool.or_false _).symm⟩
  | request h' =>
    rw [hout] at h hsame
    have hkeeps : (({ c with http := h' } : Conn).analyse).http.isKeepAlive =
        (c.http.isKeepAlive || [h'.request].any Request.keeps) := by
      rw [← hsame]
      simp [analyse, Outcome.http]
    rw [act, analysisPhase, if_pos (request_state hout), analysisRequest_eq_reply] at h
    split at h
    · cases h
    · next heq =>
      obtain ⟨hurl, hanalysed, hkeep⟩ := handleReply_recorded heq
      cases h
      exact ⟨hurl, hanalysed, hkeep.trans hkeeps⟩
    · next heq =>
      obtain ⟨hurl, hanalysed, hkeep⟩ := handleReply_recorded heq
      cases h
      exact ⟨hurl, hanalysed, hkeep.trans hkeeps⟩

theorem process_recorded (hc : c.Recorded) (h : c.process fs = .ok d) :
    d.http.isKeepAlive = d.analysed.any Request.keeps ∧ ParsedUrl d.http.url ∧
      (∀ r ∈ d.analysed, ParsedUrl r.url) ∧ (d.http.error = false → d.http.state ≠ .parseUrl) := by
  rw [process_eq] at h
  split at h
  · cases h
    exact ⟨hc.isKeepAlive, hc.url, hc.urls, fun herror => by cases herror⟩
  · have hparsed : ParsedUrl c.outcome.http.url := outcome_parsed (h := c.readn.2.http) hc.url
    obtain ⟨hurl, hanalysed, hkeep⟩ := act_recorded h
    refine ⟨?_, hurl ▸ hparsed, fun r hr => ?_, act_started h⟩
    · rw [hkeep, hanalysed, List.any_append]
      exact congrArg (· || _) hc.isKeepAlive
    · rw [hanalysed, List.mem_append] at hr
      rcases hr with hr | hr
      · exact hc.urls r hr
      · rw [Outcome.url_of_mem hr]
        exact hparsed

/-- Writing changes none of it, and a reset clears the fields of the request. -/
theorem finishTurn_recorded (hkeep : c.http.isKeepAlive = c.analysed.any Request.keeps)
    (hurl : ParsedUrl c.http.url) (hurls : ∀ r ∈ c.analysed, ParsedUrl r.url)
    (hstate : c.http.error = false → c.http.state ≠ .parseUrl) : c.finishTurn.conn.Recorded := by
  obtain ⟨t, p, o, ev, w, s, hflush⟩ := c.flush_eq
  rw [finishTurn, hflush]
  split
  · next hok =>
    simp only [if_pos hok.1, settle]
    split
    · split <;> exact ⟨hkeep, .inl rfl, hurls, fun _ _ => rfl⟩
    · exact ⟨hkeep, hurl, hurls, fun herror h => absurd h (hstate herror)⟩
  · exact ⟨hkeep, hurl, hurls, fun herror h => absurd h (hstate herror)⟩

theorem turn_recorded (hc : c.Recorded) {t : Turn} (h : c.turn fs = .ok t) : t.conn.Recorded := by
  obtain ⟨tm, p, hsep⟩ := c.seperaterTimer_eq
  rw [turn, hsep] at h
  split at h
  · cases h
  · next d hprocess =>
    cases h
    obtain ⟨hkeep, hurl, hurls, hstate⟩ := process_recorded
      (by exact ⟨hc.isKeepAlive, hc.url, hc.urls, hc.headtToValue⟩) hprocess
    exact finishTurn_recorded hkeep hurl hurls hstate

theorem recorded_of_reachable (hc : (system fs).Reachable c) : c.Recorded := by
  refine System.ReachableBy.invariant (S := system fs) (I := Recorded)
    (fun d (hd : d.Fresh) => hd.recorded) (fun d e d' _ hd _ hst => ?_) hc
  cases hst with
  | kernel => exact ⟨hd.isKeepAlive, hd.url, hd.urls, hd.headtToValue⟩
  | cycle hconn hturn => exact turn_recorded hd hturn
  | conn h =>
    obtain ⟨t, ch, p, s, l, rfl⟩ := handleConn_eq h
    exact ⟨hd.isKeepAlive, hd.url, hd.urls, hd.headtToValue⟩
  | expire h =>
    obtain ⟨p, rfl⟩ := handleClose_eq h
    exact ⟨hd.isKeepAlive, hd.url, hd.urls, hd.headtToValue⟩

end Conn

end Webserver
