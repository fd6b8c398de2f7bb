import Webserver.Http.History
import Webserver.Lib.Path

/-!
# Which files are served

The path handed to `stat` and `open` is `root` followed by the request target, as
it was sent. Where it leads is told by its text alone (`Path.Place`): there are no
symbolic links in sight, and the working directory has no name.

* `Request.reply_congr`: no other path is looked up.
* `Conn.underRoot_iff`: the path is inside `root/`, unless the target climbs out of
  it, or makes another name out of `root` (`TargetStays`).
-/

namespace Webserver

open Transition Path

abbrev slash : UInt8 := 47

/-- The path handed to `stat` and `open` for a request. -/
def Request.path (r : Request) : Bytes := cStr r.url

/-- The place a path leads to, from the working directory. -/
def resolve (path : Bytes) : Place Bytes := Place.start.walk (moves slash dot path)

/-- The path leads into the directory `root`. -/
def UnderRoot (path : Bytes) : Prop := (resolve path).Below (bytes "root")

instance (path : Bytes) : Decidable (UnderRoot path) := inferInstanceAs (Decidable (_ ∧ _))

/-- The segments of `root` and the target, up to the first NUL, enter `root` and do
    not climb out of it again. -/
def TargetStays (target : Bytes) : Prop :=
  Enters (bytes "root") (moves slash dot (bytes "root" ++ cStr target))

/-- A request looks nothing up but its path. -/
theorem Request.reply_congr {fs fs' : FileSystem} {r : Request}
    (h : fs.lookup r.path = fs'.lookup r.path) : r.reply fs = r.reply fs' := by
  have hresponse : ∀ (head : Bool) (t : Bytes),
      response fs r.url r.headtToValue head t = response fs' r.url r.headtToValue head t := by
    intro head t
    have h : fs.lookup (cStr r.url) = fs'.lookup (cStr r.url) := h
    simp only [response, FileSystem.stat, body, FileSystem.openRead, h]
  simp only [reply, fileReply, hresponse]

/-- A target that starts with a slash, and then never climbs above it, stays. -/
theorem targetStays_of_stays {target : Bytes} (h : Stays (moves slash dot (cStr target))) :
    TargetStays (slash :: target) := by
  have hslash : cStr (slash :: target) = slash :: cStr target := rfl
  have hroot : move dot (bytes "root") = .down (bytes "root") := by decide +kernel
  rw [TargetStays, hslash, moves_append_cons (by decide +kernel), hroot]
  exact ⟨[], _, rfl, stays_nil, rfl, h⟩

theorem cStr_root_append (s : Bytes) : cStr (bytes "root" ++ s) = bytes "root" ++ cStr s := by
  have hroot : ∀ x ∈ bytes "root", decide (x ≠ 0) = true := by decide +kernel
  rw [cStr, List.takeWhile_append_of_pos hroot, cStr]

/-- The path made from a target leads into `root` if the target stays there. -/
theorem underRoot_urlOf_iff (target : Bytes) :
    UnderRoot (cStr (HttpData.urlOf target)) ↔ TargetStays target := by
  by_cases hslash : target = bytes "/"
  · -- The start page is in `root`, and so is its directory.
    subst hslash
    have hroot : UnderRoot (bytes "root" ++ cStr (bytes "/")) := by decide +kernel
    exact iff_of_true (by decide +kernel) (below_iff.1 hroot)
  · rw [HttpData.urlOf, if_neg hslash, cStr_root_append, UnderRoot, resolve, below_iff, TargetStays]

namespace Conn

/-- The path of a request leads into `root` exactly if it was made from a target
    that stays there. -/
theorem underRoot_iff {fs : FileSystem} {c : Conn} (hc : (system fs).Reachable c) {r : Request}
    (hr : r ∈ c.analysed) :
    UnderRoot r.path ↔ ∃ target, r.url = HttpData.urlOf target ∧ TargetStays target := by
  constructor
  · intro hunder
    rcases (recorded_of_reachable hc).urls r hr with hnil | ⟨target, hurl⟩
    · rw [Request.path, hnil] at hunder
      exact absurd hunder (by decide +kernel)
    · rw [Request.path, hurl] at hunder
      exact ⟨target, hurl, (underRoot_urlOf_iff target).1 hunder⟩
  · rintro ⟨target, hurl, hstays⟩
    rw [Request.path, hurl]
    exact (underRoot_urlOf_iff target).2 hstays

/-- A request for a file outside the root. -/
def getOutside : Piece :=
  ⟨bytes "GET /../Main.cpp HTTP/1.1\r\n\r\n", by decide +kernel, by decide +kernel⟩

/-- The first connection, after its first request. -/
theorem exists_analysed (piece : Piece) {p : Request → Bool}
    (h : ((first.report [.data piece] [] ⟨1, 0⟩
      (first.http.ownchannel.setRevents EPOLLIN)).handleEvents
      (.logHtml (bytes "hi"))).toOption.any (fun c => c.analysed.any p) = true) :
    ∃ c, (system (.logHtml (bytes "hi"))).Reachable c ∧ ∃ r ∈ c.analysed, p r = true := by
  obtain ⟨c, hevent, hc⟩ := exists_ok_of_any h
  obtain ⟨r, hr, hp⟩ := List.any_eq_true.1 hc
  have hfirst : (system (.logHtml (bytes "hi"))).Reachable first := .init first_fresh
  exact ⟨c, reachable_handleEvents (reachable_report hfirst _ _ _ _) rfl hevent, r, hr, hp⟩

theorem underRoot_iff_startPage :
    ∃ c, (system (.logHtml (bytes "hi"))).Reachable c ∧ ∃ r ∈ c.analysed,
      r.path = bytes "root/log.html" ∧
      (UnderRoot r.path ↔ ∃ target, r.url = HttpData.urlOf target ∧ TargetStays target) := by
  obtain ⟨c, hc, r, hr, hpath⟩ := exists_analysed getStartPage
    (p := fun r => r.path == bytes "root/log.html") (by decide +kernel)
  exact ⟨c, hc, r, hr, beq_iff_eq.1 hpath, underRoot_iff hc hr⟩

/-- The request target is not looked at before it is used. -/
theorem not_underRoot :
    ¬∀ (fs : FileSystem) (c : Conn), (system fs).Reachable c → ∀ r ∈ c.analysed,
      UnderRoot r.path := by
  intro hall
  obtain ⟨c, hc, r, hr, hpath⟩ := exists_analysed getOutside
    (p := fun r => !decide (UnderRoot r.path)) (by decide +kernel)
  rw [decide_eq_true (hall _ c hc r hr)] at hpath
  cases hpath

end Conn

end Webserver
