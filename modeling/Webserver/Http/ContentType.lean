import Webserver.Http.Root

/-!
# Content types

The content type that a file is announced with should follow its extension: the text from
the last dot of the last segment of its path (`extension`). What is looked up is the text
from the first dot of the whole path.

* `announces_iff`: the type is right if it is the default type, or if the first dot of the
  path is the last one.
-/

namespace Webserver

open Text

/-- What follows the last slash of a path. -/
def lastSegment (path : Bytes) : Bytes :=
  match rfind slash path with
  | none => path
  | some i => path.drop (i + 1)

/-- The text from the last dot of the last segment of a path. -/
def extension (path : Bytes) : Option Bytes :=
  (rfind dot (lastSegment path)).map fun i => (lastSegment path).drop i

def defaultType : Bytes := bytes "text/html"

/-- The type that the table has for the extension of a path. -/
def typeOf (path : Bytes) : Bytes := ((extension path).bind (List.lookup · mime)).getD defaultType

/-! ## The extension of a path -/

theorem extension_append {stem t : Bytes} (hdot : dot ∉ t) (hslash : slash ∉ t) :
    extension (stem ++ dot :: t) = some (dot :: t) := by
  have hname : ∀ a : Bytes, (rfind dot (a ++ dot :: t)).map ((a ++ dot :: t).drop ·) =
      some (dot :: t) := by
    intro a
    rw [rfind_append_cons hdot, Option.map_some, List.drop_left]
  have hslash : slash ∉ dot :: t := by
    rw [List.mem_cons, not_or]
    exact ⟨by decide, hslash⟩
  cases hstem : rfind slash stem with
  | none =>
    have hpath : rfind slash (stem ++ dot :: t) = none := by
      rw [rfind_eq_none_iff, List.mem_append, not_or]
      exact ⟨rfind_eq_none_iff.1 hstem, hslash⟩
    simp only [extension, lastSegment, hpath]
    exact hname stem
  | some i =>
    obtain ⟨a, b, rfl, hb, -⟩ := exists_of_rfind hstem
    have hpath : rfind slash (a ++ slash :: b ++ dot :: t) = some a.length := by
      rw [List.append_assoc, List.cons_append]
      refine rfind_append_cons ?_
      rw [List.mem_append, not_or]
      exact ⟨hb, hslash⟩
    have hname := hname b
    have hsegment : lastSegment (a ++ slash :: b ++ dot :: t) = b ++ dot :: t := by
      rw [lastSegment, hpath]
      simp
    rw [extension, hsegment, hname]

/-- A path ends with its last segment. -/
theorem exists_of_lastSegment (path : Bytes) :
    (∃ before, path = before ++ lastSegment path) ∧ slash ∉ lastSegment path := by
  rw [lastSegment]
  cases hpath : rfind slash path with
  | none => exact ⟨⟨[], rfl⟩, rfind_eq_none_iff.1 hpath⟩
  | some i =>
    obtain ⟨a, b, rfl, hb, rfl⟩ := exists_of_rfind hpath
    have hdrop : (a ++ slash :: b).drop (a.length + 1) = b := by simp
    simp only [hdrop]
    exact ⟨⟨a ++ [slash], by rw [List.append_assoc, List.singleton_append]⟩, hb⟩

/-- A path that has an extension ends with it. -/
theorem exists_of_extension {path e : Bytes} (h : extension path = some e) :
    ∃ stem t, path = stem ++ dot :: t ∧ e = dot :: t ∧ dot ∉ t ∧ slash ∉ t := by
  obtain ⟨i, hi, rfl⟩ := Option.map_eq_some_iff.1 h
  obtain ⟨a, t, hsegment, ht, rfl⟩ := exists_of_rfind hi
  obtain ⟨⟨before, hpath⟩, hslash⟩ := exists_of_lastSegment path
  rw [hsegment] at hpath hslash ⊢
  rw [List.mem_append, List.mem_cons, not_or, not_or] at hslash
  exact ⟨before ++ a, t, by rw [hpath, List.append_assoc], List.drop_left, ht, hslash.2.2⟩

theorem extension_eq_some_iff {path e : Bytes} :
    extension path = some e ↔
      ∃ stem t, path = stem ++ dot :: t ∧ e = dot :: t ∧ dot ∉ t ∧ slash ∉ t := by
  refine ⟨exists_of_extension, ?_⟩
  rintro ⟨stem, t, rfl, rfl, hdot, hslash⟩
  exact extension_append hdot hslash

/-- A name in front without dots and slashes does not change the extension. -/
theorem extension_append_left {name : Bytes} (hdot : dot ∉ name) (path : Bytes) :
    extension (name ++ path) = extension path := by
  refine Option.ext fun e => ?_
  rw [extension_eq_some_iff, extension_eq_some_iff]
  constructor
  · rintro ⟨stem, t, hpath, hrest⟩
    obtain ⟨stem, -, hpath⟩ | ⟨between, hname, hbetween⟩ := List.append_eq_append_iff.1 hpath
    · exact ⟨stem, t, hpath, hrest⟩
    · cases between with
      | nil => exact ⟨[], t, hbetween.symm, hrest⟩
      | cons x between =>
        obtain ⟨rfl, -⟩ := List.cons.inj hbetween
        rw [hname, List.mem_append, not_or] at hdot
        exact absurd List.mem_cons_self hdot.2
  · rintro ⟨stem, t, rfl, hrest⟩
    exact ⟨name ++ stem, t, (List.append_assoc _ _ _).symm, hrest⟩

/-! ## What the table is looked up for -/

/-- The types of the table other than the default belong to texts with one dot, at their
    start, and no slash. -/
theorem exists_of_getMime {suffix : Bytes} (h : getMime suffix ≠ defaultType) :
    ∃ t, suffix = dot :: t ∧ dot ∉ t ∧ slash ∉ t := by
  have hmime : ∀ p ∈ mime, p.2 ≠ defaultType →
      p.1 = dot :: p.1.tail ∧ dot ∉ p.1.tail ∧ slash ∉ p.1.tail := by decide +kernel
  rw [getMime] at h
  cases hlookup : mime.lookup suffix with
  | none =>
    rw [hlookup] at h
    exact absurd (by decide +kernel) h
  | some filetype =>
    rw [hlookup] at h
    obtain ⟨l₁, l₂, hl, -⟩ := List.lookup_eq_some_iff.1 hlookup
    exact ⟨suffix.tail, hmime (suffix, filetype) (by simp [hl]) h⟩

/-- The type of a path is what the table says of its extension. -/
theorem getMime_of_extension {path e : Bytes} (h : extension path = some e) :
    getMime e = typeOf path := by
  rw [typeOf, h, getMime, Option.bind_some]
  cases mime.lookup e with
  | none => exact (by decide +kernel : (mime.lookup (bytes "default")).getD [] = defaultType)
  | some => rfl

theorem typeOf_of_none {path : Bytes} (h : extension path = none) : typeOf path = defaultType := by
  rw [typeOf, h]
  rfl

/-- The position that is kept of the first dot is that of the last dot. -/
def OneDot (url : Bytes) : Prop :=
  dotPos url ≠ -1 ∧ rfind dot url = some (toSizeT (dotPos url))

/-- What is looked up in the table is a part of the path. Either it has the default type, or
    it is the extension. -/
theorem getMime_drop_eq_iff (url : Bytes) (pos : ℕ) :
    getMime (url.drop pos) = typeOf url ↔
      typeOf url = defaultType ∨ rfind dot url = some pos := by
  by_cases hget : getMime (url.drop pos) = defaultType
  · rw [hget, eq_comm, or_iff_left_of_imp]
    intro hpos
    by_contra hne
    obtain ⟨e, he⟩ := Option.ne_none_iff_exists'.1 (mt typeOf_of_none hne)
    obtain ⟨stem, t, rfl, rfl, hdot, -⟩ := exists_of_extension he
    rw [rfind_append_cons hdot] at hpos
    obtain rfl := Option.some.inj hpos
    rw [List.drop_left, getMime_of_extension he] at hget
    exact hne hget
  · obtain ⟨t, hdrop, hdot, hslash⟩ := exists_of_getMime hget
    have hpos : pos < url.length := by
      by_contra hge
      rw [List.drop_of_length_le (Nat.not_lt.1 hge)] at hdrop
      cases hdrop
    have hurl : url = url.take pos ++ dot :: t := by rw [← hdrop, List.take_append_drop]
    refine iff_of_true ?_ (.inr ?_)
    · rw [hdrop]
      refine getMime_of_extension ?_
      rw [hurl]
      exact extension_append hdot hslash
    · rw [hurl, rfind_append_cons hdot, List.length_take_of_le hpos.le]

/-- The type of a path is found if it is the default type, or if there is one dot. -/
theorem filetype_eq_iff (url : Bytes) :
    filetype url = .ok (typeOf url) ↔
      DotFits url ∧ (typeOf url = defaultType ∨ OneDot url) := by
  have hdefault : getMime (bytes "default") = defaultType := by decide +kernel
  rw [filetype, DotFits, OneDot]
  split
  · next hpos => simp [hpos, hdefault, eq_comm]
  · next hpos =>
    rw [or_iff_right hpos, and_iff_right hpos]
    split
    · next hle =>
      rw [and_iff_right hle, Except.ok.injEq]
      exact getMime_drop_eq_iff url _
    · next hle => exact iff_of_false (by simp) fun h => hle h.1

theorem typeOf_urlOf (target : Bytes) : typeOf (HttpData.urlOf target) = typeOf target := by
  rw [HttpData.urlOf]
  split
  · next htarget =>
    rw [htarget]
    decide +kernel
  · rw [typeOf, typeOf, extension_append_left (by decide +kernel)]

/-! ## What is announced -/

/-- A `GET` or `HEAD` request for a file that can be served is answered with the type of the
    target in the header. -/
def Announces (target : Bytes) : Prop :=
  ∀ (fs : FileSystem) (c : Conn) (head : Bool) (size : ℕ) (content : Bytes),
    c.http.url = HttpData.urlOf target → c.http.method = some (if head then .head else .get) →
    fs.stat (cStr c.http.url) = some size →
    body fs (cStr c.http.url) head size = some content →
    ∃ c', c.analysisRequest fs = .ok (.success, c') ∧ c'.http.outBuffer =
      c.http.outBuffer ++ (responseHeader c.http.headtToValue (typeOf target) size ++ content)

/-- The answer to a request for a file, by what is found to be its type. -/
theorem analysisRequest_file {fs : FileSystem} {c : Conn} {target : Bytes} {head : Bool}
    {size : ℕ} {content : Bytes} (hurl : c.http.url = HttpData.urlOf target)
    (hmethod : c.http.method = some (if head then .head else .get))
    (hsize : fs.stat (cStr c.http.url) = some size)
    (hbody : body fs (cStr c.http.url) head size = some content) :
    c.analysisRequest fs = match filetype c.http.url with
      | .error f => .error (f, c.analyse)
      | .ok t => .ok (.success,
        c.analyse.output (responseHeader c.http.headtToValue t size ++ content)) := by
  have hreply : c.http.request.reply fs =
      fileReply fs c.http.url c.http.headtToValue head := by
    cases head <;> simp [Request.reply, HttpData.request, hmethod]
  have hhello : ¬(c.http.url = bytes "hello" ∨ c.http.url = bytes "Hello") :=
    not_hello_of_root (hurl ▸ HttpData.root_prefix_urlOf target)
  have hresponse : ∀ t, response fs c.http.url c.http.headtToValue head t =
      some (responseHeader c.http.headtToValue t size ++ content) := by
    intro t
    rw [response, hsize, Option.bind_some, hbody, Option.map_some]
  rw [Conn.analysisRequest_eq_reply, hreply, fileReply]
  cases filetype c.http.url with
  | error f => rfl
  | ok t =>
    simp only [if_neg hhello, hresponse]
    exact Conn.handleReply_answered hhello

theorem responseHeader_inj {m : Headers} {t t' : Bytes} {size : ℕ}
    (h : responseHeader m t size = responseHeader m t' size) : t = t' := by
  simpa [responseHeader] using h

/-- A file system in which every path names an empty file. -/
def emptyFiles : FileSystem where
  lookup path := if path = [] then none else some (.regular [] true)
  lookup_nil := if_pos rfl

theorem announces_iff_filetype (target : Bytes) :
    Announces target ↔ filetype (HttpData.urlOf target) = .ok (typeOf target) := by
  constructor
  · intro hall
    obtain ⟨s, hs⟩ := HttpData.root_prefix_urlOf target
    let c : Conn :=
      { Conn.first with http.url := HttpData.urlOf target, http.method := some .head }
    have hsize : emptyFiles.stat (cStr c.http.url) = some 0 := by
      have hne : cStr (HttpData.urlOf target) ≠ [] := by
        rw [← hs, cStr_root_append]
        exact List.append_ne_nil_of_left_ne_nil (by decide +kernel) _
      simp [FileSystem.stat, emptyFiles, c, hne, Inode.size]
    have hbody : body emptyFiles (cStr c.http.url) true 0 = some [] := rfl
    obtain ⟨c', hc', hout⟩ := hall emptyFiles c true 0 [] rfl rfl hsize hbody
    rw [analysisRequest_file rfl rfl hsize hbody] at hc'
    cases hfiletype : filetype (HttpData.urlOf target) with
    | error f =>
      have hfiletype : filetype c.http.url = .error f := hfiletype
      rw [hfiletype] at hc'
      cases hc'
    | ok t =>
      have hfiletype : filetype c.http.url = .ok t := hfiletype
      rw [hfiletype] at hc'
      cases hc'
      rw [List.append_nil, List.append_nil] at hout
      exact congrArg _ (responseHeader_inj (List.append_cancel_left hout))
  · intro hfiletype fs c head size content hurl hmethod hsize hbody
    rw [analysisRequest_file hurl hmethod hsize hbody, hurl, hfiletype]
    exact ⟨_, rfl, rfl⟩

/-- The type announced is that of the extension if this has the default type, or if the
    first dot of the path is kept as the position of the last one. -/
theorem announces_iff (target : Bytes) :
    Announces target ↔ DotFits (HttpData.urlOf target) ∧
      (typeOf target = defaultType ∨ OneDot (HttpData.urlOf target)) := by
  rw [announces_iff_filetype, ← typeOf_urlOf]
  exact filetype_eq_iff _

/-- In a path that is not too long, the first dot has to be the last one. -/
theorem announces_iff_of_lt {target : Bytes}
    (hlen : (HttpData.urlOf target).length < 0x80000000) :
    Announces target ↔ typeOf target = defaultType ∨
      find dot (HttpData.urlOf target) = rfind dot (HttpData.urlOf target) := by
  have hfits : DotFits (HttpData.urlOf target) :=
    dotFits_of_lt fun pos hpos => (lt_length_of_find hpos).trans hlen
  rw [announces_iff_filetype, ← typeOf_urlOf, filetype_eq_iff, and_iff_right hfits]
  cases hfind : find dot (HttpData.urlOf target) with
  | none =>
    have htype : typeOf (HttpData.urlOf target) = defaultType := by
      refine typeOf_of_none (Option.eq_none_iff_forall_ne_some.2 fun e he => ?_)
      obtain ⟨stem, t, hurl, -⟩ := exists_of_extension he
      refine find_eq_none_iff.1 hfind ?_
      rw [hurl]
      exact List.mem_append_right stem List.mem_cons_self
    exact iff_of_true (.inl htype) (.inl htype)
  | some pos =>
    have hlt := (lt_length_of_find hfind).trans hlen
    have hpos : dotPos (HttpData.urlOf target) = pos := by
      simp only [dotPos, hfind, toInt_of_lt hlt]
    have hkept : toSizeT pos = pos := by
      rw [toSizeT]
      omega
    have hne : (pos : ℤ) ≠ -1 := by omega
    rw [OneDot, hpos, hkept, and_iff_right hne, eq_comm (a := some pos)]

/-- A name with two dots. -/
theorem not_announces : ¬∀ target, Announces target := by
  intro hall
  have hannounced := (announces_iff_filetype _).1 (hall (bytes "/photo.min.jpg"))
  exact absurd hannounced (by decide +kernel)

end Webserver
