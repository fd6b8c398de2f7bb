import Webserver.Http.Basic
import Webserver.Lib.Text
import Mathlib.Data.List.Induction

/-!
# Parsing requests

`parseURL` and `parseHeaders` cut the request line and the header lines out of
`inBuffer`. They work on whatever has arrived so far: a line that is not
complete yet makes them answer `again`.

* `parseURL_cons`: what `parseURL` does with a buffer holding a `CR`.
* `parseHeaders_success_iff`: the texts `parseHeaders` accepts, with the fields
  it reads from them and the bytes it leaves. An accepted text is a sequence of
  header lines (`HeadLine`), followed by a line starting with `CR`, or by
  nothing at all.
* `parseHeadersLoop_append`: what happens when more bytes had been there from
  the start.
* `HttpData.parseHeaders_answers_iff`: when building a field value throws.
-/

namespace Webserver

open Text

/-- Dropping past the end of a string clears it. -/
theorem drop_or_clear (s : Bytes) (n : ℕ) : (if s.length > n then s.drop n else []) = s.drop n := by
  split
  · rfl
  · rw [List.drop_eq_nil_of_le (by omega)]

namespace HttpData

/-! ## The request line -/

/-- The method named by a token; an unknown one leaves the method as it is. -/
def methodOf (token : Bytes) (method : Option HttpMethod) : Option HttpMethod :=
  if token = bytes "GET" then some .get
  else if token = bytes "POST" then some .post
  else if token = bytes "HEAD" then some .head
  else method

theorem methodOf_get (method : Option HttpMethod) : methodOf (bytes "GET") method = some .get :=
  if_pos rfl

theorem methodOf_post (method : Option HttpMethod) :
    methodOf (bytes "POST") method = some .post := by
  rw [methodOf, if_neg (by decide +kernel), if_pos rfl]

theorem methodOf_head (method : Option HttpMethod) :
    methodOf (bytes "HEAD") method = some .head := by
  rw [methodOf, if_neg (by decide +kernel), if_neg (by decide +kernel), if_pos rfl]

/-- The path of a request target. -/
def urlOf (target : Bytes) : Bytes :=
  if target = bytes "/" then bytes "root" ++ target ++ bytes "log.html"
  else bytes "root" ++ target

theorem root_prefix_urlOf (target : Bytes) : bytes "root" <+: urlOf target := by
  rw [urlOf]
  split
  · exact ⟨target ++ bytes "log.html", by rw [List.append_assoc]⟩
  · exact ⟨target, rfl⟩

/-- The part of `parseURL` that reads the request line, once cut out. -/
def parseRequestLine (h : HttpData) (requestline : Bytes) : UrlState × HttpData :=
  let pos := find sp requestline
  let h := { h with method := methodOf (upTo requestline pos) h.method }
  let requestline := past requestline pos
  match find sp requestline with
  | none => (.error, h)
  | some pos => (.success, { h with
      url := urlOf (requestline.take pos)
      version := requestline.drop (pos + 1) })

/-- Takes the request line off the buffer, if there is a whole one. -/
def parseURL (h : HttpData) : UrlState × HttpData :=
  if h.state = .parseUrl then
    match find cr h.inBuffer with
    | none => (.again, h)
    | some pos =>
      -- Two bytes go, although only the first has been looked at.
      { h with inBuffer :=
          if h.inBuffer.length > pos + 2 then h.inBuffer.drop (pos + 2) else []
        }.parseRequestLine (h.inBuffer.take pos)
  else (.success, h)

/-! ## The header lines -/

/-- The loop of `parseHeaders`: the answer, the buffer left, and the fields. A
    field value is built from the iterator range that starts two places after
    the colon and ends before the last byte of the line, and building a string
    from a range that ends before it starts throws. -/
def parseHeadersLoop (str : Bytes) (headtToValue : Headers) :
    Except Fault (HeaderState × Bytes × Headers) :=
  match _hpos : find lf str with
  | none =>
    -- An empty buffer is not incomplete: it ends the header like an empty line.
    if str ≠ [] then .ok (.again, str, headtToValue) else .ok (.success, [], headtToValue)
  | some pos =>
    -- The `LF` found need not belong to the line that starts with `CR`.
    if str.head? = some cr then
      .ok (.success, if str.length > 2 then str.drop 2 else [], headtToValue)
    else
      let headline := str.take pos
      let rest := if str.length > pos + 1 then str.drop (pos + 1) else []
      match find colon headline with
      | none => .ok (.error, rest, headtToValue)
      | some pos =>
        -- The colon of `a:` or `a:b` is too close to the end of its line.
        if pos + 2 ≤ headline.length - 1 then
          parseHeadersLoop rest
            (headtToValue.insert (headline.take pos) (headline.dropLast.drop (pos + 2)))
        else .error .lengthError
termination_by str.length
decreasing_by
  have := lt_length_of_find _hpos
  split
  · rw [List.length_drop]
    omega
  · exact Nat.lt_of_le_of_lt (Nat.zero_le _) this

/-- Takes header lines off the buffer, up to the empty line. -/
def parseHeaders (h : HttpData) : Except Fault (HeaderState × HttpData) :=
  match parseHeadersLoop h.inBuffer h.headtToValue with
  | .error f => .error f
  | .ok (flag, str, headtToValue) =>
      .ok (flag, { h with inBuffer := str, headtToValue := headtToValue })

/-- Without a `CR` the request line is not complete. -/
theorem parseURL_of_notMem {h : HttpData} (hstate : h.state = .parseUrl)
    (hcr : cr ∉ h.inBuffer) : h.parseURL = (.again, h) := by
  rw [parseURL, if_pos hstate, find_eq_none_iff.2 hcr]

/-- The request line is what comes before the first `CR`; the byte after it is
    taken to be an `LF`. -/
theorem parseURL_cons {h : HttpData} {line rest : Bytes} (hstate : h.state = .parseUrl)
    (hbuf : h.inBuffer = line ++ cr :: rest) (hcr : cr ∉ line) :
    h.parseURL = { h with inBuffer := rest.drop 1 }.parseRequestLine line := by
  have hdrop : (line ++ cr :: rest).drop (line.length + 2) = rest.drop 1 := by
    rw [← List.drop_drop, List.drop_left]
    rfl
  rw [parseURL, if_pos hstate, hbuf, find_append_cons hcr]
  simp only [drop_or_clear, List.take_left]
  rw [hdrop]

/-- A buffer on which `parseURL` gives an answer holds a request line. -/
theorem exists_line {h : HttpData} (hstate : h.state = .parseUrl) (hflag : h.parseURL.1 ≠ .again) :
    ∃ line rest, h.inBuffer = line ++ cr :: rest ∧ cr ∉ line := by
  cases hpos : find cr h.inBuffer with
  | none =>
    rw [parseURL_of_notMem hstate (find_eq_none_iff.1 hpos)] at hflag
    exact absurd rfl hflag
  | some pos =>
    obtain ⟨line, rest, hbuf, hcr, -⟩ := exists_of_find hpos
    exact ⟨line, rest, hbuf, hcr⟩

end HttpData

/-! ## Accepted header lines -/

/-- A header line, as `parseHeaders` reads it: whatever the byte `gap` after the
    colon and the byte `eol` before the `LF` are, they are skipped. -/
structure HeadLine where
  name : Bytes
  gap : UInt8
  value : Bytes
  eol : UInt8

namespace HeadLine

/-- The line, without its `LF`. -/
def text (l : HeadLine) : Bytes := l.name ++ colon :: l.gap :: l.value ++ [l.eol]

/-- The line is read as it is meant: its name ends at its first colon, it ends
    at its first `LF`, and it is not taken for the end of the header. -/
structure Valid (l : HeadLine) : Prop where
  colon_notMem : colon ∉ l.name
  lf_notMem : lf ∉ l.text
  head_ne : l.text.head? ≠ some cr

/-- The text of some lines. -/
def render (ls : List HeadLine) : Bytes := ls.flatMap fun l => l.text ++ [lf]

/-- The fields after reading some lines: the last line of a name wins. -/
def fields (ls : List HeadLine) (m : Headers) : Headers :=
  ls.foldl (fun m l => m.insert l.name l.value) m

@[simp] theorem render_nil : render [] = [] := rfl

@[simp] theorem render_cons (l : HeadLine) (ls : List HeadLine) :
    render (l :: ls) = l.text ++ lf :: render ls := by
  simp [render]

@[simp] theorem fields_cons (l : HeadLine) (ls : List HeadLine) (m : Headers) :
    fields (l :: ls) m = fields ls (m.insert l.name l.value) := rfl

/-- A line whose colon is followed by at least two bytes. -/
theorem exists_text {a b : Bytes} (hb : 2 ≤ b.length) :
    ∃ l : HeadLine, l.name = a ∧ l.text = a ++ colon :: b := by
  match b, hb with
  | gap :: x :: b, _ =>
    refine ⟨⟨a, gap, (x :: b).dropLast, (x :: b).getLast (by simp)⟩, rfl, ?_⟩
    rw [text, List.append_assoc, List.cons_append, List.cons_append,
      List.dropLast_append_getLast]

/-- The two ends of the iterator range a field value is built from. -/
theorem value_eq (l : HeadLine) : l.text.dropLast.drop (l.name.length + 2) = l.value := by
  have h : l.text.dropLast = l.name ++ ([colon, l.gap] ++ l.value) := by
    rw [text, List.dropLast_concat]
    simp
  rw [h, ← List.drop_drop, List.drop_left]
  rfl

end HeadLine

/-! ## What `parseHeaders` answers -/

open HeadLine HttpData

/-- The answers of the loop of `parseHeaders`, line by line. -/
inductive ParsesTo : Bytes → Headers → Except Fault (HeaderState × Bytes × Headers) → Prop
  | dry {m : Headers} : ParsesTo [] m (.ok (.success, [], m))
  | blank {m : Headers} {t : Bytes} : lf ∈ t → ParsesTo (cr :: t) m (.ok (.success, t.drop 1, m))
  | again {m : Headers} {s : Bytes} : s ≠ [] → lf ∉ s → ParsesTo s m (.ok (.again, s, m))
  | error {m : Headers} {line rest : Bytes} :
      lf ∉ line → line.head? ≠ some cr → colon ∉ line →
      ParsesTo (line ++ lf :: rest) m (.ok (.error, rest, m))
  | short {m : Headers} {a b rest : Bytes} :
      lf ∉ a ++ colon :: b → (a ++ colon :: b).head? ≠ some cr → colon ∉ a → b.length < 2 →
      ParsesTo ((a ++ colon :: b) ++ lf :: rest) m (.error .lengthError)
  | line {m : Headers} {l : HeadLine} {rest : Bytes}
      {r : Except Fault (HeaderState × Bytes × Headers)} :
      l.Valid → ParsesTo rest (m.insert l.name l.value) r →
      ParsesTo (l.text ++ lf :: rest) m r

theorem head?_append_cons {line rest : Bytes} {c : UInt8} (h : line.head? ≠ some cr)
    (hc : c ≠ cr) : (line ++ c :: rest).head? ≠ some cr := by
  cases line with
  | nil => simpa using hc
  | cons x line => simpa using h

/-- The first turn of the loop, on a buffer that holds a complete line. -/
theorem parseHeadersLoop_cons {line rest : Bytes} (hlf : lf ∉ line) (hhead : line.head? ≠ some cr)
    (m : Headers) :
    parseHeadersLoop (line ++ lf :: rest) m =
      match find colon line with
      | none => .ok (.error, rest, m)
      | some pos =>
        if pos + 2 ≤ line.length - 1 then
          parseHeadersLoop rest (m.insert (line.take pos) (line.dropLast.drop (pos + 2)))
        else .error .lengthError := by
  have hfind := find_append_cons (t := rest) hlf
  have hdrop : (line ++ lf :: rest).drop (line.length + 1) = rest := by
    rw [← List.drop_drop, List.drop_left]
    rfl
  rw [parseHeadersLoop]
  split
  · next h => rw [hfind] at h; cases h
  · next pos h =>
    obtain rfl : line.length = pos := Option.some.inj (hfind.symm.trans h)
    rw [if_neg (head?_append_cons hhead (by decide))]
    simp only [drop_or_clear, List.take_left]
    simp only [hdrop]

/-- The loop on a buffer without a complete line. -/
theorem parseHeadersLoop_of_notMem {s : Bytes} (hlf : lf ∉ s) (m : Headers) :
    parseHeadersLoop s m =
      if s ≠ [] then .ok (.again, s, m) else .ok (.success, [], m) := by
  rw [parseHeadersLoop]
  split
  · rfl
  · next pos h => rw [find_eq_none_iff.2 hlf] at h; cases h

/-- The loop on a buffer starting with a line that starts with `CR`. -/
theorem parseHeadersLoop_cr {t : Bytes} (hlf : lf ∈ t) (m : Headers) :
    parseHeadersLoop (cr :: t) m = .ok (.success, t.drop 1, m) := by
  rw [parseHeadersLoop]
  split
  · next h => exact absurd (List.mem_cons_of_mem _ hlf) (find_eq_none_iff.1 h)
  · rw [if_pos (by rfl), drop_or_clear]
    rfl

/-- The relation describes the loop. -/
theorem ParsesTo.eq {s : Bytes} {m : Headers}
    {r : Except Fault (HeaderState × Bytes × Headers)} (h : ParsesTo s m r) :
    parseHeadersLoop s m = r := by
  induction h with
  | dry => rw [parseHeadersLoop_of_notMem List.not_mem_nil]; rfl
  | blank hlf => exact parseHeadersLoop_cr hlf _
  | again hne hlf => rw [parseHeadersLoop_of_notMem hlf, if_pos hne]
  | error hlf hhead hcolon => rw [parseHeadersLoop_cons hlf hhead, find_eq_none_iff.2 hcolon]
  | short hlf hhead hcolon hlen =>
    rw [parseHeadersLoop_cons hlf hhead, find_append_cons hcolon]
    simp only [List.length_append, List.length_cons]
    rw [if_neg (by omega)]
  | @line m l rest r hl _ ih =>
    have htext : l.text = l.name ++ colon :: (l.gap :: l.value ++ [l.eol]) := by
      rw [text, List.append_assoc]
      rfl
    have hfind : find colon l.text = some l.name.length := by
      rw [htext, find_append_cons hl.colon_notMem]
    have htake : l.text.take l.name.length = l.name := by rw [htext, List.take_left]
    have hlen : l.name.length + 2 ≤ l.text.length - 1 := by
      rw [htext]
      simp only [List.length_append, List.length_cons, List.length_nil]
      omega
    rw [parseHeadersLoop_cons hl.lf_notMem hl.head_ne, hfind]
    simp only [if_pos hlen, htake, value_eq]
    exact ih

/-- Every buffer is of one of the kinds the relation tells apart. -/
theorem parsesTo (s : Bytes) (m : Headers) : ParsesTo s m (parseHeadersLoop s m) := by
  -- Each turn of the loop shortens the buffer by a line; the fields grow, so they
  -- are generalised.
  induction hn : s.length using Nat.strong_induction_on generalizing s m with
  | _ n ih =>
    cases hfind : find lf s with
    | none =>
      have hlf := find_eq_none_iff.1 hfind
      rw [parseHeadersLoop_of_notMem hlf]
      split
      · next hne => exact .again hne hlf
      · next he => rw [not_not.1 he]; exact .dry
    | some pos =>
      obtain ⟨line, rest, rfl, hlf, -⟩ := exists_of_find hfind
      by_cases hhead : line.head? = some cr
      · obtain ⟨t, rfl⟩ : ∃ t, line = cr :: t := by
          cases line with
          | nil => cases hhead
          | cons x t => exact ⟨t, by rw [Option.some.inj hhead]⟩
        have hmem : lf ∈ t ++ lf :: rest := by simp
        rw [List.cons_append, parseHeadersLoop_cr hmem]
        exact .blank hmem
      · cases hcolon : find colon line with
        | none =>
          rw [parseHeadersLoop_cons hlf hhead, hcolon]
          exact .error hlf hhead (find_eq_none_iff.1 hcolon)
        | some pos =>
          obtain ⟨a, b, rfl, ha, -⟩ := exists_of_find hcolon
          by_cases hb : b.length < 2
          · rw [ParsesTo.eq (.short hlf hhead ha hb)]
            exact .short hlf hhead ha hb
          · obtain ⟨l, rfl, htext⟩ := exists_text (a := a) (b := b) (by omega)
            rw [← htext] at hlf hhead hn ⊢
            have hrest := ih rest.length (by rw [← hn]; simp; omega) rest
              (m.insert l.name l.value) rfl
            have hline := ParsesTo.line ⟨ha, hlf, hhead⟩ hrest
            rw [hline.eq]
            exact hline

/-- Lines read as they are meant are read one after the other. -/
theorem ParsesTo.lines {ls : List HeadLine} {rest : Bytes} {m : Headers}
    {r : Except Fault (HeaderState × Bytes × Headers)} (hls : ∀ l ∈ ls, l.Valid)
    (h : ParsesTo rest (fields ls m) r) : ParsesTo (render ls ++ rest) m r := by
  induction ls generalizing m with
  | nil => exact h
  | cons l ls ih =>
    rw [List.forall_mem_cons] at hls
    rw [render_cons, List.append_assoc, List.cons_append]
    exact .line hls.1 (ih hls.2 h)

/-- The buffer ends right after a header line, before the end of the header. -/
def RunsDry (s : Bytes) : Prop := ∃ ls : List HeadLine, (∀ l ∈ ls, l.Valid) ∧ s = render ls

theorem runsDry_nil : RunsDry [] := ⟨[], by simp, rfl⟩

theorem RunsDry.line {l : HeadLine} {rest : Bytes} (hl : l.Valid) (h : RunsDry rest) :
    RunsDry (l.text ++ lf :: rest) := by
  obtain ⟨ls, hls, rfl⟩ := h
  exact ⟨l :: ls, List.forall_mem_cons.2 ⟨hl, hls⟩, (render_cons l ls).symm⟩

/-- A buffer that runs dry ends at the end of a line. -/
theorem RunsDry.getLast {s : Bytes} (h : RunsDry s) : s = [] ∨ s.getLast? = some lf := by
  obtain ⟨ls, -, rfl⟩ := h
  cases ls using List.reverseRecOn with
  | nil => exact .inl rfl
  | append_singleton ls l => exact .inr (by simp [HeadLine.render])

/-- A buffer that runs dry is accepted, as if the header ended there. -/
theorem RunsDry.eq {s : Bytes} (h : RunsDry s) (m : Headers) :
    ∃ m', parseHeadersLoop s m = .ok (.success, [], m') := by
  obtain ⟨ls, hls, rfl⟩ := h
  have hdry : ParsesTo (render ls ++ []) m _ := .lines hls .dry
  rw [List.append_nil] at hdry
  exact ⟨_, hdry.eq⟩

/-- More bytes at the end of the buffer are left alone, or continue the line
    that was not complete; unless the buffer had run dry. -/
theorem parseHeadersLoop_append {s : Bytes} (hdry : ¬RunsDry s) (q : Bytes) (m : Headers) :
    parseHeadersLoop (s ++ q) m =
      match parseHeadersLoop s m with
      | .error f => .error f
      | .ok (.again, rest, m') => parseHeadersLoop (rest ++ q) m'
      | .ok (flag, rest, m') => .ok (flag, rest ++ q, m') := by
  -- The induction is on the lines of `s`: `q` stays behind each of them.
  have h := parsesTo s m
  generalize parseHeadersLoop s m = r at h
  induction h with
  | dry => exact absurd runsDry_nil hdry
  | @blank m t hlf =>
    obtain ⟨x, t, rfl⟩ : ∃ x t', t = x :: t' :=
      List.exists_cons_of_ne_nil (by rintro rfl; simp at hlf)
    exact (ParsesTo.blank (List.mem_append_left q hlf)).eq
  | again => rfl
  | @error m line rest hlf hhead hcolon =>
    rw [List.append_assoc, List.cons_append]
    exact (ParsesTo.error hlf hhead hcolon).eq
  | @short m a b rest hlf hhead hcolon hlen =>
    rw [List.append_assoc, List.cons_append]
    exact (ParsesTo.short hlf hhead hcolon hlen).eq
  | @line m l rest r hl _ ih =>
    rw [List.append_assoc, List.cons_append, ← ih fun hrest => hdry (hrest.line hl)]
    exact (ParsesTo.line hl (parsesTo _ _)).eq

/-- The texts `parseHeaders` accepts: header lines, and then nothing, or an `LF`
    somewhere after a `CR`, of which the first two bytes are removed. -/
theorem parseHeaders_success_iff {s rest : Bytes} {m m' : Headers} :
    parseHeadersLoop s m = .ok (.success, rest, m') ↔
      ∃ ls : List HeadLine, (∀ l ∈ ls, l.Valid) ∧ m' = fields ls m ∧
        (s = render ls ∧ rest = [] ∨
          ∃ t, lf ∈ t ∧ s = render ls ++ cr :: t ∧ rest = t.drop 1) := by
  constructor
  · intro heq
    have h := parsesTo s m
    rw [heq] at h
    -- `ParsesTo` is an induction on its answer too, so the answer is made a variable.
    generalize hr : (Except.ok (HeaderState.success, rest, m') :
      Except Fault (HeaderState × Bytes × Headers)) = r at h
    induction h with
    | dry => cases hr; exact ⟨[], by simp, rfl, .inl ⟨rfl, rfl⟩⟩
    | @blank m t hlf => cases hr; exact ⟨[], by simp, rfl, .inr ⟨t, hlf, rfl, rfl⟩⟩
    | again => cases hr
    | error => cases hr
    | short => cases hr
    | @line m l tail r hl htail ih =>
      subst hr
      obtain ⟨ls, hls, hm, htext⟩ := ih htail.eq rfl
      refine ⟨l :: ls, List.forall_mem_cons.2 ⟨hl, hls⟩, hm, ?_⟩
      rcases htext with ⟨rfl, hrest⟩ | ⟨t, hlf, rfl, hrest⟩
      · exact .inl ⟨(render_cons l ls).symm, hrest⟩
      · exact .inr ⟨t, hlf, by simp, hrest⟩
  · rintro ⟨ls, hls, rfl, ⟨rfl, rfl⟩ | ⟨t, hlf, rfl, rfl⟩⟩
    · have h : ParsesTo (render ls ++ []) m _ := .lines hls .dry
      rw [List.append_nil] at h
      exact h.eq
    · exact (ParsesTo.lines hls (.blank hlf)).eq

/-! ## Lines that are too short -/

/-- A line that is reached after valid ones has a colon with fewer than two bytes
    behind it. -/
def HasShortLine (s : Bytes) : Prop :=
  ∃ (ls : List HeadLine) (a b rest : Bytes), (∀ l ∈ ls, l.Valid) ∧
    s = render ls ++ ((a ++ colon :: b) ++ lf :: rest) ∧
    lf ∉ a ++ colon :: b ∧ (a ++ colon :: b).head? ≠ some cr ∧ colon ∉ a ∧ b.length < 2

theorem HasShortLine.line {l : HeadLine} {rest : Bytes} (hl : l.Valid) (h : HasShortLine rest) :
    HasShortLine (l.text ++ lf :: rest) := by
  obtain ⟨ls, a, b, tail, hls, rfl, hshort⟩ := h
  exact ⟨l :: ls, a, b, tail, List.forall_mem_cons.2 ⟨hl, hls⟩, by simp, hshort⟩

/-- The loop of `parseHeaders` fails on lines that are too short only, and in one
    way. -/
theorem short_of_parseHeadersLoop {s : Bytes} {m : Headers} {f : Fault}
    (heq : parseHeadersLoop s m = .error f) : f = .lengthError ∧ HasShortLine s := by
  have h := parsesTo s m
  rw [heq] at h
  generalize hr : (Except.error f : Except Fault (HeaderState × Bytes × Headers)) = r at h
  induction h with
  | dry => cases hr
  | blank => cases hr
  | again => cases hr
  | error => cases hr
  | @short m a b rest hlf hhead hcolon hlen =>
    cases hr
    exact ⟨rfl, [], a, b, rest, by simp, rfl, hlf, hhead, hcolon, hlen⟩
  | @line m l rest r hl htail ih =>
    subst hr
    exact (ih htail.eq rfl).imp_right fun hshort => hshort.line hl

theorem parseHeadersLoop_error_iff {s : Bytes} {m : Headers} :
    (∃ f, parseHeadersLoop s m = .error f) ↔ HasShortLine s := by
  constructor
  · rintro ⟨f, heq⟩
    exact (short_of_parseHeadersLoop heq).2
  · rintro ⟨ls, a, b, rest, hls, rfl, hlf, hhead, hcolon, hlen⟩
    exact ⟨_, (ParsesTo.lines hls (.short hlf hhead hcolon hlen)).eq⟩

/-- `parseHeaders` fails where its loop does. -/
theorem HttpData.parseHeaders_error_iff {h : HttpData} :
    (∃ f, h.parseHeaders = .error f) ↔ HasShortLine h.inBuffer := by
  rw [← parseHeadersLoop_error_iff (m := h.headtToValue), parseHeaders]
  cases parseHeadersLoop h.inBuffer h.headtToValue with
  | error f => simp
  | ok r => simp

/-- `parseHeaders` answers exactly the buffers in which it reaches no line that is
    too short. -/
theorem HttpData.parseHeaders_answers_iff (h : HttpData) :
    (∃ flag h', h.parseHeaders = .ok (flag, h')) ↔ ¬HasShortLine h.inBuffer := by
  rw [← parseHeaders_error_iff]
  cases h.parseHeaders with
  | error f => simp
  | ok r => simp [Prod.ext_iff]

/-- A field with an empty value makes it throw. -/
theorem HttpData.not_parseHeaders_answers :
    ¬∀ h : HttpData, ∃ flag h', h.parseHeaders = .ok (flag, h') := by
  intro hall
  let h : HttpData := { new 0 5 none 0 0 with inBuffer := bytes "Host:\r\n\r\n" }
  have hshort : HasShortLine h.inBuffer :=
    ⟨[], bytes "Host", [cr], [cr, lf], by simp, by decide +kernel⟩
  obtain ⟨f, herror⟩ := parseHeaders_error_iff.2 hshort
  obtain ⟨flag, h', hok⟩ := hall h
  cases herror.symm.trans hok

/-! ## Bytes removed -/

/-- `parseHeaders` removes bytes from the front of the buffer only. -/
theorem parseHeadersLoop_suffix {s rest : Bytes} {m m' : Headers} {flag : HeaderState}
    (heq : parseHeadersLoop s m = .ok (flag, rest, m')) : rest <:+ s := by
  have h := parsesTo s m
  rw [heq] at h
  generalize hr : (Except.ok (flag, rest, m') :
    Except Fault (HeaderState × Bytes × Headers)) = r at h
  induction h with
  | dry => cases hr; exact List.suffix_rfl
  | @blank m t hlf =>
    cases hr
    exact (List.drop_suffix 1 t).trans (List.suffix_cons cr t)
  | again => cases hr; exact List.suffix_rfl
  | @error m line tail => cases hr; exact ⟨line ++ [lf], by simp⟩
  | short => cases hr
  | @line m l tail r hl htail ih =>
    subst hr
    exact (ih htail.eq rfl).trans ⟨l.text ++ [lf], by simp⟩

/-- `parseHeaders` accepts no non-empty buffer without removing a byte. -/
theorem length_lt_of_parseHeadersLoop {s rest : Bytes} {m m' : Headers}
    (heq : parseHeadersLoop s m = .ok (.success, rest, m')) (hs : s ≠ []) :
    rest.length < s.length := by
  obtain ⟨ls, -, -, ⟨rfl, rfl⟩ | ⟨t, -, rfl, rfl⟩⟩ := parseHeaders_success_iff.1 heq
  · exact List.length_pos_iff.2 hs
  · simp only [List.length_append, List.length_cons, List.length_drop]
    omega

theorem HttpData.parseRequestLine_inBuffer (h : HttpData) (line : Bytes) :
    (h.parseRequestLine line).2.inBuffer = h.inBuffer := by
  simp only [HttpData.parseRequestLine]
  split <;> rfl

/-- `parseURL` removes bytes from the front of the buffer only. -/
theorem HttpData.parseURL_suffix (h : HttpData) : h.parseURL.2.inBuffer <:+ h.inBuffer := by
  rw [parseURL]
  split
  · split
    · exact List.suffix_rfl
    · rw [parseRequestLine_inBuffer, drop_or_clear]
      exact List.drop_suffix _ _
  · exact List.suffix_rfl

end Webserver
