import Webserver.Http.Parse

/-!
# The grammar of requests

What a request head looks like (`Head`), and which buffers the parser takes for
one. An accepted buffer is cut into a request line, header lines and an end
(`Cut`): the parser looks for the delimiters, and at few of the bytes around
them.

* `HttpData.parse_cut`, `HttpData.exists_cut`: the buffers accepted are those
  with a cut, and the cut gives the fields.
* `HttpData.exists_isHead`, `HttpData.strict_of_isHead`: a cut is the text of a
  request head, read as it is written, exactly if it passes the checks that the
  parser leaves out (`Cut.Strict`).
* `HttpData.soundParse_iff`: what is accepted is a request head exactly if its
  cut passes these checks.
-/

namespace Webserver

open Text HeadLine

/-! ## Fields -/

/-- The value given last for a name. -/
def lastValue (name : Bytes) : List (Bytes × Bytes) → Option Bytes
  | [] => none
  | f :: fs => (lastValue name fs).or (if f.1 = name then some f.2 else none)

@[simp] theorem lastValue_nil (name : Bytes) : lastValue name [] = none := rfl

@[simp] theorem lastValue_cons (name : Bytes) (f : Bytes × Bytes) (fs : List (Bytes × Bytes)) :
    lastValue name (f :: fs) = (lastValue name fs).or (if f.1 = name then some f.2 else none) := rfl

theorem lastValue_eq_none_iff {name : Bytes} {fs : List (Bytes × Bytes)} :
    lastValue name fs = none ↔ ∀ f ∈ fs, f.1 ≠ name := by
  induction fs with
  | nil => simp
  | cons f fs ih => simp [ih, and_comm]

/-- The name and the value of a header line. -/
def HeadLine.entry (l : HeadLine) : Bytes × Bytes := (l.name, l.value)

/-- The fields parsed are the last ones written. -/
theorem lookup_fields (ls : List HeadLine) (m : Headers) (name : Bytes) :
    (fields ls m).lookup name = (lastValue name (ls.map entry)).or (m.lookup name) := by
  -- Every line changes the map the later ones are inserted into.
  induction ls generalizing m with
  | nil => rfl
  | cons l ls ih =>
    rw [fields_cons, ih, List.map_cons, lastValue_cons, Option.or_assoc]
    by_cases h : l.name = name
    · subst h
      simp [entry]
    · rw [AList.lookup_insert_ne (Ne.symm h)]
      simp [entry, h]

/-- A header field, as it is written. -/
structure Field where
  name : Bytes
  space : Bool
  value : Bytes
  name_ne : name ≠ []
  name_plain : colon ∉ name ∧ cr ∉ name ∧ lf ∉ name
  value_plain : cr ∉ value ∧ lf ∉ value

namespace Field

/-- What follows the colon, up to the end of the line. -/
def text (f : Field) : Bytes := (if f.space then [sp] else []) ++ f.value

/-- The line of the field, without its `LF`. -/
def line (f : Field) : Bytes := f.name ++ colon :: f.text ++ [cr]

/-- The name and the value of the field. -/
def entry (f : Field) : Bytes × Bytes := (f.name, f.value)

/-- The text of some fields. -/
def render (fs : List Field) : Bytes := fs.flatMap fun f => f.line ++ [lf]

@[simp] theorem render_nil : render [] = [] := rfl

@[simp] theorem render_cons (f : Field) (fs : List Field) :
    render (f :: fs) = f.line ++ lf :: render fs := by
  simp [render]

variable (f : Field)

theorem cr_notMem_text : cr ∉ f.text := by
  rw [text]
  split <;> simp [f.value_plain.1, cr, sp]

theorem lf_notMem_line : lf ∉ f.line := by
  have htext : lf ∉ f.text := by
    rw [text]
    split <;> simp [f.value_plain.2, lf, sp]
  simp [line, htext, f.name_plain.2.2, lf, colon, cr]

theorem head_line_ne : f.line.head? ≠ some cr := by
  obtain ⟨x, name, hname⟩ := List.exists_cons_of_ne_nil f.name_ne
  have hcr := f.name_plain.2.1
  rw [hname, List.mem_cons, not_or] at hcr
  simpa [line, hname] using Ne.symm hcr.1

theorem line_ne_nil : f.line ≠ [] := by simp [line]

/-- A header line has the text of a field if its parts have. -/
theorem text_eq_line_iff {l : HeadLine} (hl : l.Valid) :
    l.text = f.line ↔ l.name = f.name ∧ l.gap :: l.value = f.text ∧ l.eol = cr := by
  have htext : l.text = l.name ++ colon :: (l.gap :: l.value ++ [l.eol]) := by
    simp [HeadLine.text]
  have hline : f.line = f.name ++ colon :: (f.text ++ [cr]) := by simp [line]
  rw [htext, hline]
  constructor
  · intro h
    obtain ⟨hname, hrest⟩ := append_cons_inj hl.colon_notMem f.name_plain.1 h
    obtain ⟨hvalue, heol⟩ := List.append_inj' hrest rfl
    exact ⟨hname, hvalue, List.head_eq_of_cons_eq heol⟩
  · rintro ⟨hname, hvalue, heol⟩
    rw [hname, hvalue, heol]

end Field

/-! ## Request heads -/

/-- The token of a method. -/
def HttpMethod.token : HttpMethod → Bytes
  | get => bytes "GET"
  | post => bytes "POST"
  | head => bytes "HEAD"

namespace HttpMethod

theorem methodOf_token (m : HttpMethod) (method : Option HttpMethod) :
    HttpData.methodOf m.token method = some m := by
  cases m with
  | get => exact HttpData.methodOf_get method
  | post => exact HttpData.methodOf_post method
  | head => exact HttpData.methodOf_head method

theorem sp_notMem_token (m : HttpMethod) : sp ∉ m.token := by
  cases m <;> decide +kernel

theorem cr_notMem_token (m : HttpMethod) : cr ∉ m.token := by
  cases m <;> decide +kernel

end HttpMethod

/-- The head of a request. -/
structure Head where
  method : HttpMethod
  target : Bytes
  version : Bytes
  fields : List Field
  target_plain : sp ∉ target ∧ cr ∉ target ∧ lf ∉ target
  version_plain : sp ∉ version ∧ cr ∉ version ∧ lf ∉ version

namespace Head

variable (r : Head)

/-- The request line, without its end. -/
def line : Bytes := r.method.token ++ sp :: (r.target ++ sp :: r.version)

/-- The text of the head. -/
def render : Bytes := r.line ++ cr :: lf :: (Field.render r.fields ++ [cr, lf])

/-- The path of the file the request asks for. -/
def url : Bytes := HttpData.urlOf r.target

/-- The value given last for a field. -/
def lastValue (name : Bytes) : Option Bytes := Webserver.lastValue name (r.fields.map Field.entry)

theorem cr_notMem_line : cr ∉ r.line := by
  simp [line, r.method.cr_notMem_token, r.target_plain.2.1, r.version_plain.2.1, cr, sp]

theorem render_append (s : Bytes) :
    r.render ++ s = r.line ++ cr :: lf :: (Field.render r.fields ++ cr :: lf :: s) := by
  simp [render]

end Head

/-! ## Accepted buffers -/

/-- The way the parser cuts a buffer that it accepts. -/
structure Cut (s : Bytes) where
  token : Bytes
  target : Bytes
  version : Bytes
  rest : Bytes
  lines : List HeadLine
  tail : Bytes
  eq : s = (token ++ sp :: (target ++ sp :: version)) ++ cr :: rest
  sp_notMem_token : sp ∉ token
  sp_notMem_target : sp ∉ target
  cr_notMem : cr ∉ token ++ sp :: (target ++ sp :: version)
  rest_eq : rest.drop 1 = HeadLine.render lines ++ tail
  valid : ∀ l ∈ lines, l.Valid
  ends : tail = [] ∨ ∃ t, tail = cr :: t ∧ lf ∈ t

namespace HttpData

/-- The parser takes the front of the buffer for a request head. -/
def Accepts (h h₂ : HttpData) : Prop :=
  ∃ h₁, h.parseURL = (.success, h₁) ∧ h₁.parseHeaders = .ok (.success, h₂)

theorem Accepts.unique {h h₂ h₂' : HttpData} (haccepts : h.Accepts h₂) (haccepts' : h.Accepts h₂') :
    h₂ = h₂' := by
  obtain ⟨h₁, hurl, hheaders⟩ := haccepts
  obtain ⟨h₁', hurl', hheaders'⟩ := haccepts'
  obtain rfl := (Prod.mk.inj (hurl.symm.trans hurl')).2
  exact (Prod.mk.inj (Except.ok.inj (hheaders.symm.trans hheaders'))).2

/-- The cut of a request line at its first two spaces. -/
theorem parseRequestLine_cut (h : HttpData) {token target version : Bytes} (htoken : sp ∉ token)
    (htarget : sp ∉ target) :
    h.parseRequestLine (token ++ sp :: (target ++ sp :: version)) = (.success, { h with
      method := methodOf token h.method, url := urlOf target, version := version }) := by
  simp only [parseRequestLine, find_append_cons htoken, upTo_append_cons, past_append_cons,
    find_append_cons htarget, List.take_left]
  rw [← List.drop_drop, List.drop_left]
  rfl

/-- A request line that is read has two spaces. -/
theorem exists_of_parseRequestLine {h : HttpData} {line : Bytes}
    (hflag : (h.parseRequestLine line).1 = .success) :
    ∃ token target version, line = token ++ sp :: (target ++ sp :: version) ∧
      sp ∉ token ∧ sp ∉ target := by
  cases hpos : find sp line with
  -- `find` misses, and `pos + 1` wraps to 0: the whole line is searched again, in vain.
  | none => simp [parseRequestLine, hpos, past] at hflag
  | some pos =>
    obtain ⟨token, line', rfl, htoken, rfl⟩ := exists_of_find hpos
    cases hpos' : find sp line' with
    | none => simp [parseRequestLine, hpos, hpos', past] at hflag
    | some pos' =>
      obtain ⟨target, version, rfl, htarget, -⟩ := exists_of_find hpos'
      exact ⟨token, target, version, rfl, htoken, htarget⟩

/-- A buffer with a cut is accepted, with the fields of the cut. -/
theorem parse_cut {h : HttpData} (hstate : h.state = .parseUrl) (c : Cut h.inBuffer) :
    h.Accepts { h with
      inBuffer := c.tail.drop 2, method := methodOf c.token h.method, url := urlOf c.target
      version := c.version, headtToValue := fields c.lines h.headtToValue } := by
  refine ⟨_, (parseURL_cons hstate c.eq c.cr_notMem).trans
    (parseRequestLine_cut _ c.sp_notMem_token c.sp_notMem_target), ?_⟩
  have hloop : parseHeadersLoop (c.rest.drop 1) h.headtToValue =
      .ok (.success, c.tail.drop 2, fields c.lines h.headtToValue) := by
    refine parseHeaders_success_iff.2 ⟨c.lines, c.valid, rfl, ?_⟩
    rw [c.rest_eq]
    rcases c.ends with htail | ⟨t, htail, hlf⟩
    · exact .inl (by simp [htail])
    · exact .inr ⟨t, hlf, by rw [htail], by rw [htail, List.drop_succ_cons]⟩
  simp only [parseHeaders, hloop]

/-- An accepted buffer has a cut. -/
theorem exists_cut {h h₂ : HttpData} (hstate : h.state = .parseUrl) (haccepts : h.Accepts h₂) :
    Nonempty (Cut h.inBuffer) := by
  obtain ⟨h₁, hurl, hheaders⟩ := haccepts
  obtain ⟨line, rest, hbuf, hcr⟩ := exists_line hstate (by rw [hurl]; exact UrlState.noConfusion)
  rw [parseURL_cons hstate hbuf hcr] at hurl
  obtain ⟨token, target, version, rfl, htoken, htarget⟩ :=
    exists_of_parseRequestLine (congrArg Prod.fst hurl)
  rw [parseRequestLine_cut _ htoken htarget] at hurl
  obtain rfl := (Prod.mk.inj hurl).2
  rw [parseHeaders] at hheaders
  cases hloop : parseHeadersLoop (rest.drop 1) h.headtToValue with
  | error f => simp only [hloop] at hheaders; cases hheaders
  | ok out =>
    obtain ⟨flag, str, m⟩ := out
    simp only [hloop] at hheaders
    obtain rfl : flag = .success := (Prod.mk.inj (Except.ok.inj hheaders)).1
    obtain ⟨ls, hls, -, htail⟩ := parseHeaders_success_iff.1 hloop
    -- The header ends with the buffer, or with a line that starts with `CR`.
    rcases htail with ⟨hrest, -⟩ | ⟨t, hlf, hrest, -⟩
    · exact ⟨⟨token, target, version, rest, ls, [], hbuf, htoken, htarget, hcr,
        by simpa using hrest, hls, .inl rfl⟩⟩
    · exact ⟨⟨token, target, version, rest, ls, cr :: t, hbuf, htoken, htarget, hcr, hrest, hls,
        .inr ⟨t, rfl, hlf⟩⟩⟩

end HttpData

/-! ## The checks left out -/

/-- A header line is the line of a field. -/
structure HeadLine.Strict (l : HeadLine) : Prop where
  name_ne : l.name ≠ []
  cr_notMem_name : cr ∉ l.name
  cr_notMem_value : cr ∉ l.gap :: l.value
  eol_eq : l.eol = cr

/-- In the last line of each name, the byte after the colon is a space. -/
def SpacedLast : List HeadLine → Prop
  | [] => True
  | l :: ls => (l.gap = sp ∨ ∃ l' ∈ ls, l'.name = l.name) ∧ SpacedLast ls

/-- The cut passes the checks that the parser leaves out. -/
structure Cut.Strict {s : Bytes} (c : Cut s) : Prop where
  token : ∃ m : HttpMethod, c.token = m.token
  lf_notMem_target : lf ∉ c.target
  version_plain : sp ∉ c.version ∧ lf ∉ c.version
  line_ends : c.rest.head? = some lf
  lines : ∀ l ∈ c.lines, l.Strict
  spaced : SpacedLast c.lines
  blank : [cr, lf] <+: c.tail

/-- The field a header line is read as. -/
theorem HeadLine.Strict.exists_field {l : HeadLine} (hl : l.Valid) (hstrict : l.Strict) :
    ∃ f : Field, l.text = f.line ∧ (l.gap = sp → f.entry = l.entry) := by
  have hlf := hl.lf_notMem
  have hcr := hstrict.cr_notMem_value
  simp only [HeadLine.text, List.mem_append, List.mem_cons, not_or] at hlf hcr
  -- The byte that the parser skips is the optional space, or belongs to the value.
  by_cases hgap : l.gap = sp
  · let f : Field := ⟨l.name, true, l.value, hstrict.name_ne,
      ⟨hl.colon_notMem, hstrict.cr_notMem_name, hlf.1.1⟩, ⟨hcr.2, hlf.1.2.2.2⟩⟩
    have hline : l.text = f.line :=
      (f.text_eq_line_iff hl).2 ⟨rfl, by rw [hgap]; rfl, hstrict.eol_eq⟩
    exact ⟨f, hline, fun _ => rfl⟩
  · let f : Field := ⟨l.name, false, l.gap :: l.value, hstrict.name_ne,
      ⟨hl.colon_notMem, hstrict.cr_notMem_name, hlf.1.1⟩,
      ⟨hstrict.cr_notMem_value, by simpa using ⟨hlf.1.2.2.1, hlf.1.2.2.2⟩⟩⟩
    have hline : l.text = f.line := (f.text_eq_line_iff hl).2 ⟨rfl, rfl, hstrict.eol_eq⟩
    exact ⟨f, hline, fun h => absurd h hgap⟩

/-- The line and the field have the same text. -/
def HeadLine.Writes (l : HeadLine) (f : Field) : Prop := l.Valid ∧ l.text = f.line

theorem HeadLine.Writes.parts {l : HeadLine} {f : Field} (h : l.Writes f) :
    l.name = f.name ∧ l.gap :: l.value = f.text ∧ l.eol = cr := (f.text_eq_line_iff h.1).1 h.2

section Lines

variable {ls : List HeadLine} {fs : List Field}

theorem render_eq_of_writes (h : List.Forall₂ HeadLine.Writes ls fs) :
    HeadLine.render ls = Field.render fs := by
  induction h with
  | nil => rfl
  | cons hl _ ih => rw [HeadLine.render_cons, Field.render_cons, hl.2, ih]

theorem names_eq_of_writes (h : List.Forall₂ HeadLine.Writes ls fs) :
    ls.map HeadLine.name = fs.map Field.name := by
  induction h with
  | nil => rfl
  | cons hl _ ih => rw [List.map_cons, List.map_cons, hl.parts.1, ih]

/-- A name has a value among the lines if it has one among the fields. -/
theorem lastValue_eq_none_iff_of_writes (h : List.Forall₂ HeadLine.Writes ls fs) (name : Bytes) :
    lastValue name (ls.map entry) = none ↔ lastValue name (fs.map Field.entry) = none := by
  have hl : lastValue name (ls.map entry) = none ↔ name ∉ ls.map HeadLine.name := by
    simp [lastValue_eq_none_iff, entry]
  have hf : lastValue name (fs.map Field.entry) = none ↔ name ∉ fs.map Field.name := by
    simp [lastValue_eq_none_iff, Field.entry]
  rw [hl, hf, names_eq_of_writes h]

/-- The values of lines that are spaced are the ones written. -/
theorem lastValue_eq_of_spaced
    (h : List.Forall₂ (fun l f => l.Writes f ∧ (l.gap = sp → f.entry = l.entry)) ls fs)
    (hspaced : SpacedLast ls) (name : Bytes) :
    lastValue name (ls.map entry) = lastValue name (fs.map Field.entry) := by
  induction h with
  | nil => rfl
  | @cons l f ls fs hl hrest ih =>
    obtain ⟨hspace, hspaced⟩ := hspaced
    rw [List.map_cons, List.map_cons, lastValue_cons, lastValue_cons, ih hspaced]
    by_cases hgap : l.gap = sp
    · rw [hl.2 hgap]
    · have hname : f.entry.1 = l.entry.1 := hl.1.parts.1.symm
      rw [hname]
      by_cases heq : l.entry.1 = name
      -- A later line of the name hides what this one gives.
      · obtain ⟨l', hl', hlater⟩ := hspace.resolve_left hgap
        have hne : lastValue name (ls.map entry) ≠ none := fun hnone =>
          lastValue_eq_none_iff.1 hnone _ (List.mem_map_of_mem hl') (hlater.trans heq)
        rw [ih hspaced] at hne
        obtain ⟨v, hv⟩ := Option.ne_none_iff_exists'.1 hne
        rw [hv, Option.some_or, Option.some_or]
      · rw [if_neg heq, if_neg heq]

/-- Lines whose values are the ones written are spaced. -/
theorem spacedLast_of_lastValue_eq (h : List.Forall₂ HeadLine.Writes ls fs)
    (heq : ∀ name, lastValue name (ls.map entry) = lastValue name (fs.map Field.entry)) :
    SpacedLast ls := by
  induction h with
  | nil => trivial
  | @cons l f ls fs hl hrest ih =>
    simp only [List.map_cons, lastValue_cons] at heq
    have hnone := lastValue_eq_none_iff_of_writes hrest
    obtain ⟨hname, htext, -⟩ := hl.parts
    refine ⟨?_, ih fun name => ?_⟩
    -- Without a later line of its name, the value of this line is one byte short.
    · by_contra hcon
      rw [not_or, not_exists] at hcon
      obtain ⟨hgap, hlater⟩ := hcon
      have hlast : lastValue l.name (ls.map entry) = none := by
        refine lastValue_eq_none_iff.2 fun e he => ?_
        obtain ⟨l', hl', rfl⟩ := List.mem_map.1 he
        exact fun h => hlater l' ⟨hl', h⟩
      have hvalue := heq l.name
      rw [hlast, (hnone _).1 hlast, Option.none_or, Option.none_or,
        if_pos (show l.entry.1 = l.name from rfl),
        if_pos (show f.entry.1 = l.name from hname.symm)] at hvalue
      have hvalue : l.value = f.value := Option.some.inj hvalue
      rw [Field.text, ← hvalue] at htext
      split at htext
      · exact hgap (List.head_eq_of_cons_eq htext)
      · exact absurd (congrArg List.length htext) (by simp)
    -- The agreement passes to the rest of the lines, as both have the same names.
    · cases hv : lastValue name (ls.map entry) with
      | none => exact ((hnone name).1 hv).symm
      | some v =>
        obtain ⟨v', hv'⟩ := Option.ne_none_iff_exists'.1 fun h =>
          Option.some_ne_none v (hv.symm.trans ((hnone name).2 h))
        have hname := heq name
        rw [hv, hv', Option.some_or, Option.some_or] at hname
        rw [hv', hname]

/-- Where lines and fields end in the same way, they are the same lines. -/
theorem writes_of_render_eq (hls : ∀ l ∈ ls, l.Valid) {tail s : Bytes}
    (hends : tail = [] ∨ ∃ t, tail = cr :: t ∧ lf ∈ t)
    (h : HeadLine.render ls ++ tail = Field.render fs ++ cr :: lf :: s) :
    List.Forall₂ HeadLine.Writes ls fs ∧ tail = cr :: lf :: s := by
  induction ls generalizing fs with
  | nil =>
    -- No lines are left, but a field does not start with `CR`.
    cases fs with
    | nil => exact ⟨.nil, h⟩
    | cons f fs =>
      rw [HeadLine.render_nil, List.nil_append, Field.render_cons, List.append_assoc] at h
      obtain ⟨x, line, hline⟩ := List.exists_cons_of_ne_nil f.line_ne_nil
      have hx := f.head_line_ne
      rw [hline] at hx h
      rcases hends with rfl | ⟨t, rfl, -⟩
      · cases h
      · exact absurd (congrArg some (List.head_eq_of_cons_eq h).symm) hx
  | cons l ls ih =>
    rw [List.forall_mem_cons] at hls
    rw [HeadLine.render_cons, List.append_assoc, List.cons_append] at h
    cases fs with
    | nil =>
      have hx := hls.1.head_ne
      obtain ⟨x, text, htext⟩ := List.exists_cons_of_ne_nil (l := l.text) (by simp [HeadLine.text])
      rw [htext] at hx h
      exact absurd (congrArg some (List.head_eq_of_cons_eq h)) hx
    | cons f fs =>
      rw [Field.render_cons, List.append_assoc, List.cons_append] at h
      obtain ⟨htext, hrest⟩ := append_cons_inj hls.1.lf_notMem f.lf_notMem_line h
      obtain ⟨hwrites, htail⟩ := ih hls.2 hrest
      exact ⟨.cons ⟨hls.1, htext⟩ hwrites, htail⟩

/-- The fields that strict lines are read as. -/
theorem exists_fields (hls : ∀ l ∈ ls, l.Valid) (hstrict : ∀ l ∈ ls, l.Strict) :
    ∃ fs, List.Forall₂ (fun l f => l.Writes f ∧ (l.gap = sp → f.entry = l.entry)) ls fs := by
  induction ls with
  | nil => exact ⟨[], .nil⟩
  | cons l ls ih =>
    rw [List.forall_mem_cons] at hls hstrict
    obtain ⟨fs, hfs⟩ := ih hls.2 hstrict.2
    obtain ⟨f, hline, hentry⟩ := hstrict.1.exists_field hls.1
    exact ⟨f :: fs, .cons ⟨⟨hls.1, hline⟩, hentry⟩ hfs⟩

/-- A line that writes a field is strict. -/
theorem HeadLine.Writes.strict {l : HeadLine} {f : Field} (h : l.Writes f) : l.Strict := by
  obtain ⟨hname, htext, heol⟩ := h.parts
  refine ⟨?_, ?_, ?_, heol⟩
  · rw [hname]
    exact f.name_ne
  · rw [hname]
    exact f.name_plain.2.1
  · rw [htext]
    exact f.cr_notMem_text

theorem strict_of_writes (h : List.Forall₂ HeadLine.Writes ls fs) : ∀ l ∈ ls, l.Strict := by
  induction h with
  | nil => simp
  | cons hl _ ih => exact List.forall_mem_cons.2 ⟨hl.strict, ih⟩

theorem valid_of_writes (h : List.Forall₂ HeadLine.Writes ls fs) : ∀ l ∈ ls, l.Valid := by
  induction h with
  | nil => simp
  | cons hl _ ih => exact List.forall_mem_cons.2 ⟨hl.1, ih⟩

end Lines

/-! ## Soundness -/

namespace HttpData

/-- The front of the buffer that was removed is the text of the head, and the
    fields are the ones written there. -/
structure IsHead (h h₂ : HttpData) (r : Head) : Prop where
  inBuffer : h.inBuffer = r.render ++ h₂.inBuffer
  method : h₂.method = some r.method
  url : h₂.url = r.url
  version : h₂.version = r.version
  headtToValue : ∀ name, h₂.headtToValue.lookup name = r.lastValue name

/-- What the parser takes for a request head is one. -/
def SoundParse (h : HttpData) : Prop := ∀ h₂, h.Accepts h₂ → ∃ r : Head, h.IsHead h₂ r

/-- A strict cut is the text of a request head. -/
theorem exists_isHead {h h₂ : HttpData} (hstate : h.state = .parseUrl)
    (hheaders : h.headtToValue = ∅) {c : Cut h.inBuffer} (hc : c.Strict) (haccepts : h.Accepts h₂) :
    ∃ r : Head, h.IsHead h₂ r := by
  obtain rfl := haccepts.unique (parse_cut hstate c)
  obtain ⟨m, hm⟩ := hc.token
  obtain ⟨fs, hfs⟩ := exists_fields c.valid hc.lines
  have hcr := c.cr_notMem
  simp only [List.mem_append, List.mem_cons, not_or] at hcr
  let r : Head := ⟨m, c.target, c.version, fs, ⟨c.sp_notMem_target, hcr.2.2.1, hc.lf_notMem_target⟩,
    ⟨hc.version_plain.1, hcr.2.2.2.2, hc.version_plain.2⟩⟩
  have hrender : HeadLine.render c.lines = Field.render fs :=
    render_eq_of_writes (hfs.imp fun _ _ h => h.1)
  obtain ⟨t, ht⟩ := hc.blank
  obtain ⟨rest, hrest⟩ : ∃ rest, c.rest = lf :: rest := by
    cases hr : c.rest with
    | nil => have h := hc.line_ends; rw [hr] at h; cases h
    | cons x rest => have h := hc.line_ends; rw [hr] at h; exact ⟨rest, by rw [Option.some.inj h]⟩
  refine ⟨r, ?_, ?_, rfl, rfl, fun name => ?_⟩
  · have hbuf := c.eq
    have htail := c.rest_eq
    rw [hrest, List.drop_succ_cons, List.drop_zero, hrender, ← ht] at htail
    rw [hrest, htail, hm] at hbuf
    refine hbuf.trans (Eq.trans ?_ (r.render_append (c.tail.drop 2)).symm)
    rw [← ht]
    rfl
  · change methodOf c.token h.method = some m
    rw [hm]
    exact m.methodOf_token h.method
  · change (fields c.lines h.headtToValue).lookup name = _
    rw [lookup_fields, hheaders, lastValue_eq_of_spaced hfs hc.spaced]
    exact Option.or_none

/-- A cut that is the text of a request head is strict. -/
theorem strict_of_isHead {h h₂ : HttpData} (hstate : h.state = .parseUrl)
    (hheaders : h.headtToValue = ∅) (c : Cut h.inBuffer) (haccepts : h.Accepts h₂) {r : Head}
    (hr : h.IsHead h₂ r) : c.Strict := by
  obtain rfl := haccepts.unique (parse_cut hstate c)
  have hbuf := c.eq.symm.trans hr.inBuffer
  rw [Head.render_append] at hbuf
  -- The delimiters the cut is made at are the first ones in the text of the head too.
  obtain ⟨hline, hrest⟩ := append_cons_inj c.cr_notMem r.cr_notMem_line hbuf
  obtain ⟨htoken, hline⟩ := append_cons_inj c.sp_notMem_token r.method.sp_notMem_token hline
  obtain ⟨htarget, hversion⟩ := append_cons_inj c.sp_notMem_target r.target_plain.1 hline
  have htail := c.rest_eq
  rw [hrest, List.drop_succ_cons, List.drop_zero] at htail
  obtain ⟨hwrites, htail⟩ := writes_of_render_eq c.valid c.ends htail.symm
  refine ⟨⟨r.method, htoken⟩, ?_, ?_, ?_, strict_of_writes hwrites, ?_, ?_⟩
  · rw [htarget]
    exact r.target_plain.2.2
  · rw [hversion]
    exact ⟨r.version_plain.1, r.version_plain.2.2⟩
  · rw [hrest]
    rfl
  · refine spacedLast_of_lastValue_eq hwrites fun name => ?_
    have hlookup := hr.headtToValue name
    change (fields c.lines h.headtToValue).lookup name = _ at hlookup
    rw [lookup_fields, hheaders] at hlookup
    exact Option.or_none.symm.trans hlookup
  · rw [htail]
    exact ⟨_, rfl⟩

theorem SoundParse.strict {h : HttpData} (hsound : h.SoundParse) (hstate : h.state = .parseUrl)
    (hheaders : h.headtToValue = ∅) (c : Cut h.inBuffer) : c.Strict := by
  have haccepts := parse_cut hstate c
  obtain ⟨r, hr⟩ := hsound _ haccepts
  exact strict_of_isHead hstate hheaders c haccepts hr

end HttpData

/-! ## Heads that are accepted -/

namespace Head

variable (r : Head)

/-- A space follows every colon. -/
def Spaced : Prop := ∀ f ∈ r.fields, f.space = true

/-- The header lines, as they are parsed if they are spaced. -/
def headLines : List HeadLine := r.fields.map fun f => ⟨f.name, sp, f.value, cr⟩

variable {r}

theorem Spaced.writes (hspaced : r.Spaced) :
    List.Forall₂ (fun l f => l.Writes f ∧ (l.gap = sp → f.entry = l.entry))
      r.headLines r.fields := by
  rw [headLines, List.forall₂_map_left_iff, List.forall₂_same]
  intro f hf
  have htext : (⟨f.name, sp, f.value, cr⟩ : HeadLine).text = f.line := by
    simp [HeadLine.text, Field.line, Field.text, hspaced f hf]
  refine ⟨⟨⟨f.name_plain.1, ?_, ?_⟩, htext⟩, fun _ => rfl⟩
  · rw [htext]
    exact f.lf_notMem_line
  · rw [htext]
    exact f.head_line_ne

theorem spacedLast_headLines : SpacedLast r.headLines := by
  rw [headLines]
  induction r.fields with
  | nil => trivial
  | cons f fs ih => exact ⟨.inl rfl, ih⟩

/-- The way the parser cuts the text of a head, whatever follows it. -/
def cut (hspaced : r.Spaced) {s buf : Bytes} (hbuf : buf = r.render ++ s) : Cut buf where
  token := r.method.token
  target := r.target
  version := r.version
  rest := lf :: (Field.render r.fields ++ cr :: lf :: s)
  lines := r.headLines
  tail := cr :: lf :: s
  eq := hbuf.trans (r.render_append s)
  sp_notMem_token := r.method.sp_notMem_token
  sp_notMem_target := r.target_plain.1
  cr_notMem := r.cr_notMem_line
  rest_eq := by
    rw [render_eq_of_writes (hspaced.writes.imp fun _ _ h => h.1), List.drop_succ_cons,
      List.drop_zero]
  valid := valid_of_writes (hspaced.writes.imp fun _ _ h => h.1)
  ends := .inr ⟨lf :: s, rfl, List.mem_cons_self⟩

theorem cut_strict (hspaced : r.Spaced) {s buf : Bytes} (hbuf : buf = r.render ++ s) :
    (r.cut hspaced hbuf).Strict where
  token := ⟨r.method, rfl⟩
  lf_notMem_target := r.target_plain.2.2
  version_plain := ⟨r.version_plain.1, r.version_plain.2.2⟩
  line_ends := rfl
  lines := strict_of_writes (hspaced.writes.imp fun _ _ h => h.1)
  spaced := spacedLast_headLines
  blank := ⟨s, rfl⟩

end Head

namespace HttpData

/-- The text of a spaced head is read as it is written. -/
theorem soundParse_render {h : HttpData} (hstate : h.state = .parseUrl)
    (hheaders : h.headtToValue = ∅) {r : Head} (hspaced : r.Spaced) {s : Bytes}
    (hbuf : h.inBuffer = r.render ++ s) : h.SoundParse :=
  fun _ => exists_isHead hstate hheaders (r.cut_strict hspaced hbuf)

/-- The parser accepts nothing but request heads, with the fields written in
    them, exactly from the buffers whose cut passes the checks left out. -/
theorem soundParse_iff {h : HttpData} (hstate : h.state = .parseUrl)
    (hheaders : h.headtToValue = ∅) : h.SoundParse ↔ ∀ c : Cut h.inBuffer, c.Strict :=
  ⟨fun hsound c => hsound.strict hstate hheaders c, fun hstrict _ haccepts => by
    obtain ⟨c⟩ := exists_cut hstate haccepts
    exact exists_isHead hstate hheaders (hstrict c) haccepts⟩

/-- A parser at the start of its first request. -/
def start (buf : Bytes) : HttpData := { new 0 0 none 0 0 with inBuffer := buf }

theorem soundParse_iff_get :
    (start (bytes "GET / HTTP/1.1\r\n\r\n")).SoundParse ↔
      ∀ c : Cut (bytes "GET / HTTP/1.1\r\n\r\n"), c.Strict :=
  soundParse_iff rfl rfl

/-- A request line on its own is accepted. -/
theorem not_soundParse_requestLine :
    ¬∀ h : HttpData, h.state = .parseUrl → h.headtToValue = ∅ → h.SoundParse := by
  intro hall
  let c : Cut (bytes "GET / HTTP/1.1\r\n") :=
    { token := bytes "GET", target := bytes "/", version := bytes "HTTP/1.1", rest := [lf]
      lines := [], tail := [], eq := by decide +kernel, sp_notMem_token := by decide +kernel
      sp_notMem_target := by decide +kernel, cr_notMem := by decide +kernel, rest_eq := rfl
      valid := by simp, ends := .inl rfl }
  have hstrict := (hall (start (bytes "GET / HTTP/1.1\r\n")) rfl rfl).strict rfl rfl c
  exact absurd hstrict.blank (by decide)

end HttpData

end Webserver
