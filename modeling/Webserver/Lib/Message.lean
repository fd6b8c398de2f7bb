import Webserver.Lib.Text

/-!
# Messages with a head and a body

A text protocol sends messages that begin with a head of lines: a start line,
header fields that consist of a name and a value, and an empty line. The body
follows, and may be anything. Alphabet and delimiters are parameters
(`Delimiters`).

The parts of a message are free of the delimiters that follow them, which is a
field of the structure. So what a message is written as (`Message.render`)
determines it: `Message.render_injective`.
-/

namespace Text

/-- What ends a line, and what stands between the name and the value of a header
    field: a delimiter that is searched for, and what always follows it. -/
structure Delimiters (α : Type*) where
  eol : α
  eolRest : List α
  sep : α
  sepRest : List α
  sep_ne_eol : sep ≠ eol

variable {α : Type*}

namespace Delimiters

variable (d : Delimiters α)

def line (s : List α) : List α := s ++ d.eol :: d.eolRest

/-- The line of a header field. -/
def field (f : List α × List α) : List α := f.1 ++ d.sep :: (d.sepRest ++ d.line f.2)

def fieldLines (fs : List (List α × List α)) : List α := fs.flatMap d.field

/-- The name and the value of a header field can be told apart. -/
structure IsField (f : List α × List α) : Prop where
  sep_notMem : d.sep ∉ f.1
  eol_notMem_name : d.eol ∉ f.1
  eol_notMem_value : d.eol ∉ f.2

instance [DecidableEq α] (f : List α × List α) : Decidable (d.IsField f) :=
  decidable_of_iff (d.sep ∉ f.1 ∧ d.eol ∉ f.1 ∧ d.eol ∉ f.2)
    ⟨fun ⟨h₁, h₂, h₃⟩ => ⟨h₁, h₂, h₃⟩, fun ⟨h₁, h₂, h₃⟩ => ⟨h₁, h₂, h₃⟩⟩

@[simp] theorem fieldLines_nil : d.fieldLines [] = [] := rfl

@[simp] theorem fieldLines_cons (f : List α × List α) (fs : List (List α × List α)) :
    d.fieldLines (f :: fs) = d.field f ++ d.fieldLines fs := List.flatMap_cons

@[simp] theorem fieldLines_append (fs gs : List (List α × List α)) :
    d.fieldLines (fs ++ gs) = d.fieldLines fs ++ d.fieldLines gs := List.flatMap_append

variable {d}

theorem line_append_inj [DecidableEq α] {s s' t t' : List α} (hs : d.eol ∉ s) (hs' : d.eol ∉ s')
    (h : d.line s ++ t = d.line s' ++ t') : s = s' ∧ t = t' := by
  simp only [line, List.append_assoc, List.cons_append] at h
  obtain ⟨rfl, hrest⟩ := append_cons_inj hs hs' h
  exact ⟨rfl, List.append_cancel_left hrest⟩

theorem field_append_inj [DecidableEq α] {f f' : List α × List α} {t t' : List α}
    (hf : d.IsField f) (hf' : d.IsField f') (h : d.field f ++ t = d.field f' ++ t') :
    f = f' ∧ t = t' := by
  simp only [field, List.append_assoc, List.cons_append] at h
  obtain ⟨hname, hrest⟩ := append_cons_inj hf.sep_notMem hf'.sep_notMem h
  obtain ⟨hvalue, ht⟩ := line_append_inj hf.eol_notMem_value hf'.eol_notMem_value
    (List.append_cancel_left hrest)
  exact ⟨Prod.ext hname hvalue, ht⟩

/-- A header field is not the empty line. -/
theorem field_append_ne {f : List α × List α} {t t' : List α} (hf : d.IsField f) :
    d.field f ++ t ≠ d.line [] ++ t' := by
  intro h
  rw [field, line, List.append_assoc] at h
  cases hname : f.1 with
  | nil =>
    rw [hname] at h
    exact d.sep_ne_eol (List.head_eq_of_cons_eq h)
  | cons a name =>
    rw [hname] at h
    have hmem : d.eol ∈ f.1 := by
      rw [hname, ← List.head_eq_of_cons_eq h]
      exact List.mem_cons_self
    exact hf.eol_notMem_name hmem

/-- Header fields, up to the first empty line. -/
theorem fieldLines_append_inj [DecidableEq α] {fs fs' : List (List α × List α)} {t t' : List α}
    (hfs : ∀ f ∈ fs, d.IsField f) (hfs' : ∀ f ∈ fs', d.IsField f)
    (h : d.fieldLines fs ++ (d.line [] ++ t) = d.fieldLines fs' ++ (d.line [] ++ t')) :
    fs = fs' ∧ t = t' := by
  induction fs generalizing fs' with
  | nil =>
    cases fs' with
    | nil => exact ⟨rfl, List.append_cancel_left h⟩
    | cons f' fs' =>
      rw [fieldLines_cons, List.append_assoc] at h
      exact absurd h.symm (field_append_ne (hfs' f' List.mem_cons_self))
  | cons f fs ih =>
    cases fs' with
    | nil =>
      rw [fieldLines_cons, List.append_assoc] at h
      exact absurd h (field_append_ne (hfs f List.mem_cons_self))
    | cons f' fs' =>
      simp only [fieldLines_cons, List.append_assoc] at h
      obtain ⟨rfl, hrest⟩ :=
        field_append_inj (hfs f List.mem_cons_self) (hfs' f' List.mem_cons_self) h
      obtain ⟨rfl, rfl⟩ := ih (fun g hg => hfs g (List.mem_cons_of_mem _ hg))
        (fun g hg => hfs' g (List.mem_cons_of_mem _ hg)) hrest
      exact ⟨rfl, rfl⟩

end Delimiters

/-- A message, the parts of whose head are free of delimiters. -/
@[ext]
structure Message (d : Delimiters α) where
  start : List α
  fields : List (List α × List α)
  body : List α
  eol_notMem_start : d.eol ∉ start
  isField : ∀ f ∈ fields, d.IsField f

namespace Message

variable {d : Delimiters α} (m : Message d)

/-- The start line, the header fields and the empty line. -/
def head : List α := d.line m.start ++ (d.fieldLines m.fields ++ d.line [])

def render : List α := m.head ++ m.body

/-- The value of the first header field of a name. -/
def value [DecidableEq α] (name : List α) : Option (List α) := m.fields.lookup name

/-- A message can be read off from what it is written as. -/
theorem render_injective [DecidableEq α] : Function.Injective (render : Message d → List α) := by
  intro m m' h
  simp only [render, head, List.append_assoc] at h
  obtain ⟨hstart, hrest⟩ := Delimiters.line_append_inj m.eol_notMem_start m'.eol_notMem_start h
  obtain ⟨hfields, hbody⟩ := Delimiters.fieldLines_append_inj m.isField m'.isField hrest
  exact Message.ext hstart hfields hbody

end Message

end Text
