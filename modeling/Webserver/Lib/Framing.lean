import Webserver.Lib.Message
import Mathlib.Data.List.TakeDrop

/-!
# Reading messages off a stream

A reader of messages that come one after the other: it reads the lines of a head up to the
empty one, and then as much of a body as the fields of the head say. It may find that there
is not enough to read yet.

* `Delimiters.readMessage_append`: what has been read does not depend on what follows.
* `Message.readMessage_render`: a message is read as it was written.
* `readAll_of_prefix`: so from the beginning of a stream of messages, the first messages are
  read, and the beginning of another one is left.
-/

namespace Text

variable {α : Type*}

/-- What is read of a message. -/
@[ext]
structure Frame (α : Type*) where
  start : List α
  fields : List (List α × List α)
  body : List α

/-- The value of the first header field of a name. -/
def Frame.value [DecidableEq α] (f : Frame α) (name : List α) : Option (List α) :=
  f.fields.lookup name

/-- How long the body of a message is, by its header fields. -/
abbrev BodyLength (α : Type*) := List (List α × List α) → Option ℕ

/-- The message without the promise that its parts are free of delimiters. -/
def Message.frame {d : Delimiters α} (m : Message d) : Frame α := ⟨m.start, m.fields, m.body⟩

variable [DecidableEq α] {p s t u : List α}

/-- What follows `p` in `s`, if `s` begins with it. -/
def strip (p s : List α) : Option (List α) := if p <+: s then some (s.drop p.length) else none

theorem strip_eq_some_iff : strip p s = some t ↔ s = p ++ t := by
  rw [strip, Option.ite_none_right_eq_some, Option.some_inj]
  constructor
  · rintro ⟨⟨t, rfl⟩, rfl⟩
    rw [List.drop_left]
  · rintro rfl
    exact ⟨List.prefix_append p t, List.drop_left⟩

theorem strip_append (p t : List α) : strip p (p ++ t) = some t := strip_eq_some_iff.2 rfl

namespace Delimiters

variable (d : Delimiters α)

/-- A line, and what follows it. -/
def readLine (s : List α) : Option (List α × List α) :=
  (find d.eol s).bind fun i => (strip d.eolRest (past s (some i))).map (s.take i, ·)

/-- The name and the value of a header field, and what follows. -/
def readField (s : List α) : Option ((List α × List α) × List α) :=
  (find d.sep s).bind fun i => (strip d.sepRest (past s (some i))).bind fun t =>
    (d.readLine t).map fun (value, t) => ((s.take i, value), t)

variable {d} {l name : List α} {f : List α × List α} {fs : List (List α × List α)}

theorem readLine_eq_some_iff :
    d.readLine s = some (l, t) ↔ s = d.line l ++ t ∧ d.eol ∉ l := by
  rw [readLine, Option.bind_eq_some_iff]
  constructor
  · rintro ⟨i, hfind, h⟩
    obtain ⟨a, b, rfl, ha, rfl⟩ := exists_of_find hfind
    obtain ⟨t', hstrip, heq⟩ := Option.map_eq_some_iff.1 h
    rw [past_append_cons, strip_eq_some_iff] at hstrip
    rw [List.take_left, Prod.mk.injEq] at heq
    obtain ⟨rfl, rfl⟩ := heq
    exact ⟨by simp [line, hstrip], ha⟩
  · rintro ⟨rfl, hl⟩
    rw [line, List.append_assoc, List.cons_append]
    refine ⟨l.length, find_append_cons hl, ?_⟩
    rw [past_append_cons, strip_append, List.take_left]
    rfl

theorem readField_eq_some_iff :
    d.readField s = some (f, t) ↔ s = d.field f ++ t ∧ d.sep ∉ f.1 ∧ d.eol ∉ f.2 := by
  rw [readField, Option.bind_eq_some_iff]
  constructor
  · rintro ⟨i, hfind, h⟩
    obtain ⟨a, b, rfl, ha, rfl⟩ := exists_of_find hfind
    obtain ⟨t', hstrip, h⟩ := Option.bind_eq_some_iff.1 h
    obtain ⟨⟨value, t''⟩, hline, heq⟩ := Option.map_eq_some_iff.1 h
    rw [past_append_cons, strip_eq_some_iff] at hstrip
    rw [List.take_left, Prod.mk.injEq] at heq
    obtain ⟨rfl, rfl⟩ := heq
    obtain ⟨rfl, hvalue⟩ := readLine_eq_some_iff.1 hline
    exact ⟨by simp [field, hstrip], ha, hvalue⟩
  · rintro ⟨rfl, hname, hvalue⟩
    rw [field, List.append_assoc, List.cons_append, List.append_assoc]
    refine ⟨f.1.length, find_append_cons hname, ?_⟩
    rw [past_append_cons, strip_append, Option.bind_some,
      readLine_eq_some_iff.2 ⟨rfl, hvalue⟩, List.take_left]
    rfl

theorem length_lt_of_readField (h : d.readField s = some (f, t)) : t.length < s.length := by
  rw [(readField_eq_some_iff.1 h).1, field, List.length_append, List.length_append,
    List.length_cons]
  omega

variable (d)

/-- Header fields up to the empty line, and what follows it. -/
def readFields : List α → Option (List (List α × List α) × List α)
  | [] => none
  | a :: s =>
    if a = d.eol then (strip d.eolRest s).map ([], ·)
    else
      match _h : d.readField (a :: s) with
      | none => none
      | some (f, t) => (readFields t).map fun (fs, t) => (f :: fs, t)
termination_by s => s.length
decreasing_by exact length_lt_of_readField _h

/-- A message whose body is as long as `len` makes of its header fields, and what follows
    it. -/
def readMessage (len : BodyLength α) (s : List α) : Option (Frame α × List α) :=
  (d.readLine s).bind fun (start, t) => (d.readFields t).bind fun (fields, t) =>
    (len fields).bind fun n =>
      if n ≤ t.length then some (⟨start, fields, t.take n⟩, t.drop n) else none

/-- The name and the value of a header field can be read. -/
structure Legible (f : List α × List α) : Prop where
  sep_notMem : d.sep ∉ f.1
  head_ne : f.1.head? ≠ some d.eol
  eol_notMem : d.eol ∉ f.2

variable {d}

omit [DecidableEq α] in
theorem IsField.legible (hf : d.IsField f) : d.Legible f :=
  ⟨hf.sep_notMem, fun h => hf.eol_notMem_name (List.mem_of_head? h), hf.eol_notMem_value⟩

omit [DecidableEq α] in
/-- The line of a field does not begin like the empty one. -/
theorem Legible.exists_cons (hf : d.Legible f) (t : List α) :
    ∃ a s, d.field f ++ t = a :: s ∧ a ≠ d.eol := by
  obtain ⟨name, value⟩ := f
  cases name with
  | nil => exact ⟨d.sep, _, rfl, d.sep_ne_eol⟩
  | cons a name => exact ⟨a, _, rfl, fun h => hf.head_ne (congrArg some h)⟩

theorem readFields_eq_some_iff :
    d.readFields s = some (fs, t) ↔
      s = d.fieldLines fs ++ (d.line [] ++ t) ∧ ∀ f ∈ fs, d.Legible f := by
  constructor
  · intro h
    induction hn : s.length using Nat.strongRecOn generalizing s fs with
    | ind n ih =>
      cases s with
      | nil => rw [readFields] at h; cases h
      | cons a s =>
        rw [readFields] at h
        split at h
        · next ha =>
          obtain ⟨t', hstrip, heq⟩ := Option.map_eq_some_iff.1 h
          cases heq
          rw [strip_eq_some_iff] at hstrip
          exact ⟨by simp [line, ha, hstrip], nofun⟩
        · next ha =>
          split at h
          · cases h
          · next f t' hfield =>
            obtain ⟨⟨gs, t''⟩, hrest, heq⟩ := Option.map_eq_some_iff.1 h
            cases heq
            obtain ⟨hs, hall⟩ := ih _ (hn ▸ length_lt_of_readField hfield) hrest rfl
            obtain ⟨happ, hname, hvalue⟩ := readField_eq_some_iff.1 hfield
            refine ⟨by rw [happ, hs, fieldLines_cons, List.append_assoc], ?_⟩
            refine List.forall_mem_cons.2 ⟨⟨hname, fun hhead => ha ?_, hvalue⟩, hall⟩
            obtain ⟨name, value⟩ := f
            cases name with
            | nil => cases hhead
            | cons b name =>
              cases hhead
              exact List.head_eq_of_cons_eq happ
  · rintro ⟨rfl, hfs⟩
    induction fs with
    | nil =>
      rw [fieldLines_nil, List.nil_append, line, List.nil_append, List.cons_append, readFields,
        if_pos rfl, strip_append]
      rfl
    | cons f fs ih =>
      obtain ⟨hf, hfs⟩ := List.forall_mem_cons.1 hfs
      rw [fieldLines_cons, List.append_assoc]
      obtain ⟨a, s, hs, ha⟩ := hf.exists_cons (d.fieldLines fs ++ (d.line [] ++ t))
      have hfield := readField_eq_some_iff.2 ⟨hs.symm, hf.sep_notMem, hf.eol_notMem⟩
      rw [hs, readFields, if_neg ha]
      split
      · next hnone => rw [hfield] at hnone; cases hnone
      · next f' t' hsome =>
        rw [hfield] at hsome
        cases hsome
        rw [ih hfs]
        rfl

variable {len : BodyLength α} {m : Frame α}

theorem readMessage_eq_some_iff :
    d.readMessage len s = some (m, t) ↔
      s = d.line m.start ++ (d.fieldLines m.fields ++ (d.line [] ++ (m.body ++ t))) ∧
        d.eol ∉ m.start ∧ (∀ f ∈ m.fields, d.Legible f) ∧
          len m.fields = some m.body.length := by
  rw [readMessage, Option.bind_eq_some_iff]
  constructor
  · rintro ⟨⟨start, t₁⟩, hline, h⟩
    obtain ⟨⟨fields, t₂⟩, hfields, h⟩ := Option.bind_eq_some_iff.1 h
    obtain ⟨n, hlen, h⟩ := Option.bind_eq_some_iff.1 h
    obtain ⟨hn, heq⟩ := Option.ite_none_right_eq_some.1 h
    cases heq
    obtain ⟨rfl, hstart⟩ := readLine_eq_some_iff.1 hline
    obtain ⟨rfl, hall⟩ := readFields_eq_some_iff.1 hfields
    refine ⟨by rw [List.take_append_drop], hstart, hall, ?_⟩
    rw [hlen, List.length_take, Nat.min_eq_left hn]
  · rintro ⟨rfl, hstart, hfields, hlen⟩
    refine ⟨_, readLine_eq_some_iff.2 ⟨rfl, hstart⟩, ?_⟩
    simp only [readFields_eq_some_iff.2 ⟨rfl, hfields⟩, hlen, Option.bind_some]
    rw [if_pos (by rw [List.length_append]; omega), List.take_left, List.drop_left]

/-- What has been read does not depend on what follows. -/
theorem readMessage_append (h : d.readMessage len s = some (m, t)) (u : List α) :
    d.readMessage len (s ++ u) = some (m, t ++ u) := by
  obtain ⟨rfl, hm⟩ := readMessage_eq_some_iff.1 h
  exact readMessage_eq_some_iff.2 ⟨by simp only [List.append_assoc], hm⟩

end Delimiters

/-! ## Streams -/

section Streams

variable {d : Delimiters α} {len : BodyLength α} {lens : List (BodyLength α)}
  {ms : List (Message d)}

/-- A message is read as it was written. -/
theorem Message.readMessage_render (m : Message d) (hlen : len m.fields = some m.body.length)
    (t : List α) : d.readMessage len (m.render ++ t) = some (m.frame, t) := by
  refine Delimiters.readMessage_eq_some_iff.2
    ⟨?_, m.eol_notMem_start, fun f hf => (m.isField f hf).legible, hlen⟩
  simp only [render, head, frame, List.append_assoc]

/-- A message of which the end is missing is not read. -/
theorem Message.readMessage_of_prefix {m : Message d} (hlen : len m.fields = some m.body.length)
    (hs : s <+: m.render) (hne : s ≠ m.render) : d.readMessage len s = none := by
  obtain ⟨u, hu⟩ := hs
  cases h : d.readMessage len s with
  | none => rfl
  | some r =>
    have hwhole := Delimiters.readMessage_append h u
    have hrender := m.readMessage_render hlen []
    rw [List.append_nil, ← hu, hwhole] at hrender
    have hrest : r.2 ++ u = [] := congrArg Prod.snd (Option.some.inj hrender)
    have hnil : u = [] := (List.append_eq_nil_iff.1 hrest).2
    rw [hnil, List.append_nil] at hu
    exact absurd hu hne

variable (d) in
/-- As many messages as can be read, and what is left. How long their bodies are is made of
    the header fields, in a way of its own for each message. -/
def readAll : List (BodyLength α) → List α → List (Frame α) × List α
  | [], s => ([], s)
  | len :: lens, s =>
    match d.readMessage len s with
    | none => ([], s)
    | some (m, t) => (m :: (readAll lens t).1, (readAll lens t).2)

/-- The messages are as long as it is made of their header fields. -/
def Measured (lens : List (BodyLength α)) (ms : List (Message d)) : Prop :=
  List.Forall₂ (fun len m => len m.fields = some m.body.length) lens ms

/-- From the beginning of a stream of messages, the first messages are read. -/
theorem readAll_of_prefix (hms : Measured lens ms) (hs : s <+: ms.flatMap Message.render) :
    ∃ k rest, readAll d lens s = ((ms.take k).map Message.frame, rest) ∧
      s = (ms.take k).flatMap Message.render ++ rest ∧
      (s = ms.flatMap Message.render → ms.take k = ms ∧ rest = []) := by
  induction hms generalizing s with
  | nil =>
    obtain rfl : s = [] := List.prefix_nil.1 hs
    exact ⟨0, [], rfl, rfl, fun _ => ⟨rfl, rfl⟩⟩
  | @cons len m lens ms hlen hms ih =>
    rw [List.flatMap_cons] at hs
    by_cases hwhole : m.render <+: s
    -- The first message has arrived.
    · obtain ⟨t, rfl⟩ := hwhole
      obtain ⟨k, rest, hread, ht, hall⟩ := ih ((List.prefix_append_right_inj _).1 hs)
      refine ⟨k + 1, rest, ?_, ?_, fun heq => ?_⟩
      · rw [readAll, m.readMessage_render hlen, List.take_succ_cons, List.map_cons]
        simp only [hread]
      · rw [List.take_succ_cons, List.flatMap_cons, List.append_assoc, ← ht]
      · rw [List.flatMap_cons] at heq
        obtain ⟨htake, hrest⟩ := hall (List.append_cancel_left heq)
        exact ⟨by rw [List.take_succ_cons, htake], hrest⟩
    -- The end of it is missing.
    · have hpart : s <+: m.render :=
        (List.prefix_or_prefix_of_prefix hs (List.prefix_append _ _)).resolve_right hwhole
      have hne : s ≠ m.render := by
        rintro rfl
        exact hwhole List.prefix_rfl
      refine ⟨0, s, ?_, rfl, fun heq => absurd ?_ hwhole⟩
      · rw [readAll, Message.readMessage_of_prefix hlen hpart hne]
        rfl
      · rw [heq, List.flatMap_cons]
        exact List.prefix_append _ _

/-- From the whole stream, all of them are read. -/
theorem readAll_flatMap (hms : Measured lens ms) :
    readAll d lens (ms.flatMap Message.render) = (ms.map Message.frame, []) := by
  obtain ⟨k, rest, hread, -, hall⟩ := readAll_of_prefix hms List.prefix_rfl
  obtain ⟨htake, rfl⟩ := hall rfl
  rw [hread, htake]

end Streams

end Text
