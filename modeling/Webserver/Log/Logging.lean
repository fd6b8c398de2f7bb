import Webserver.Log.AsyncLogging
import Webserver.Log.LogStream

/-!
# Log records

A `Logger` lives for one statement. Its constructor puts the time and the level into the
stream, the statement inserts its items, and the destructor puts the source file and line
behind them, with a newline, before it hands the record over.

This trailer has no room of its own: it is inserted as five items, each of which is left
out if there is not enough room for it.

* `Log.Logger.endsLine_iff`: when the record ends with the trailer.
-/

namespace Webserver

namespace Log

inductive LEVEL
  | DEFAULT
  | DEBUG
  | WARN
  | ERROR
  deriving DecidableEq

/-- The text for a level. -/
def LEVEL.tag : LEVEL → Bytes
  | DEBUG => bytes "[DEBUG]:  "
  | WARN => bytes "[WARN]:   "
  | ERROR => bytes "[ERROR]:  "
  | DEFAULT => bytes "[DEFAULT]: "

/-- The arguments of the constructor, what is in the memory of the buffer, what `strftime`
    makes of the time, in an array of 26 characters, and the items that are inserted. -/
structure Logger where
  memory : ℕ → UInt8
  stamp : Bytes
  length_stamp : stamp.length < 26
  filename : Bytes
  line : Int32
  lev : LEVEL
  items : List Item

namespace Logger

variable (l : Logger)

/-- `filename_`, a copy of a C string. -/
def file : Bytes := cStr l.filename

/-- `formatTime`, and the rest of the constructor of `Impl`. -/
def header : List Item := [.chars (some l.stamp), .chars (some l.lev.tag)]

/-- The stream at the end of the statement. -/
def stream : Option LogStream := (LogStream.new l.memory).insertAll (l.header ++ l.items)

/-- What the destructor inserts. -/
def trailerItems : List Item :=
  [.chars (some (bytes " -- ")), .string l.file, .char 58, .int l.line, .char lf]

/-- The destructor of a logger that has some stream: `output` is given what is in its
    buffer. -/
def finish (s : LogStream) : Option Bytes :=
  (s.insertAll l.trailerItems).map LogStream.content

/-- The record that is handed over. -/
def record : Option Bytes := l.stream.bind l.finish

/-! ## The end of a record -/

/-- The end of a line of the log: the source file and line, and a newline. -/
def trailer : Bytes := bytes " -- " ++ l.file ++ bytes ":" ++ toStrInt l.line.toInt ++ [lf]

/-- What is in the stream then ends with the trailer. -/
def EndsLineBehind (s : LogStream) : Prop := ∃ r, l.finish s = some r ∧ l.trailer <:+ r

/-- The record ends with the trailer. -/
def EndsLine : Prop := ∃ s, l.stream = some s ∧ l.EndsLineBehind s

/-- The destructor adds the whole trailer to what has been inserted. -/
def CompletesLine : Prop := ∃ s, l.stream = some s ∧ l.record = some (s.content ++ l.trailer)

/-- There is room for the trailer behind `n` bytes, with `kMaxNumericSize` bytes for the
    line number. -/
def RoomBehind (n : ℕ) : Prop := n + l.file.length + 37 ≤ kSmallBuffer

/-- What has been inserted leaves room for the trailer. -/
def HasRoom : Prop := ∃ s, l.stream = some s ∧ l.RoomBehind s.content.length

/-- What has been inserted ends with the beginning of a trailer, and what of the trailer
    still finds room is the rest of it. -/
def Overlaps : Prop := ∃ s, l.stream = some s ∧ ∃ a ≠ [], a <:+ s.content ∧
  a ++ (Item.fitting l.trailerItems s.content.length).flatMap Item.render = l.trailer

theorem flatMap_trailerItems : l.trailerItems.flatMap Item.render = l.trailer := by
  have hdashes : cStr (bytes " -- ") = bytes " -- " := by decide +kernel
  have hcolon : bytes ":" = [58] := by decide +kernel
  simp [trailerItems, Item.render, Item.form, Form.render, trailer, hdashes, hcolon]

/-- The line number is what needs room most. -/
theorem allFit_trailerItems {n : ℕ} : Item.AllFit l.trailerItems n ↔ l.RoomBehind n := by
  have hline : (toStrInt l.line.toInt).length ≤ 21 :=
    length_toStrInt_le (by have := l.line.toInt_lt; have := l.line.le_toInt; omega)
  have hdashes : (cStr (bytes " -- ")).length = 4 := by decide +kernel
  have hne : toStrInt l.line.toInt ≠ [] := by
    rw [toStrInt_eq]
    exact ascii.text_ne_nil _
  have hsize : kSmallBuffer = 4000 := rfl
  have hnumeric : kMaxNumericSize = 32 := rfl
  rw [RoomBehind]
  simp only [trailerItems, Item.AllFit, Item.render, Form.render, Item.form, Option.elim_some,
    Form.Fits, hdashes, and_true, List.cons_ne_self, List.length_cons, List.length_nil, zero_add,
    false_or, hne]
  constructor
  · rintro ⟨-, -, -, ⟨-, hroom⟩, -⟩
    omega
  · intro hroom
    refine ⟨.inr ?_, .inr ?_, ?_, ⟨?_, ?_⟩, ?_⟩ <;> omega

variable {l} {s : LogStream} {r : Bytes}

/-- The strings of the trailer are not narrowed unless the file name is. -/
theorem bounded_trailerItems (hfile : l.file.length < 0x80000000) :
    ∀ i ∈ l.trailerItems, i.Bounded := by
  have hdashes : (cStr (bytes " -- ")).length < 0x80000000 := by decide +kernel
  simp [trailerItems, Item.Bounded, hfile, hdashes]

theorem finish_eq_some (hs : s.buffer.Within) (h : l.finish s = some r) :
    r = l.trailerItems.foldl Item.put s.content := by
  obtain ⟨s', hs', rfl⟩ := Option.map_eq_some_iff.1 h
  exact (LogStream.insertAll_eq_some hs hs').2

theorem finish_eq (hs : s.buffer.Within) (hfile : l.file.length < 0x80000000) :
    l.finish s = some (l.trailerItems.foldl Item.put s.content) := by
  obtain ⟨s', hs', -, hcontent⟩ := LogStream.insertAll_eq hs (bounded_trailerItems hfile)
  rw [finish, hs', Option.map_some, hcontent]

/-- With less room, the trailer is not complete. -/
theorem length_finish_lt (hs : s.buffer.Within) (hroom : ¬l.RoomBehind s.content.length)
    (h : l.finish s = some r) : r.length < s.content.length + l.trailer.length := by
  rw [finish_eq_some hs h, ← flatMap_trailerItems]
  exact Item.length_foldl_put_lt_of_not_allFit (mt l.allFit_trailerItems.1 hroom)

theorem finish_eq_append_iff (hs : s.buffer.Within) :
    l.finish s = some (s.content ++ l.trailer) ↔ l.RoomBehind s.content.length := by
  constructor
  · intro h
    by_contra hroom
    have hlt := length_finish_lt hs hroom h
    rw [List.length_append] at hlt
    exact Nat.lt_irrefl _ hlt
  · intro hroom
    have hsize : kSmallBuffer = 4000 := rfl
    have hfile : l.file.length < 0x80000000 := by
      rw [RoomBehind] at hroom
      omega
    rw [finish_eq hs hfile, Item.foldl_put_of_allFit (l.allFit_trailerItems.2 hroom),
      flatMap_trailerItems]

/-- What is completed by less than a trailer ends with the beginning of one. -/
theorem exists_overlap {c added : Bytes} (hsuffix : l.trailer <:+ c ++ added)
    (hlt : added.length < l.trailer.length) : ∃ a ≠ [], a <:+ c ∧ a ++ added = l.trailer := by
  obtain ⟨before, hbefore⟩ := hsuffix
  obtain ⟨a, hc, htrailer⟩ | ⟨rest, -, hadded⟩ := List.append_eq_append_iff.1 hbefore
  · refine ⟨a, fun ha => ?_, ⟨before, hc.symm⟩, htrailer.symm⟩
    rw [htrailer, ha, List.nil_append] at hlt
    exact Nat.lt_irrefl _ hlt
  · rw [hadded, List.length_append] at hlt
    omega

/-- What has been inserted does not fill the buffer. -/
theorem within_of_stream (h : l.stream = some s) :
    s.buffer.Within ∧ s.content.length < kSmallBuffer := by
  obtain ⟨hwithin, hcontent⟩ := LogStream.insertAll_eq_some (LogStream.within_new _) h
  rw [hcontent, LogStream.content_new]
  exact ⟨hwithin, Item.length_foldl_put_lt _ (by decide)⟩

theorem length_record_lt (h : l.record = some r) : r.length < kSmallBuffer := by
  obtain ⟨s, hs, hr⟩ := Option.bind_eq_some_iff.1 h
  obtain ⟨hwithin, hlt⟩ := within_of_stream hs
  rw [finish_eq_some hwithin hr]
  exact Item.length_foldl_put_lt _ hlt

/-- The buffers of the logging thread have room for a record. -/
theorem fits_record (h : l.record = some r) : Webserver.FixedBuffer.fits [] r = r :=
  if_pos ((length_record_lt h).trans (by decide))

/-- A trailer that is partly in the buffer has a file name that is not too long. -/
theorem length_file_lt {a : Bytes} (hlt : s.content.length < kSmallBuffer)
    (ha : a <:+ s.content)
    (hrest : a ++ (Item.fitting l.trailerItems s.content.length).flatMap Item.render = l.trailer) :
    l.file.length < 0x80000000 := by
  have hsize : kSmallBuffer = 4000 := rfl
  have hadded := Item.length_foldl_put_lt l.trailerItems hlt
  rw [Item.foldl_put_eq, List.length_append] at hadded
  have hlength := congrArg List.length hrest
  simp only [trailer, List.length_append] at hlength
  have := ha.length_le
  omega

theorem endsLineBehind_iff (hs : s.buffer.Within) (hlt : s.content.length < kSmallBuffer) :
    l.EndsLineBehind s ↔ l.RoomBehind s.content.length ∨ ∃ a ≠ [], a <:+ s.content ∧
      a ++ (Item.fitting l.trailerItems s.content.length).flatMap Item.render = l.trailer := by
  constructor
  · rintro ⟨r, hr, hsuffix⟩
    refine Classical.or_iff_not_imp_left.2 fun hroom => ?_
    have hshort := length_finish_lt hs hroom hr
    rw [finish_eq_some hs hr, Item.foldl_put_eq] at hsuffix hshort
    rw [List.length_append] at hshort
    exact exists_overlap hsuffix (Nat.lt_of_add_lt_add_left hshort)
  · rintro (hroom | ⟨a, -, ⟨before, hbefore⟩, hrest⟩)
    · exact ⟨_, (finish_eq_append_iff hs).2 hroom, List.suffix_append _ _⟩
    · refine ⟨_, finish_eq hs (length_file_lt hlt ⟨before, hbefore⟩ hrest), before, ?_⟩
      rw [Item.foldl_put_eq, ← hrest, ← List.append_assoc, hbefore]

theorem completesLine_iff : l.CompletesLine ↔ l.HasRoom := by
  refine exists_congr fun s => and_congr_right fun hs => ?_
  rw [record, hs, Option.bind_some]
  exact finish_eq_append_iff (within_of_stream hs).1

/-- The destructor adds the whole trailer exactly if there is room for it. Otherwise, the
    record ends with the trailer only if it overlaps with what has been inserted. -/
theorem endsLine_iff (l : Logger) :
    (l.CompletesLine ↔ l.HasRoom) ∧ (l.EndsLine ↔ l.HasRoom ∨ l.Overlaps) := by
  refine ⟨completesLine_iff, ?_⟩
  rw [HasRoom, Overlaps, ← exists_or]
  refine exists_congr fun s => ?_
  rw [← and_or_left]
  exact and_congr_right fun hs => endsLineBehind_iff (within_of_stream hs).1 (within_of_stream hs).2

def fullText : Bytes := List.replicate 3968 120

/-- A logger whose last item leaves one byte of room. -/
def fullLogger : Logger where
  memory _ := 0
  stamp := bytes "2024-01-01 00:00:00\n"
  length_stamp := by decide +kernel
  filename := bytes "main.cpp"
  line := 7
  lev := .DEFAULT
  items := [.string fullText]

/-- Not even the newline is added to its record. -/
theorem not_endsLine : ¬∀ l : Logger, l.EndsLine := by
  intro hall
  have hstamp : (cStr fullLogger.stamp).length = 20 := by decide +kernel
  have htag : (cStr fullLogger.lev.tag).length = 11 := by decide +kernel
  have hlong : fullText.length = 3968 := List.length_replicate
  have hfit : Item.AllFit (fullLogger.header ++ fullLogger.items) 0 := by
    simp only [header, fullLogger] at hstamp htag ⊢
    simp [Item.AllFit, Item.render, Item.form, Form.render, Form.Fits, hstamp, htag, hlong,
      kSmallBuffer]
  obtain ⟨s, hs, r, hr, hsuffix⟩ := hall fullLogger
  obtain ⟨hwithin, hcontent⟩ := LogStream.insertAll_eq_some (LogStream.within_new _) hs
  rw [LogStream.content_new, Item.foldl_put_of_allFit hfit, List.nil_append] at hcontent
  have hrender : (fullLogger.header ++ fullLogger.items).flatMap Item.render =
      cStr fullLogger.stamp ++ cStr fullLogger.lev.tag ++ fullText := by
    simp [header, fullLogger, Item.render, Item.form, Form.render]
  rw [hrender] at hcontent
  have hr : r = s.content := by
    rw [finish_eq_some hwithin hr]
    refine Item.foldl_put_of_full ?_
    simp only [hcontent, List.length_append, hstamp, htag, hlong]
    decide
  obtain ⟨before, hbefore⟩ := hsuffix
  have hlast : fullText.getLast? = some 120 := List.getLast?_replicate.trans rfl
  have hlasts := congrArg List.getLast? (hbefore.trans (hr.trans hcontent))
  simp only [trailer, hlast, List.getLast?_append, List.getLast?_singleton, Option.some_or,
    Option.some.injEq] at hlasts
  exact absurd hlasts (by decide)

end Logger

end Log

end Webserver
