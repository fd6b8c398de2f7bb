import Webserver.Lib.Lines
import Webserver.Lib.Text
import Webserver.Log.Durability
import Webserver.Log.Logging

/-!
# Reading the log

A record of the log is two lines: the time, and then the level, the text of the statement and
its place in the source. Someone who reads the log cuts it into lines and takes each pair of
them apart again (`Log.readLog`). There may have been a crash, so that the last lines are
missing or cut off.

* `Log.Logger.readEntry_secondLine`: a record that has room for its trailer is read as what
  the statement said, unless a newline or a blank makes it ambiguous (`Log.Logger.Legible`).
* `Pipeline.reads_of_reachable`: so whatever part of what has been written is on the disk,
  what is read from it are statements that were made, in their order.
-/

namespace Webserver

open Text Transition

namespace Log

/-! ## The reader -/

/-- What a record says. -/
structure Entry where
  time : Bytes
  lev : LEVEL
  text : Bytes
  file : Bytes
  line : ℤ
  deriving DecidableEq

/-- The level whose tag a line begins with. -/
def readLevel (s : Bytes) : Option LEVEL :=
  [LEVEL.DEFAULT, .DEBUG, .WARN, .ERROR].find? fun lev => lev.tag <+: s

/-- A file and a line number, behind the last colon. -/
def readSource (s : Bytes) : Option (Bytes × ℤ) :=
  (rfind colon s).bind fun i => (ascii.read (past s (some i))).map (s.take i, ·)

/-- The two lines of a record: the text ends at the dashes before the last blank. -/
def readEntry (time l : Bytes) : Option Entry :=
  (readLevel l).bind fun lev =>
    let s := l.drop lev.tag.length
    (rfind sp s).bind fun i =>
      if bytes " --" <:+ s.take i then
        (readSource (past s (some i))).map fun (file, line) =>
          ⟨time, lev, s.take (i - 3), file, line⟩
      else none

/-- What is read from each pair of lines. -/
def readEntries : List Bytes → List (Option Entry)
  | time :: l :: ls => readEntry time l :: readEntries ls
  | _ => []

/-- What is read from a log. -/
def readLog (log : Bytes) : List (Option Entry) := readEntries (lines lf log).1

theorem tag_inj {v w : LEVEL} {s : Bytes} (hv : v.tag <+: s) (hw : w.tag <+: s) : v = w := by
  have hne : ∀ v w : LEVEL, v ≠ w → ¬v.tag <+: w.tag := by
    intro v w
    cases v <;> cases w <;> decide +kernel
  by_contra hvw
  rcases List.prefix_or_prefix_of_prefix hv hw with h | h
  · exact hne v w hvw h
  · exact hne w v (Ne.symm hvw) h

theorem readLevel_append (lev : LEVEL) (s : Bytes) : readLevel (lev.tag ++ s) = some lev := by
  have htag : lev.tag <+: lev.tag ++ s := List.prefix_append _ _
  rw [readLevel]
  cases h : [LEVEL.DEFAULT, .DEBUG, .WARN, .ERROR].find? fun v => v.tag <+: lev.tag ++ s with
  | none =>
    have hall := List.find?_eq_none.1 h lev (by cases lev <;> decide)
    exact absurd (decide_eq_true htag) hall
  | some v =>
    have hv := List.find?_some h
    rw [tag_inj (of_decide_eq_true hv) htag]

namespace Logger

variable (l : Logger)

/-! ## The two lines -/

/-- What the constructor puts into the stream. -/
def prefixText : Bytes := l.header.flatMap Item.render

/-- What of the items of the statement has found room. -/
def text : Bytes := (Item.fitting l.items l.prefixText.length).flatMap Item.render

def time : Bytes := l.stamp.dropLast

/-- What the record is to say. -/
def entry : Entry := ⟨l.time, l.lev, l.text, l.file, l.line.toInt⟩

/-- The line behind that of the time. -/
def secondLine : Bytes :=
  l.lev.tag ++ (l.text ++ bytes " --" ++ sp :: (l.file ++ colon :: toStrInt l.line.toInt))

/-- There is room for the trailer, the time is on a line of its own, no item or file name has
    a newline, and no file name a blank. -/
structure Legible : Prop where
  hasRoom : l.HasRoom
  stamp : l.stamp = l.time ++ [lf]
  time : lf ∉ l.time ∧ 0 ∉ l.time
  text : lf ∉ l.text
  file : lf ∉ l.file ∧ sp ∉ l.file

variable {l}

/-- Short items leave room for the trailer. -/
theorem hasRoom_of_le (hitems : ∀ i ∈ l.items, i.Bounded)
    (h : (l.items.flatMap Item.render).length + l.file.length + 73 ≤ kSmallBuffer) :
    l.HasRoom := by
  have hstamp : (cStr l.stamp).length ≤ l.stamp.length := (List.takeWhile_sublist _).length_le
  have htag : (cStr l.lev.tag).length ≤ 11 := by cases l.lev <;> decide +kernel
  have hlt := l.length_stamp
  have hheader : ∀ i ∈ l.header, i.Bounded := by
    rw [header, List.forall_mem_cons, List.forall_mem_singleton, Item.Bounded, Item.Bounded]
    omega
  obtain ⟨s, hs, -, hcontent⟩ := LogStream.insertAll_eq (LogStream.within_new l.memory)
    (List.forall_mem_append.2 ⟨hheader, hitems⟩)
  have hlength := Item.length_foldl_put_le (l.header ++ l.items) []
  rw [LogStream.content_new] at hcontent
  rw [← hcontent, List.flatMap_append] at hlength
  refine ⟨s, hs, ?_⟩
  simp only [header, Item.render, Form.render, Item.form, Option.elim_some, List.flatMap_cons,
    List.flatMap_nil, List.length_append, List.length_nil] at hlength h
  rw [RoomBehind]
  omega

/-- A record that has room for its trailer. -/
theorem record_of_hasRoom (h : l.HasRoom) :
    l.record = some (l.prefixText ++ l.text ++ l.trailer) := by
  obtain ⟨s, hs, hrecord⟩ := completesLine_iff.2 h
  obtain ⟨-, hcontent⟩ := LogStream.insertAll_eq_some (LogStream.within_new _) hs
  have hheader : l.header.foldl Item.put [] = l.prefixText := by
    refine (Item.foldl_put_of_le ?_).trans (List.nil_append _)
    have hstamp : (cStr l.stamp).length ≤ l.stamp.length := (List.takeWhile_sublist _).length_le
    have htag : (cStr l.lev.tag).length ≤ 11 := by cases l.lev <;> decide +kernel
    have hlt := l.length_stamp
    have hsize : kSmallBuffer = 4000 := rfl
    have hnumeric : kMaxNumericSize = 32 := rfl
    simp only [header, Item.render, Form.render, Item.form, Option.elim_some, List.map_cons,
      List.map_nil, List.sum_cons, List.sum_nil, List.length_nil]
    omega
  rw [LogStream.content_new, List.foldl_append, hheader, Item.foldl_put_eq] at hcontent
  rw [hrecord, hcontent, text]

theorem record_of_legible (h : l.Legible) :
    l.record = some ([l.time, l.secondLine].flatMap (· ++ [lf])) := by
  have hzero : 0 ∉ l.stamp := by
    rw [h.stamp, List.mem_append, not_or]
    exact ⟨h.time.2, by decide⟩
  have htag : cStr l.lev.tag = l.lev.tag := by cases l.lev <;> decide +kernel
  have hbegin : l.prefixText = l.time ++ [lf] ++ l.lev.tag := by
    simp [prefixText, header, Item.render, Item.form, Form.render, cStr_eq_self hzero, htag,
      ← h.stamp]
  have hdashes : bytes " -- " = bytes " --" ++ [sp] := by decide +kernel
  have hcolon : bytes ":" = [colon] := by decide +kernel
  rw [record_of_hasRoom h.hasRoom, hbegin, trailer, hdashes, hcolon, secondLine]
  simp

theorem notMem_secondLine (h : l.Legible) : lf ∉ l.secondLine := by
  have htag : lf ∉ l.lev.tag := by cases l.lev <;> decide +kernel
  have hdashes : lf ∉ bytes " --" := by decide +kernel
  have hline : lf ∉ toStrInt l.line.toInt := notMem_toStrInt (by decide) (by decide) _
  simp only [secondLine, List.mem_append, List.mem_cons, not_or]
  exact ⟨htag, ⟨h.text, hdashes⟩, by decide, h.file.1, by decide, hline⟩

/-- The lines of a record are read as what it is to say. -/
theorem readEntry_secondLine (h : l.Legible) :
    readEntry l.time l.secondLine = some l.entry := by
  have hcolon : colon ∉ toStrInt l.line.toInt := notMem_toStrInt (by decide) (by decide) _
  have hblank : sp ∉ l.file ++ colon :: toStrInt l.line.toInt := by
    have hline : sp ∉ toStrInt l.line.toInt := notMem_toStrInt (by decide) (by decide) _
    simp only [List.mem_append, List.mem_cons, not_or]
    exact ⟨h.file.2, by decide, hline⟩
  have hsource : readSource (l.file ++ colon :: toStrInt l.line.toInt) =
      some (l.file, l.line.toInt) := by
    rw [readSource, rfind_append_cons hcolon, Option.bind_some, past_append_cons, toStrInt_eq,
      ascii.read_text (by decide), List.take_left]
    rfl
  have hdashes : (l.text ++ bytes " --").length - 3 = l.text.length := by
    have hlength : (bytes " --").length = 3 := by decide +kernel
    rw [List.length_append, hlength, Nat.add_sub_cancel]
  rw [readEntry, secondLine, readLevel_append, Option.bind_some]
  simp only [List.drop_left, rfind_append_cons hblank, Option.bind_some, past_append_cons, hsource,
    List.take_left, if_pos (List.suffix_append _ _), Option.map_some, hdashes]
  rw [List.append_assoc, List.take_left]
  rfl

/-- A logger for a short statement. -/
def countLogger : Logger where
  memory _ := 0
  stamp := bytes "2024-05-17 08:30:00\n"
  length_stamp := by decide +kernel
  filename := bytes "Main.cpp"
  line := 12
  lev := .WARN
  items := [.chars (some (bytes "clients: ")), .int 42]

theorem legible_countLogger : countLogger.Legible where
  hasRoom := hasRoom_of_le
    (List.forall_mem_cons.2 ⟨(by decide +kernel : (cStr (bytes "clients: ")).length < 0x80000000),
      List.forall_mem_singleton.2 trivial⟩)
    (by decide +kernel)
  stamp := by decide +kernel
  time := by decide +kernel
  text := by decide +kernel
  file := by decide +kernel

example : countLogger.entry =
    ⟨bytes "2024-05-17 08:30:00", .WARN, bytes "clients: 42", bytes "Main.cpp", 12⟩ := by
  decide +kernel

end Logger

/-! ## The log -/

variable {ls : List Logger} {xs records : List Bytes}

/-- From the first lines of some records, the first of the records are read. -/
theorem readEntries_beginning (hls : ∀ l ∈ ls, l.Legible)
    (hxs : xs <+: ls.flatMap fun l => [l.time, l.secondLine]) :
    readEntries xs = (ls.take (xs.length / 2)).map fun l => some l.entry := by
  induction ls generalizing xs with
  | nil =>
    obtain rfl := List.prefix_nil.1 hxs
    rfl
  | cons l ls ih =>
    obtain ⟨hl, hls⟩ := List.forall_mem_cons.1 hls
    match xs with
    | [] => rfl
    | [x] => simp [readEntries]
    | x :: y :: xs =>
      rw [List.flatMap_cons, List.cons_append, List.cons_append, List.nil_append,
        List.cons_prefix_cons, List.cons_prefix_cons] at hxs
      obtain ⟨rfl, rfl, hxs⟩ := hxs
      have hlength : (l.time :: l.secondLine :: xs).length / 2 = xs.length / 2 + 1 := by
        rw [List.length_cons, List.length_cons]
        omega
      rw [readEntries, l.readEntry_secondLine hl, ih hls hxs, hlength, List.take_succ_cons,
        List.map_cons]

/-- The lines of some records. -/
theorem lines_records (hls : ∀ l ∈ ls, l.Legible)
    (hrecords : records.map some = ls.map Logger.record) :
    lines lf records.flatten = (ls.flatMap fun l => [l.time, l.secondLine], []) := by
  have hlines : ls.map Logger.record =
      (ls.map fun l => [l.time, l.secondLine].flatMap (· ++ [lf])).map some := by
    rw [List.map_map]
    exact List.map_congr_left fun l hl => Logger.record_of_legible (hls l hl)
  obtain rfl := List.map_injective_iff.2 (Option.some_injective _) (hrecords.trans hlines)
  have hnotMem : ∀ x ∈ ls.flatMap fun l => [l.time, l.secondLine], lf ∉ x := by
    intro x hx
    obtain ⟨l, hl, hx⟩ := List.mem_flatMap.1 hx
    rcases List.mem_cons.1 hx with rfl | hx
    · exact (hls l hl).time.1
    · rw [List.mem_singleton.1 hx]
      exact Logger.notMem_secondLine (hls l hl)
  have hcut := lines_flatMap hnotMem []
  rw [List.append_nil, List.flatMap_assoc] at hcut
  rw [← List.flatMap_def, hcut, lines, List.append_nil]

/-- What is read from the beginning of a log are the first of its records. -/
theorem readLog_beginning {disk : Bytes} (hls : ∀ l ∈ ls, l.Legible)
    (hrecords : records.map some = ls.map Logger.record) (hdisk : disk <+: records.flatten) :
    readLog disk = (ls.take ((lines lf disk).1.length / 2)).map fun l => some l.entry := by
  refine readEntries_beginning hls ?_
  have hbegin := lines_beginning (c := lf) hdisk
  rwa [lines_records hls hrecords] at hbegin

/-- From the whole log, all of them are read. -/
theorem readLog_flatten (hls : ∀ l ∈ ls, l.Legible)
    (hrecords : records.map some = ls.map Logger.record) :
    readLog records.flatten = ls.map fun l => some l.entry := by
  have hlength : (ls.flatMap fun l => [l.time, l.secondLine]).length / 2 = ls.length := by
    simp [List.length_flatMap]
  rw [readLog_beginning hls hrecords List.prefix_rfl, lines_records hls hrecords, hlength,
    List.take_length]

end Log

namespace Pipeline

variable {fwrites : ℕ → ℕ} {ferror : Bool} {s : Pipeline} {ls : List Log.Logger} {disk : Bytes}

/-- Some of the messages are the records of some of the statements. -/
theorem exists_records {taken appended : List Bytes} (htaken : taken.Sublist appended)
    (happended : appended.map some = ls.map Log.Logger.record) :
    ∃ kept : List Log.Logger, kept.Sublist ls ∧ taken.map some = kept.map Log.Logger.record :=
  List.sublist_map_iff.1 (happended ▸ htaken.map some)

/-- At any time of any run in which statements are logged, let there be on the disk what has
    been flushed, and perhaps more of what has been written. What is read from it are
    statements that were made, in their order, and all that have been flushed. -/
theorem reads_of_reachable (hsteady : ∀ k, fwrites k ≠ 0)
    (hs : (system fwrites ferror).Reachable s)
    (happended : s.appended.map some = ls.map Log.Logger.record) (hls : ∀ l ∈ ls, l.Legible)
    (hflushed : s.logfile.durable <+: disk) (hdisk : disk <+: s.logfile.file.written) :
    ∃ read flushed : List Log.Logger, read.Sublist ls ∧ flushed <+: read ∧
      Log.readLog disk = (read.map fun l => some l.entry) ∧
      Log.readLog s.logfile.durable = flushed.map fun l => some l.entry := by
  obtain ⟨taken, htaken, hwritten, -⟩ := written_of_reachable hsteady hs
  obtain ⟨kept, hkept, hrecords⟩ := exists_records htaken happended
  have hls : ∀ l ∈ kept, l.Legible := fun l hl => hls l (hkept.subset hl)
  rw [hwritten] at hdisk
  have hle : (lines lf s.logfile.durable).1.length / 2 ≤ (lines lf disk).1.length / 2 :=
    Nat.div_le_div_right (lines_beginning hflushed).length_le
  exact ⟨_, _, (List.take_sublist _ _).trans hkept, List.take_prefix_take_left hle,
    Log.readLog_beginning hls hrecords hdisk,
    Log.readLog_beginning hls hrecords (hflushed.trans hdisk)⟩

/-- As long as no batch is cut down, what is read are the first of the statements whose
    records have been copied, and all of them when the logging thread has returned. -/
theorem reads_of_reachableBy (hsteady : ∀ k, fwrites k ≠ 0)
    (hs : (system fwrites ferror).ReachableBy NoErase s)
    (happended : s.appended.map some = ls.map Log.Logger.record) (hls : ∀ l ∈ ls, l.Legible)
    (hflushed : s.logfile.durable <+: disk) (hdisk : disk <+: s.logfile.file.written) :
    ∃ copied : List Log.Logger, copied.Sublist ls ∧
      s.records.map some = copied.map Log.Logger.record ∧
      (∃ k, Log.readLog disk = (copied.take k).map fun l => some l.entry) ∧
      (s.logger.pc = .done → Log.readLog disk = copied.map fun l => some l.entry) := by
  obtain ⟨copied, hcopied, hrecords⟩ := exists_records (records_of_reachable hs) happended
  obtain ⟨q, hbatched, hput⟩ := batched_of_reachableBy hsteady hs
  have hls : ∀ l ∈ copied, l.Legible := fun l hl => hls l (hcopied.subset hl)
  have hbegin : disk <+: s.records.flatten := by
    rw [← hput, List.flatten_append, ← hbatched.file.written]
    exact hdisk.trans (List.prefix_append _ _)
  refine ⟨copied, hcopied, hrecords, ⟨_, Log.readLog_beginning hls hrecords hbegin⟩,
    fun hpc => ?_⟩
  -- All that has been copied has been flushed.
  rw [durable_of_done hsteady hs hpc] at hflushed
  rw [hbegin.eq_of_length_le hflushed.length_le, Log.readLog_flatten hls hrecords]

/-! ## A run -/

open Log.Logger (countLogger legible_countLogger)

/-- The record of a short statement. -/
def countMessage : Message where
  bytes := [countLogger.time, countLogger.secondLine].flatMap (· ++ [lf])
  bounded := by decide +kernel

/-- Two statements have been logged. The record of the first one is on the disk, and the
    stream has taken that of the second one. -/
theorem exists_two_records : ∃ s, (system (fun _ => 1) false).ReachableBy NoErase s ∧
    s.appended.map some = [countLogger, countLogger].map Log.Logger.record ∧
    s.logfile.durable <+: s.logfile.file.written.take 100 ∧
    s.logfile.durable = countMessage.bytes := by
  obtain ⟨s, hs, hp⟩ := System.exists_reachableBy_of_any step_of_next
    (.init rfl : (system (fun _ => 1) false).ReachableBy NoErase (new (fun _ => 1) false))
    (.append (.append countMessage :: List.replicate 8 .thread)
      (.append countMessage :: List.replicate 5 .thread))
    (fun s => decide (s.appended = [countMessage.bytes, countMessage.bytes]) &&
      decide (s.logfile.durable <+: s.logfile.file.written.take 100) &&
      decide (s.logfile.durable = countMessage.bytes)) (by decide +kernel)
  rw [Bool.and_eq_true, Bool.and_eq_true, decide_eq_true_eq, decide_eq_true_eq,
    decide_eq_true_eq] at hp
  refine ⟨s, hs, ?_, hp.1.2, hp.2⟩
  have hrecord := Log.Logger.record_of_legible legible_countLogger
  rw [hp.1.1, List.map_cons, List.map_singleton, List.map_cons, List.map_singleton, hrecord]
  rfl

theorem reads_of_reachable_two : ∃ s : Pipeline, s.logfile.durable = countMessage.bytes ∧
    ∃ read flushed : List Log.Logger, read.Sublist [countLogger, countLogger] ∧
      flushed <+: read ∧
      Log.readLog (s.logfile.file.written.take 100) = (read.map fun l => some l.entry) ∧
      Log.readLog s.logfile.durable = flushed.map fun l => some l.entry := by
  obtain ⟨s, hs, happended, hflushed, hdurable⟩ := exists_two_records
  exact ⟨s, hdurable, reads_of_reachable (fun _ => Nat.one_ne_zero) hs.reachable happended
    (List.forall_mem_cons.2 ⟨legible_countLogger, List.forall_mem_singleton.2 legible_countLogger⟩)
    hflushed (List.take_prefix 100 _)⟩

theorem reads_of_reachableBy_two : ∃ s : Pipeline, s.logfile.durable = countMessage.bytes ∧
    ∃ copied : List Log.Logger, copied.Sublist [countLogger, countLogger] ∧
      s.records.map some = copied.map Log.Logger.record ∧
      (∃ k, Log.readLog (s.logfile.file.written.take 100) =
        (copied.take k).map fun l => some l.entry) ∧
      (s.logger.pc = .done → Log.readLog (s.logfile.file.written.take 100) =
        copied.map fun l => some l.entry) := by
  obtain ⟨s, hs, happended, hflushed, hdurable⟩ := exists_two_records
  exact ⟨s, hdurable, reads_of_reachableBy (fun _ => Nat.one_ne_zero) hs happended
    (List.forall_mem_cons.2 ⟨legible_countLogger, List.forall_mem_singleton.2 legible_countLogger⟩)
    hflushed (List.take_prefix 100 _)⟩

end Pipeline

end Webserver
