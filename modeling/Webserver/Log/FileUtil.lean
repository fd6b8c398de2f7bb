import Webserver.Util
import Mathlib.Algebra.Ring.Nat
import Mathlib.Data.List.TakeDrop

/-!
# Writing to the log file

`FileUtil::append` hands a message to `fwrite_unlocked`, which may take a part of it
only, and offers the rest again until everything is taken or nothing is. `LogFile`
counts the messages, and flushes the file every so often.

How many bytes the successive calls of `fwrite_unlocked` take is a schedule (`fwrites`):
a call takes no more than it is offered.

* `FileUtil.append_emits`: what is taken is a prefix of the message, piece by piece, and
  all of it unless a call after the first one takes nothing.
* `LogFile.appends_written`: so without such a call, the file holds the messages one
  after the other.
* `LogFile.Sound.append`: and what has been flushed ends with a message.
-/

namespace Webserver

/-- A stream that a log is written to. Recorded are the bytes taken by `fwrite_unlocked`
    (`written`), how many of them have been flushed, and what goes to `stderr`. -/
structure FileUtil where
  fwrites : ℕ → ℕ
  ferror : Bool
  written : Bytes
  flushed : ℕ
  stderr : Bytes

/-- A call of `fwrite_unlocked`: from where in the message it is offered how many bytes,
    and how many it takes. -/
structure Fwrite where
  offset : ℕ
  count : ℕ
  taken : ℕ

/-- What the call takes of the message. -/
def Fwrite.bytes (c : Fwrite) (msg : Bytes) : Bytes := (msg.drop c.offset).take c.taken

namespace FileUtil

def flush (s : FileUtil) : FileUtil := { s with flushed := s.written.length }

/-- Offers `count` bytes of a message, from `offset` on. -/
def write (s : FileUtil) (msg : Bytes) (offset count : ℕ) : Fwrite × FileUtil :=
  let c : Fwrite := ⟨offset, count, min (s.fwrites 0) count⟩
  (c, { s with fwrites := fun k => s.fwrites (k + 1), written := s.written ++ c.bytes msg })

/-- What is done when nothing is taken. -/
def report (s : FileUtil) : FileUtil :=
  if s.ferror then { s with stderr := s.stderr ++ bytes "AppendFile::append() failed !\n" } else s

/-- The loop of `append`, with the calls it makes. -/
def appendLoop (s : FileUtil) (msg : Bytes) (n remain : ℕ) : List Fwrite × FileUtil :=
  if remain = 0 then ([], s)
  else
    let (c, s) := s.write msg n remain
    if c.taken = 0 then ([c], s.report)
    else
      let (calls, s) := s.appendLoop msg (n + c.taken) (remain - c.taken)
      (c :: calls, s)
termination_by remain
decreasing_by omega

/-- `FileUtil::append`, with the calls it makes: the first one, and those that offer the
    rest. -/
def append (s : FileUtil) (msg : Bytes) : List Fwrite × FileUtil :=
  let (c, s) := s.write msg 0 msg.length
  let (calls, s) := s.appendLoop msg c.taken (msg.length - c.taken)
  (c :: calls, s)

/-! ## What a message comes to -/

/-- The calls offer the message from a position on, each what is left after the one before
    it, and take some of it. -/
inductive Consecutive (len : ℕ) : ℕ → List Fwrite → Prop
  | nil {n : ℕ} : Consecutive len n []
  | cons {n taken : ℕ} {calls : List Fwrite} : n ≤ len → taken ≤ len - n →
      Consecutive len (n + taken) calls → Consecutive len n (⟨n, len - n, taken⟩ :: calls)

variable {len n : ℕ} {calls : List Fwrite} {s : FileUtil}

/-- No call reaches beyond the end of the message. -/
theorem Consecutive.inside (h : Consecutive len n calls) :
    ∀ c ∈ calls, c.offset + c.count ≤ len := by
  induction h with
  | nil => exact nofun
  | cons hn _ _ ih => exact List.forall_mem_cons.2 ⟨Nat.le_of_eq (Nat.add_sub_of_le hn), ih⟩

theorem Consecutive.sum_le (h : Consecutive len n calls) :
    (calls.map Fwrite.taken).sum ≤ len - n := by
  induction h with
  | nil => simp
  | cons hn htaken _ ih =>
    simp only [List.map_cons, List.sum_cons]
    omega

/-- Calls one after the other take a stretch of the message. -/
theorem Consecutive.flatMap_bytes {msg : Bytes} (h : Consecutive msg.length n calls) :
    calls.flatMap (·.bytes msg) = (msg.drop n).take (calls.map Fwrite.taken).sum := by
  induction h with
  | nil => simp
  | @cons n taken calls _ _ _ ih =>
    rw [List.flatMap_cons, ih, List.map_cons, List.sum_cons, List.take_add, List.drop_drop]
    rfl

/-- What the calls have done to the stream: they have offered the message from `n` on, and
    have taken all of it unless one of them has taken nothing. -/
structure Offered (msg : Bytes) (n : ℕ) (calls : List Fwrite) (s s' : FileUtil) : Prop where
  consecutive : Consecutive msg.length n calls
  written : s'.written = s.written ++ calls.flatMap (·.bytes msg)
  length_le : calls.length ≤ msg.length - n
  whole : (∀ c ∈ calls, c.taken ≠ 0) ↔ (calls.map Fwrite.taken).sum = msg.length - n

theorem report_written (s : FileUtil) : s.report.written = s.written := by
  rw [report]
  split <;> rfl

theorem appendLoop_offered (s : FileUtil) (msg : Bytes) (hn : n ≤ msg.length) :
    Offered msg n (s.appendLoop msg n (msg.length - n)).1 s
      (s.appendLoop msg n (msg.length - n)).2 := by
  induction hm : msg.length - n using Nat.strongRecOn generalizing s n with
  | ind m ih =>
    rw [appendLoop]
    split
    · next hzero => exact ⟨.nil, by simp, by simp, by simp [hm, hzero]⟩
    · next hpos =>
      subst hm
      have htaken : (s.write msg n (msg.length - n)).1.taken ≤ msg.length - n :=
        Nat.min_le_right _ _
      simp only
      split
      -- Nothing is taken: the loop is left.
      · next hnone =>
        refine ⟨.cons hn htaken .nil, ?_, ?_, ?_⟩
        · rw [report_written, List.flatMap_singleton]
          rfl
        · rw [List.length_singleton]
          omega
        · simp only [List.forall_mem_singleton, List.map_singleton, List.sum_singleton, hnone]
          omega
      · next hsome =>
        have hrest : msg.length - (n + (s.write msg n (msg.length - n)).1.taken) =
            msg.length - n - (s.write msg n (msg.length - n)).1.taken := Nat.sub_add_eq _ _ _
        obtain ⟨hconsecutive, hwritten, hlength, hwhole⟩ :=
          ih _ (by omega) (s.write msg n (msg.length - n)).2 (by omega) hrest
        refine ⟨.cons hn htaken hconsecutive, ?_, ?_, ?_⟩
        · rw [hwritten, List.flatMap_cons, ← List.append_assoc]
          rfl
        · rw [List.length_cons]
          omega
        · rw [List.forall_mem_cons, and_iff_right hsome, hwhole, List.map_cons, List.sum_cons]
          omega

/-- A message has been handed to the stream, by one call after another: a prefix of it is
    taken, and all of it if every call after the first one takes something. -/
structure Emits (msg : Bytes) (calls : List Fwrite) (s s' : FileUtil) : Prop where
  consecutive : Consecutive msg.length 0 calls
  inside : ∀ c ∈ calls, c.offset + c.count ≤ msg.length
  length_le : calls.length ≤ msg.length + 1
  written : ∃ emitted, s'.written = s.written ++ emitted ∧ emitted <+: msg ∧
    emitted = calls.flatMap (·.bytes msg) ∧ (emitted = msg ↔ ∀ c ∈ calls.tail, c.taken ≠ 0)

/-- The calls of a message are the first one and those of the loop. -/
theorem append_offered (s : FileUtil) (msg : Bytes) :
    Consecutive msg.length 0 (s.append msg).1 ∧ (s.append msg).1.length ≤ msg.length + 1 ∧
      (s.append msg).2.written = s.written ++ (s.append msg).1.flatMap (·.bytes msg) ∧
      ((s.append msg).1.flatMap (·.bytes msg) = msg ↔
        ∀ c ∈ (s.append msg).1.tail, c.taken ≠ 0) := by
  have hcalls : (s.append msg).1 = (s.write msg 0 msg.length).1 ::
      ((s.write msg 0 msg.length).2.appendLoop msg (s.write msg 0 msg.length).1.taken
        (msg.length - (s.write msg 0 msg.length).1.taken)).1 := rfl
  have hn : (s.write msg 0 msg.length).1.taken ≤ msg.length := Nat.min_le_right _ _
  obtain ⟨hrest, hwritten, hlength, hwhole⟩ :=
    (s.write msg 0 msg.length).2.appendLoop_offered msg hn
  have hsum := hrest.sum_le
  have hconsecutive : Consecutive msg.length 0 (s.append msg).1 := by
    rw [hcalls]
    exact .cons (Nat.zero_le _) hn (by rwa [Nat.zero_add])
  refine ⟨hconsecutive, ?_, ?_, ?_⟩
  · rw [hcalls, List.length_cons]
    omega
  · rw [hcalls, List.flatMap_cons, ← List.append_assoc]
    exact hwritten
  · -- As many bytes are taken as the message has.
    rw [hconsecutive.flatMap_bytes, List.drop_zero, List.take_eq_self_iff, hcalls, List.tail_cons,
      hwhole, List.map_cons, List.sum_cons]
    omega

/-- Whatever `fwrite_unlocked` takes. -/
theorem append_emits (s : FileUtil) (msg : Bytes) :
    Emits msg (s.append msg).1 s (s.append msg).2 := by
  obtain ⟨hconsecutive, hlength, hwritten, hwhole⟩ := s.append_offered msg
  refine ⟨hconsecutive, hconsecutive.inside, hlength, _, hwritten, ?_, rfl, hwhole⟩
  rw [hconsecutive.flatMap_bytes, List.drop_zero]
  exact List.take_prefix _ _

/-- Every call takes some of what it is offered. -/
def Steady (s : FileUtil) : Prop := ∀ k, s.fwrites k ≠ 0

theorem Steady.write (hs : s.Steady) (msg : Bytes) (offset count : ℕ) :
    (s.write msg offset count).2.Steady := fun k => hs (k + 1)

theorem Steady.appendLoop (hs : s.Steady) (msg : Bytes) (n remain : ℕ) :
    (∀ c ∈ (s.appendLoop msg n remain).1, c.taken ≠ 0) ∧ (s.appendLoop msg n remain).2.Steady := by
  induction remain using Nat.strongRecOn generalizing s n with
  | ind remain ih =>
    rw [FileUtil.appendLoop]
    split
    · exact ⟨nofun, hs⟩
    · next hpos =>
      have htaken : (s.write msg n remain).1.taken ≠ 0 := by
        have hfirst := hs 0
        simp only [FileUtil.write]
        omega
      obtain ⟨hcalls, hsteady⟩ := ih (remain - (s.write msg n remain).1.taken) (by omega)
        (hs.write msg n remain) (n + (s.write msg n remain).1.taken)
      simp only [if_neg htaken]
      exact ⟨List.forall_mem_cons.2 ⟨htaken, hcalls⟩, hsteady⟩

theorem Steady.append (hs : s.Steady) (msg : Bytes) :
    (s.append msg).2.written = s.written ++ msg ∧ (s.append msg).2.Steady := by
  obtain ⟨hcalls, hsteady⟩ := (hs.write msg 0 msg.length).appendLoop msg
    (s.write msg 0 msg.length).1.taken (msg.length - (s.write msg 0 msg.length).1.taken)
  obtain ⟨-, -, hwritten, hwhole⟩ := s.append_offered msg
  rw [hwhole.2 hcalls] at hwritten
  exact ⟨hwritten, hsteady⟩

/-- Nothing is flushed meanwhile. -/
theorem appendLoop_flushed (s : FileUtil) (msg : Bytes) (n remain : ℕ) :
    (s.appendLoop msg n remain).2.flushed = s.flushed := by
  induction remain using Nat.strongRecOn generalizing s n with
  | ind remain ih =>
    rw [appendLoop]
    split
    · rfl
    · simp only
      split
      · rw [report]
        split <;> rfl
      · exact ih _ (by omega) _ _

theorem append_flushed (s : FileUtil) (msg : Bytes) : (s.append msg).2.flushed = s.flushed :=
  appendLoop_flushed _ _ _ _

end FileUtil

/-! ## The log file -/

/-- The log file, which is flushed every so many appends. -/
structure LogFile where
  flushEveryN : ℤ
  count : ℕ
  file : FileUtil

namespace LogFile

/-- The constructor, with its default argument. -/
def new (fwrites : ℕ → ℕ) (ferror : Bool) : LogFile where
  flushEveryN := 1024
  count := 0
  file := ⟨fwrites, ferror, [], 0, []⟩

/-- `LogFile::append`, in the critical section of its mutex. -/
def append (s : LogFile) (msg : Bytes) : LogFile :=
  let s := { s with file := (s.file.append msg).2, count := s.count + 1 }
  if (s.count : ℤ) ≥ s.flushEveryN then { s with count := 0, file := s.file.flush } else s

/-- `LogFile::flush`. -/
def flush (s : LogFile) : LogFile := { s with file := s.file.flush }

/-- The calls of a log file. -/
inductive Call
  | append (msg : Bytes)
  | flush

def call (s : LogFile) : Call → LogFile
  | .append msg => s.append msg
  | .flush => s.flush

/-- The messages of a run, one after the other. -/
def appends (s : LogFile) (msgs : List Bytes) : LogFile := msgs.foldl append s

variable {s : LogFile}

theorem append_written (s : LogFile) (msg : Bytes) :
    (s.append msg).file.written = (s.file.append msg).2.written := by
  rw [append]
  split <;> rfl

/-- The file holds the messages in the order in which they were appended. -/
theorem appends_written (hs : s.file.Steady) (msgs : List Bytes) :
    (s.appends msgs).file.written = s.file.written ++ msgs.flatten := by
  induction msgs generalizing s with
  | nil => exact (List.append_nil _).symm
  | cons msg msgs ih =>
    obtain ⟨hwritten, hsteady⟩ := hs.append msg
    have hsteady : (s.append msg).file.Steady := by
      rw [append]
      split <;> exact hsteady
    rw [appends, List.foldl_cons]
    refine (ih hsteady).trans ?_
    rw [append_written, hwritten, List.flatten_cons, List.append_assoc]

/-! ## What is on the disk -/

/-- What has been flushed. -/
def durable (s : LogFile) : Bytes := s.file.written.take s.file.flushed

/-- What has been flushed has been written, and every call takes something. -/
structure Sound (s : LogFile) : Prop where
  flushed_le : s.file.flushed ≤ s.file.written.length
  steady : s.file.Steady

variable {fwrites : ℕ → ℕ} {ferror : Bool}

theorem sound_new (hsteady : ∀ k, fwrites k ≠ 0) : (new fwrites ferror).Sound := ⟨le_rfl, hsteady⟩

theorem Sound.flush (hs : s.Sound) :
    s.flush.Sound ∧ s.flush.file.written = s.file.written ∧ s.flush.durable = s.file.written :=
  ⟨⟨le_rfl, hs.steady⟩, rfl, List.take_length⟩

/-- A message goes to the end of what has been written, and then all of it is flushed, or
    nothing more than before. -/
theorem Sound.append (hs : s.Sound) (msg : Bytes) :
    (s.append msg).Sound ∧ (s.append msg).file.written = s.file.written ++ msg ∧
      ((s.append msg).durable = s.durable ∨
        (s.append msg).durable = (s.append msg).file.written) := by
  obtain ⟨hwritten, hsteady⟩ := hs.steady.append msg
  have hflushed := s.file.append_flushed msg
  rw [LogFile.append]
  split
  · exact ⟨⟨le_rfl, hsteady⟩, hwritten, .inr List.take_length⟩
  · refine ⟨⟨?_, hsteady⟩, hwritten, .inl ?_⟩
    · simp only [hflushed, hwritten, List.length_append]
      exact Nat.le_add_right_of_le hs.flushed_le
    · simp only [durable, hflushed, hwritten]
      exact List.take_append_of_le_length hs.flushed_le

end LogFile

end Webserver
