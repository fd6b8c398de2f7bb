import Webserver.Lib.Batch
import Webserver.Log.Conservation

/-!
# What is left of the log when the process dies

Messages go from the producers to the buffers, from there to the stream of the log file,
and to the disk when it is flushed. This file puts the logger and its log file together
(`Pipeline`): buffers are batches of messages, which are written and flushed whole.

* `Pipeline.written_of_reachable`: at any time, what the stream has taken are messages that
  were appended, and what has been flushed are the first of them.
* `Pipeline.lines_of_reachable`: so the latter are messages that were appended, each of them
  whole, in their order.
* `Pipeline.durable_of_reachableBy`: they are the first ones, as long as no batch is cut
  down to its first buffers, and all of them when the logging thread has returned.
-/

namespace Webserver

open Transition Pointers

/-- The logger and its log file. Recorded are the messages appended, and those of them that
    have been copied into a buffer (`records`). -/
structure Pipeline where
  logger : AsyncLogging
  logfile : LogFile
  appended : List Bytes
  records : List Bytes

namespace Pipeline

open AsyncLogging (Event)

def new (fwrites : ℕ → ℕ) (ferror : Bool) : Pipeline := ⟨.new, .new fwrites ferror, [], []⟩

/-- A producer has appended a message. -/
def append (s : Pipeline) (msg : Message) (logger : AsyncLogging) : Pipeline :=
  { s with
    logger := logger
    appended := s.appended ++ [msg.bytes]
    records := if logger.copied = s.logger.copied then s.records else s.records ++ [msg.bytes] }

/-- The logging thread has made its next step. -/
def thread (s : Pipeline) (logger : AsyncLogging) : Pipeline :=
  { s with
    logger := logger
    logfile := s.logger.call.elim s.logfile s.logfile.call }

def stop (s : Pipeline) : Pipeline := { s with logger := { s.logger with running := false } }

inductive Step (s : Pipeline) : Event → Pipeline → Prop
  | append {msg : Message} {logger : AsyncLogging} : s.logger.append msg = .ok logger →
      Step s (.append msg) (s.append msg logger)
  | thread {logger : AsyncLogging} : s.logger.pc ≠ .done → s.logger.thread = .ok logger →
      Step s .thread (s.thread logger)
  | stop : Step s .stop s.stop

/-- The runs of a logger, with a log file whose stream takes bytes as scheduled. -/
def system (fwrites : ℕ → ℕ) (ferror : Bool) : System Pipeline Event where
  init := {new fwrites ferror}
  step := Step

/-- The state an event leads to. -/
def next (s : Pipeline) : Event → Option Pipeline
  | .append msg => (s.logger.append msg).toOption.map (s.append msg)
  | .thread => if s.logger.pc = .done then none else s.logger.thread.toOption.map s.thread
  | .stop => some s.stop

theorem step_of_next (s : Pipeline) (e : Event) (s' : Pipeline) (h : s.next e = some s') :
    Step s e s' := by
  cases e with
  | append msg =>
    obtain ⟨logger, hlogger, rfl⟩ := Option.map_eq_some_iff.1 h
    cases hs : s.logger.append msg with
    | error f => rw [hs] at hlogger; cases hlogger
    | ok logger' =>
      rw [hs] at hlogger
      cases hlogger
      exact .append hs
  | thread =>
    rw [next] at h
    split at h
    · cases h
    · next hpc =>
      obtain ⟨logger, hlogger, rfl⟩ := Option.map_eq_some_iff.1 h
      cases hs : s.logger.thread with
      | error f => rw [hs] at hlogger; cases hlogger
      | ok logger' =>
        rw [hs] at hlogger
        cases hlogger
        exact .thread hpc hs
  | stop =>
    cases h
    exact .stop

variable {fwrites : ℕ → ℕ} {ferror : Bool} {s s' : Pipeline} {e : Event}

/-! ## Its parts -/

theorem logger_of_step (hst : Step s e s') : AsyncLogging.Step s.logger e s'.logger := by
  rcases hst with h | ⟨hpc, h⟩ | _
  · exact .append h
  · exact .thread hpc h
  · exact .stop

/-- The steps that do not cut a batch down. -/
def NoErase (s : Pipeline) (e : Event) : Prop := s.logger.NoErase e

theorem logger_of_reachable {ok : AsyncLogging → Event → Prop}
    (hs : (system fwrites ferror).ReachableBy (fun s e => ok s.logger e) s) :
    AsyncLogging.system.ReachableBy ok s.logger := by
  induction hs with
  | init hs =>
    rw [Set.mem_singleton_iff.1 hs]
    exact .init rfl
  | step _ hok hst ih => exact .step ih hok (logger_of_step hst)

/-- The messages copied were appended, in this order. -/
theorem records_of_reachable {ok : Pipeline → Event → Prop}
    (hs : (system fwrites ferror).ReachableBy ok s) : s.records.Sublist s.appended := by
  refine hs.invariant (I := fun s => s.records.Sublist s.appended) (fun s hs => ?_)
    fun s e s' _ hs _ hst => ?_
  · rw [Set.mem_singleton_iff.1 hs]
    exact List.Sublist.refl _
  · rcases hst with @⟨msg, logger, -⟩ | _ | _
    · simp only [append]
      split
      · exact hs.trans (List.sublist_append_left _ _)
      · exact hs.append (List.Sublist.refl _)
    · exact hs
    · exact hs

/-! ## Buffers are batches of messages -/

/-- The stream has taken some messages, and the first ones of them are on the disk. -/
structure Filed (f : LogFile) (taken : List Bytes) : Prop where
  sound : f.Sound
  written : f.file.written = taken.flatten
  durable : ∃ lines, lines <+: taken ∧ f.durable = lines.flatten

/-- Each buffer not written yet holds a batch of messages, and the stream has taken those
    of the buffers written. -/
structure Batched (s : Pipeline) (q : Batch.State Bytes) : Prop where
  put : s.records = q.put
  held : s.logger.unwrittenChunks = q.batches.map List.flatten
  file : Filed s.logfile q.taken

variable {f : LogFile} {taken : List Bytes} {q : Batch.State Bytes} {lossy : Prop}

theorem Filed.flush (hf : Filed f taken) : Filed f.flush taken := by
  obtain ⟨hsound, hwritten, hdurable⟩ := hf.sound.flush
  exact ⟨hsound, hwritten.trans hf.written, taken, List.prefix_rfl, hdurable.trans hf.written⟩

theorem Filed.append (hf : Filed f taken) (batch : List Bytes) :
    Filed (f.append batch.flatten) (taken ++ batch) := by
  obtain ⟨hsound, hwritten, hdurable⟩ := hf.sound.append batch.flatten
  have hwritten : (f.append batch.flatten).file.written = (taken ++ batch).flatten := by
    rw [hwritten, hf.written, List.flatten_append]
  refine ⟨hsound, hwritten, ?_⟩
  rcases hdurable with hdurable | hdurable
  · obtain ⟨lines, hlines, hlast⟩ := hf.durable
    exact ⟨lines, hlines.trans (List.prefix_append _ _), hdurable.trans hlast⟩
  · exact ⟨taken ++ batch, List.prefix_rfl, hdurable.trans hwritten⟩

/-- A message is put at the end of the last batch, if it is copied. -/
theorem Batched.append (hs : s.Batched q) (hwf : s.logger.Wf) (hplaced : s.logger.Placed)
    {msg : Message} {logger : AsyncLogging} (h : s.logger.append msg = .ok logger) :
    ∃ es q', (Batch.system Bytes lossy).Steps q es q' ∧ (s.append msg logger).Batched q' := by
  obtain ⟨cs, c, hbefore, hafter, hcopied, -⟩ := AsyncLogging.puts_of_append hwf hplaced h
  -- The last batch, to which the message may be added.
  obtain ⟨bs, b, es, q', hsteps, hput, hbatches, htaken, rfl, rfl⟩ : ∃ bs b es q',
      (Batch.system Bytes lossy).Steps q es q' ∧ q'.put = q.put ∧ q'.batches = bs ++ [b] ∧
        q'.taken = q.taken ∧ cs = bs.map List.flatten ∧ c = b.flatten := by
    rw [hs.held] at hbefore
    rcases hbefore with hbefore | ⟨rfl, rfl⟩
    · obtain ⟨bs, rest, hq, rfl, hrest⟩ := List.map_eq_append_iff.1 hbefore
      obtain ⟨b, rfl, rfl⟩ := List.map_eq_singleton_iff.1 hrest
      exact ⟨bs, b, [], q, .nil, rfl, hq, rfl, rfl, rfl⟩
    · exact ⟨q.batches, [], _, _, .single .begin, rfl, rfl, rfl, rfl, rfl⟩
  have hfile : Filed s.logfile q'.taken := htaken ▸ hs.file
  rw [Pipeline.append]
  split
  · next hsame =>
    have hnone : FixedBuffer.fits b.flatten msg.bytes = [] :=
      List.append_right_eq_self.1 (hcopied.symm.trans hsame)
    exact ⟨es, q', hsteps, hs.put.trans hput.symm, by simp [hafter, hbatches, FixedBuffer.append,
      hnone], hfile⟩
  · next hgrown =>
    have hall : FixedBuffer.fits b.flatten msg.bytes = msg.bytes := by
      rw [hcopied, List.append_right_eq_self] at hgrown
      rw [FixedBuffer.fits] at hgrown ⊢
      exact ite_eq_left_iff.2 fun hfull => absurd (if_neg hfull) hgrown
    refine ⟨_, _, hsteps.append (.single (.put msg.bytes hbatches)), ?_, ?_, hfile⟩
    · rw [hs.put, hput]
    · simp [hafter, FixedBuffer.append, hall]

/-- Buffers are moved, or the first batch is taken. -/
theorem Batched.thread (hs : s.Batched q) (hwf : s.logger.Wf) (hplaced : s.logger.Placed)
    (herase : lossy ∨ s.NoErase .thread) (hdone : s.logger.pc ≠ .done)
    {logger : AsyncLogging} (h : s.logger.thread = .ok logger) :
    ∃ es q', (Batch.system Bytes lossy).Steps q es q' ∧ (s.thread logger).Batched q' := by
  have hheld := hs.held
  rw [Pipeline.thread]
  rcases AsyncLogging.moves_of_thread hwf hplaced hdone h with ⟨hchunks, -, hcall⟩ |
    ⟨hchunks, -, hcall⟩ | @⟨c, hchunks, -, hcall⟩ | ⟨hpc, hlong, hchunks, -, hcall⟩
  · refine ⟨[], q, .nil, hs.put, hchunks.trans hheld, ?_⟩
    rcases hcall with hcall | hcall <;> rw [hcall]
    · exact hs.file
    · exact hs.file.flush
  · rw [hcall]
    exact ⟨_, _, .single .begin, hs.put, hchunks.trans (by simp [hheld]), hs.file⟩
  · rw [hheld] at hchunks
    obtain ⟨b, bs, hq, rfl, hbs⟩ := List.map_eq_cons_iff.1 hchunks
    rw [hcall]
    exact ⟨_, _, .single (.take hq), hs.put, hbs.symm, hs.file.append b⟩
  -- The batches that are erased.
  · rcases herase with hlossy | herase
    · rw [hheld] at hchunks
      obtain ⟨bs, hbs, heq⟩ := List.sublist_map_iff.1 hchunks
      rw [hcall]
      exact ⟨_, _, .single (.drop hlossy hbs), hs.put, heq, hs.file⟩
    · exact absurd (herase hpc) (Nat.not_le.2 hlong)

theorem batched_new (hsteady : ∀ k, fwrites k ≠ 0) :
    (new fwrites ferror).Batched ⟨[], [[]], []⟩ :=
  ⟨rfl, rfl, LogFile.sound_new hsteady, rfl, [], List.prefix_rfl, rfl⟩

/-- Where batches are cut down, the hand-over is lossy. -/
def simulation (lossy : Prop) (hsteady : ∀ k, fwrites k ≠ 0) :
    Simulation (system fwrites ferror) (Batch.system Bytes lossy)
      (fun s e => lossy ∨ s.NoErase e) where
  rel := Batched
  init s hs := by
    rw [Set.mem_singleton_iff.1 hs]
    exact ⟨_, rfl, batched_new hsteady⟩
  step s e s' q hs _ hq hok hst := by
    have hreach : AsyncLogging.system.Reachable s.logger :=
      logger_of_reachable hs.reachable
    have hwf := AsyncLogging.wf_of_reachable hreach
    have hplaced := AsyncLogging.placed_of_reachable hreach
    rcases hst with @⟨msg, logger, h⟩ | @⟨logger, hdone, h⟩ | _
    · exact hq.append hwf hplaced h
    · exact hq.thread hwf hplaced hok hdone h
    · exact ⟨[], q, .nil, hq.put, hq.held, hq.file⟩

/-- At any time of any run, what has been written are messages that were appended, whole and
    in their order, and what has been flushed are the first of them: if the stream takes
    something whenever it is offered something. -/
theorem written_of_reachable (hsteady : ∀ k, fwrites k ≠ 0)
    (hs : (system fwrites ferror).Reachable s) :
    ∃ taken : List Bytes, taken.Sublist s.appended ∧
      s.logfile.file.written = taken.flatten ∧
        ∃ lines, lines <+: taken ∧ s.logfile.durable = lines.flatten := by
  obtain ⟨q, hq, hbatched⟩ := (simulation True hsteady).reachable
    (hs.mono fun _ _ _ => .inl trivial)
  refine ⟨q.taken, ?_, hbatched.file.written, hbatched.file.durable⟩
  have hput : q.put.Sublist s.appended := hbatched.put ▸ records_of_reachable hs
  exact ((List.sublist_append_left _ _).trans (Batch.sublist_of_reachable hq)).trans hput

/-- At any time of any run, what is on the disk are messages that were appended, whole and
    in their order: if the stream takes something whenever it is offered something. -/
theorem lines_of_reachable (hsteady : ∀ k, fwrites k ≠ 0)
    (hs : (system fwrites ferror).Reachable s) :
    ∃ lines : List Bytes, lines.Sublist s.appended ∧ s.logfile.durable = lines.flatten := by
  obtain ⟨taken, htaken, -, lines, hlines, hdurable⟩ := written_of_reachable hsteady hs
  exact ⟨lines, hlines.sublist.trans htaken, hdurable⟩

/-! ## What is flushed -/

/-- Where the logging thread has written nothing since it last flushed the log file. -/
def Between : Pc → Prop
  | .write (_ + 1) | .writeLast (_ + 1) | .recycle => False
  | _ => True

/-- Between two batches, everything written is on the disk. -/
def Flushed (s : Pipeline) : Prop :=
  Between s.logger.pc → s.logfile.durable = s.logfile.file.written

theorem Flushed.append (hs : s.Flushed) {msg : Message} {logger : AsyncLogging}
    (h : s.logger.append msg = .ok logger) : (s.append msg logger).Flushed := by
  have hpc : logger.pc = s.logger.pc := by
    obtain ⟨b, -, rfl | ⟨-, rfl⟩⟩ := AsyncLogging.append_ok h
    · rfl
    · obtain ⟨heap, nextId, heq⟩ := s.logger.advance_eq
      rw [heq]
      rfl
  intro hbetween
  exact hs (hpc ▸ hbetween)

theorem Flushed.thread (hs : s.Flushed) (hdone : s.logger.pc ≠ .done) {logger : AsyncLogging}
    (h : s.logger.thread = .ok logger) : (s.thread logger).Flushed := by
  rw [Flushed] at hs
  -- Nothing is called, and the step starts between two batches.
  have hkeep : Between s.logger.pc → s.logger.call = none → (s.thread logger).Flushed := by
    intro hbetween hcall _
    rw [Pipeline.thread, hcall]
    exact hs hbetween
  -- Or the log file is flushed.
  have hflush : s.logger.call = some .flush → (s.thread logger).Flushed := by
    intro hcall _
    rw [Pipeline.thread, hcall]
    exact List.take_length
  cases AsyncLogging.thread_ok h with
  | start hpc | head hpc | wait hpc | shed hpc | keep hpc | last hpc =>
    exact hkeep (by rw [hpc]; trivial) (by rw [AsyncLogging.call, hpc])
  | rotate htakes =>
    rcases htakes with ⟨hpc, -⟩ | hpc
    · exact hkeep (by rw [hpc]; trivial) (by rw [AsyncLogging.call, hpc])
    · exact hkeep (by rw [hpc]; trivial) (by rw [AsyncLogging.call, hpc])
  | write | written | writeLast => exact False.elim
  | recycle hpc => exact hflush (by rw [AsyncLogging.call, hpc])
  | writtenLast hpc hend => exact hflush (by simp only [AsyncLogging.call, hpc, hend])
  | done hpc => exact absurd hpc hdone

theorem flushed_of_reachable {ok : Pipeline → Event → Prop}
    (hs : (system fwrites ferror).ReachableBy ok s) : s.Flushed := by
  refine hs.invariant (fun s hs => ?_) fun s e s' _ hs _ hst => ?_
  · rw [Set.mem_singleton_iff.1 hs]
    exact fun _ => rfl
  · rcases hst with @⟨msg, logger, h⟩ | @⟨logger, hdone, h⟩ | _
    · exact hs.append h
    · exact hs.thread hdone h
    · exact hs

/-- As long as no batch is cut down, each message copied has been taken by the stream or is
    held by a buffer. -/
theorem batched_of_reachableBy (hsteady : ∀ k, fwrites k ≠ 0)
    (hs : (system fwrites ferror).ReachableBy NoErase s) :
    ∃ q, s.Batched q ∧ q.taken ++ q.batches.flatten = s.records := by
  obtain ⟨q, hq, hbatched⟩ := (simulation False hsteady).reachable (hs.mono fun _ _ => .inr)
  exact ⟨q, hbatched, (Batch.conserved id hq).trans hbatched.put.symm⟩

/-- Between two batches, all but what the buffers still hold has been flushed. -/
theorem records_of_between (hsteady : ∀ k, fwrites k ≠ 0)
    (hs : (system fwrites ferror).ReachableBy NoErase s) (hpc : Between s.logger.pc) :
    s.records.flatten = s.logfile.durable ++ s.logger.held := by
  obtain ⟨q, hbatched, hput⟩ := batched_of_reachableBy hsteady hs
  rw [flushed_of_reachable hs hpc, hbatched.file.written, ← hput, List.flatten_append,
    List.flatten_flatten, ← hbatched.held, AsyncLogging.flatten_unwrittenChunks]

/-- The buffers hold nothing any more when the logging thread has returned. -/
theorem durable_of_done (hsteady : ∀ k, fwrites k ≠ 0)
    (hs : (system fwrites ferror).ReachableBy NoErase s) (hpc : s.logger.pc = .done) :
    s.logfile.durable = s.records.flatten := by
  have hplaced := AsyncLogging.placed_of_reachable (logger_of_reachable hs).reachable
  rw [AsyncLogging.Placed, hpc] at hplaced
  have hheld : s.logger.held = [] := by
    simp [AsyncLogging.held, AsyncLogging.unwritten, AsyncLogging.batchLeft,
      AsyncLogging.ptrsLeft, hpc, hplaced]
  have hrecords := records_of_between hsteady hs (by rw [hpc]; trivial)
  rw [hrecords, hheld, List.append_nil]

/-- As long as no batch is cut down, the first messages copied are on the disk; between two
    batches, all but those that the buffers still hold; and all of them when the logging
    thread has returned. -/
theorem durable_of_reachableBy (hsteady : ∀ k, fwrites k ≠ 0)
    (hs : (system fwrites ferror).ReachableBy NoErase s) :
    (∃ n, s.logfile.durable = (s.records.take n).flatten) ∧
      (Between s.logger.pc → s.records.flatten = s.logfile.durable ++ s.logger.held) ∧
      (s.logger.pc = .done → s.logfile.durable = s.records.flatten) := by
  refine ⟨?_, records_of_between hsteady hs, durable_of_done hsteady hs⟩
  obtain ⟨q, hbatched, hput⟩ := batched_of_reachableBy hsteady hs
  obtain ⟨lines, hlines, hdurable⟩ := hbatched.file.durable
  have hprefix : lines <+: s.records := hput ▸ hlines.trans (List.prefix_append _ _)
  exact ⟨lines.length, hdurable.trans (congrArg _ (List.prefix_iff_eq_take.1 hprefix))⟩

/-! ## A run -/

instance (s : Pipeline) (e : Event) : Decidable (s.NoErase e) :=
  inferInstanceAs (Decidable (s.logger.NoErase e))

/-- A stream that takes one byte at a time, and two messages. The first one is on the disk,
    the second one has been written but not flushed. -/
theorem exists_half_durable : ∃ s, (system (fun _ => 1) false).ReachableBy NoErase s ∧
    s.appended = [bytes "hi\n", bytes "ho\n"] ∧ s.logfile.file.written = bytes "hi\nho\n" ∧
    s.logfile.durable = bytes "hi\n" := by
  obtain ⟨s, hs, hp⟩ := System.exists_reachableBy_of_any step_of_next
    (.init rfl : (system (fun _ => 1) false).ReachableBy NoErase (new (fun _ => 1) false))
    (.append (.append ⟨bytes "hi\n", by decide⟩ :: List.replicate 8 .thread)
      (.append ⟨bytes "ho\n", by decide⟩ :: List.replicate 5 .thread))
    (fun s => decide (s.appended = [bytes "hi\n", bytes "ho\n"]) &&
      decide (s.logfile.file.written = bytes "hi\nho\n") &&
      decide (s.logfile.durable = bytes "hi\n")) (by decide +kernel)
  rw [Bool.and_eq_true, Bool.and_eq_true, decide_eq_true_eq, decide_eq_true_eq,
    decide_eq_true_eq] at hp
  exact ⟨s, hs, hp.1.1, hp.1.2, hp.2⟩

theorem lines_of_reachable_half : ∃ s : Pipeline,
    s.appended = [bytes "hi\n", bytes "ho\n"] ∧ s.logfile.durable = bytes "hi\n" ∧
      ∃ lines : List Bytes, lines.Sublist s.appended ∧ s.logfile.durable = lines.flatten := by
  obtain ⟨s, hs, happended, -, hdurable⟩ := exists_half_durable
  exact ⟨s, happended, hdurable, lines_of_reachable (fun _ => Nat.one_ne_zero) hs.reachable⟩

theorem durable_of_reachableBy_half : ∃ s : Pipeline,
    s.logfile.file.written = bytes "hi\nho\n" ∧ s.logfile.durable = bytes "hi\n" ∧
      (∃ n, s.logfile.durable = (s.records.take n).flatten) ∧
      (Between s.logger.pc → s.records.flatten = s.logfile.durable ++ s.logger.held) ∧
      (s.logger.pc = .done → s.logfile.durable = s.records.flatten) := by
  obtain ⟨s, hs, -, hwritten, hdurable⟩ := exists_half_durable
  exact ⟨s, hwritten, hdurable, durable_of_reachableBy (fun _ => Nat.one_ne_zero) hs⟩

end Pipeline

end Webserver
