import Webserver.Lib.Fifo
import Webserver.Log.AsyncLogging
import Webserver.Log.FileUtil

/-!
# No log byte is lost

The double buffering is a hand-over of bytes from the producers to the log file:
the bytes copied into buffers are put in, those handed to `LogFile::append` are
taken out, and whatever has been put in and not taken out is held by the buffers
not written yet, in the order of `unwritten`.

* `AsyncLogging.moves_of_thread`: what a step of the logging thread does to these buffers.
* `AsyncLogging.refinement`: as long as no batch is cut down to its first
  buffers, every step puts bytes in, takes bytes out, or moves buffers.
* `AsyncLogging.conserved_of_reachableBy`: so no byte is lost, duplicated or
  reordered, and all of them have been written when the logging thread returns.
-/

namespace Webserver

open Transition Pointers

namespace AsyncLogging

/-- The part of the batch that has not been written yet. -/
def batchLeft (s : AsyncLogging) : List (Option BufferId) :=
  match s.pc with
  | .overload => s.buffersWaitToWrite
  | .write i => s.buffersWaitToWrite.drop i
  | _ => []

/-- The part of `bufferPtrs_` that has not been written yet. -/
def ptrsLeft (s : AsyncLogging) : List (Option BufferId) :=
  match s.pc with
  | .writeLast i => s.bufferPtrs.drop i
  | _ => s.bufferPtrs

/-- The buffers that have not been written yet, the oldest first. -/
def unwritten (s : AsyncLogging) : List (Option BufferId) :=
  s.batchLeft ++ s.ptrsLeft ++ [s.currentBuffer]

/-- The bytes that have not been written yet. -/
def held (s : AsyncLogging) : Bytes := contents s.heap s.unwritten

/-- The bytes of each of them. -/
def unwrittenChunks (s : AsyncLogging) : List Bytes := chunks s.heap s.unwritten

/-- The steps that do not cut a batch down. -/
def NoErase (s : AsyncLogging) : Event → Prop
  | .thread => s.pc = .overload → s.bufferPtrs.length ≤ 25
  | _ => True

/-- The logger as a hand-over of bytes. -/
def handOver (s : AsyncLogging) : Fifo.State UInt8 := ⟨s.copied, s.held, s.logfile⟩

section Steps

variable {s s' : AsyncLogging}

theorem left_subset (s : AsyncLogging) :
    s.batchLeft ++ s.ptrsLeft ⊆ s.bufferPtrs ++ s.buffersWaitToWrite := by
  have hbatch : s.batchLeft ⊆ s.buffersWaitToWrite := by
    rw [batchLeft]
    split
    · exact List.Subset.refl _
    · exact List.drop_subset _ _
    · exact List.nil_subset _
  have hptrs : s.ptrsLeft ⊆ s.bufferPtrs := by
    rw [ptrsLeft]
    split
    · exact List.drop_subset _ _
    · exact List.Subset.refl _
  exact List.append_subset.2 ⟨List.subset_append_of_subset_right _ hbatch,
    List.subset_append_of_subset_left _ hptrs⟩

theorem unwritten_subset (s : AsyncLogging) : s.unwritten ⊆ s.pointers := by
  intro p hp
  rw [unwritten, List.mem_append, List.mem_singleton] at hp
  rcases hp with hp | rfl
  · simp only [pointers, List.mem_cons, s.left_subset hp, or_true]
  · exact List.mem_cons_self

/-- The buffers not written yet hold the bytes. -/
theorem flatten_unwrittenChunks (s : AsyncLogging) : s.unwrittenChunks.flatten = s.held :=
  flatten_chunks _ _

/-- A message goes to the end of the last buffer. -/
theorem unwrittenChunks_fill (hs : s.Wf) {b : BufferId} (hb : s.currentBuffer = some b)
    (msg : Message) : ∃ cs, s.unwrittenChunks = cs ++ [s.heap b] ∧
      (s.fill b msg).unwrittenChunks = cs ++ [FixedBuffer.append (s.heap b) msg.bytes] := by
  -- The current buffer is the last one held, and no other one holds the message.
  have hleft : some b ∉ s.batchLeft ++ s.ptrsLeft := by
    intro hmem
    have hmem := s.left_subset hmem
    obtain ⟨-, hfull, hbatch⟩ := hs.notMem_current hb
    rcases List.mem_append.1 hmem with hmem | hmem
    · exact hfull hmem
    · exact hbatch hmem
  have hunwritten : (s.fill b msg).unwritten = s.batchLeft ++ s.ptrsLeft ++ [some b] := by
    rw [← hb]
    rfl
  have hframe : chunks (s.fill b msg).heap (s.batchLeft ++ s.ptrsLeft) =
      chunks s.heap (s.batchLeft ++ s.ptrsLeft) := chunks_update hleft _
  refine ⟨chunks s.heap (s.batchLeft ++ s.ptrsLeft), ?_, ?_⟩
  · rw [unwrittenChunks, unwritten, hb, chunks_append _ (_ ++ _)]
    rfl
  · rw [unwrittenChunks, hunwritten, chunks_append _ (_ ++ _), hframe]
    simp [fill_heap_self]

/-- Putting the current buffer away leaves an empty one in its place. -/
theorem unwrittenChunks_advance (hs : s.Wf) (hplaced : s.Placed)
    (hcurrent : s.currentBuffer ≠ none) :
    s.advance.2.unwrittenChunks = s.unwrittenChunks ++ [[]] := by
  obtain ⟨hwf, hb, hempty, hframe⟩ := hs.advance
  have hunwritten : s.advance.2.unwritten = s.unwritten ++ [some s.advance.1] := by
    obtain ⟨heap, nextId, heq⟩ := s.advance_eq
    have hptrs : s.ptrsLeft = s.bufferPtrs ∧
        s.advance.2.ptrsLeft = s.bufferPtrs ++ [s.currentBuffer] := by
      rw [heq, ptrsLeft, ptrsLeft]
      split
      · next hpc =>
        rw [Placed, hpc] at hplaced
        exact absurd hplaced hcurrent
      · exact ⟨rfl, rfl⟩
    rw [unwritten, unwritten, hptrs.1, hptrs.2, hb, heq]
    simp [batchLeft]
  have hold : chunks s.advance.2.heap s.unwritten = s.unwrittenChunks := by
    refine List.map_congr_left fun p hp => ?_
    simpa using hframe [p] (List.forall_mem_singleton.2 (s.unwritten_subset hp))
  rw [unwrittenChunks, hunwritten, chunks_append, hold]
  simp [hempty]

/-- What a producer does to the buffers not written yet: what is copied of its message
    goes to the end of the last one, or of a new one. -/
theorem puts_of_append (hs : s.Wf) (hplaced : s.Placed) {msg : Message}
    (h : s.append msg = .ok s') : ∃ cs c,
      (s.unwrittenChunks = cs ++ [c] ∨ s.unwrittenChunks = cs ∧ c = []) ∧
        s'.unwrittenChunks = cs ++ [FixedBuffer.append c msg.bytes] ∧
        s'.copied = s.copied ++ FixedBuffer.fits c msg.bytes ∧ s'.logfile = s.logfile := by
  obtain ⟨b, hb, rfl | ⟨-, rfl⟩⟩ := append_ok h
  · obtain ⟨cs, hchunks, hfill⟩ := unwrittenChunks_fill hs hb msg
    exact ⟨cs, s.heap b, .inl hchunks, hfill, rfl, rfl⟩
  · obtain ⟨hwf, hcurrent, hempty, -⟩ := hs.advance
    obtain ⟨cs, hchunks, hfill⟩ := unwrittenChunks_fill hwf hcurrent msg
    have hadvance := unwrittenChunks_advance hs hplaced (by rw [hb]; exact Option.some_ne_none b)
    obtain ⟨hcs, -⟩ := List.append_inj' (hadvance.symm.trans hchunks) rfl
    obtain ⟨heap, nextId, heq⟩ := s.advance_eq
    refine ⟨cs, _, .inr ⟨hcs, hempty⟩, hfill, ?_, ?_⟩
    · simp only [fill, heq]
    · simp only [fill, heq]

/-- A message is put in, as far as it is copied. -/
theorem handOver_append (hs : s.Wf) (hplaced : s.Placed) {msg : Message}
    (h : s.append msg = .ok s') : ∃ es, (Fifo.system UInt8).Steps s.handOver es s'.handOver := by
  obtain ⟨cs, c, hbefore, hafter, hcopied, hlogfile⟩ := puts_of_append hs hplaced h
  refine Fifo.steps_put hcopied ?_ hlogfile
  simp only [handOver, ← flatten_unwrittenChunks, hafter]
  rcases hbefore with hbefore | ⟨hbefore, rfl⟩ <;> simp [hbefore, FixedBuffer.append]

/-! ## What the logging thread does -/

/-- What the logging thread calls `logfile_` for in its next step. -/
def call (s : AsyncLogging) : Option LogFile.Call :=
  match s.pc with
  | .write i =>
    match s.buffersWaitToWrite[i]? with
    | some (some b) => some (.append (s.heap b))
    | _ => none
  | .recycle => some .flush
  | .writeLast i =>
    match s.bufferPtrs[i]? with
    | some (some b) => some (.append (s.heap b))
    | some none => none
    | none => some .flush
  | _ => none

/-- What a step of the logging thread does to the buffers not written yet: it moves them,
    puts an empty one behind them, writes the first one or cuts the batch down. -/
inductive Moves (s s' : AsyncLogging) : Prop
  | keep : s'.unwrittenChunks = s.unwrittenChunks → s'.logfile = s.logfile →
      s.call = none ∨ s.call = some .flush → Moves s s'
  | begin : s'.unwrittenChunks = s.unwrittenChunks ++ [[]] → s'.logfile = s.logfile →
      s.call = none → Moves s s'
  | write {c : Bytes} : s.unwrittenChunks = c :: s'.unwrittenChunks →
      s'.logfile = s.logfile ++ c → s.call = some (.append c) → Moves s s'
  | shed : s.pc = .overload → s.bufferPtrs.length > 25 →
      s'.unwrittenChunks.Sublist s.unwrittenChunks → s'.logfile = s.logfile →
      s.call = none → Moves s s'

/-- The buffers emptied when the logging thread starts are new ones. -/
theorem unwrittenChunks_start (hs : s.Wf) (hpc : s.pc = .start) (h : s.thread = .ok s') :
    s'.unwrittenChunks = s.unwrittenChunks := by
  have hnew : ∀ b, s.nextId ≤ b → some b ∉ s.unwritten := fun b hb hmem =>
    absurd (hs.lt_nextId b (s.unwritten_subset hmem)) (Nat.not_lt.2 hb)
  rw [thread, hpc] at h
  cases h
  have hunwritten : s.unwritten = s.bufferPtrs ++ [s.currentBuffer] := by
    simp [unwritten, batchLeft, ptrsLeft, hpc]
  have hold : chunks (Function.update (Function.update s.heap s.nextId []) (s.nextId + 1) [])
      s.unwritten = s.unwrittenChunks := by
    rw [chunks_update (hnew _ (Nat.le_succ _)), chunks_update (hnew _ le_rfl)]
    rfl
  rw [← hold, hunwritten]
  rfl

/-- The current buffer is taken away with the full ones, and an empty one replaces it. -/
theorem unwrittenChunks_rotate (hs : s.Wf) (hplaced : s.Placed)
    (hpc : s.pc = .lock ∨ s.pc = .waiting) :
    s.rotate.unwrittenChunks = s.unwrittenChunks ++ [[]] := by
  obtain ⟨nextBuffer, newBuffer2, heq⟩ := s.rotate_eq
  have hbatch : s.buffersWaitToWrite = [] := by
    rw [Placed] at hplaced
    rcases hpc with hpc | hpc <;> rwa [hpc] at hplaced
  -- `newBuffer1` becomes current, and is empty.
  have hspare : s.newBuffer1.elim [] s.heap = [] := by
    have hspare := hs.spare
    simp only [spares, contents_cons, List.append_eq_nil_iff] at hspare
    exact hspare.2.1
  have hunwritten : s.unwritten = s.bufferPtrs ++ [s.currentBuffer] := by
    rcases hpc with hpc | hpc <;> simp [unwritten, batchLeft, ptrsLeft, hpc]
  rw [heq, hbatch]
  simp only [unwrittenChunks, hunwritten]
  simp [unwritten, batchLeft, ptrsLeft, hspare]

/-- What is emptied has been written: it is in the batch, and nowhere else. -/
theorem unwrittenChunks_recycle (hs : s.Wf) (hpc : s.pc = .recycle) (h : s.recycle = .ok s') :
    s'.unwrittenChunks = s.unwrittenChunks := by
  have hunwritten : s.unwritten = s.bufferPtrs ++ [s.currentBuffer] := by
    simp [unwritten, batchLeft, ptrsLeft, hpc]
  obtain ⟨-, ⟨-, rfl⟩ | ⟨b, -, hb, rfl⟩⟩ := recycle_ok h
  · simp only [unwrittenChunks, hunwritten]
    rfl
  · have hnotMem : some b ∉ s.bufferPtrs ++ [s.currentBuffer] := by
      intro hmem
      have hunique := hs.unique b
      have hcount := List.count_pos_iff.2 hmem
      have hpos := List.count_pos_iff.2 hb
      simp only [pointers, List.count_cons, List.count_append, List.count_nil] at hunique hcount
      omega
    simp only [unwrittenChunks, hunwritten]
    rw [← chunks_update hnotMem []]
    rfl

theorem logfile_recycle (h : s.recycle = .ok s') : s'.logfile = s.logfile := by
  obtain ⟨-, ⟨-, rfl⟩ | ⟨b, -, hb, rfl⟩⟩ := recycle_ok h <;> rfl

/-- The logging thread copies nothing. -/
theorem copied_of_thread (h : s.thread = .ok s') : s'.copied = s.copied := by
  cases thread_ok h with
  | rotate =>
    obtain ⟨nextBuffer, newBuffer2, heq⟩ := s.rotate_eq
    rw [heq]
  | recycle hpc hrecycle => obtain ⟨-, ⟨-, rfl⟩ | ⟨b, -, -, rfl⟩⟩ := recycle_ok hrecycle <;> rfl
  | start | head | wait | shed | keep | write | written | last | writeLast | writtenLast | done =>
    rfl

theorem moves_of_thread (hs : s.Wf) (hplaced : s.Placed) (hdone : s.pc ≠ .done)
    (h : s.thread = .ok s') : s.Moves s' := by
  cases thread_ok h with
  | start hpc => exact .keep (unwrittenChunks_start hs hpc h) rfl (.inl (by simp [call, hpc]))
  | head hpc =>
    refine .keep ?_ rfl (.inl (by simp [call, hpc]))
    by_cases hrunning : s.running <;>
      simp [unwrittenChunks, unwritten, batchLeft, ptrsLeft, hpc, hrunning]
  | rotate htakes =>
    have hpc : s.pc = .lock ∨ s.pc = .waiting := htakes.imp_left And.left
    obtain ⟨nextBuffer, newBuffer2, heq⟩ := s.rotate_eq
    refine .begin (unwrittenChunks_rotate hs hplaced hpc) (by rw [heq]) ?_
    rcases hpc with hpc | hpc <;> rw [call, hpc]
  | shed hpc hlong =>
    refine .shed hpc hlong ?_ rfl (by rw [call, hpc])
    refine List.Sublist.map _ ?_
    simp only [unwritten, batchLeft, ptrsLeft, hpc]
    exact ((List.take_sublist 2 _).append_right _).append_right _
  | wait hpc | keep hpc =>
    refine .keep ?_ rfl (.inl (by simp [call, hpc]))
    simp [unwrittenChunks, unwritten, batchLeft, ptrsLeft, hpc]
  | write hpc hp | writeLast hpc hp =>
    obtain ⟨hlt, hb⟩ := List.getElem?_eq_some_iff.1 hp
    refine .write ?_ rfl (by simp only [call, hpc, hp])
    simp only [unwrittenChunks, unwritten, batchLeft, ptrsLeft, hpc]
    rw [List.drop_eq_getElem_cons hlt, hb]
    rfl
  | written hpc hend =>
    refine .keep ?_ rfl (.inl (by simp only [call, hpc, hend]))
    simp [unwrittenChunks, unwritten, batchLeft, ptrsLeft, hpc,
      List.drop_eq_nil_of_le (List.getElem?_eq_none_iff.1 hend)]
  | writtenLast hpc hend =>
    refine .keep ?_ rfl (.inr (by simp only [call, hpc, hend]))
    simp [unwrittenChunks, unwritten, batchLeft, ptrsLeft, hpc,
      List.drop_eq_nil_of_le (List.getElem?_eq_none_iff.1 hend)]
  | recycle hpc hrecycle =>
    exact .keep (unwrittenChunks_recycle hs hpc hrecycle) (logfile_recycle hrecycle)
      (.inr (by rw [call, hpc]))
  | last hpc =>
    refine .begin ?_ rfl (by rw [call, hpc])
    simp [unwrittenChunks, unwritten, batchLeft, ptrsLeft, putAway, hpc]
  | done hpc => exact absurd hpc hdone

/-- Every step of the logging thread takes bytes out, or moves buffers. -/
theorem handOver_thread (hs : s.Wf) (hplaced : s.Placed)
    (herase : s.pc = .overload → s.bufferPtrs.length ≤ 25) (hdone : s.pc ≠ .done)
    (h : s.thread = .ok s') : ∃ es, (Fifo.system UInt8).Steps s.handOver es s'.handOver := by
  have hcopied := copied_of_thread h
  rcases moves_of_thread hs hplaced hdone h with ⟨hchunks, hlogfile, -⟩ |
    ⟨hchunks, hlogfile, -⟩ | @⟨c, hchunks, hlogfile, -⟩ | ⟨hpc, hlong, -, -, -⟩
  · refine Fifo.steps_keep ?_
    rw [handOver, handOver, hcopied, hlogfile, ← flatten_unwrittenChunks, hchunks,
      flatten_unwrittenChunks]
  · refine Fifo.steps_keep ?_
    rw [handOver, handOver, hcopied, hlogfile, ← flatten_unwrittenChunks, hchunks,
      List.flatten_append, flatten_unwrittenChunks]
    simp
  · refine Fifo.steps_take hcopied ?_ hlogfile
    simp only [handOver, ← flatten_unwrittenChunks, hchunks, List.flatten_cons]
  -- Nothing is erased.
  · exact absurd (herase hpc) (Nat.not_le.2 hlong)

end Steps

/-- The double buffering refines the hand-over of bytes. -/
def refinement : Refinement system (Fifo.system UInt8) NoErase where
  abs := handOver
  init s hs := by
    rw [Set.mem_singleton_iff.1 hs]
    rfl
  step s e s' hs hok hst := by
    have hwf := wf_of_reachable hs.reachable
    have hplaced := placed_of_reachable hs.reachable
    cases hst with
    | append h => exact handOver_append hwf hplaced h
    | thread hdone h => exact handOver_thread hwf hplaced hok hdone h
    | stop => exact Fifo.steps_keep rfl

/-- What has been handed to the log file, followed by what the buffers not
    written yet hold, is what has been copied into buffers; once the logging
    thread has returned, the log file has received all of it. -/
theorem conserved_of_reachableBy {s : AsyncLogging} (hs : system.ReachableBy NoErase s) :
    s.logfile ++ contents s.heap (s.batchLeft ++ s.ptrsLeft ++ [s.currentBuffer]) = s.copied ∧
      (s.pc = .done → s.logfile = s.copied) := by
  have hreach := refinement.reachable hs
  refine ⟨Fifo.conserved hreach, fun hpc => Fifo.taken_eq_put hreach ?_⟩
  have hplaced := placed_of_reachable hs.reachable
  rw [Placed, hpc] at hplaced
  change s.held = []
  simp [held, unwritten, batchLeft, ptrsLeft, hpc, hplaced]

instance (s : AsyncLogging) : (e : Event) → Decidable (s.NoErase e)
  | .append _ | .stop => isTrue trivial
  | .thread => inferInstanceAs (Decidable (_ → _))

/-- Two messages, the second of them appended while the first one is being
    written, and then `stop`. -/
theorem conserved_of_reachableBy_stop :
    ∃ s : AsyncLogging, s.pc = .done ∧ s.copied = bytes "hi ho" ∧
      s.logfile ++ contents s.heap (s.batchLeft ++ s.ptrsLeft ++ [s.currentBuffer]) = s.copied ∧
      (s.pc = .done → s.logfile = s.copied) := by
  obtain ⟨s, hs, hp⟩ := System.exists_reachableBy_of_any step_of_next
    (.init rfl : system.ReachableBy NoErase new)
    (.append (.append ⟨bytes "hi ", by decide⟩ :: List.replicate 5 .thread)
      (.append ⟨bytes "ho", by decide⟩ :: .stop :: List.replicate 7 .thread))
    (fun s => decide (s.pc = .done) && decide (s.copied = bytes "hi ho")) (by decide +kernel)
  rw [Bool.and_eq_true, decide_eq_true_eq, decide_eq_true_eq] at hp
  exact ⟨s, hp.1, hp.2, conserved_of_reachableBy hs⟩

end AsyncLogging

end Webserver
