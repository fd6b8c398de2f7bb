import Webserver.Log.AsyncLogging

/-!
# The rotation of buffers

Four buffers circulate between the producers and the logging thread: the current
one, its spare `nextBuffer`, and the two that the logging thread gives in
exchange for what it takes away. This file is about the pointers to them being
null or not.

* `AsyncLogging.rotates_of_reachableBy`: before `stop`, no null pointer is met in
  the runs where the logging thread always finds `nextBuffer` unconsumed when it
  takes the full buffers away.
* `AsyncLogging.recycle_of_newBuffer2`: where it gives `newBuffer2` away, the
  process does not survive the end of the batch, as recycling refills
  `newBuffer1` twice and then resets `newBuffer2`, which is still null.
* `AsyncLogging.not_rotates_overrun`: two messages that do not fit in one buffer
  are enough for that.
-/

namespace Webserver

open Transition Pointers

namespace AsyncLogging

/-- The pointers other than `nextBuffer`. -/
def others (s : AsyncLogging) : List (Option BufferId) :=
  s.currentBuffer :: s.newBuffer1 :: s.newBuffer2 :: (s.bufferPtrs ++ s.buffersWaitToWrite)

/-- The pointers are as the rotation of buffers wants them, and the next step of
    the logging thread meets no null one. -/
structure Rotates (s : AsyncLogging) : Prop where
  current : s.currentBuffer ≠ none
  head : s.pc = .head → ∃ b₁ b₂, s.newBuffer1 = some b₁ ∧ s.newBuffer2 = some b₂ ∧ b₁ ≠ b₂ ∧
    s.heap b₁ = [] ∧ s.heap b₂ = []
  next : ∀ b, s.nextBuffer = some b → s.heap b = [] ∧ some b ∉ s.others
  next_none : s.nextBuffer = none → s.bufferPtrs ≠ []
  deref : s.thread ≠ .error .nullDereference
  assert : s.thread ≠ .error .assertFailed

/-- The logging thread is about to take the full buffers away. -/
def Takes (s : AsyncLogging) : Prop := s.pc = .lock ∧ s.bufferPtrs ≠ [] ∨ s.pc = .waiting

/-- The steps before `stop`, where `nextBuffer` is not consumed when the full
    buffers are taken away. -/
def SpareLeft (s : AsyncLogging) : Event → Prop
  | .append _ => True
  | .thread => s.Takes → s.nextBuffer ≠ none
  | .stop => False

/-! ## Which pointers are null -/

/-- What the logging thread has, wherever it is in its loop: both of its buffers
    before it takes the full ones, then the second of them and a batch. -/
def Phase (s : AsyncLogging) : Prop :=
  match s.pc with
  | .start => True
  | .head | .lock | .waiting => s.newBuffer1 ≠ none ∧ s.newBuffer2 ≠ none
  | .overload | .write _ | .recycle => s.newBuffer2 ≠ none ∧ s.buffersWaitToWrite ≠ []
  | .last | .writeLast _ | .done => False

/-- The invariant of the runs where `nextBuffer` is not consumed. -/
structure Circulates (s : AsyncLogging) : Prop where
  wf : s.Wf
  running : s.running = true
  current : s.currentBuffer ≠ none
  next : s.nextBuffer = none → s.bufferPtrs ≠ []
  full : none ∉ s.bufferPtrs
  batch : none ∉ s.buffersWaitToWrite
  phase : s.Phase

theorem circulates_new : new.Circulates :=
  ⟨wf_new, rfl, by simp [new], by simp [new], by simp [new], by simp [new], trivial⟩

section Circulates

variable {s s' : AsyncLogging}

theorem Circulates.append (hs : s.Circulates) {msg : Message} (h : s.append msg = .ok s') :
    s'.Circulates := by
  have hwf := hs.wf.append h
  obtain ⟨b, -, rfl | ⟨-, rfl⟩⟩ := append_ok h
  · exact ⟨hwf, hs.running, hs.current, hs.next, hs.full, hs.batch, hs.phase⟩
  · have hfull : none ∉ s.bufferPtrs ++ [s.currentBuffer] := by
      rw [List.mem_append, List.mem_singleton, not_or]
      exact ⟨hs.full, hs.current.symm⟩
    obtain ⟨heap, nextId, heq⟩ := s.advance_eq
    rw [heq] at hwf ⊢
    exact ⟨hwf, hs.running, Option.some_ne_none _, fun _ => List.concat_ne_nil _ _, hfull,
      hs.batch, hs.phase⟩

/-- Taking the full buffers away, where `nextBuffer` is not consumed. -/
theorem Circulates.rotate (hs : s.Circulates) (hnew₁ : s.newBuffer1 ≠ none)
    (hnew₂ : s.newBuffer2 ≠ none) (hnext : s.nextBuffer ≠ none) : s.rotate.Circulates := by
  have hwf := hs.wf.rotate
  rw [AsyncLogging.rotate, if_neg hnext] at hwf ⊢
  refine ⟨hwf, hs.running, hnew₁, fun h => absurd h hnext, hs.batch, ?_, hnew₂,
    List.concat_ne_nil _ _⟩
  rw [List.mem_append, List.mem_singleton, not_or]
  exact ⟨hs.full, hs.current.symm⟩

/-- Recycling meets no null pointer where `newBuffer2` has a buffer and the batch
    is not empty. -/
theorem exists_recycle (hnew₂ : s.newBuffer2 ≠ none) (hbatch : none ∉ s.buffersWaitToWrite)
    (hne : s.buffersWaitToWrite ≠ []) : ∃ s', s.recycle = .ok s' := by
  have htake : s.buffersWaitToWrite.take 2 ≠ [] := by simpa using hne
  -- The batch has a last buffer to refill `newBuffer1` from, and it is not null.
  obtain ⟨p, hp⟩ := Option.ne_none_iff_exists'.1 (mt List.getLast?_eq_none_iff.1 htake)
  have hmem := List.mem_of_mem_take (List.mem_of_getLast? hp)
  obtain ⟨b, rfl⟩ : ∃ b, p = some b :=
    Option.ne_none_iff_exists'.1 (by rintro rfl; exact hbatch hmem)
  simp only [AsyncLogging.recycle, refill1, refill2, hp, bind, Except.bind]
  by_cases hnew₁ : s.newBuffer1 = none <;> simp [hnew₁, hnew₂]

theorem refill1_error {f : Fault} (h : s.refill1 = .error f) :
    f = .nullDereference ∨ f = .assertFailed := by
  rw [refill1] at h
  split at h
  · split at h <;> cases h <;> simp
  · cases h

theorem refill2_error {f : Fault} (h : s.refill2 = .error f) :
    f = .nullDereference ∨ f = .assertFailed := by
  rw [refill2] at h
  split at h
  · next hnone =>
    split at h
    · cases h
      simp
    · simp only [hnone] at h
      cases h
      simp
  · cases h

/-- Where `newBuffer2` has no buffer, it does. -/
theorem recycle_of_newBuffer2 (h : s.newBuffer2 = none) :
    s.recycle = .error .nullDereference ∨ s.recycle = .error .assertFailed := by
  cases hrecycle : s.recycle with
  | ok s' => exact absurd h (recycle_ok hrecycle).1
  | error f =>
    rw [AsyncLogging.recycle] at hrecycle
    rcases error_or_of_bind_eq_error hrecycle with h₁ | ⟨s₁, -, hrecycle⟩
    · simpa using refill1_error h₁
    rcases error_or_of_bind_eq_error hrecycle with h₂ | ⟨s₂, -, hrecycle⟩
    · simpa using refill2_error h₂
    · cases hrecycle

theorem Circulates.recycle (hs : s.Circulates) (h : s.recycle = .ok s') : s'.Circulates := by
  have hwf := hs.wf.recycle h
  obtain ⟨hnew₂, ⟨hnew₁, rfl⟩ | ⟨b, -, -, rfl⟩⟩ := recycle_ok h
  · exact ⟨hwf, hs.running, hs.current, hs.next, hs.full, List.not_mem_nil, hnew₁, hnew₂⟩
  · exact ⟨hwf, hs.running, hs.current, hs.next, hs.full, List.not_mem_nil,
      Option.some_ne_none b, hnew₂⟩

/-- The logging thread keeps the invariant, where `nextBuffer` is not consumed
    when it takes the full buffers away. -/
theorem Circulates.thread (hs : s.Circulates) (hspare : s.Takes → s.nextBuffer ≠ none)
    (h : s.thread = .ok s') : s'.Circulates := by
  have hwf := hs.wf.thread h
  have hphase := hs.phase
  rw [Phase] at hphase
  cases thread_ok h with
  | start =>
    exact ⟨hwf, hs.running, hs.current, hs.next, hs.full, hs.batch, Option.some_ne_none _,
      Option.some_ne_none _⟩
  -- Before `stop` the loop goes on, so that `last` is not reached.
  | head hpc =>
    rw [hpc] at hphase
    rw [if_pos hs.running] at hwf ⊢
    exact ⟨hwf, hs.running, hs.current, hs.next, hs.full, hs.batch, hphase⟩
  | wait hpc =>
    rw [hpc] at hphase
    exact ⟨hwf, hs.running, hs.current, hs.next, hs.full, hs.batch, hphase⟩
  | rotate htakes =>
    have hnew : s.newBuffer1 ≠ none ∧ s.newBuffer2 ≠ none := by
      rcases htakes with ⟨hpc, -⟩ | hpc <;> rwa [hpc] at hphase
    exact hs.rotate hnew.1 hnew.2 (hspare htakes)
  | shed hpc =>
    rw [hpc] at hphase
    refine ⟨hwf, hs.running, hs.current, hs.next, hs.full,
      fun hmem => hs.batch (List.mem_of_mem_take hmem), hphase.1, ?_⟩
    simpa using hphase.2
  | keep hpc | write hpc | written hpc =>
    rw [hpc] at hphase
    exact ⟨hwf, hs.running, hs.current, hs.next, hs.full, hs.batch, hphase⟩
  | recycle hpc hrecycle => exact hs.recycle hrecycle
  | last hpc | writeLast hpc | writtenLast hpc | done hpc =>
    rw [hpc] at hphase
    exact hphase.elim

/-- What the logging thread does under the invariant goes well, unless the vector
    erased from is too short. -/
theorem Circulates.exists_thread (hs : s.Circulates) :
    (∃ s', s.thread = .ok s') ∨ s.thread = .error .invalidRange := by
  have hphase := hs.phase
  cases hpc : s.pc with
  | start | head | lock | waiting => exact .inl ⟨_, by rw [AsyncLogging.thread, hpc]⟩
  | overload =>
    simp only [AsyncLogging.thread, hpc]
    split
    · split
      · exact .inr rfl
      · exact .inl ⟨_, rfl⟩
    · exact .inl ⟨_, rfl⟩
  | write i =>
    simp only [AsyncLogging.thread, hpc]
    split
    · exact .inl ⟨_, rfl⟩
    · next p hp =>
      cases p with
      | none => exact absurd (List.mem_of_getElem? hp) hs.batch
      | some b => exact .inl ⟨_, rfl⟩
  | recycle =>
    rw [Phase, hpc] at hphase
    rw [AsyncLogging.thread, hpc]
    exact .inl (exists_recycle hphase.1 hs.batch hphase.2)
  | last | writeLast i | done =>
    rw [Phase, hpc] at hphase
    exact hphase.elim

theorem circulates_of_reachableBy (hs : system.ReachableBy SpareLeft s) : s.Circulates := by
  refine hs.invariant (fun s hs => ?_) fun s e s' _ hs hok hst => ?_
  · rw [Set.mem_singleton_iff.1 hs]
    exact circulates_new
  · cases hst with
    | append h => exact hs.append h
    | thread _ h => exact hs.thread hok h
    | stop => exact hok.elim

/-- The pointers are as they should be, and the next step meets no null one. -/
theorem Circulates.rotates (hs : s.Circulates) : s.Rotates := by
  refine ⟨hs.current, fun hpc => ?_, fun b hb => ?_, hs.next, ?_, ?_⟩
  · have hphase := hs.phase
    rw [Phase, hpc] at hphase
    obtain ⟨b₁, hb₁⟩ := Option.ne_none_iff_exists'.1 hphase.1
    obtain ⟨b₂, hb₂⟩ := Option.ne_none_iff_exists'.1 hphase.2
    refine ⟨b₁, b₂, hb₁, hb₂, ?_, eq_nil_of_contents hs.wf.spare (by simp [spares, hb₁]),
      eq_nil_of_contents hs.wf.spare (by simp [spares, hb₂])⟩
    rintro rfl
    have hunique := hs.wf.unique b₁
    rw [pointers, hb₁, hb₂] at hunique
    simp only [List.count_cons, beq_self_eq_true, if_true] at hunique
    omega
  · refine ⟨eq_nil_of_contents hs.wf.spare (by simp [spares, hb]), fun hmem => ?_⟩
    have hunique := hs.wf.unique b
    have hcount := List.count_pos_iff.2 hmem
    simp only [pointers, others, hb, List.count_cons, beq_self_eq_true, if_true] at hunique hcount
    omega
  · rcases hs.exists_thread with ⟨s', h⟩ | h <;> simp [h]
  · rcases hs.exists_thread with ⟨s', h⟩ | h <;> simp [h]

/-- Before `stop`, no null pointer is met in the runs where the logging thread
    finds `nextBuffer` unconsumed whenever it takes the full buffers away. -/
theorem rotates_of_reachableBy (hs : system.ReachableBy SpareLeft s) : s.Rotates :=
  (circulates_of_reachableBy hs).rotates

end Circulates

instance (s : AsyncLogging) : Decidable s.Takes := inferInstanceAs (Decidable (_ ∨ _))

instance (s : AsyncLogging) : (e : Event) → Decidable (s.SpareLeft e)
  | .append _ => isTrue trivial
  | .thread => inferInstanceAs (Decidable (_ → _))
  | .stop => isFalse id

/-- The logging thread has come round its loop once, with a message. -/
theorem rotates_of_reachableBy_once :
    ∃ s : AsyncLogging, s.pc = .head ∧ s.logfile = bytes "hi" ∧ s.Rotates := by
  obtain ⟨s, hs, hp⟩ := System.exists_reachableBy_of_any step_of_next
    (.init rfl : system.ReachableBy SpareLeft new)
    (.append ⟨bytes "hi", by decide⟩ :: List.replicate 8 .thread)
    (fun s => decide (s.pc = .head) && decide (s.logfile = bytes "hi")) (by decide +kernel)
  rw [Bool.and_eq_true, decide_eq_true_eq, decide_eq_true_eq] at hp
  exact ⟨s, hp.1, hp.2, rotates_of_reachableBy hs⟩

/-! ## Where `nextBuffer` has been consumed -/

section Overrun

variable {s : AsyncLogging} {ok : AsyncLogging → Event → Prop}

/-- The logging thread writes the rest of its batch. -/
theorem exists_recycle_of_write (hok : ∀ s, ok s .thread) {i : ℕ}
    (hs : system.ReachableBy ok s) (hpc : s.pc = .write i) (hbatch : none ∉ s.buffersWaitToWrite)
    (hnew₂ : s.newBuffer2 = none) :
    ∃ s', system.ReachableBy ok s' ∧ s'.pc = .recycle ∧ s'.newBuffer2 = none := by
  -- By induction on what is left of the batch.
  induction hn : s.buffersWaitToWrite.length - i generalizing s i with
  | zero =>
    refine ⟨{ s with pc := .recycle }, .step hs (hok s) (.thread (by simp [hpc]) ?_), rfl, hnew₂⟩
    rw [AsyncLogging.thread, hpc]
    simp [List.getElem?_eq_none (Nat.le_of_sub_eq_zero hn)]
  | succ n ih =>
    have hlt : i < s.buffersWaitToWrite.length := by omega
    obtain ⟨b, hb⟩ : ∃ b, s.buffersWaitToWrite[i] = some b := by
      refine Option.ne_none_iff_exists'.1 fun hnone => hbatch ?_
      rw [← hnone]
      exact List.getElem_mem hlt
    have hthread : s.thread =
        .ok { s with pc := .write (i + 1), logfile := s.logfile ++ s.heap b } := by
      rw [AsyncLogging.thread, hpc]
      simp [List.getElem?_eq_getElem hlt, hb, write]
    refine ih (.step hs (hok s) (.thread (by simp [hpc]) hthread)) rfl hbatch hnew₂ ?_
    simp only
    omega

/-- From a state where the logging thread is about to take the full buffers away
    and `nextBuffer` has been consumed, it goes on to meet a null pointer. -/
theorem exists_not_rotates (hok : ∀ s, ok s .thread) (hs : system.ReachableBy ok s)
    (hcirc : s.Circulates) (htakes : s.Takes) (hnext : s.nextBuffer = none) :
    ∃ s', system.ReachableBy ok s' ∧ ¬s'.Rotates := by
  have hplaced := placed_of_reachable hs.reachable
  have hbatch : s.buffersWaitToWrite = [] := by
    rw [Placed] at hplaced
    rcases htakes with ⟨hpc, -⟩ | hpc <;> rwa [hpc] at hplaced
  have hrotate : s.thread = .ok s.rotate := by
    rw [AsyncLogging.thread]
    rcases htakes with ⟨hpc, hfull⟩ | hpc
    · simp only [hpc, if_neg hfull]
    · rw [hpc]
  have hdone : s.pc ≠ .done := by
    rcases htakes with ⟨hpc, -⟩ | hpc <;> simp [hpc]
  have hs₁ := hs.step (hok s) (Step.thread hdone hrotate)
  -- `newBuffer2` replaces `nextBuffer`. The batch is new, so nothing is erased from it.
  rw [AsyncLogging.rotate, hbatch, if_pos hnext] at hs₁
  have hs₂ := hs₁.step (hok _) (Step.thread (by simp) rfl)
  have hfull : none ∉ s.bufferPtrs ++ [s.currentBuffer] := by
    rw [List.mem_append, List.mem_singleton, not_or]
    exact ⟨hcirc.full, hcirc.current.symm⟩
  obtain ⟨s', hs', hpc', hnew₂⟩ := exists_recycle_of_write hok hs₂ rfl hfull rfl
  refine ⟨s', hs', fun hrotates => ?_⟩
  have hthread : s'.thread = s'.recycle := by rw [AsyncLogging.thread, hpc']
  rcases recycle_of_newBuffer2 hnew₂ with h | h
  · exact hrotates.deref (hthread.trans h)
  · exact hrotates.assert (hthread.trans h)

end Overrun

/-- The steps before `stop`, with messages that fit in a buffer. -/
def BeforeStop (_ : AsyncLogging) : Event → Prop
  | .append msg => msg.bytes.length < kLargerBuffer
  | .thread => True
  | .stop => False

/-- Two messages that fit in a buffer, but not both in the same one, consume
    `nextBuffer`. -/
theorem exists_overrun {m₁ m₂ : Message} (h₁ : m₁.bytes.length < kLargerBuffer)
    (h₂ : m₂.bytes.length < kLargerBuffer)
    (h : kLargerBuffer < m₁.bytes.length + m₂.bytes.length) :
    ∃ s, system.ReachableBy (fun s e => s.BeforeStop e ∧ s.SpareLeft e) s ∧ s.Takes ∧
      s.nextBuffer = none := by
  have hs₀ : system.ReachableBy (fun s e => s.BeforeStop e ∧ s.SpareLeft e) new := .init rfl
  have hfits : FixedBuffer.avail (new.heap 0) > m₁.bytes.length := h₁
  have happend₁ : new.append m₁ = .ok (new.fill 0 m₁) := if_pos hfits.le
  have hheap : (new.fill 0 m₁).heap 0 = m₁.bytes := by
    rw [fill_heap_self, FixedBuffer.append, FixedBuffer.fits, if_pos hfits]
    rfl
  have hfull : ¬FixedBuffer.avail ((new.fill 0 m₁).heap 0) ≥ m₂.bytes.length := by
    rw [hheap, FixedBuffer.avail]
    omega
  have happend₂ : (new.fill 0 m₁).append m₂ =
      .ok ((new.fill 0 m₁).advance.2.fill (new.fill 0 m₁).advance.1 m₂) := if_neg hfull
  have hs₁ := hs₀.step (e := Event.append m₁) ⟨h₁, trivial⟩ (.append happend₁)
  have hs₂ := hs₁.step (e := Event.append m₂) ⟨h₂, trivial⟩ (.append happend₂)
  -- The thread goes up to the mutex, where it finds the first buffer put away.
  have hs₃ := hs₂.step (e := Event.thread) ⟨trivial, nofun⟩ (.thread nofun rfl)
  have hs₄ := hs₃.step (e := Event.thread) ⟨trivial, nofun⟩ (.thread nofun rfl)
  exact ⟨_, hs₄, .inl ⟨rfl, List.concat_ne_nil _ _⟩, rfl⟩

/-- A null pointer is met after a message of `kLargerBuffer - 1` bytes and one of
    two bytes. -/
theorem not_rotates_overrun : ¬∀ s, system.ReachableBy BeforeStop s → s.Rotates := by
  intro h
  obtain ⟨s, hs, htakes, hnext⟩ := @exists_overrun
    ⟨List.replicate (kLargerBuffer - 1) 0, by rw [List.length_replicate]; decide⟩
    ⟨List.replicate 2 0, by rw [List.length_replicate]; decide⟩
    (by simp only [List.length_replicate]; decide) (by simp only [List.length_replicate]; decide)
    (by simp only [List.length_replicate]; decide)
  obtain ⟨s', hs', hrotates⟩ := exists_not_rotates (fun _ => trivial) (hs.mono fun _ _ => And.left)
    (circulates_of_reachableBy (hs.mono fun _ _ => And.right)) htakes hnext
  exact hrotates (h s' hs')

end AsyncLogging

end Webserver
