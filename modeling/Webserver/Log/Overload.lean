import Webserver.Log.AsyncLogging

/-!
# Shedding load

When there are too many buffers to write, the logging thread drops all but the first
two of its batch. But what it counts is `bufferPtrs`, which it has exchanged for the
batch before, and to which producers have appended since, without the mutex.

* `AsyncLogging.sheds_iff`: the batch is treated right, if the buffers put away since
  are too many exactly if those of the batch are, or if the batch has two buffers.
* `AsyncLogging.exists_invalidRange`: with a batch of one buffer, the range to erase is
  not even valid.
-/

namespace Webserver

open Transition

namespace AsyncLogging

/-- More buffers than the logging thread is to write at a time. -/
def Overloaded (buffers : List (Option BufferId)) : Prop := buffers.length > 25

instance (buffers : List (Option BufferId)) : Decidable (Overloaded buffers) :=
  inferInstanceAs (Decidable (_ > _))

/-- What is left of a batch that is shed if it is too long. -/
def shed (batch : List (Option BufferId)) : List (Option BufferId) :=
  if Overloaded batch then batch.take 2 else batch

/-- The logging thread sheds the batch if it is too long, and goes on to write it. -/
def Sheds (s : AsyncLogging) : Prop :=
  s.thread = .ok { s with buffersWaitToWrite := shed s.buffersWaitToWrite, pc := .write 0 }

/-- The buffers put away since the batch was taken are as many as it takes to treat the
    batch right, or the batch is one that shedding leaves as it is. -/
def Matched (s : AsyncLogging) : Prop :=
  (Overloaded s.bufferPtrs ↔ Overloaded s.buffersWaitToWrite) ∨ s.buffersWaitToWrite.length = 2

/-- A run of the logger, with the steps that producers and the logging thread have
    taken. -/
structure Interleaving where
  steps : List (AsyncLogging × Event)
  last : AsyncLogging
  run : system.Run new steps last

/-- The states of a run in which the logging thread has gone on to look whether there
    are too many buffers, or may do so next. -/
def Interleaving.tests (r : Interleaving) : List AsyncLogging :=
  (r.steps ++ [(r.last, Event.thread)]).filterMap fun p =>
    match p.2 with
    | .thread => if p.1.pc = .overload then some p.1 else none
    | _ => none

variable {s s' : AsyncLogging}

theorem pc_of_mem_tests {r : Interleaving} (h : s ∈ r.tests) : s.pc = .overload := by
  obtain ⟨⟨t, e⟩, -, ht⟩ := List.mem_filterMap.1 h
  cases e with
  | thread =>
    obtain ⟨hpc, hs⟩ := (Option.ite_none_right_eq_some).1 ht
    rw [← Option.some.inj hs]
    exact hpc
  | append msg => cases ht
  | stop => cases ht

/-- Going on to write the batch, or the first two buffers of it. -/
theorem ok_eq_ok_iff {batch batch' : List (Option BufferId)} :
    (Except.ok { s with buffersWaitToWrite := batch, pc := .write 0 } : Except Fault _) =
      .ok { s with buffersWaitToWrite := batch', pc := .write 0 } ↔ batch = batch' := by
  simp

/-- The step in which the logging thread looks whether there are too many buffers. -/
theorem thread_overload (hpc : s.pc = .overload) :
    s.thread =
      if Overloaded s.bufferPtrs then
        if s.buffersWaitToWrite.length < 2 then .error .invalidRange
        else .ok { s with buffersWaitToWrite := s.buffersWaitToWrite.take 2, pc := .write 0 }
      else .ok { s with buffersWaitToWrite := s.buffersWaitToWrite, pc := .write 0 } := by
  rw [thread, hpc]
  rfl

/-- One test. -/
theorem sheds_iff_matched (hpc : s.pc = .overload) : s.Sheds ↔ s.Matched := by
  have htake : s.buffersWaitToWrite.take 2 = s.buffersWaitToWrite ↔
      s.buffersWaitToWrite.length ≤ 2 :=
    ⟨fun h => h ▸ List.length_take_le 2 _, List.take_of_length_le⟩
  have hbatch : Overloaded s.buffersWaitToWrite ↔ s.buffersWaitToWrite.length > 25 := .rfl
  rw [Sheds, thread_overload hpc, Matched]
  by_cases hptrs : Overloaded s.bufferPtrs
  · rw [if_pos hptrs, iff_true_left hptrs, hbatch]
    split
    · next hshort =>
      simp only [reduceCtorEq, false_iff]
      omega
    · next hlong =>
      rw [ok_eq_ok_iff, shed]
      split
      · next hlong => exact iff_of_true rfl (.inl hlong)
      · next hbatch =>
        rw [htake]
        rw [Overloaded] at hbatch
        omega
  · rw [if_neg hptrs, iff_false_left hptrs, ok_eq_ok_iff, shed]
    split
    · next hlong =>
      rw [eq_comm, htake]
      rw [Overloaded] at hlong ⊢
      omega
    · next hbatch => exact iff_of_true rfl (.inl hbatch)

/-- In every run, all batches are treated right if and only if all of them match. -/
theorem sheds_iff (r : Interleaving) :
    (∀ s ∈ r.tests, s.Sheds) ↔ ∀ s ∈ r.tests, s.Matched :=
  forall₂_congr fun _ hs => sheds_iff_matched (pc_of_mem_tests hs)

/-! ## Producers that are ahead of the logging thread -/

/-- A message that the current buffer has too little room for makes a producer put the
    buffer away. -/
theorem exists_putAway_of_lt {b : BufferId} (hb : s.currentBuffer = some b) (msg : Message)
    (hfull : FixedBuffer.avail (s.heap b) < msg.bytes.length) :
    ∃ ps s', system.Run s ps s' ∧ s'.pc = s.pc ∧
      s'.buffersWaitToWrite = s.buffersWaitToWrite ∧
      s'.bufferPtrs.length = s.bufferPtrs.length + 1 ∧ s'.currentBuffer ≠ none := by
  have happend : s.append msg = .ok (s.advance.2.fill s.advance.1 msg) := by
    simp only [append, hb]
    exact if_neg (Nat.not_le.2 hfull)
  refine ⟨_, _, .single (.append happend), ?_⟩
  obtain ⟨heap, nextId, heq⟩ := s.advance_eq
  simp [heq, fill]

/-- Whatever the current buffer holds, messages of at most two bytes may make producers
    put it away. -/
theorem exists_putAway {b : BufferId} (hb : s.currentBuffer = some b) :
    ∃ ps s', system.Run s ps s' ∧ s'.pc = s.pc ∧
      s'.buffersWaitToWrite = s.buffersWaitToWrite ∧
      s'.bufferPtrs.length = s.bufferPtrs.length + 1 ∧ s'.currentBuffer ≠ none := by
  -- By induction on the room left, which messages of one byte use up but for the last byte.
  induction hroom : FixedBuffer.avail (s.heap b) using Nat.twoStepInduction generalizing s with
  | zero => exact exists_putAway_of_lt hb ⟨[0], by decide⟩ (by simp [hroom])
  | one => exact exists_putAway_of_lt hb ⟨[0, 0], by decide⟩ (by simp [hroom])
  | more room _ ih =>
    let msg : Message := ⟨[0], by decide⟩
    have hfits : FixedBuffer.avail (s.heap b) > msg.bytes.length := by simp [hroom, msg]
    have happend : s.append msg = .ok (s.fill b msg) := by
      simp only [append, hb]
      exact if_pos hfits.le
    have hroom' : FixedBuffer.avail ((s.fill b msg).heap b) = room + 1 := by
      rw [FixedBuffer.avail] at hroom
      rw [fill_heap_self, FixedBuffer.append, FixedBuffer.fits, if_pos hfits, FixedBuffer.avail,
        List.length_append]
      simp only [msg, List.length_singleton]
      omega
    obtain ⟨ps, s', hrun, h⟩ := ih (s := s.fill b msg) hb hroom'
    exact ⟨_, s', .cons (.append happend) hrun, h⟩

/-- Producers may put away any number of buffers before the logging thread goes on. -/
theorem exists_putAway_n (n : ℕ) (hcurrent : s.currentBuffer ≠ none) :
    ∃ ps s', system.Run s ps s' ∧ s'.pc = s.pc ∧
      s'.buffersWaitToWrite = s.buffersWaitToWrite ∧
      s'.bufferPtrs.length = s.bufferPtrs.length + n := by
  induction n generalizing s with
  | zero => exact ⟨[], s, .nil, rfl, rfl, rfl⟩
  | succ n ih =>
    obtain ⟨b, hb⟩ := Option.ne_none_iff_exists'.1 hcurrent
    obtain ⟨ps, s₁, hrun, hpc, hbatch, hlen, hcurrent₁⟩ := exists_putAway hb
    obtain ⟨ps', s₂, hrun', hpc', hbatch', hlen'⟩ := ih hcurrent₁
    exact ⟨ps ++ ps', s₂, hrun.append hrun', hpc'.trans hpc, hbatch'.trans hbatch, by omega⟩

/-- The logging thread waits in vain, and takes the current buffer away all the same. -/
theorem exists_run_overload :
    ∃ ps s, system.Run new ps s ∧ s.pc = .overload ∧ s.buffersWaitToWrite = [some 0] ∧
      s.bufferPtrs = [] ∧ s.currentBuffer ≠ none := by
  have hstart : system.Run new _ _ := .single (.thread nofun rfl)
  have hhead := hstart.append (.single (.thread nofun rfl))
  have hlock := hhead.append (.single (.thread nofun rfl))
  have hwaiting := hlock.append (.single (.thread nofun rfl))
  exact ⟨_, _, hwaiting, rfl, rfl, rfl, nofun⟩

/-- A batch of one buffer, and 26 more that producers have put away before the logging
    thread looks: there is no second buffer to erase from. -/
theorem exists_invalidRange :
    ∃ r : Interleaving, ∃ s ∈ r.tests, s.buffersWaitToWrite = [some 0] ∧
      s.bufferPtrs.length = 26 ∧ s.thread = .error .invalidRange := by
  obtain ⟨ps, s, hrun, hpc, hbatch, hptrs, hcurrent⟩ := exists_run_overload
  obtain ⟨ps', s', hrun', hpc', hbatch', hptrs'⟩ := exists_putAway_n 26 hcurrent
  rw [hptrs] at hptrs'
  rw [hpc] at hpc'
  rw [hbatch] at hbatch'
  refine ⟨⟨_, s', hrun.append hrun'⟩, s', ?_, hbatch', hptrs', ?_⟩
  · exact List.mem_filterMap.2 ⟨(s', .thread), by simp, if_pos hpc'⟩
  · rw [thread_overload hpc', if_pos (by rw [Overloaded, hptrs']; decide),
      if_pos (by simp [hbatch'])]

theorem not_sheds : ¬∀ r : Interleaving, ∀ s ∈ r.tests, s.Sheds := by
  obtain ⟨r, s, hs, -, -, herase⟩ := exists_invalidRange
  intro hall
  have hsheds := hall r s hs
  rw [Sheds, herase] at hsheds
  cases hsheds

end AsyncLogging

end Webserver
