import Webserver.Log.Durability
import Webserver.Log.Rotation

/-!
# What becomes of the log after `stop`

After `stop` the logging thread leaves its loop, and writes what is left in the buffers.
But it may be inside the loop, where it has to come round once more, and then it does not
survive if it gives `newBuffer2` away.

* `AsyncLogging.Draining.thread`: otherwise it makes a step, and there are fewer to come.
* `Pipeline.drains_iff`: so it returns, with the whole log on the disk, exactly if the step
  it was about to make when `stop` was called does not give `newBuffer2` away.
-/

namespace Webserver

open Transition

namespace AsyncLogging

/-- After `stop`, the pointers that the logging thread still needs are not null. -/
structure Draining (s : AsyncLogging) : Prop where
  stopped : s.running = false
  full : none ∉ s.bufferPtrs
  batch : none ∉ s.buffersWaitToWrite
  current : (∀ i, s.pc ≠ .writeLast i) → s.pc ≠ .done → s.currentBuffer ≠ none
  phase :
    match s.pc with
    | .lock | .waiting => s.nextBuffer ≠ none ∧ s.newBuffer1 ≠ none ∧ s.newBuffer2 ≠ none ∧
        s.buffersWaitToWrite = []
    | .overload =>
      s.newBuffer2 ≠ none ∧ s.buffersWaitToWrite ≠ [] ∧ s.bufferPtrs.length ≤ 25
    | .write _ | .recycle => s.newBuffer2 ≠ none ∧ s.buffersWaitToWrite ≠ []
    | .start | .head | .last | .writeLast _ | .done => True

/-- A bound on the steps that the logging thread has to make before it returns. -/
def stepsLeft (s : AsyncLogging) : ℕ :=
  match s.pc with
  | .lock => s.bufferPtrs.length + 10
  | .waiting => s.bufferPtrs.length + 9
  | .overload => s.bufferPtrs.length + s.buffersWaitToWrite.length + 7
  | .write i => s.bufferPtrs.length + (s.buffersWaitToWrite.length - i) + 6
  | .start | .recycle => s.bufferPtrs.length + 5
  | .head => s.bufferPtrs.length + 4
  | .last => s.bufferPtrs.length + 3
  | .writeLast i => s.bufferPtrs.length - i + 1
  | .done => 0

/-- The logging thread goes on. -/
structure Advances (s s' : AsyncLogging) : Prop where
  step : s.thread = .ok s'
  keeps : s.NoErase .thread
  draining : s'.Draining
  lt : s'.stepsLeft < s.stepsLeft

variable {s s' : AsyncLogging}

theorem stepsLeft_le (s : AsyncLogging) :
    s.stepsLeft ≤ s.bufferPtrs.length + s.buffersWaitToWrite.length + 10 := by
  rw [stepsLeft]
  split <;> omega

/-- Taking the full buffers away, once more. -/
theorem Draining.rotate (hs : s.Draining) (hpc : s.pc = .lock ∨ s.pc = .waiting)
    (h : s.thread = .ok s.rotate) : s.Advances s.rotate := by
  obtain ⟨hnext, hnew₁, hnew₂, hbatch⟩ : s.nextBuffer ≠ none ∧ s.newBuffer1 ≠ none ∧
      s.newBuffer2 ≠ none ∧ s.buffersWaitToWrite = [] := by
    have hphase := hs.phase
    rcases hpc with hpc | hpc <;> rwa [hpc] at hphase
  have hcurrent : s.currentBuffer ≠ none := by
    refine hs.current (fun i hi => ?_) fun hi => ?_ <;> rcases hpc with hpc | hpc <;>
      simp [hpc] at hi
  have hkeeps : s.NoErase .thread := by
    intro hover
    rcases hpc with hpc | hpc <;> simp [hpc] at hover
  have hrotate : s.rotate = { s with
      currentBuffer := s.newBuffer1
      newBuffer1 := none
      bufferPtrs := []
      buffersWaitToWrite := s.bufferPtrs ++ [s.currentBuffer]
      pc := .overload } := by
    rw [AsyncLogging.rotate, if_neg hnext, hbatch]
  refine ⟨h, hkeeps, ?_, ?_⟩
  · have hfull : none ∉ s.bufferPtrs ++ [s.currentBuffer] := by
      rw [List.mem_append, List.mem_singleton, not_or]
      exact ⟨hs.full, hcurrent.symm⟩
    rw [hrotate]
    exact ⟨hs.stopped, List.not_mem_nil, hfull, fun _ _ => hnew₁, hnew₂, List.concat_ne_nil _ _,
      Nat.zero_le _⟩
  · rcases hpc with hpc | hpc <;> simp [stepsLeft, hrotate, hpc]

/-- The end of a batch. -/
theorem Draining.recycle (hs : s.Draining) (hpc : s.pc = .recycle) : ∃ s', s.Advances s' := by
  have hphase := hs.phase
  rw [hpc] at hphase
  have hcurrent := hs.current (by simp [hpc]) (by simp [hpc])
  obtain ⟨s', h⟩ := exists_recycle hphase.1 hs.batch hphase.2
  have hthread : s.thread = .ok s' := by rw [AsyncLogging.thread, hpc, h]
  have hkeeps : s.NoErase .thread := fun hover => by simp [hpc] at hover
  obtain ⟨-, ⟨-, rfl⟩ | ⟨b, -, -, rfl⟩⟩ := recycle_ok h
  · exact ⟨_, hthread, hkeeps, ⟨hs.stopped, hs.full, List.not_mem_nil, fun _ _ => hcurrent,
      trivial⟩, by simp [stepsLeft, hpc]⟩
  · exact ⟨_, hthread, hkeeps, ⟨hs.stopped, hs.full, List.not_mem_nil, fun _ _ => hcurrent,
      trivial⟩, by simp [stepsLeft, hpc]⟩

/-- A buffer of the batch is written, or all of them have been. -/
theorem Draining.write (hs : s.Draining) {i : ℕ} (hpc : s.pc = .write i) :
    ∃ s', s.Advances s' := by
  have hphase := hs.phase
  rw [hpc] at hphase
  have hcurrent := hs.current (by simp [hpc]) (by simp [hpc])
  have hkeeps : s.NoErase .thread := fun hover => by simp [hpc] at hover
  by_cases hlt : i < s.buffersWaitToWrite.length
  · obtain ⟨b, hb⟩ : ∃ b, s.buffersWaitToWrite[i] = some b :=
      Option.ne_none_iff_exists'.1 fun hnone => hs.batch (hnone ▸ List.getElem_mem hlt)
    refine ⟨{ s with pc := .write (i + 1), logfile := s.logfile ++ s.heap b }, ?_, hkeeps,
      ⟨hs.stopped, hs.full, hs.batch, fun _ _ => hcurrent, hphase⟩, ?_⟩
    · rw [AsyncLogging.thread, hpc]
      simp [List.getElem?_eq_getElem hlt, hb, AsyncLogging.write]
    · simp only [stepsLeft, hpc]
      omega
  · refine ⟨{ s with pc := .recycle }, ?_, hkeeps,
      ⟨hs.stopped, hs.full, hs.batch, fun _ _ => hcurrent, hphase⟩, ?_⟩
    · rw [AsyncLogging.thread, hpc]
      simp [List.getElem?_eq_none (Nat.not_lt.1 hlt)]
    · simp only [stepsLeft, hpc]
      omega

/-- A buffer is written after the loop, or all of them have been. -/
theorem Draining.writeLast (hs : s.Draining) {i : ℕ} (hpc : s.pc = .writeLast i) :
    ∃ s', s.Advances s' := by
  have hkeeps : s.NoErase .thread := fun hover => by simp [hpc] at hover
  by_cases hlt : i < s.bufferPtrs.length
  · obtain ⟨b, hb⟩ : ∃ b, s.bufferPtrs[i] = some b :=
      Option.ne_none_iff_exists'.1 fun hnone => hs.full (hnone ▸ List.getElem_mem hlt)
    refine ⟨{ s with pc := .writeLast (i + 1), logfile := s.logfile ++ s.heap b }, ?_, hkeeps,
      ⟨hs.stopped, hs.full, hs.batch, fun hpc => absurd rfl (hpc _), trivial⟩, ?_⟩
    · rw [AsyncLogging.thread, hpc]
      simp [List.getElem?_eq_getElem hlt, hb, AsyncLogging.write]
    · simp only [stepsLeft, hpc]
      omega
  · refine ⟨{ s with bufferPtrs := [], pc := .done }, ?_, hkeeps,
      ⟨hs.stopped, List.not_mem_nil, hs.batch, fun _ hpc => absurd rfl hpc, trivial⟩, ?_⟩
    · rw [AsyncLogging.thread, hpc]
      simp [List.getElem?_eq_none (Nat.not_lt.1 hlt)]
    · simp only [stepsLeft, hpc]
      omega

/-- After `stop`, the logging thread meets no null pointer and comes closer to its end. -/
theorem Draining.thread (hs : s.Draining) (hdone : s.pc ≠ .done) : ∃ s', s.Advances s' := by
  have hphase := hs.phase
  cases hpc : s.pc with
  | start =>
    have hcurrent := hs.current (by simp [hpc]) hdone
    refine ⟨{ s with
        newBuffer1 := some s.nextId
        newBuffer2 := some (s.nextId + 1)
        heap := Function.update (Function.update s.heap s.nextId []) (s.nextId + 1) []
        nextId := s.nextId + 1 + 1
        pc := .head }, ?_, fun hover => by simp [hpc] at hover,
      ⟨hs.stopped, hs.full, hs.batch, fun _ _ => hcurrent, trivial⟩, by simp [stepsLeft, hpc]⟩
    rw [AsyncLogging.thread, hpc]
    rfl
  | head =>
    have hcurrent := hs.current (by simp [hpc]) hdone
    exact ⟨{ s with pc := .last }, by simp [AsyncLogging.thread, hpc, hs.stopped],
      fun hover => by simp [hpc] at hover,
      ⟨hs.stopped, hs.full, hs.batch, fun _ _ => hcurrent, trivial⟩, by simp [stepsLeft, hpc]⟩
  | lock =>
    by_cases hempty : s.bufferPtrs = []
    · have hcurrent := hs.current (by simp [hpc]) hdone
      rw [hpc] at hphase
      exact ⟨{ s with pc := .waiting }, by simp [AsyncLogging.thread, hpc, hempty],
        fun hover => by simp [hpc] at hover,
        ⟨hs.stopped, hs.full, hs.batch, fun _ _ => hcurrent, hphase⟩, by simp [stepsLeft, hpc]⟩
    · exact ⟨_, hs.rotate (.inl hpc) (by simp [AsyncLogging.thread, hpc, hempty])⟩
  | waiting => exact ⟨_, hs.rotate (.inr hpc) (by rw [AsyncLogging.thread, hpc])⟩
  | overload =>
    have hcurrent := hs.current (by simp [hpc]) hdone
    rw [hpc] at hphase
    obtain ⟨hnew₂, hne, hshort⟩ := hphase
    refine ⟨{ s with pc := .write 0 }, ?_, fun _ => hshort,
      ⟨hs.stopped, hs.full, hs.batch, fun _ _ => hcurrent, hnew₂, hne⟩, by simp [stepsLeft, hpc]⟩
    rw [AsyncLogging.thread, hpc]
    exact if_neg (Nat.not_lt.2 hshort)
  | write i => exact hs.write hpc
  | recycle => exact hs.recycle hpc
  | last =>
    have hcurrent := hs.current (by simp [hpc]) hdone
    have hfull : none ∉ s.bufferPtrs ++ [s.currentBuffer] := by
      rw [List.mem_append, List.mem_singleton, not_or]
      exact ⟨hs.full, hcurrent.symm⟩
    exact ⟨{ s.putAway with pc := .writeLast 0 }, by rw [AsyncLogging.thread, hpc],
      fun hover => by simp [hpc] at hover,
      ⟨hs.stopped, hfull, hs.batch, fun hpc => absurd rfl (hpc _), trivial⟩,
      by simp [stepsLeft, hpc, putAway]⟩
  | writeLast i => exact hs.writeLast hpc
  | done => exact absurd hpc hdone

/-! ## Where it is when `stop` is called -/

/-- Before `stop`, where the next step does not give `newBuffer2` away. -/
theorem Circulates.draining (hs : s.Circulates) (hplaced : s.Placed)
    (hspare : s.SpareLeft .thread) (hkeeps : s.NoErase .thread) :
    { s with running := false }.Draining := by
  refine ⟨rfl, hs.full, hs.batch, fun _ _ => hs.current, ?_⟩
  have hphase := hs.phase
  rw [Phase] at hphase
  rw [Placed] at hplaced
  cases hpc : s.pc with
  | start | head | last | writeLast | done => trivial
  | lock =>
    rw [hpc] at hphase hplaced
    refine ⟨fun hnext => ?_, hphase.1, hphase.2, hplaced⟩
    exact hspare (.inl ⟨hpc, hs.next hnext⟩) hnext
  | waiting =>
    rw [hpc] at hphase hplaced
    exact ⟨hspare (.inr hpc), hphase.1, hphase.2, hplaced⟩
  | overload =>
    rw [hpc] at hphase
    exact ⟨hphase.1, hphase.2, hkeeps hpc⟩
  | write | recycle =>
    rw [hpc] at hphase
    exact hphase

/-- `newBuffer2` has been given away, and the batch is not recycled yet. -/
def Stuck (s : AsyncLogging) : Prop :=
  s.newBuffer2 = none ∧ (s.pc = .overload ∨ (∃ i, s.pc = .write i) ∨ s.pc = .recycle)

theorem thread_of_takes (htakes : s.Takes) : s.thread = .ok s.rotate := by
  rw [AsyncLogging.thread]
  rcases htakes with ⟨hpc, hfull⟩ | hpc
  · simp only [hpc, if_neg hfull]
  · rw [hpc]

theorem stuck_of_rotate (hnext : s.nextBuffer = none) : s.rotate.Stuck := by
  rw [AsyncLogging.rotate, if_pos hnext]
  exact ⟨rfl, .inl rfl⟩

/-- The logging thread does not get out of there. -/
theorem Stuck.thread (hs : s.Stuck) (h : s.thread = .ok s') : s'.Stuck := by
  obtain ⟨hnew₂, hpc⟩ := hs
  cases thread_ok h with
  | shed | keep => exact ⟨hnew₂, .inr (.inl ⟨0, rfl⟩)⟩
  | @write i => exact ⟨hnew₂, .inr (.inl ⟨i + 1, rfl⟩)⟩
  | written => exact ⟨hnew₂, .inr (.inr rfl)⟩
  | recycle _ hrecycle => exact absurd hnew₂ (recycle_ok hrecycle).1
  | rotate htakes => rcases htakes with ⟨hpc', -⟩ | hpc' <;> exact absurd hpc (by simp [hpc'])
  | start hpc' | head hpc' | wait hpc' | last hpc' | writeLast hpc' | writtenLast hpc'
  | done hpc' => exact absurd hpc (by simp [hpc'])

end AsyncLogging

namespace Pipeline

variable {fwrites : ℕ → ℕ} {ferror : Bool} {s s' : Pipeline}

/-- A logger that drains returns, in a run that cuts no batch down. -/
theorem exists_returns (hs : (system fwrites ferror).ReachableBy NoErase s)
    (hdraining : s.logger.Draining) :
    ∃ n ≤ s.logger.stepsLeft, ∃ s',
      (system fwrites ferror).Steps s (List.replicate n .thread) s' ∧
        (system fwrites ferror).ReachableBy NoErase s' ∧ s'.logger.pc = .done ∧
        s'.records = s.records := by
  induction hn : s.logger.stepsLeft using Nat.strongRecOn generalizing s with
  | ind n ih =>
    by_cases hdone : s.logger.pc = .done
    · exact ⟨0, Nat.zero_le _, s, .nil, hs, hdone, rfl⟩
    · obtain ⟨logger, hstep, hkeeps, hdraining', hlt⟩ := hdraining.thread hdone
      have hst : Step s .thread (s.thread logger) := .thread hdone hstep
      obtain ⟨m, hm, s', hsteps, hs', hpc, hrecords⟩ :=
        ih _ (hn ▸ hlt) (hs.step hkeeps hst) hdraining' rfl
      refine ⟨m + 1, Nat.le_trans (Nat.succ_le_succ hm) (hn ▸ hlt), s', ?_, hs', hpc, hrecords⟩
      exact .cons hst hsteps

/-- One that is stuck does not return. -/
theorem stuck_of_steps {n : ℕ}
    (h : (system fwrites ferror).Steps s (List.replicate n .thread) s')
    (hstuck : s.logger.Stuck) : s'.logger.Stuck := by
  induction n generalizing s with
  | zero =>
    cases h
    exact hstuck
  | succ n ih =>
    rcases h with _ | ⟨hst, hsteps⟩
    rcases hst with _ | ⟨-, h⟩
    exact ih hsteps (hstuck.thread h)

/-- The steps before `stop` in which `nextBuffer` is not consumed, and no batch cut down. -/
def Kept (s : Pipeline) (e : AsyncLogging.Event) : Prop :=
  s.logger.SpareLeft e ∧ s.logger.NoErase e

/-- After `stop` the logging thread returns, with every message copied on the disk, exactly
    if its next step does not give `newBuffer2` away. It takes a few steps for each buffer. -/
theorem drains_iff (hsteady : ∀ k, fwrites k ≠ 0)
    (hs : (system fwrites ferror).ReachableBy Kept s) (hload : s.logger.NoErase .thread) :
    (∃ n s', (system fwrites ferror).Steps s.stop (List.replicate n .thread) s' ∧
      n ≤ s.logger.bufferPtrs.length + s.logger.buffersWaitToWrite.length + 10 ∧
      s'.logger.pc = .done ∧ s'.logfile.durable = s.records.flatten) ↔
      s.logger.SpareLeft .thread := by
  have hspares : AsyncLogging.system.ReachableBy AsyncLogging.SpareLeft s.logger :=
    logger_of_reachable (hs.mono fun _ _ => And.left)
  have hcirculates := AsyncLogging.circulates_of_reachableBy hspares
  constructor
  · rintro ⟨n, s', hsteps, -, hdone, -⟩ htakes hnext
    -- The first step is the one that gives `newBuffer2` away.
    cases n with
    | zero =>
      cases hsteps
      rcases htakes with ⟨hpc, -⟩ | hpc <;> simp [stop, hpc] at hdone
    | succ n =>
      rcases hsteps with _ | ⟨hst, hsteps⟩
      rcases hst with _ | @⟨logger, -, h⟩
      have hrotate : s.stop.logger.thread = .ok s.stop.logger.rotate :=
        AsyncLogging.thread_of_takes htakes
      obtain rfl : logger = s.stop.logger.rotate := Except.ok.inj (h.symm.trans hrotate)
      obtain ⟨-, hpc⟩ := stuck_of_steps hsteps (AsyncLogging.stuck_of_rotate hnext)
      simp [hdone] at hpc
  · intro hspare
    have hkept : (system fwrites ferror).ReachableBy NoErase s.stop :=
      (hs.mono fun _ _ => And.right).step (e := .stop) trivial .stop
    have hplaced := AsyncLogging.placed_of_reachable hspares.reachable
    obtain ⟨n, hn, s', hsteps, hs', hdone, hrecords⟩ :=
      exists_returns hkept (hcirculates.draining hplaced hspare hload)
    have hdurable := durable_of_done hsteady hs' hdone
    refine ⟨n, s', hsteps, hn.trans s.logger.stepsLeft_le, hdone, hdurable.trans ?_⟩
    rw [hrecords]
    rfl

instance (s : Pipeline) (e : AsyncLogging.Event) : Decidable (s.Kept e) :=
  inferInstanceAs (Decidable (_ ∧ _))

/-- A message is being written, and another one has been appended since. -/
theorem drains_iff_writing : ∃ s : Pipeline, s.logger.pc = .write 0 ∧
    s.records = [bytes "hi", bytes "ho"] ∧ s.logfile.durable = [] ∧
    ((∃ n s', (system (fun _ => 1) false).Steps s.stop (List.replicate n .thread) s' ∧
      n ≤ s.logger.bufferPtrs.length + s.logger.buffersWaitToWrite.length + 10 ∧
      s'.logger.pc = .done ∧ s'.logfile.durable = s.records.flatten) ↔
      s.logger.SpareLeft .thread) := by
  obtain ⟨s, hs, hp⟩ := System.exists_reachableBy_of_any step_of_next
    (.init rfl : (system (fun _ => 1) false).ReachableBy Kept (new (fun _ => 1) false))
    (.append (.append ⟨bytes "hi", by decide⟩ :: List.replicate 5 .thread)
      [.append ⟨bytes "ho", by decide⟩])
    (fun s => decide (s.logger.pc = .write 0) &&
      decide (s.records = [bytes "hi", bytes "ho"]) && decide (s.logfile.durable = []))
    (by decide +kernel)
  rw [Bool.and_eq_true, Bool.and_eq_true, decide_eq_true_eq, decide_eq_true_eq,
    decide_eq_true_eq] at hp
  obtain ⟨⟨hpc, hrecords⟩, hdurable⟩ := hp
  exact ⟨s, hpc, hrecords, hdurable, drains_iff (fun _ => Nat.one_ne_zero) hs
    fun hover => by simp [hpc] at hover⟩

end Pipeline

end Webserver
