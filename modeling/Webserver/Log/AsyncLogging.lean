import Webserver.Lib.Pointers
import Webserver.Lib.Transition
import Webserver.Poller
import Webserver.Util
import Mathlib.Algebra.Group.Nat.Defs

/-!
# Asynchronous logging

The double buffering of `AsyncLogging`: producers append to the current buffer
under a mutex, and the logging thread takes the full buffers and the current one
away and writes them to the log file, giving back empty buffers in exchange.

Buffers are named by identities, and a pointer that has been moved from is null.
The state changes where another thread may run: producers between the steps of
the logging thread (`Pc`), whose critical section is one step.

What the logger is observed by is recorded along the way: the bytes copied into
buffers (`copied`), and those handed to `LogFile::append` (`logfile`).
-/

namespace Webserver

open Transition Pointers

def kLargerBuffer : ℕ := 4000 * 1000

/-- A message, of a length that is an `int`. -/
structure Message where
  bytes : Bytes
  bounded : bytes.length < 2 ^ 31

namespace FixedBuffer

/-- The room left in a buffer that holds some bytes. -/
def avail (data : Bytes) : ℕ := kLargerBuffer - data.length

/-- The part of a message that is copied into a buffer: all of it or nothing. -/
def fits (data msg : Bytes) : Bytes := if avail data > msg.length then msg else []

/-- What a buffer holds after appending a message. -/
def append (data msg : Bytes) : Bytes := data ++ fits data msg

end FixedBuffer

abbrev BufferId := ℕ

/-- Where the logging thread is: at the head of its loop, before the mutex,
    waiting for the condition, after the critical section, before the `i`-th
    buffer of the batch, after writing the batch; and after the loop. -/
inductive Pc
  | start
  | head
  | lock
  | waiting
  | overload
  | write (i : ℕ)
  | recycle
  | last
  | writeLast (i : ℕ)
  | done
  deriving DecidableEq

/-- The logger, with the local variables of its thread. -/
structure AsyncLogging where
  running : Bool
  currentBuffer : Option BufferId
  nextBuffer : Option BufferId
  bufferPtrs : List (Option BufferId)
  pc : Pc
  newBuffer1 : Option BufferId
  newBuffer2 : Option BufferId
  buffersWaitToWrite : List (Option BufferId)
  heap : BufferId → Bytes
  nextId : BufferId
  copied : Bytes
  logfile : Bytes

namespace AsyncLogging

/-- The logger after its constructor and `start`. -/
def new : AsyncLogging where
  running := true
  currentBuffer := some 0
  nextBuffer := some 1
  bufferPtrs := []
  pc := .start
  newBuffer1 := none
  newBuffer2 := none
  buffersWaitToWrite := []
  heap _ := []
  nextId := 2
  copied := []
  logfile := []

/-! ## Producers -/

/-- The buffer `b` after appending a message to it. -/
def fill (s : AsyncLogging) (b : BufferId) (msg : Message) : AsyncLogging :=
  { s with
    heap := Function.update s.heap b (FixedBuffer.append (s.heap b) msg.bytes)
    copied := s.copied ++ FixedBuffer.fits (s.heap b) msg.bytes }

/-- A new buffer. -/
def alloc (s : AsyncLogging) : BufferId × AsyncLogging :=
  (s.nextId, { s with heap := Function.update s.heap s.nextId [], nextId := s.nextId + 1 })

/-- The current buffer is moved to the full ones. -/
def putAway (s : AsyncLogging) : AsyncLogging :=
  { s with bufferPtrs := s.bufferPtrs ++ [s.currentBuffer], currentBuffer := none }

/-- Puts the current buffer away, and takes the next one or a new one. The
    identity returned is that of the current buffer. -/
def advance (s : AsyncLogging) : BufferId × AsyncLogging :=
  match s.nextBuffer with
  | some b => (b, { s.putAway with currentBuffer := some b, nextBuffer := none })
  | none =>
    let (b, s) := s.putAway.alloc
    (b, { s with currentBuffer := some b })

/-- The critical section of a producer. -/
def append (s : AsyncLogging) (msg : Message) : Except Fault AsyncLogging :=
  match s.currentBuffer with
  | none => .error .nullDereference
  | some b =>
    -- A message for which there is just enough room is not copied.
    if FixedBuffer.avail (s.heap b) ≥ msg.bytes.length then .ok (s.fill b msg)
    else
      -- A message that no buffer has room for is dropped, but the buffers are moved all the same.
      let (b, s) := s.advance
      .ok (s.fill b msg)

/-! ## The logging thread -/

/-- The rest of the critical section, once waiting is over. -/
def rotate (s : AsyncLogging) : AsyncLogging :=
  -- The current buffer goes behind the full ones, and `swap` leaves the empty batch.
  let bufferPtrs := s.bufferPtrs ++ [s.currentBuffer]
  let s := { s with
    currentBuffer := s.newBuffer1
    newBuffer1 := none
    bufferPtrs := s.buffersWaitToWrite
    buffersWaitToWrite := bufferPtrs
    pc := .overload }
  if s.nextBuffer = none then { s with nextBuffer := s.newBuffer2, newBuffer2 := none } else s

/-- Hands the bytes of a buffer to `LogFile::append`. -/
def write (s : AsyncLogging) (p : Option BufferId) : Except Fault AsyncLogging :=
  match p with
  | none => .error .nullDereference
  | some b => .ok { s with logfile := s.logfile ++ s.heap b }

/-- Gives `newBuffer1` a buffer of the batch, if it has none. -/
def refill1 (s : AsyncLogging) : Except Fault AsyncLogging :=
  if s.newBuffer1 = none then
    match s.buffersWaitToWrite.getLast? with
    | none => .error .assertFailed
    | some none => .error .nullDereference
    | some (some b) => .ok { s with
        newBuffer1 := some b
        buffersWaitToWrite := s.buffersWaitToWrite.dropLast
        heap := Function.update s.heap b [] }
  else .ok s

/-- What is done if `newBuffer2` has no buffer: it is `newBuffer1` that is given
    one, and `newBuffer2` that is reset. -/
def refill2 (s : AsyncLogging) : Except Fault AsyncLogging :=
  if s.newBuffer2 = none then
    match s.buffersWaitToWrite.getLast? with
    | none => .error .assertFailed
    | some p =>
      let s := { s with
        newBuffer1 := p
        buffersWaitToWrite := s.buffersWaitToWrite.dropLast }
      match s.newBuffer2 with
      | none => .error .nullDereference
      | some b => .ok { s with heap := Function.update s.heap b [] }
  else .ok s

/-- The rest of the loop, once the batch has been written. -/
def recycle (s : AsyncLogging) : Except Fault AsyncLogging := do
  let s := { s with buffersWaitToWrite := s.buffersWaitToWrite.take 2 }
  let s ← s.refill1
  let s ← s.refill2
  .ok { s with buffersWaitToWrite := [], pc := .head }

/-- The next step of the logging thread. -/
def thread (s : AsyncLogging) : Except Fault AsyncLogging :=
  match s.pc with
  | .start =>
    let (b₁, s) := s.alloc
    let (b₂, s) := { s with newBuffer1 := some b₁ }.alloc
    .ok { s with newBuffer2 := some b₂, pc := .head }
  | .head => .ok { s with pc := if s.running then .lock else .last }
  | .lock => .ok (if s.bufferPtrs = [] then { s with pc := .waiting } else s.rotate)
  | .waiting => .ok s.rotate
  | .overload =>
    if s.bufferPtrs.length > 25 then
      -- It is `bufferPtrs_` that is counted, but the batch that is erased from.
      if s.buffersWaitToWrite.length < 2 then .error .invalidRange
      else .ok { s with buffersWaitToWrite := s.buffersWaitToWrite.take 2, pc := .write 0 }
    else .ok { s with pc := .write 0 }
  | .write i =>
    match s.buffersWaitToWrite[i]? with
    | none => .ok { s with pc := .recycle }
    | some p => { s with pc := .write (i + 1) }.write p
  | .recycle => s.recycle
  | .last => .ok { s.putAway with pc := .writeLast 0 }
  | .writeLast i =>
    match s.bufferPtrs[i]? with
    | none => .ok { s with bufferPtrs := [], pc := .done }
    | some p => { s with pc := .writeLast (i + 1) }.write p
  | .done => .ok s

/-! ## Runs -/

inductive Event
  | append (msg : Message)
  | thread
  | stop

/-- The state an event leads to. -/
def next (s : AsyncLogging) : Event → Option AsyncLogging
  | .append msg => (s.append msg).toOption
  | .thread => if s.pc = .done then none else s.thread.toOption
  | .stop => some { s with running := false }

/-- The steps of producers, of the logging thread until it returns, and of
    whoever calls `stop`. -/
inductive Step : AsyncLogging → Event → AsyncLogging → Prop
  | append {s s' : AsyncLogging} {msg : Message} : s.append msg = .ok s' → Step s (.append msg) s'
  | thread {s s' : AsyncLogging} : s.pc ≠ .done → s.thread = .ok s' → Step s .thread s'
  | stop {s : AsyncLogging} : Step s .stop { s with running := false }

/-- The runs of a logger and any number of producers. -/
def system : System AsyncLogging Event where
  init := {new}
  step := Step

theorem step_of_next (s : AsyncLogging) (e : Event) (s' : AsyncLogging)
    (h : s.next e = some s') : Step s e s' := by
  cases e with
  | append msg =>
    cases hs : s.append msg with
    | error f => rw [next, hs] at h; cases h
    | ok s₁ =>
      rw [next, hs] at h
      cases h
      exact .append hs
  | thread =>
    rw [next] at h
    split at h
    · cases h
    · next hpc =>
      cases hs : s.thread with
      | error f => rw [hs] at h; cases h
      | ok s₁ =>
        rw [hs] at h
        cases h
        exact .thread hpc hs
  | stop =>
    cases h
    exact .stop

/-! ## What the steps do -/

section Steps

variable {s s' : AsyncLogging}

theorem fill_heap_self (s : AsyncLogging) (b : BufferId) (msg : Message) :
    (s.fill b msg).heap b = FixedBuffer.append (s.heap b) msg.bytes := Function.update_self _ _ _

/-- Whatever the next buffer is, it has become the current one. -/
theorem advance_eq (s : AsyncLogging) : ∃ heap nextId, s.advance.2 = { s with
    currentBuffer := some s.advance.1
    nextBuffer := none
    bufferPtrs := s.bufferPtrs ++ [s.currentBuffer]
    heap := heap
    nextId := nextId } := by
  rw [advance]
  split
  · exact ⟨_, _, rfl⟩
  · next hnext =>
    exact ⟨Function.update s.heap s.nextId [], s.nextId + 1, by simp [alloc, putAway, hnext]⟩

/-- Where the message does not fit in the current buffer, another one becomes
    current, and the message fits there or not. -/
theorem append_ok {msg : Message} (h : s.append msg = .ok s') :
    ∃ b, s.currentBuffer = some b ∧
      (s' = s.fill b msg ∨
        FixedBuffer.avail (s.heap b) < msg.bytes.length ∧
          s' = s.advance.2.fill s.advance.1 msg) := by
  rw [append] at h
  split at h
  · cases h
  · next b hb =>
    split at h
    · cases h
      exact ⟨b, hb, .inl rfl⟩
    · next hfull =>
      cases h
      exact ⟨b, hb, .inr ⟨Nat.lt_of_not_le hfull, rfl⟩⟩

theorem write_ok {p : Option BufferId} (h : s.write p = .ok s') :
    ∃ b, p = some b ∧ s' = { s with logfile := s.logfile ++ s.heap b } := by
  cases p with
  | none => cases h
  | some b =>
    cases h
    exact ⟨b, rfl, rfl⟩

theorem refill1_ok (h : s.refill1 = .ok s') :
    s.newBuffer1 ≠ none ∧ s' = s ∨
      ∃ b, s.newBuffer1 = none ∧ some b ∈ s.buffersWaitToWrite ∧ s' = { s with
        newBuffer1 := some b
        buffersWaitToWrite := s.buffersWaitToWrite.dropLast
        heap := Function.update s.heap b [] } := by
  rw [refill1] at h
  split at h
  · next hnone =>
    split at h
    · cases h
    · cases h
    · next b hlast =>
      cases h
      exact .inr ⟨b, hnone, List.mem_of_getLast? hlast, rfl⟩
  · next hsome =>
    cases h
    exact .inl ⟨hsome, rfl⟩

/-- Nothing is done about `newBuffer2`, or the process ends. -/
theorem refill2_ok (h : s.refill2 = .ok s') : s.newBuffer2 ≠ none ∧ s' = s := by
  rw [refill2] at h
  split at h
  · next hnone =>
    split at h
    · cases h
    · simp only [hnone] at h
      cases h
  · next hsome =>
    cases h
    exact ⟨hsome, rfl⟩

/-- Recycling gives `newBuffer1` a buffer of the batch, emptied, if it has none. -/
theorem recycle_ok (h : s.recycle = .ok s') :
    s.newBuffer2 ≠ none ∧
      (s.newBuffer1 ≠ none ∧ s' = { s with buffersWaitToWrite := [], pc := .head } ∨
        ∃ b, s.newBuffer1 = none ∧ some b ∈ s.buffersWaitToWrite ∧ s' = { s with
          newBuffer1 := some b
          buffersWaitToWrite := []
          heap := Function.update s.heap b []
          pc := .head }) := by
  obtain ⟨s₁, h₁, h⟩ := exists_of_bind_eq_ok h
  obtain ⟨s₂, h₂, h⟩ := exists_of_bind_eq_ok h
  cases h
  obtain ⟨hsome, rfl⟩ := refill2_ok h₂
  rcases refill1_ok h₁ with ⟨hsome₁, rfl⟩ | ⟨b, hnone, hb, rfl⟩
  · exact ⟨hsome, .inl ⟨hsome₁, rfl⟩⟩
  · exact ⟨hsome, .inr ⟨b, hnone, List.mem_of_mem_take hb, rfl⟩⟩

/-- Taking the full buffers away, and the current one with them. -/
theorem rotate_eq (s : AsyncLogging) : ∃ nextBuffer newBuffer2, s.rotate = { s with
    currentBuffer := s.newBuffer1
    nextBuffer := nextBuffer
    bufferPtrs := s.buffersWaitToWrite
    pc := .overload
    newBuffer1 := none
    newBuffer2 := newBuffer2
    buffersWaitToWrite := s.bufferPtrs ++ [s.currentBuffer] } := by
  rw [rotate]
  split <;> exact ⟨_, _, rfl⟩

/-- What a step of the logging thread can do. -/
inductive ThreadStep (s : AsyncLogging) : AsyncLogging → Prop
  | start {b₁ b₂ : BufferId} {heap : BufferId → Bytes} {nextId : BufferId} : s.pc = .start →
      ThreadStep s { s with
        pc := .head
        newBuffer1 := some b₁
        newBuffer2 := some b₂
        heap := heap
        nextId := nextId }
  | head : s.pc = .head → ThreadStep s { s with pc := if s.running then .lock else .last }
  | wait : s.pc = .lock → s.bufferPtrs = [] → ThreadStep s { s with pc := .waiting }
  | rotate : s.pc = .lock ∧ s.bufferPtrs ≠ [] ∨ s.pc = .waiting → ThreadStep s s.rotate
  | shed : s.pc = .overload → s.bufferPtrs.length > 25 → 2 ≤ s.buffersWaitToWrite.length →
      ThreadStep s { s with buffersWaitToWrite := s.buffersWaitToWrite.take 2, pc := .write 0 }
  | keep : s.pc = .overload → s.bufferPtrs.length ≤ 25 → ThreadStep s { s with pc := .write 0 }
  | write {i : ℕ} {b : BufferId} : s.pc = .write i → s.buffersWaitToWrite[i]? = some (some b) →
      ThreadStep s { s with pc := .write (i + 1), logfile := s.logfile ++ s.heap b }
  | written {i : ℕ} : s.pc = .write i → s.buffersWaitToWrite[i]? = none →
      ThreadStep s { s with pc := .recycle }
  | recycle {s' : AsyncLogging} : s.pc = .recycle → s.recycle = .ok s' → ThreadStep s s'
  | last : s.pc = .last → ThreadStep s { s.putAway with pc := .writeLast 0 }
  | writeLast {i : ℕ} {b : BufferId} : s.pc = .writeLast i → s.bufferPtrs[i]? = some (some b) →
      ThreadStep s { s with pc := .writeLast (i + 1), logfile := s.logfile ++ s.heap b }
  | writtenLast {i : ℕ} : s.pc = .writeLast i → s.bufferPtrs[i]? = none →
      ThreadStep s { s with bufferPtrs := [], pc := .done }
  | done : s.pc = .done → ThreadStep s s

theorem thread_ok (h : s.thread = .ok s') : s.ThreadStep s' := by
  rw [thread] at h
  split at h
  · next hpc =>
    cases h
    exact .start hpc
  · next hpc =>
    cases h
    exact .head hpc
  · next hpc =>
    cases h
    split
    · next hempty => exact .wait hpc hempty
    · next hfull => exact .rotate (.inl ⟨hpc, hfull⟩)
  · next hpc =>
    cases h
    exact .rotate (.inr hpc)
  · next hpc =>
    split at h
    · next hlong =>
      split at h
      · cases h
      · next htwo =>
        cases h
        exact .shed hpc hlong (Nat.not_lt.1 htwo)
    · next hshort =>
      cases h
      exact .keep hpc (Nat.not_lt.1 hshort)
  · next i hpc =>
    split at h
    · next hend =>
      cases h
      exact .written hpc hend
    · next p hp =>
      obtain ⟨b, rfl, rfl⟩ := write_ok h
      exact .write hpc hp
  · next hpc => exact .recycle hpc h
  · next hpc =>
    cases h
    exact .last hpc
  · next i hpc =>
    split at h
    · next hend =>
      cases h
      exact .writtenLast hpc hend
    · next p hp =>
      obtain ⟨b, rfl, rfl⟩ := write_ok h
      exact .writeLast hpc hp
  · next hpc =>
    cases h
    exact .done hpc

end Steps

/-! ## What is empty at which place -/

/-- Between two batches there is no batch, and after the loop the buffers are put
    away for good. -/
def Placed (s : AsyncLogging) : Prop :=
  match s.pc with
  | .start | .head | .lock | .waiting => s.buffersWaitToWrite = []
  | .overload | .write _ | .recycle | .last => True
  | .writeLast _ => s.currentBuffer = none
  | .done => s.currentBuffer = none ∧ s.bufferPtrs = []

section Placed

variable {s s' : AsyncLogging}

theorem Placed.append (hs : s.Placed) {msg : Message} (h : s.append msg = .ok s') : s'.Placed := by
  obtain ⟨b, hb, rfl | ⟨-, rfl⟩⟩ := append_ok h
  · exact hs
  · obtain ⟨heap, nextId, heq⟩ := s.advance_eq
    rw [heq]
    rw [Placed] at hs
    simp only [Placed, fill]
    split at hs <;> simp_all

theorem Placed.thread (hs : s.Placed) (h : s.thread = .ok s') : s'.Placed := by
  rw [Placed] at hs
  cases thread_ok h with
  | start hpc =>
    rw [hpc] at hs
    exact hs
  | head hpc =>
    rw [hpc] at hs
    by_cases hrunning : s.running <;> simp [Placed, hrunning, hs]
  | wait hpc hempty =>
    rw [hpc] at hs
    exact hs
  | rotate =>
    obtain ⟨nextBuffer, newBuffer2, heq⟩ := s.rotate_eq
    rw [heq]
    trivial
  | shed | keep | write | written => trivial
  | recycle hpc hrecycle => obtain ⟨-, ⟨-, rfl⟩ | ⟨b, -, -, rfl⟩⟩ := recycle_ok hrecycle <;> rfl
  | last => rfl
  | writeLast hpc =>
    rw [hpc] at hs
    exact hs
  | writtenLast hpc =>
    rw [hpc] at hs
    exact ⟨hs, rfl⟩
  | done hpc =>
    rw [hpc] at hs
    rwa [Placed, hpc]

theorem placed_of_reachable (hs : system.Reachable s) : s.Placed := by
  refine hs.invariant (fun s hs => ?_) fun s e s' _ hs _ hst => ?_
  · rw [Set.mem_singleton_iff.1 hs]
    rfl
  · cases hst with
    | append h => exact hs.append h
    | thread _ h => exact hs.thread h
    | stop => exact hs

end Placed

/-! ## Buffers have one owner each -/

/-- The pointers to buffers. -/
def pointers (s : AsyncLogging) : List (Option BufferId) :=
  s.currentBuffer :: s.nextBuffer :: s.newBuffer1 :: s.newBuffer2 ::
    (s.bufferPtrs ++ s.buffersWaitToWrite)

/-- The spare buffers. -/
def spares (s : AsyncLogging) : List (Option BufferId) := [s.nextBuffer, s.newBuffer1, s.newBuffer2]

/-- No buffer has two owners, and spare buffers are empty. -/
structure Wf (s : AsyncLogging) : Prop where
  unique : Unique s.pointers
  lt_nextId : ∀ b, some b ∈ s.pointers → b < s.nextId
  spare : contents s.heap s.spares = []

theorem wf_new : new.Wf := by
  refine ⟨fun b => ?_, ?_, rfl⟩
  · rcases b with _ | _ | b <;> simp [pointers, new]
  · simp [pointers, new]

section Wf

variable {s s' : AsyncLogging}

/-- Moving buffers around, and dropping some. -/
theorem Wf.mono (hs : s.Wf)
    (hcount : ∀ b, s'.pointers.count (some b) ≤ s.pointers.count (some b))
    (hnextId : s'.nextId = s.nextId) (hspare : contents s'.heap s'.spares = []) : s'.Wf := by
  refine ⟨hs.unique.mono hcount, fun b hb => ?_, hspare⟩
  rw [hnextId]
  refine hs.lt_nextId b (List.count_pos_iff.1 ?_)
  exact Nat.lt_of_lt_of_le (List.count_pos_iff.2 hb) (hcount b)

/-- The current buffer is no other one. -/
theorem Wf.notMem_current (hs : s.Wf) {b : BufferId} (hb : s.currentBuffer = some b) :
    some b ∉ s.spares ∧ some b ∉ s.bufferPtrs ∧ some b ∉ s.buffersWaitToWrite := by
  have hunique := hs.unique
  rw [pointers, hb] at hunique
  have hnotMem := hunique.notMem
  simp only [List.mem_cons, List.mem_append, not_or] at hnotMem
  simpa [spares] using ⟨⟨hnotMem.1, hnotMem.2.1, hnotMem.2.2.1⟩, hnotMem.2.2.2⟩

theorem Wf.fill (hs : s.Wf) {b : BufferId} (hb : s.currentBuffer = some b) (msg : Message) :
    (s.fill b msg).Wf := by
  refine hs.mono (fun _ => le_rfl) rfl ?_
  exact (contents_update (hs.notMem_current hb).1 _).trans hs.spare

/-- A new buffer is no other one. -/
theorem Wf.alloc (hs : s.Wf) :
    s.alloc.2.Wf ∧ some s.alloc.1 ∉ s.alloc.2.pointers ∧ s.alloc.1 < s.alloc.2.nextId ∧
      s.alloc.2.heap s.alloc.1 = [] := by
  have hnew : some s.nextId ∉ s.pointers := fun hmem => Nat.lt_irrefl _ (hs.lt_nextId _ hmem)
  have hspare : some s.nextId ∉ s.spares := by
    simp only [pointers, spares, List.mem_cons, List.not_mem_nil] at hnew ⊢
    tauto
  refine ⟨⟨hs.unique, fun b hb => Nat.lt_succ_of_lt (hs.lt_nextId b hb), ?_⟩, hnew,
    Nat.lt_succ_self _, Function.update_self _ _ _⟩
  exact (contents_update hspare _).trans hs.spare

/-- A new buffer gets an owner. -/
theorem Wf.own (hs : s.Wf) {b : BufferId} (hnew : some b ∉ s.pointers) (hlt : b < s.nextId)
    (hcount : ∀ a, s'.pointers.count (some a) ≤ (some b :: s.pointers).count (some a))
    (hnextId : s'.nextId = s.nextId) (hspare : contents s'.heap s'.spares = []) : s'.Wf := by
  have hunique : Unique (some b :: s.pointers) := by
    intro a
    rw [List.count_cons]
    split
    · next heq => rw [← beq_iff_eq.1 heq, List.count_eq_zero.2 hnew]
    · exact hs.unique a
  refine ⟨hunique.mono hcount, fun a ha => ?_, hspare⟩
  have hmem := List.count_pos_iff.1 (Nat.lt_of_lt_of_le (List.count_pos_iff.2 ha) (hcount a))
  rw [hnextId]
  rcases List.mem_cons.1 hmem with heq | hmem
  · rwa [Option.some.inj heq]
  · exact hs.lt_nextId a hmem

theorem Wf.putAway (hs : s.Wf) : s.putAway.Wf := by
  refine hs.mono (fun a => ?_) rfl hs.spare
  simp only [pointers, AsyncLogging.putAway, List.count_cons, List.count_append, List.count_nil,
    Option.none_beq_some, Bool.false_eq_true, if_false]
  omega

/-- The next buffer is empty, and no other buffer has changed. -/
theorem Wf.advance (hs : s.Wf) :
    s.advance.2.Wf ∧ s.advance.2.currentBuffer = some s.advance.1 ∧
      s.advance.2.heap s.advance.1 = [] ∧ ∀ ps : List (Option BufferId),
        (∀ p ∈ ps, p ∈ s.pointers) → contents s.advance.2.heap ps = contents s.heap ps := by
  rw [AsyncLogging.advance]
  -- The next buffer is empty as a spare one, and a new one by construction.
  split
  · next b hnext =>
    have hnext : s.putAway.nextBuffer = some b := hnext
    have hspare := hs.putAway.spare
    rw [spares, hnext] at hspare
    refine ⟨hs.putAway.mono (fun a => ?_) rfl ?_, rfl,
      eq_nil_of_contents hspare List.mem_cons_self, fun ps _ => rfl⟩
    · simp only [pointers, hnext, List.count_cons, Option.none_beq_some, Bool.false_eq_true,
        if_false]
      omega
    · rw [contents_cons] at hspare
      exact (List.append_eq_nil_iff.1 hspare).2
  · obtain ⟨hwf, hnew, hlt, hempty⟩ := hs.putAway.alloc
    refine ⟨hwf.own hnew hlt (fun a => ?_) rfl hwf.spare, rfl, hempty, fun ps hps => ?_⟩
    · simp only [pointers, List.count_cons]
      omega
    · exact contents_update (fun hmem => Nat.lt_irrefl _ (hs.lt_nextId _ (hps _ hmem))) _

theorem Wf.append (hs : s.Wf) {msg : Message} (h : s.append msg = .ok s') : s'.Wf := by
  obtain ⟨b, hb, rfl | ⟨-, rfl⟩⟩ := append_ok h
  · exact hs.fill hb msg
  · obtain ⟨hwf, hcurrent, -, -⟩ := hs.advance
    exact hwf.fill hcurrent msg

theorem Wf.start (hs : s.Wf) (hpc : s.pc = .start) (h : s.thread = .ok s') : s'.Wf := by
  simp only [thread, hpc] at h
  cases h
  obtain ⟨hwf, hnew, hlt, hempty⟩ := hs.alloc
  have hwf₁ : { s.alloc.2 with newBuffer1 := some s.alloc.1 }.Wf := by
    refine hwf.own hnew hlt (fun a => ?_) rfl ?_
    · simp only [pointers, List.count_cons]
      omega
    · have hspare := hwf.spare
      simp only [spares, contents_cons, contents_nil, List.append_nil,
        List.append_eq_nil_iff] at hspare ⊢
      exact ⟨hspare.1, hempty, hspare.2.2⟩
  obtain ⟨hwf, hnew, hlt, hempty⟩ := hwf₁.alloc
  refine hwf.own hnew hlt (fun a => ?_) rfl ?_
  · simp only [pointers, List.count_cons]
    omega
  · have hspare := hwf.spare
    simp only [spares, contents_cons, contents_nil, List.append_nil,
      List.append_eq_nil_iff] at hspare ⊢
    exact ⟨hspare.1, hspare.2.1, hempty⟩

/-- The critical section moves buffers around. -/
theorem Wf.rotate (hs : s.Wf) : s.rotate.Wf := by
  have hspare := hs.spare
  simp only [spares, contents_cons, contents_nil, List.append_nil, List.append_eq_nil_iff] at hspare
  rw [AsyncLogging.rotate]
  split
  · next hnext =>
    refine hs.mono (fun a => ?_) rfl ?_
    · simp only [pointers, List.count_cons, List.count_append, List.count_nil,
        Option.none_beq_some, Bool.false_eq_true, if_false]
      omega
    · simp [spares, hspare.2.2]
  · next hnext =>
    refine hs.mono (fun a => ?_) rfl ?_
    · simp only [pointers, List.count_cons, List.count_append, List.count_nil,
        Option.none_beq_some, Bool.false_eq_true, if_false]
      omega
    · simp [spares, hspare.1, hspare.2.2]

theorem Wf.recycle (hs : s.Wf) (h : s.recycle = .ok s') : s'.Wf := by
  obtain ⟨-, ⟨-, rfl⟩ | ⟨b, hnone, hb, rfl⟩⟩ := recycle_ok h
  · refine hs.mono (fun a => ?_) rfl hs.spare
    simp only [pointers, List.count_cons, List.count_append, List.count_nil]
    omega
  -- The buffer leaves the batch for `newBuffer1`: no count goes up.
  · have hcount : ∀ a,
        (if some b == some a then 1 else 0) ≤ s.buffersWaitToWrite.count (some a) := by
      intro a
      split
      · next heq =>
        rw [← beq_iff_eq.1 heq]
        exact List.count_pos_iff.2 hb
      · exact Nat.zero_le _
    refine hs.mono (fun a => ?_) rfl ?_
    · have hcount := hcount a
      simp only [pointers, hnone, List.count_cons, List.count_append, List.count_nil,
        Option.none_beq_some, Bool.false_eq_true, if_false]
      omega
    · have hspare := hs.spare
      have hunique := hs.unique b
      have hpos := List.count_pos_iff.2 hb
      -- Emptying a buffer of the batch leaves the other spare ones empty.
      have hnext : some b ∉ [s.nextBuffer, s.newBuffer2] := by
        intro hmem
        have hmem := List.count_pos_iff.2 hmem
        simp only [pointers, List.count_cons, List.count_append, List.count_nil] at hunique hmem
        omega
      have hrest : contents s.heap [s.nextBuffer, s.newBuffer2] = [] := by
        simpa [spares, hnone] using hspare
      rw [← contents_update hnext []] at hrest
      simpa [spares] using hrest

/-- The logging thread keeps one owner for each buffer. -/
theorem Wf.thread (hs : s.Wf) (h : s.thread = .ok s') : s'.Wf := by
  cases thread_ok h with
  | start hpc => exact hs.start hpc h
  | rotate => exact hs.rotate
  | shed =>
    refine hs.mono (fun a => ?_) rfl hs.spare
    have hcount := (List.take_sublist 2 s.buffersWaitToWrite).count_le (some a)
    simp only [pointers, List.count_cons, List.count_append]
    omega
  | recycle hpc hrecycle => exact hs.recycle hrecycle
  | last => exact ⟨hs.putAway.unique, hs.putAway.lt_nextId, hs.putAway.spare⟩
  | writtenLast =>
    refine hs.mono (fun a => ?_) rfl hs.spare
    simp only [pointers, List.count_cons, List.count_append, List.count_nil]
    omega
  -- The other steps only go on, or write a buffer.
  | head | wait | keep | write | written | writeLast =>
    exact ⟨hs.unique, hs.lt_nextId, hs.spare⟩
  | done => exact hs

theorem wf_of_reachable (hs : system.Reachable s) : s.Wf := by
  refine hs.invariant (fun s hs => ?_) fun s e s' _ hs _ hst => ?_
  · rw [Set.mem_singleton_iff.1 hs]
    exact wf_new
  · cases hst with
    | append h => exact hs.append h
    | thread _ h => exact hs.thread h
    | stop => exact ⟨hs.unique, hs.lt_nextId, hs.spare⟩

end Wf

end AsyncLogging

end Webserver
