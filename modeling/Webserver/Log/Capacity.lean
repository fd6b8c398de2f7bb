import Webserver.Log.AsyncLogging
import Webserver.Log.FixedBuffer

/-!
# Messages that are dropped

The capacity of a buffer is tested twice: `AsyncLogging::append` keeps the current
buffer if its room is at least the length of the message, and
`FixedBuffer::append` copies the message if its room is more than that.

* `FixedBuffer.append_content`: the bytes of a buffer, up to the cursor in its array,
  change as the logger takes them to.
* `AsyncLogging.appends_iff`: a message is dropped exactly if it would have filled
  the current buffer up.
-/

namespace Webserver

open Transition Pointers

/-- The bytes of a buffer change as `FixedBuffer.append` says. -/
theorem FixedBuffer.append_content {b : Log.FixedBuffer kLargerBuffer} (hb : b.Within)
    (msg : Message) : ∃ b', b.appendText msg.bytes = some b' ∧ b'.Within ∧
      b'.content = FixedBuffer.append b.content msg.bytes := by
  obtain ⟨b', hb', hwithin, hcontent⟩ := Log.FixedBuffer.appendText_eq hb msg.bounded
  refine ⟨b', hb', hwithin, hcontent.trans ?_⟩
  have hroom : FixedBuffer.avail b.content > msg.bytes.length ↔
      b.content.length + msg.bytes.length < kLargerBuffer := by
    rw [FixedBuffer.avail]
    omega
  rw [FixedBuffer.append, FixedBuffer.fits]
  simp only [hroom]
  split
  · rfl
  · exact (List.append_nil _).symm

namespace AsyncLogging

/-- The bytes in the full buffers and the current one, the oldest first. -/
def filled (s : AsyncLogging) : Bytes := contents s.heap (s.bufferPtrs ++ [s.currentBuffer])

/-- The message is appended: it ends the current buffer, and comes after the bytes
    that were there before. -/
def Appends (s : AsyncLogging) (msg : Message) : Prop :=
  ∃ s', s.append msg = .ok s' ∧ (∃ b, s'.currentBuffer = some b ∧ msg.bytes <:+ s'.heap b) ∧
    s'.filled = s.filled ++ msg.bytes

section Fill

variable {s : AsyncLogging} {b : BufferId} {msg : Message}

theorem filled_fill (hs : s.Wf) (hb : s.currentBuffer = some b) (msg : Message) :
    (s.fill b msg).filled = s.filled ++ FixedBuffer.fits (s.heap b) msg.bytes := by
  have hframe : contents (s.fill b msg).heap s.bufferPtrs = contents s.heap s.bufferPtrs :=
    contents_update (hs.notMem_current hb).2.1 _
  have hfilled : (s.fill b msg).filled =
      contents (s.fill b msg).heap (s.bufferPtrs ++ [some b]) := by
    rw [← hb]
    rfl
  rw [hfilled, filled, hb, contents_append, contents_append, hframe]
  simp [fill_heap_self, FixedBuffer.append]

theorem filled_advance (hs : s.Wf) : s.advance.2.filled = s.filled := by
  obtain ⟨-, hcurrent, hempty, hframe⟩ := hs.advance
  have hptrs : s.advance.2.bufferPtrs = s.bufferPtrs ++ [s.currentBuffer] := by
    obtain ⟨heap, nextId, heq⟩ := s.advance_eq
    rw [heq]
  have hsubset : ∀ p ∈ s.bufferPtrs ++ [s.currentBuffer], p ∈ s.pointers := by
    intro p hp
    rw [List.mem_append, List.mem_singleton] at hp
    rcases hp with hp | rfl
    · simp [pointers, hp]
    · exact List.mem_cons_self
  rw [filled, filled, hptrs, hcurrent, contents_append, hframe _ hsubset]
  simp [hempty]

/-- A message that fits is at the end of the buffer. -/
theorem suffix_fill (hfits : FixedBuffer.avail (s.heap b) > msg.bytes.length) :
    msg.bytes <:+ (s.fill b msg).heap b := by
  rw [fill_heap_self, FixedBuffer.append, FixedBuffer.fits, if_pos hfits]
  exact List.suffix_append _ _

/-- Where there is more room than needed. -/
theorem appends_of_lt (hs : s.Wf) (hb : s.currentBuffer = some b)
    (hfits : FixedBuffer.avail (s.heap b) > msg.bytes.length) : s.Appends msg := by
  refine ⟨s.fill b msg, ?_, ⟨b, hb, suffix_fill hfits⟩, ?_⟩
  · simp only [append, hb]
    exact if_pos hfits.le
  · rw [filled_fill hs hb, FixedBuffer.fits, if_pos hfits]

/-- Where there is less room than needed, another buffer is made current. -/
theorem appends_of_gt (hs : s.Wf) (hb : s.currentBuffer = some b)
    (hfull : FixedBuffer.avail (s.heap b) < msg.bytes.length)
    (hlen : msg.bytes.length < kLargerBuffer) : s.Appends msg := by
  obtain ⟨hwf, hcurrent, hempty, -⟩ := hs.advance
  have hfits : FixedBuffer.avail (s.advance.2.heap s.advance.1) > msg.bytes.length := by
    rw [hempty]
    exact hlen
  refine ⟨s.advance.2.fill s.advance.1 msg, ?_, ⟨_, hcurrent, suffix_fill hfits⟩, ?_⟩
  · simp only [append, hb]
    exact if_neg (Nat.not_le.2 hfull)
  · rw [filled_fill hwf hcurrent, filled_advance hs, FixedBuffer.fits, if_pos hfits]

/-- Where there is exactly the room needed, the buffer is kept, but the message is
    not copied. -/
theorem not_appends_of_eq (hs : s.Wf) (hb : s.currentBuffer = some b)
    (heq : FixedBuffer.avail (s.heap b) = msg.bytes.length) (hpos : 0 < msg.bytes.length) :
    ¬s.Appends msg := by
  rintro ⟨s', happend, -, hfilled⟩
  simp only [append, hb, if_pos heq.ge] at happend
  cases happend
  rw [filled_fill hs hb, FixedBuffer.fits, if_neg (by omega)] at hfilled
  exact absurd (List.append_cancel_left hfilled) (List.length_pos_iff.1 hpos).symm

end Fill

/-- A message is appended unless it is as long as the current buffer has room. -/
theorem appends_iff {s : AsyncLogging} {b : BufferId} {msg : Message} (hs : system.Reachable s)
    (hb : s.currentBuffer = some b) (hpos : 0 < msg.bytes.length)
    (hlen : msg.bytes.length < kLargerBuffer) :
    s.Appends msg ↔ FixedBuffer.avail (s.heap b) ≠ msg.bytes.length := by
  have hwf := wf_of_reachable hs
  constructor
  · exact fun happends heq => not_appends_of_eq hwf hb heq hpos happends
  · intro hne
    rcases Nat.lt_or_gt_of_ne hne with hfull | hfits
    · exact appends_of_gt hwf hb hfull hlen
    · exact appends_of_lt hwf hb hfits

/-- The first message of a logger. -/
theorem appends_iff_new :
    new.Appends ⟨[0], by decide⟩ ↔ FixedBuffer.avail (new.heap 0) ≠ 1 :=
  appends_iff (.init rfl) rfl (by decide) (by decide)

/-- A buffer with room for one byte, and a message of one byte. -/
theorem not_appends :
    ¬∀ (s : AsyncLogging) (b : BufferId) (msg : Message), system.Reachable s →
      s.currentBuffer = some b → 0 < msg.bytes.length → msg.bytes.length < kLargerBuffer →
      s.Appends msg := by
  intro hall
  let long : Message := ⟨List.replicate (kLargerBuffer - 1) 0, by
    rw [List.length_replicate]
    decide⟩
  let short : Message := ⟨[0], by decide⟩
  have hlong : long.bytes.length = kLargerBuffer - 1 := List.length_replicate
  have hroom : FixedBuffer.avail (new.heap 0) = kLargerBuffer := rfl
  have hfits : FixedBuffer.avail (new.heap 0) > long.bytes.length := by
    rw [hroom, hlong]
    decide
  have hs : system.Reachable (new.fill 0 long) :=
    .step (.init rfl) trivial (Step.append (if_pos hfits.le))
  have hone : FixedBuffer.avail ((new.fill 0 long).heap 0) = 1 := by
    rw [fill_heap_self, FixedBuffer.append, FixedBuffer.fits, if_pos hfits, FixedBuffer.avail,
      List.length_append, hlong]
    rfl
  have heq : FixedBuffer.avail ((new.fill 0 long).heap 0) = short.bytes.length := hone
  exact not_appends_of_eq (wf_of_reachable hs) rfl heq (by decide)
    (hall _ 0 short hs rfl (by decide) (by decide))

end AsyncLogging

end Webserver
