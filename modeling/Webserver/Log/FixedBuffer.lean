import Webserver.Util
import Mathlib.Algebra.Group.Nat.Defs
import Mathlib.Data.List.TakeDrop

/-!
# Buffers of a fixed size

`FixedBuffer`: an array of characters, and a cursor behind those that have been appended.
The room behind the cursor and the length of what is appended are compared as `int`, but
the length copied is the `size_t` it was given.

A copy that reaches beyond the end of the array is undefined, and has no result here
(`none`).

* `Log.FixedBuffer.append_of_lt`, `append_of_ge`: what has up to `2 ^ 31 - 1` bytes is
  appended if there is more room than it needs, and dropped otherwise.
* `Log.FixedBuffer.staysWithin_iff`: longer ones can pass for short ones (`Narrowed`).
-/

namespace Webserver

namespace Log

def kSmallBuffer : ℕ := 4000

/-- A buffer of `SIZE` bytes, a number that is an `int`, with the position of its cursor. -/
structure FixedBuffer (SIZE : ℕ) where
  data : Bytes
  cur : ℕ
  length_data : data.length = SIZE
  size_lt : SIZE < 2 ^ 31

namespace FixedBuffer

variable {SIZE : ℕ}

def reset (b : FixedBuffer SIZE) : FixedBuffer SIZE := { b with cur := 0 }

def add (b : FixedBuffer SIZE) (len : ℕ) : FixedBuffer SIZE := { b with cur := b.cur + len }

def length (b : FixedBuffer SIZE) : ℤ := toInt b.cur

/-- The room behind the cursor. -/
def avail (b : FixedBuffer SIZE) : ℤ := toInt (toSizeT ((SIZE : ℤ) - b.cur))

/-- The bytes up to the cursor. -/
def content (b : FixedBuffer SIZE) : Bytes := b.data.take b.cur

/-- Copies `len` bytes, from where `buf` points to, behind the cursor. -/
def memcpy (b : FixedBuffer SIZE) (buf : ℕ → UInt8) (len : ℕ) : Option (FixedBuffer SIZE) :=
  if h : b.cur + len ≤ SIZE then
    some { b with
      data := b.data.take b.cur ++ (List.range len).map buf ++ b.data.drop (b.cur + len)
      length_data := by
        have hlen := b.length_data
        simp
        omega }
  else none

def append (b : FixedBuffer SIZE) (buf : ℕ → UInt8) (len : ℕ) : Option (FixedBuffer SIZE) :=
  if b.avail > toInt len then (b.memcpy buf len).map (·.add len) else some b

/-- The bytes of a string, and the NUL behind them. -/
def pointer (s : Bytes) (i : ℕ) : UInt8 := s.getD i 0

/-- Appending the bytes of a string. -/
def appendText (b : FixedBuffer SIZE) (s : Bytes) : Option (FixedBuffer SIZE) :=
  b.append (pointer s) s.length

/-! ## What is appended -/

/-- The cursor is inside of the array, or at its end. -/
def Within (b : FixedBuffer SIZE) : Prop := b.cur ≤ SIZE

variable {b b' : FixedBuffer SIZE} {buf : ℕ → UInt8} {len : ℕ}

theorem within_reset (b : FixedBuffer SIZE) : b.reset.Within := Nat.zero_le _

theorem Within.length_content (hb : b.Within) : b.content.length = b.cur := by
  have hle : b.cur ≤ b.data.length := by
    rw [b.length_data]
    exact hb
  exact List.length_take_of_le hle

theorem Within.avail (hb : b.Within) : b.avail = SIZE - b.cur := by
  have hsize := b.size_lt
  have hle : b.cur ≤ SIZE := hb
  have hroom : toSizeT ((SIZE : ℤ) - b.cur) = SIZE - b.cur := by
    rw [toSizeT]
    omega
  rw [FixedBuffer.avail, hroom, toInt_of_lt (by omega)]
  omega

theorem Within.avail_gt_iff (hb : b.Within) (hlen : len < 0x80000000) :
    b.avail > toInt len ↔ b.cur + len < SIZE := by
  rw [hb.avail, toInt_of_lt hlen]
  omega

theorem map_pointer (s : Bytes) : (List.range s.length).map (pointer s) = s := by
  refine List.ext_getElem (by simp) fun i hi _ => ?_
  have hlt : i < s.length := by simpa using hi
  simp [pointer, hlt]

/-- A copy that fits, and moving the cursor behind the first `n` bytes of it. -/
theorem Within.memcpy (hb : b.Within) (buf : ℕ → UInt8) (hlen : b.cur + len ≤ SIZE) {n : ℕ}
    (hn : n ≤ len) :
    ∃ b', b.memcpy buf len = some b' ∧ b'.cur = b.cur ∧ (b'.add n).Within ∧
      (b'.add n).content = b.content ++ (List.range n).map buf := by
  refine ⟨_, dif_pos hlen, rfl, Nat.le_trans (Nat.add_le_add_left hn _) hlen, ?_⟩
  have hcopied : ((List.range len).map buf).take n = (List.range n).map buf := by
    rw [← List.map_take, List.take_range, Nat.min_eq_left hn]
  have hcur := hb.length_content
  rw [content] at hcur
  change (b.data.take b.cur ++ (List.range len).map buf ++ _).take (b.cur + n) = _
  rw [List.append_assoc, List.take_append, hcur, List.take_of_length_le (by omega),
    Nat.add_sub_cancel_left, List.take_append_of_le_length (by simpa using hn), hcopied]
  rfl

/-- What is shorter than the room is appended. -/
theorem append_of_lt (hb : b.Within) (buf : ℕ → UInt8) (hlen : b.cur + len < SIZE) :
    ∃ b', b.append buf len = some b' ∧ b'.Within ∧
      b'.content = b.content ++ (List.range len).map buf := by
  have hsize := b.size_lt
  obtain ⟨b', hcopy, hcur, hwithin, hcontent⟩ := hb.memcpy buf (Nat.le_of_lt hlen) le_rfl
  refine ⟨b'.add len, ?_, hwithin, hcontent⟩
  rw [append, if_pos ((hb.avail_gt_iff (by omega)).2 hlen), hcopy, Option.map_some]

/-- What is not is dropped. -/
theorem append_of_ge (hb : b.Within) (buf : ℕ → UInt8) (hlen : SIZE ≤ b.cur + len)
    (hlt : len < 0x80000000) : b.append buf len = some b :=
  if_neg fun h => Nat.not_le.2 ((hb.avail_gt_iff hlt).1 h) hlen

/-- A text is appended if there is more room than it needs. -/
theorem appendText_eq (hb : b.Within) {s : Bytes} (hs : s.length < 0x80000000) :
    ∃ b', b.appendText s = some b' ∧ b'.Within ∧ b'.content =
      if b.content.length + s.length < SIZE then b.content ++ s else b.content := by
  rw [hb.length_content]
  split
  · next hfits =>
    have happend := append_of_lt hb (pointer s) hfits
    rwa [map_pointer] at happend
  · next hfull => exact ⟨b, append_of_ge hb _ (Nat.not_lt.1 hfull) hs, hb, rfl⟩

/-! ## Lengths that are narrowed -/

/-- The length does not fit, but passes the comparison with the room once it has been
    converted to `int`. -/
def Narrowed (b : FixedBuffer SIZE) (len : ℕ) : Prop :=
  0x80000000 ≤ len ∧ toInt len < SIZE - b.cur

theorem append_eq_none_iff (hb : b.Within) : b.append buf len = none ↔ b.Narrowed len := by
  have hsize := b.size_lt
  rw [append, Narrowed, hb.avail]
  by_cases hlen : len < 0x80000000
  · refine iff_of_false ?_ fun h => Nat.not_le.2 hlen h.1
    split
    · next havail =>
      rw [toInt_of_lt hlen] at havail
      have hle : b.cur + len ≤ SIZE := by omega
      obtain ⟨b', hcopy, -⟩ := hb.memcpy buf hle le_rfl
      simp [hcopy]
    · exact Option.some_ne_none _
  · have hcopy : b.memcpy buf len = none := dif_neg (by omega)
    rw [hcopy, Option.map_none, and_iff_right (Nat.not_lt.1 hlen)]
    split
    · next havail => exact iff_of_true rfl havail
    · next havail => exact iff_of_false (Option.some_ne_none _) havail

/-- What has a result has copied only what fits. -/
theorem append_eq_some (hb : b.Within) (h : b.append buf len = some b') :
    b'.Within ∧ (b' = b ∨ b.cur + len ≤ SIZE ∧ b'.cur = b.cur + len) := by
  rw [append] at h
  split at h
  · by_cases hlen : b.cur + len ≤ SIZE
    · obtain ⟨b₁, hcopy, hcur, hwithin, -⟩ := hb.memcpy buf hlen le_rfl
      rw [hcopy] at h
      cases h
      exact ⟨hwithin, .inr ⟨hlen, congrArg (· + len) hcur⟩⟩
    · rw [memcpy, dif_neg hlen] at h
      cases h
  · cases h
    exact ⟨hb, .inl rfl⟩

/-- A length that is negative as an `int` passes in any case. -/
theorem narrowed_of_neg (hb : b.Within) (hlen : toInt len < 0) : b.Narrowed len := by
  have hle : b.cur ≤ SIZE := hb
  refine ⟨?_, by omega⟩
  by_contra hlt
  rw [toInt_of_lt (Nat.not_le.1 hlt)] at hlen
  omega

/-- A call of `append`. -/
structure Append where
  buf : ℕ → UInt8
  len : ℕ

def appends (b : FixedBuffer SIZE) (calls : List Append) : Option (FixedBuffer SIZE) :=
  calls.foldlM (fun b c => b.append c.buf c.len) b

/-- Every call copies only what fits, and leaves the cursor within the buffer. -/
def StaysWithin (b : FixedBuffer SIZE) : List Append → Prop
  | [] => b.Within
  | c :: calls => b.Within ∧ ∃ b', b.append c.buf c.len = some b' ∧
      (b' = b ∨ b.cur + c.len ≤ SIZE ∧ b'.cur = b.cur + c.len) ∧ b'.StaysWithin calls

theorem Within.staysWithin (hb : b.Within) (calls : List Append) :
    b.StaysWithin calls ↔ ∀ before c after, calls = before ++ c :: after →
      ∀ b₁, b.appends before = some b₁ → ¬b₁.Narrowed c.len := by
  induction calls generalizing b with
  | nil => exact iff_of_true hb fun before c after h => absurd h (by simp)
  | cons c calls ih =>
    rw [StaysWithin, and_iff_right hb]
    constructor
    · rintro ⟨b', happend, -, hrest⟩ before c' after hcalls b₁ hb₁
      obtain ⟨hb', -⟩ := append_eq_some hb happend
      cases before with
      | nil =>
        cases hb₁
        cases hcalls
        intro hnarrowed
        rw [(append_eq_none_iff hb).2 hnarrowed] at happend
        cases happend
      | cons c₀ before =>
        cases hcalls
        rw [appends, List.foldlM_cons, happend] at hb₁
        exact (ih hb').1 hrest before c' after rfl b₁ hb₁
    · intro hnot
      cases happend : b.append c.buf c.len with
      | none => exact absurd ((append_eq_none_iff hb).1 happend) (hnot [] c calls rfl b rfl)
      | some b' =>
        obtain ⟨hb', hcopied⟩ := append_eq_some hb happend
        refine ⟨b', rfl, hcopied, (ih hb').2 fun before c' after hcalls b₁ hb₁ => ?_⟩
        refine hnot (c :: before) c' after (congrArg (c :: ·) hcalls) b₁ ?_
        rw [appends, List.foldlM_cons, happend]
        exact hb₁

/-- For every buffer size, a sequence of calls stays within the buffer unless one of them
    has a length that is narrowed. -/
theorem staysWithin_iff (b : FixedBuffer SIZE) (calls : List Append) :
    b.reset.StaysWithin calls ↔ ∀ before c after, calls = before ++ c :: after →
      ∀ b₁, b.reset.appends before = some b₁ → ¬b₁.Narrowed c.len :=
  b.within_reset.staysWithin calls

/-- A string of `2 ^ 31` bytes, appended to an empty buffer. -/
theorem not_staysWithin :
    ¬∀ (SIZE : ℕ) (b : FixedBuffer SIZE) (calls : List Append), b.reset.StaysWithin calls := by
  intro hall
  let b : FixedBuffer kSmallBuffer :=
    ⟨List.replicate kSmallBuffer 0, 0, List.length_replicate, by decide⟩
  obtain ⟨-, b', happend, -⟩ := hall kSmallBuffer b [⟨fun _ => 0, 0x80000000⟩]
  have hnone : b.reset.append (fun _ => 0) 0x80000000 = none :=
    (append_eq_none_iff b.within_reset).2 (narrowed_of_neg b.within_reset (by decide))
  cases hnone.symm.trans happend

end FixedBuffer

end Log

end Webserver
