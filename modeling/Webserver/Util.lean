import Mathlib.Data.Int.Basic
import Mathlib.Data.List.Basic
import Mathlib.Data.List.TakeWhile

/-!
# Bytes, machine integers and descriptor I/O

The helpers of `base/Util.cpp`, over the results that successive `read` and
`write` calls report. The kernel is a schedule of such results: a list,
consumed from its front by the calls. A `read` past the end of its schedule
reports `EAGAIN`, and a `write` past the end of its schedule takes everything,
so that any finite behaviour of the kernel is some schedule, and an empty one
is a silent peer with unlimited buffers.

* `readn`: drains the descriptor into a string until `EAGAIN`.
* `writeLoop`: the loop of both `writen` overloads; what it has written and
  what it has left over make up its buffer (`writeLoop_append`).
* `writen`: the overload on a string, which keeps what is left over.
* `writenRaw`: the overload on a raw buffer, which drops it.

Lengths go through `ssize_t`, `size_t` and `int` as in the source (`toSizeT`,
`toInt`).
-/

namespace Webserver

/-- The bytes of a `std::string`. -/
abbrev Bytes := List UInt8

/-- The bytes of a string literal. -/
def bytes (s : String) : Bytes := s.toByteArray.data.toList

abbrev cr : UInt8 := 13
abbrev lf : UInt8 := 10
abbrev sp : UInt8 := 32
abbrev colon : UInt8 := 58
abbrev dot : UInt8 := 46

/-- The C string at the start of a string: its bytes up to the first NUL. -/
def cStr (s : Bytes) : Bytes := s.takeWhile (· ≠ 0)

theorem cStr_eq_self {s : Bytes} (h : 0 ∉ s) : cStr s = s :=
  List.takeWhile_eq_self_iff.2 fun _ hb => decide_eq_true fun h0 => h (h0 ▸ hb)

/-- `std::to_string`. -/
def toStr (n : ℕ) : Bytes := bytes (toString n)

/-! ## Machine integers -/

/-- The conversion of a signed integer to `size_t`. -/
def toSizeT (n : ℤ) : ℕ := (n % 0x10000000000000000).toNat

/-- The conversion of a `size_t` to `int`: the low 32 bits, as a signed number. -/
def toInt (n : ℕ) : ℤ :=
  if n % 0x100000000 < 0x80000000 then n % 0x100000000 else n % 0x100000000 - 0x100000000

theorem toInt_nonneg_iff {n : ℕ} : 0 ≤ toInt n ↔ n % 0x100000000 < 0x80000000 := by
  unfold toInt
  split <;> omega

theorem toInt_of_lt {n : ℕ} (h : n < 0x80000000) : toInt n = n := by
  unfold toInt
  split <;> omega

theorem toInt_toSizeT (n : ℕ) : toInt (toSizeT n) = toInt n := by
  have h : toSizeT n % 0x100000000 = n % 0x100000000 := by
    unfold toSizeT
    omega
  unfold toInt
  split <;> split <;> omega

/-! ## Reading -/

/-- The size of the buffer of `readn`. -/
abbrev maxBuff : ℕ := 1024

/-- What one successful `read` delivers: at least one byte, and no more than it
    asked for. -/
structure Piece where
  bytes : Bytes
  nonempty : bytes ≠ []
  bounded : bytes.length ≤ maxBuff

/-- The result of a `read` call. -/
inductive ReadResult
  | data (piece : Piece)
  | eof
  | eintr
  | eagain
  | fail

/-- What `readn` returns, the string it has filled, and the schedule left over. -/
structure ReadnResult where
  ret : ℕ
  buffer : Bytes
  reads : List ReadResult

/-- `readn(int, std::string &, bool &)`: the value returned is a `size_t`, in
    which `-1` stands for an error or an end of file. -/
def readn : List ReadResult → Bytes → ℤ → ReadnResult
  | [], buffer, readSum => ⟨toSizeT readSum, buffer, []⟩
  | .data piece :: reads, buffer, readSum =>
      readn reads (buffer ++ piece.bytes) (readSum + piece.bytes.length)
  | .eof :: reads, buffer, _ => ⟨toSizeT (-1), buffer, reads⟩
  | .eintr :: reads, buffer, readSum => readn reads buffer readSum
  | .eagain :: reads, buffer, readSum => ⟨toSizeT readSum, buffer, reads⟩
  | .fail :: reads, buffer, _ => ⟨toSizeT (-1), buffer, reads⟩

/-- The bytes a schedule can still deliver. -/
def pendingBytes : List ReadResult → ℕ
  | [] => 0
  | .data piece :: reads => piece.bytes.length + pendingBytes reads
  | _ :: reads => pendingBytes reads

/-- Draining only moves bytes from the schedule to the buffer. -/
theorem readn_pendingBytes (reads : List ReadResult) (buffer : Bytes) (readSum : ℤ) :
    (readn reads buffer readSum).buffer.length + pendingBytes (readn reads buffer readSum).reads ≤
      buffer.length + pendingBytes reads := by
  fun_induction readn reads buffer readSum with
  | case2 buffer readSum piece reads ih =>
    rw [List.length_append] at ih
    rw [pendingBytes]
    omega
  | case4 buffer readSum reads ih => exact ih
  | _ => simp [pendingBytes]

/-- The schedule delivers the bytes `s`, and then nothing but `EAGAIN`. -/
inductive Delivers : List ReadResult → Bytes → Prop
  | done (n : ℕ) : Delivers (List.replicate n .eagain) []
  | eintr {reads : List ReadResult} {s : Bytes} : Delivers reads s → Delivers (.eintr :: reads) s
  | data {reads : List ReadResult} {s : Bytes} (piece : Piece) :
      Delivers reads s → Delivers (.data piece :: reads) (piece.bytes ++ s)

/-- A silent peer delivers nothing. -/
theorem delivers_nil : Delivers [] [] := .done 0

/-- Any bytes can be delivered, if need be one by one. -/
theorem exists_delivers (s : Bytes) : ∃ reads, Delivers reads s := by
  induction s with
  | nil => exact ⟨[], delivers_nil⟩
  | cons x s ih =>
    obtain ⟨reads, h⟩ := ih
    exact ⟨_, .data ⟨[x], List.cons_ne_nil x [], by simp [maxBuff]⟩ h⟩

/-- `readn` appends what the schedule delivers, and leaves a schedule that
    delivers nothing more. -/
theorem Delivers.readn {reads : List ReadResult} {s : Bytes} (h : Delivers reads s)
    (buffer : Bytes) (readSum : ℤ) :
    (readn reads buffer readSum).ret = toSizeT (readSum + s.length) ∧
      (readn reads buffer readSum).buffer = buffer ++ s ∧
      Delivers (readn reads buffer readSum).reads [] := by
  induction h generalizing buffer readSum with
  | done n =>
    cases n with
    | zero => simpa [Webserver.readn] using delivers_nil
    | succ n => simpa [List.replicate_succ, Webserver.readn] using Delivers.done n
  | eintr _ ih => exact ih buffer readSum
  | data piece _ ih =>
    obtain ⟨hret, hbuffer, hreads⟩ := ih (buffer ++ piece.bytes) (readSum + piece.bytes.length)
    refine ⟨hret.trans ?_, hbuffer.trans (List.append_assoc _ _ _), hreads⟩
    rw [List.length_append, Int.natCast_add, Int.add_assoc]

/-! ## Writing -/

/-- The result of a `write` call: the kernel takes up to `n + 1` of the bytes
    offered, or none. -/
inductive WriteResult
  | accept (n : ℕ)
  | zero
  | eintr
  | eagain
  | fail

/-- What the loop of `writen` has written and has left over, whether it ended on
    an error, and the schedule left over. -/
structure WriteOutcome where
  accepted : Bytes
  left : Bytes
  failed : Bool
  writes : List WriteResult

/-- The loop of `writen`. -/
def writeLoop : List WriteResult → Bytes → WriteOutcome
  | writes, [] => ⟨[], [], false, writes⟩
  | [], ptr => ⟨ptr, [], false, []⟩
  | .accept n :: writes, ptr =>
      let rest := writeLoop writes (ptr.drop (n + 1))
      { rest with accepted := ptr.take (n + 1) ++ rest.accepted }
  | .zero :: writes, ptr => ⟨[], ptr, true, writes⟩
  | .eintr :: writes, ptr => writeLoop writes ptr
  | .eagain :: writes, ptr => ⟨[], ptr, false, writes⟩
  | .fail :: writes, ptr => ⟨[], ptr, true, writes⟩

/-- What the loop has written and what it has left over make up the buffer. -/
theorem writeLoop_append (writes : List WriteResult) (ptr : Bytes) :
    (writeLoop writes ptr).accepted ++ (writeLoop writes ptr).left = ptr := by
  fun_induction writeLoop writes ptr with
  | case3 ptr n writes _ rest ih => rw [List.append_assoc, ih, List.take_append_drop]
  | case5 ptr writes _ ih => exact ih
  | _ => simp

@[simp] theorem writeLoop_nil (ptr : Bytes) : writeLoop [] ptr = ⟨ptr, [], false, []⟩ := by
  cases ptr <;> rfl

/-- No result of the schedule is a hard error. -/
def Soft (writes : List WriteResult) : Prop := .fail ∉ writes ∧ .zero ∉ writes

theorem soft_nil : Soft [] := ⟨List.not_mem_nil, List.not_mem_nil⟩

theorem Soft.tail {r : WriteResult} {writes : List WriteResult} (h : Soft (r :: writes)) :
    Soft writes :=
  ⟨fun hr => h.1 (List.mem_cons_of_mem _ hr), fun hr => h.2 (List.mem_cons_of_mem _ hr)⟩

/-- Without hard errors the loop does not fail, and leaves no hard errors over. -/
theorem Soft.writeLoop {writes : List WriteResult} (h : Soft writes) (ptr : Bytes) :
    (writeLoop writes ptr).failed = false ∧ Soft (writeLoop writes ptr).writes := by
  fun_induction Webserver.writeLoop writes ptr with
  | case1 writes => exact ⟨rfl, h⟩
  | case2 ptr _ => exact ⟨rfl, soft_nil⟩
  | case3 ptr n writes _ rest ih => exact ih h.tail
  | case4 ptr writes _ => exact absurd List.mem_cons_self h.2
  | case5 ptr writes _ ih => exact ih h.tail
  | case6 ptr writes _ => exact ⟨rfl, h.tail⟩
  | case7 ptr writes _ => exact absurd List.mem_cons_self h.1

/-- What `writen` returns, the string it leaves, the bytes the kernel took, and
    the schedule left over. -/
structure WritenResult where
  ret : ℕ
  buffer : Bytes
  accepted : Bytes
  writes : List WriteResult

/-- `writen(int, std::string &)`: it leaves the bytes not written yet in the
    string, and the whole string if it ends on an error. -/
def writen (writes : List WriteResult) (buffer : Bytes) : WritenResult :=
  let loop := writeLoop writes buffer
  let writeSum := loop.accepted.length
  if loop.failed then ⟨toSizeT (-1), buffer, loop.accepted, loop.writes⟩
  else if (writeSum : ℤ) = toInt buffer.length then
    ⟨toSizeT writeSum, [], loop.accepted, loop.writes⟩
  else ⟨toSizeT writeSum, buffer.drop writeSum, loop.accepted, loop.writes⟩

/-- `writen(int, void *, int)`: what is not written is dropped by its callers. -/
def writenRaw (writes : List WriteResult) (buffer : Bytes) : WritenResult :=
  let loop := writeLoop writes buffer
  if loop.failed then ⟨toSizeT (-1), buffer, loop.accepted, loop.writes⟩
  else ⟨toSizeT loop.accepted.length, buffer, loop.accepted, loop.writes⟩

/-- The bytes written make `writen` clear the string, although they are not all
    of its bytes: their number is the narrowing of its length to `int`. -/
def Aliased (writes : List WriteResult) (buffer : Bytes) : Prop :=
  (writeLoop writes buffer).accepted.length ≠ buffer.length ∧
    ((writeLoop writes buffer).accepted.length : ℤ) = toInt buffer.length

instance (writes : List WriteResult) (buffer : Bytes) : Decidable (Aliased writes buffer) :=
  inferInstanceAs (Decidable (_ ∧ _))

@[simp] theorem writen_accepted (writes : List WriteResult) (buffer : Bytes) :
    (writen writes buffer).accepted = (writeLoop writes buffer).accepted := by
  simp only [writen]
  split_ifs <;> rfl

/-- Without an error, `writen` leaves what the loop has left over, unless the
    comparison of lengths is fooled. -/
theorem writen_buffer {writes : List WriteResult} {buffer : Bytes}
    (hfailed : (writeLoop writes buffer).failed = false) (halias : ¬Aliased writes buffer) :
    (writen writes buffer).buffer = (writeLoop writes buffer).left := by
  have happ := writeLoop_append writes buffer
  have hdrop : buffer.drop (writeLoop writes buffer).accepted.length =
      (writeLoop writes buffer).left := by
    have hdrop := @List.drop_left _ (writeLoop writes buffer).accepted
      (writeLoop writes buffer).left
    rwa [happ] at hdrop
  simp only [writen, hfailed, Bool.false_eq_true, if_false]
  split
  · next heq =>
    have hlen : (writeLoop writes buffer).accepted.length = buffer.length := by
      by_contra hne
      exact halias ⟨hne, heq⟩
    rw [← hdrop, hlen, List.drop_length]
  · exact hdrop

/-- A kernel with unlimited buffers takes the whole string. -/
@[simp] theorem writen_nil (buffer : Bytes) :
    writen [] buffer = ⟨toSizeT buffer.length, [], buffer, []⟩ := by
  simp [writen]

end Webserver
