import Webserver.Util
import Mathlib.Algebra.Group.Nat.Defs

/-!
# What a series of reads or writes transfers

A buffer is written by as many calls of `writen` as it takes, each going on with
what the one before it has left in the string (`writens`). A raw buffer is read
into by the calls of `read` that `readn` makes, until it is full (`readnRaw`).

* `writens_append`: what the kernel has taken, call by call, and what is left make
  up the string, each byte once.
* `keepsOrder_iff`: a raw buffer holds the bytes in the order they were read, if
  they were read at once. A second `read` is given the start of the buffer again.
-/

namespace Webserver

/-! ## Writing a buffer in several calls -/

/-- What successive calls of `writen` return and what the kernel takes in each of
    them, the string they leave, and the schedule left over. -/
structure WritensResult where
  rets : List ℕ
  accepted : List Bytes
  buffer : Bytes
  writes : List WriteResult

/-- Successive calls of `writen` on a string. -/
def writens : ℕ → List WriteResult → Bytes → WritensResult
  | 0, writes, buffer => ⟨[], [], buffer, writes⟩
  | n + 1, writes, buffer =>
    let r := writen writes buffer
    let rest := writens n r.writes r.buffer
    { rest with rets := r.ret :: rest.rets, accepted := r.accepted :: rest.accepted }

/-- A string that `int` can count is never taken for a shorter one. -/
theorem not_aliased_of_lt {writes : List WriteResult} {buffer : Bytes}
    (hlen : buffer.length < 0x80000000) : ¬Aliased writes buffer := by
  rintro ⟨hne, heq⟩
  rw [toInt_of_lt hlen] at heq
  exact hne (Int.ofNat_inj.1 heq)

theorem writeLoop_accepted_length_le (writes : List WriteResult) (buffer : Bytes) :
    (writeLoop writes buffer).accepted.length ≤ buffer.length := by
  have happ := congrArg List.length (writeLoop_append writes buffer)
  rw [List.length_append] at happ
  omega

/-- One call: the bytes taken and those left make up the string, and the call
    returns the number of bytes taken. -/
theorem writen_append {writes : List WriteResult} {buffer : Bytes} (hsoft : Soft writes)
    (hlen : buffer.length < 0x80000000) :
    (writen writes buffer).accepted ++ (writen writes buffer).buffer = buffer ∧
      (writen writes buffer).ret = (writen writes buffer).accepted.length ∧
      Soft (writen writes buffer).writes := by
  obtain ⟨hfailed, hrest⟩ := hsoft.writeLoop buffer
  have hle : (writeLoop writes buffer).accepted.length ≤ buffer.length :=
    writeLoop_accepted_length_le writes buffer
  have hret : toSizeT (writeLoop writes buffer).accepted.length =
      (writeLoop writes buffer).accepted.length := by
    unfold toSizeT
    omega
  refine ⟨?_, ?_, ?_⟩
  · rw [writen_accepted, writen_buffer hfailed (not_aliased_of_lt hlen), writeLoop_append]
  · rw [writen_accepted]
    simp only [writen, hfailed, Bool.false_eq_true, if_false]
    split <;> exact hret
  · simp only [writen, hfailed, Bool.false_eq_true, if_false]
    split <;> exact hrest

/-- However often `writen` is called, and whatever the kernel takes each time, the
    bytes taken and those left make up the string. -/
theorem writens_append (n : ℕ) {writes : List WriteResult} {buffer : Bytes} (hsoft : Soft writes)
    (hlen : buffer.length < 0x80000000) :
    (writens n writes buffer).accepted.flatten ++ (writens n writes buffer).buffer = buffer ∧
      (writens n writes buffer).rets = (writens n writes buffer).accepted.map List.length := by
  induction n generalizing writes buffer with
  | zero => exact ⟨rfl, rfl⟩
  | succ n ih =>
    obtain ⟨happ, hret, hrest⟩ := writen_append hsoft hlen
    have hshort : (writen writes buffer).buffer.length < 0x80000000 := by
      have hsum := congrArg List.length happ
      rw [List.length_append] at hsum
      omega
    obtain ⟨ihapp, ihrets⟩ := ih hrest hshort
    refine ⟨?_, ?_⟩
    · rw [writens, List.flatten_cons, List.append_assoc, ihapp, happ]
    · rw [writens, List.map_cons, hret, ihrets]

/-- A socket under pressure: the second call is interrupted, and the third refused. -/
def underPressure : List WriteResult := [.accept 3, .eagain, .eintr, .accept 1, .eagain, .eagain]

theorem writens_append_underPressure :
    (writens 4 underPressure (bytes "HTTP/1.1")).accepted.flatten ++
        (writens 4 underPressure (bytes "HTTP/1.1")).buffer = bytes "HTTP/1.1" ∧
      (writens 4 underPressure (bytes "HTTP/1.1")).rets =
        (writens 4 underPressure (bytes "HTTP/1.1")).accepted.map List.length :=
  writens_append 4 (by simp [Soft, underPressure]) (by decide +kernel)

/-! ## Reading into a raw buffer -/

/-- The result of a `read` call of any size: it delivers what there is of its data,
    which is at least one byte, as far as there is room. -/
inductive RawReadResult
  | data (head : UInt8) (tail : Bytes)
  | eof
  | eintr
  | eagain
  | fail

/-- What a raw `readn` returns, the buffer it has filled, and whether it has ended on
    an error. Recorded are the regions given to `read`, by their offset in the buffer
    and their length, and the bytes delivered. -/
structure RawReadnResult where
  ret : ℕ
  buff : Bytes
  failed : Bool
  regions : List (ℕ × ℕ)
  delivered : Bytes

/-- Bytes written over the start of a buffer. -/
def overwrite (buff data : Bytes) : Bytes := data ++ buff.drop data.length

/-- The loop of `readn(int, void *, size_t)`. Every `read` is given the start of the
    buffer: the pointer that is moved along by the source is not used. -/
def readnRawLoop : List RawReadResult → Bytes → ℕ → ℤ → RawReadnResult
  | [], buff, nleft, readSum =>
    ⟨toSizeT readSum, buff, false, if nleft > 0 then [(0, nleft)] else [], []⟩
  | r :: reads, buff, nleft, readSum =>
    if nleft > 0 then
      match r with
      | .data head tail =>
        let data := (head :: tail).take nleft
        let rest := readnRawLoop reads (overwrite buff data) (nleft - data.length)
          (readSum + data.length)
        { rest with regions := (0, nleft) :: rest.regions, delivered := data ++ rest.delivered }
      | .eof => ⟨toSizeT readSum, buff, false, [(0, nleft)], []⟩
      | .eintr =>
        let rest := readnRawLoop reads buff nleft readSum
        { rest with regions := (0, nleft) :: rest.regions }
      | .eagain => ⟨toSizeT readSum, buff, false, [(0, nleft)], []⟩
      | .fail => ⟨toSizeT (-1), buff, true, [(0, nleft)], []⟩
    else ⟨toSizeT readSum, buff, false, [], []⟩

/-- `readn(int, void *, size_t)` on a buffer, for the whole of its size. -/
def readnRaw (reads : List RawReadResult) (buff : Bytes) : RawReadnResult :=
  readnRawLoop reads buff buff.length 0

/-- The bytes are kept in order: a call that succeeds returns their number, and the
    buffer starts with them. No region reaches beyond the buffer. -/
structure KeepsOrder (reads : List RawReadResult) (buff : Bytes) : Prop where
  ret : (readnRaw reads buff).failed = false →
    (readnRaw reads buff).ret = (readnRaw reads buff).delivered.length
  bytes : (readnRaw reads buff).failed = false →
    (readnRaw reads buff).buff.take (readnRaw reads buff).ret = (readnRaw reads buff).delivered
  inside : ∀ region ∈ (readnRaw reads buff).regions, region.1 + region.2 ≤ buff.length

/-- How many of the reads into a buffer with room for `n` bytes deliver something. -/
def successes : List RawReadResult → ℕ → ℕ
  | .data _ tail :: reads, n => if n > 0 then successes reads (n - (tail.length + 1)) + 1 else 0
  | .eintr :: reads, n => successes reads n
  | _, _ => 0

/-- What they deliver. -/
def deliveries : List RawReadResult → ℕ → Bytes
  | .data head tail :: reads, n =>
    if n > 0 then (head :: tail).take n ++ deliveries reads (n - (tail.length + 1)) else []
  | .eintr :: reads, n => deliveries reads n
  | _, _ => []

/-- Whether one of them fails. -/
def fails : List RawReadResult → ℕ → Bool
  | .data _ tail :: reads, n => if n > 0 then fails reads (n - (tail.length + 1)) else false
  | .eintr :: reads, n => fails reads n
  | .fail :: _, n => n > 0
  | _, _ => false

theorem length_deliveries_le (reads : List RawReadResult) (n : ℕ) :
    (deliveries reads n).length ≤ n := by
  fun_induction deliveries reads n with
  | case1 n head tail reads hn ih =>
    rw [List.length_append, List.length_take, List.length_cons]
    omega
  | case3 n reads ih => exact ih
  | _ => exact Nat.zero_le _

/-- Without room nothing is read. -/
theorem reads_zero (reads : List RawReadResult) :
    deliveries reads 0 = [] ∧ successes reads 0 = 0 ∧ fails reads 0 = false := by
  induction reads with
  | nil => exact ⟨rfl, rfl, rfl⟩
  | cons r reads ih =>
    cases r with
    | eintr => exact ih
    | _ => exact ⟨rfl, rfl, rfl⟩

theorem sub_length_take (head : UInt8) (tail : Bytes) (n : ℕ) :
    n - ((head :: tail).take n).length = n - (tail.length + 1) := by
  rw [List.length_take, List.length_cons]
  omega

/-- What the loop delivers does not depend on the buffer, and neither does its end. -/
theorem readnRawLoop_delivered (reads : List RawReadResult) (buff : Bytes) (nleft : ℕ)
    (readSum : ℤ) :
    (readnRawLoop reads buff nleft readSum).delivered = deliveries reads nleft ∧
      (readnRawLoop reads buff nleft readSum).failed = fails reads nleft := by
  fun_induction readnRawLoop reads buff nleft readSum with
  | case1 => exact ⟨rfl, rfl⟩
  | case2 reads buff nleft readSum hleft head tail data rest ih =>
    simp only [rest, data, sub_length_take] at ih ⊢
    simp only [deliveries, fails, gt_iff_lt, hleft, if_true]
    exact ⟨congrArg ((head :: tail).take nleft ++ ·) ih.1, ih.2⟩
  | case4 reads buff nleft readSum hleft rest ih => exact ih
  | case6 reads buff nleft readSum hleft => exact ⟨rfl, by simp [fails, hleft]⟩
  | case7 r reads buff nleft readSum hleft =>
    obtain rfl : nleft = 0 := Nat.eq_zero_of_not_pos hleft
    exact ⟨(reads_zero _).1.symm, (reads_zero _).2.2.symm⟩
  | _ => exact ⟨rfl, rfl⟩

theorem readnRawLoop_ret (reads : List RawReadResult) (buff : Bytes) (nleft : ℕ) (readSum : ℤ)
    (h : (readnRawLoop reads buff nleft readSum).failed = false) :
    (readnRawLoop reads buff nleft readSum).ret =
      toSizeT (readSum + (readnRawLoop reads buff nleft readSum).delivered.length) := by
  fun_induction readnRawLoop reads buff nleft readSum with
  | case2 reads buff nleft readSum hleft head tail data rest ih =>
    rw [ih h, List.length_append, Int.natCast_add, Int.add_assoc]
  | case4 reads buff nleft readSum hleft rest ih => exact ih h
  | case6 => cases h
  | _ => simp

/-- Every region starts where the buffer does, and there is room for it. -/
theorem readnRawLoop_regions (reads : List RawReadResult) (buff : Bytes) (nleft : ℕ)
    (readSum : ℤ) :
    ∀ region ∈ (readnRawLoop reads buff nleft readSum).regions, region.1 + region.2 ≤ nleft := by
  have hfirst : ∀ n, (0, n).1 + (0, n).2 ≤ n := fun n => Nat.le_of_eq (Nat.zero_add n)
  fun_induction readnRawLoop reads buff nleft readSum with
  | case1 => split <;> simp
  | case2 reads buff nleft readSum hleft head tail data rest ih =>
    refine List.forall_mem_cons.2 ⟨hfirst nleft, fun region hregion => ?_⟩
    exact Nat.le_trans (ih region hregion) (Nat.sub_le _ _)
  | case4 reads buff nleft readSum hleft rest ih =>
    exact List.forall_mem_cons.2 ⟨hfirst nleft, ih⟩
  | _ => simp

/-- Something is delivered if and only if a read succeeds. -/
theorem deliveries_eq_nil_iff {reads : List RawReadResult} {n : ℕ} :
    deliveries reads n = [] ↔ successes reads n = 0 := by
  fun_induction deliveries reads n with
  | case1 head tail reads n hn ih =>
    have htake : (head :: tail).take n ≠ [] := by
      simp [List.take_eq_nil_iff, Nat.pos_iff_ne_zero.1 hn]
    simp [successes, hn, htake]
  | case2 head tail reads n hn => simp [successes, hn]
  | case3 reads n ih => exact ih
  | case4 reads n hdata heintr =>
    cases reads with
    | nil => simp [successes]
    | cons r reads =>
      cases r with
      | data head tail => exact absurd rfl (hdata head tail reads)
      | eintr => exact absurd rfl (heintr reads)
      | _ => simp [successes]

/-- A buffer that is read into once starts with what was read. -/
theorem readnRawLoop_buff (reads : List RawReadResult) (buff : Bytes) (nleft : ℕ) (readSum : ℤ)
    (h : successes reads nleft ≤ 1) :
    (readnRawLoop reads buff nleft readSum).buff = overwrite buff (deliveries reads nleft) := by
  fun_induction readnRawLoop reads buff nleft readSum with
  | case2 reads buff nleft readSum hleft head tail data rest ih =>
    simp only [successes, gt_iff_lt, hleft, if_true] at h
    have hrest : successes reads (nleft - (tail.length + 1)) = 0 := by omega
    simp only [data, sub_length_take, hrest] at ih
    simp only [rest, data, sub_length_take, ih (Nat.zero_le 1), deliveries, gt_iff_lt, hleft,
      if_true, deliveries_eq_nil_iff.2 hrest, List.append_nil]
    rfl
  | case4 reads buff nleft readSum hleft rest ih => exact ih h
  | case7 r reads buff nleft readSum hleft =>
    obtain rfl : nleft = 0 := Nat.eq_zero_of_not_pos hleft
    rw [(reads_zero _).1]
    rfl
  | _ => rfl

theorem drop_overwrite {buff data : Bytes} {m : ℕ} (h : data.length ≤ m) :
    (overwrite buff data).drop m = buff.drop m := by
  rw [overwrite, List.drop_append, List.drop_of_length_le h, List.nil_append, List.drop_drop,
    Nat.add_sub_cancel' h]

/-- A second read writes over the first one, and leaves the end of the buffer as it was. -/
theorem exists_drop_readnRawLoop (reads : List RawReadResult) (buff : Bytes) (nleft : ℕ)
    (readSum : ℤ) :
    ∃ m ≤ (deliveries reads nleft).length,
      (readnRawLoop reads buff nleft readSum).buff.drop m = buff.drop m ∧
        (1 < successes reads nleft → m < (deliveries reads nleft).length) := by
  fun_induction readnRawLoop reads buff nleft readSum with
  | case2 reads buff nleft readSum hleft head tail data rest ih =>
    simp only [data, sub_length_take] at ih
    obtain ⟨m, hm, hdrop, hlt⟩ := ih
    have hdata : 0 < ((head :: tail).take nleft).length := by
      rw [List.length_take, List.length_cons]
      omega
    simp only [rest, data, sub_length_take, deliveries, successes, gt_iff_lt, hleft, if_true,
      List.length_append]
    refine ⟨max ((head :: tail).take nleft).length m, by omega, ?_, fun hone => ?_⟩
    · -- Beyond both of the bounds neither this read nor a later one has written.
      have hmax := congrArg (List.drop (max ((head :: tail).take nleft).length m - m)) hdrop
      rwa [List.drop_drop, List.drop_drop, Nat.add_sub_cancel' (Nat.le_max_right _ m),
        drop_overwrite (Nat.le_max_left _ m)] at hmax
    · have hne : deliveries reads (nleft - (tail.length + 1)) ≠ [] :=
        mt deliveries_eq_nil_iff.1 (by omega)
      have hpos := List.length_pos_iff.2 hne
      omega
  | case4 reads buff nleft readSum hleft rest ih => exact ih
  | case7 r reads buff nleft readSum hleft =>
    obtain rfl : nleft = 0 := Nat.eq_zero_of_not_pos hleft
    exact ⟨0, Nat.zero_le _, rfl, by simp [reads_zero]⟩
  | _ => exact ⟨0, Nat.zero_le _, rfl, by simp [successes]⟩

section KeepsOrder

variable {reads : List RawReadResult} {n : ℕ}

theorem readnRaw_ret {buff : Bytes} (hlen : buff.length < 2 ^ 64)
    (h : (readnRaw reads buff).failed = false) :
    (readnRaw reads buff).ret = (readnRaw reads buff).delivered.length := by
  have hdelivered := (readnRawLoop_delivered reads buff buff.length 0).1
  have hle := length_deliveries_le reads buff.length
  rw [← hdelivered] at hle
  rw [readnRaw, readnRawLoop_ret reads buff buff.length 0 h, toSizeT]
  omega

/-- If a call fails, or reads once, the bytes are kept in order. -/
theorem keepsOrder_of_once {buff : Bytes} (hlen : buff.length < 2 ^ 64)
    (h : fails reads buff.length = true ∨ successes reads buff.length ≤ 1) :
    KeepsOrder reads buff := by
  obtain ⟨hdelivered, hfailed⟩ := readnRawLoop_delivered reads buff buff.length 0
  refine ⟨readnRaw_ret hlen, fun hok => ?_, readnRawLoop_regions reads buff buff.length 0⟩
  have honce : successes reads buff.length ≤ 1 := by
    refine h.resolve_left fun hfails => ?_
    rw [readnRaw, hfailed, hfails] at hok
    cases hok
  rw [readnRaw_ret hlen hok, readnRaw, hdelivered, readnRawLoop_buff reads buff _ 0 honce,
    overwrite, List.take_left]

/-- After a second read, the byte where the data should end is the one the buffer
    held before the call. -/
theorem KeepsOrder.getElem?_eq {buff : Bytes} (h : KeepsOrder reads buff)
    (hok : fails reads buff.length = false) (htwo : 1 < successes reads buff.length) :
    (deliveries reads buff.length)[(deliveries reads buff.length).length - 1]? =
      buff[(deliveries reads buff.length).length - 1]? := by
  obtain ⟨hdelivered, hfailed⟩ := readnRawLoop_delivered reads buff buff.length 0
  obtain ⟨m, -, hdrop, hlt⟩ := exists_drop_readnRawLoop reads buff buff.length 0
  have hm := hlt htwo
  have hok : (readnRaw reads buff).failed = false := hfailed.trans hok
  have hbytes := h.bytes hok
  rw [h.ret hok] at hbytes
  simp only [readnRaw, hdelivered] at hbytes
  have hindex := congrArg (·[(deliveries reads buff.length).length - 1 - m]?) hdrop
  simp only [List.getElem?_drop, Nat.add_sub_cancel' (Nat.le_sub_one_of_lt hm)] at hindex
  have hlast := congrArg (·[(deliveries reads buff.length).length - 1]?) hbytes
  rw [List.getElem?_take_of_lt (by omega)] at hlast
  exact hlast.symm.trans hindex

/-- Whatever a buffer of `n` bytes holds, the bytes read are kept in order, if and
    only if the call fails or no more than one of its reads delivers something. -/
theorem keepsOrder_iff (hn : n < 2 ^ 64) :
    (∀ buff : Bytes, buff.length = n → KeepsOrder reads buff) ↔
      fails reads n = true ∨ successes reads n ≤ 1 := by
  constructor
  · intro h
    by_contra hnot
    rw [not_or, Bool.not_eq_true, Nat.not_le] at hnot
    -- Two buffers that differ everywhere cannot both end in the last byte read.
    have hbyte : ∀ x : UInt8, (deliveries reads n)[(deliveries reads n).length - 1]? = some x := by
      intro x
      have hlen : (List.replicate n x).length = n := List.length_replicate
      have heq := (h _ hlen).getElem?_eq (by rw [hlen]; exact hnot.1) (by rw [hlen]; exact hnot.2)
      have hne : deliveries reads n ≠ [] := mt deliveries_eq_nil_iff.1 (by omega)
      have hpos := List.length_pos_iff.2 hne
      have hle := length_deliveries_le reads n
      rw [hlen] at heq
      rw [heq, List.getElem?_replicate, if_pos (by omega)]
    exact absurd ((hbyte 0).symm.trans (hbyte 1)) (by decide)
  · rintro h buff rfl
    exact keepsOrder_of_once hn h

/-- A counter of eight bytes that is read at once. -/
theorem keepsOrder_iff_counter :
    (∀ buff : Bytes, buff.length = 8 → KeepsOrder [.data 1 [0, 0, 0, 0, 0, 0, 0]] buff) ↔
      fails [.data 1 [0, 0, 0, 0, 0, 0, 0]] 8 = true ∨
        successes [.data 1 [0, 0, 0, 0, 0, 0, 0]] 8 ≤ 1 :=
  keepsOrder_iff (by decide)

/-- A buffer of two bytes that is read one byte at a time holds the second byte where
    the first one should be. -/
theorem not_keepsOrder : ¬∀ (reads : List RawReadResult) (n : ℕ), n < 2 ^ 64 →
    ∀ buff : Bytes, buff.length = n → KeepsOrder reads buff := by
  intro hall
  have hbytes := (hall [.data 1 [], .data 2 []] 2 (by decide) [0, 0] rfl).bytes rfl
  exact absurd hbytes (by decide)

end KeepsOrder

end Webserver
