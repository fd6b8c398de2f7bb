import Webserver.Lib.Numeral
import Webserver.Util

/-!
# Decimal texts

What `std::to_string` makes of an integer, as a numeral in the digits of ASCII.

* `toStr_eq`, `toStrInt_eq`: it is the numeral to the base ten, with a minus sign in
  front of a negative number.
* `digit_of_mem_toStr`: a number is printed in digits.
* `length_toStrInt_le`: that of an integer of up to 64 bits has at most 21 characters.
-/

namespace Webserver

open Numeral

abbrev minus : UInt8 := 45

/-- The digits of ASCII. -/
def ascii : Alphabet UInt8 10 where
  digit d := 48 + UInt8.ofNat d
  minus := minus
  digit_inj := by decide
  digit_ne_minus := by decide

/-- `std::to_string` of a signed integer. -/
def toStrInt (v : ℤ) : Bytes := bytes (toString v)

theorem toDigits_eq (n : ℕ) : Nat.toDigits 10 n = (numeral 10 n).map Nat.digitChar := by
  induction n using Nat.strongRecOn with
  | ind n ih =>
    rw [Nat.toDigits_eq_if (by decide), numeral_eq (by decide)]
    split
    · next hn => simp [Nat.div_eq_of_lt hn, Nat.mod_eq_of_lt hn]
    · next hn =>
      rw [if_neg (by omega), ih (n / 10) (by omega)]
      simp

theorem toStr_eq (n : ℕ) : toStr n = ascii.natText n := by
  have hchar : ∀ d < 10, String.utf8EncodeChar (Nat.digitChar d) = [ascii.digit d] := by
    decide +kernel
  rw [toStr, bytes, Nat.toString_eq_ofList_toDigits, String.toByteArray_ofList, List.utf8Encode,
    List.toList_data_toByteArray, toDigits_eq, List.flatMap_map, Alphabet.natText,
    List.map_eq_flatMap]
  exact List.flatMap_congr fun d hd => hchar d (lt_of_mem_numeral (by decide) hd)

theorem toStrInt_eq (v : ℤ) : toStrInt v = ascii.text v := by
  cases v with
  | ofNat n => exact (toStr_eq n).trans (by simp [Alphabet.text])
  | negSucc n =>
    have hsign : toStrInt (.negSucc n) = bytes "-" ++ toStr (n + 1) := rfl
    rw [hsign, toStr_eq, Alphabet.text, if_pos (Int.negSucc_lt_zero n)]
    rfl

/-- A number is printed in digits. -/
theorem digit_of_mem_toStr {n : ℕ} {b : UInt8} (hb : b ∈ toStr n) : 48 ≤ b ∧ b ≤ 57 := by
  have hdigit : ∀ d < 10, 48 ≤ ascii.digit d ∧ ascii.digit d ≤ 57 := by decide
  rw [toStr_eq, Alphabet.natText, List.mem_map] at hb
  obtain ⟨d, hd, rfl⟩ := hb
  exact hdigit d (lt_of_mem_numeral (by decide) hd)

theorem notMem_toStr {b : UInt8} (hb : b < 48) (n : ℕ) : b ∉ toStr n :=
  fun hmem => UInt8.not_le.2 hb (digit_of_mem_toStr hmem).1

/-- An integer is printed in digits, with a minus sign. -/
theorem notMem_toStrInt {b : UInt8} (hminus : b ≠ minus) (hb : ¬(48 ≤ b ∧ b ≤ 57)) (v : ℤ) :
    b ∉ toStrInt v := by
  rw [toStrInt_eq, Alphabet.text, ← toStr_eq, List.mem_append, not_or]
  refine ⟨?_, mt digit_of_mem_toStr hb⟩
  split
  · exact mt List.mem_singleton.1 hminus
  · exact List.not_mem_nil

/-- An integer of up to 64 bits has at most 20 digits. -/
theorem length_toStrInt_le {v : ℤ} (hv : v.natAbs < 2 ^ 64) : (toStrInt v).length ≤ 21 := by
  have hdigits : (numeral 10 v.natAbs).length ≤ 20 :=
    length_numeral_le (by decide) (by decide) (hv.trans (by decide))
  rw [toStrInt_eq, Alphabet.text, List.length_append, Alphabet.natText, List.length_map]
  split
  · rw [List.length_singleton]
    omega
  · rw [List.length_nil]
    omega

end Webserver
