import Webserver.Decimal

/-!
# Printing integers

`convert` prints an integer of any integral type. It divides by ten over and over, and
looks the remainders up in a table that has the digits on both sides of its zero, so
that those of a negative number are found to the left of it.

* `convert_eq`: it prints what `std::to_string` does, for every value of every type.
-/

namespace Webserver

open Numeral

/-! ## Integral types -/

/-- An integral type, by the number of its value bits. -/
inductive IntegralType
  | signed (valueBits : ℕ)
  | unsigned (valueBits : ℕ)

namespace IntegralType

def min : IntegralType → ℤ
  | signed valueBits => -2 ^ valueBits
  | unsigned _ => 0

/-- The first integer that is too large. -/
def sup : IntegralType → ℤ
  | signed valueBits => 2 ^ valueBits
  | unsigned valueBits => 2 ^ valueBits

variable {T : IntegralType}

theorem min_nonpos (T : IntegralType) : T.min ≤ 0 := by
  cases T with
  | signed valueBits => exact Int.neg_nonpos_of_nonneg (Int.pow_nonneg (by decide))
  | unsigned => exact le_rfl

theorem sup_pos (T : IntegralType) : 0 < T.sup := by
  cases T with
  | signed | unsigned => exact Int.pow_pos (by decide)

/-- The quotient is between the value and zero. -/
theorem tdiv_mem {v : ℤ} (hv : T.min ≤ v ∧ v < T.sup) :
    T.min ≤ v.tdiv 10 ∧ v.tdiv 10 < T.sup := by
  obtain ⟨hmin, hsup⟩ := hv
  have hzero := T.min_nonpos
  have hpos := T.sup_pos
  rcases Int.le_total 0 v with hv | hv
  · have hle := Int.tdiv_le_self 10 hv
    have hnonneg := Int.tdiv_nonneg hv (b := 10) (by decide)
    omega
  · have hle := Int.tdiv_le_self 10 (Int.neg_nonneg_of_nonpos hv)
    have hnonneg := Int.tdiv_nonneg (Int.neg_nonneg_of_nonpos hv) (b := 10) (by decide)
    rw [Int.neg_tdiv] at hle hnonneg
    omega

variable (T) in
/-- The values of a type. -/
def Value : Type := {v : ℤ // T.min ≤ v ∧ v < T.sup}

/-- The quotient by ten is a value of the type again. -/
def Value.div10 (i : T.Value) : T.Value := ⟨i.1.tdiv 10, tdiv_mem i.2⟩

end IntegralType

/-! ## Printing -/

/-- The characters of the table, with the NUL that ends them. -/
def digits : Bytes := bytes "9876543210123456789" ++ [0]

/-- The character at an index of the table from its zero on, which is in the middle. -/
def zero (lsd : ℤ) : Option UInt8 := if 0 ≤ 9 + lsd then digits[(9 + lsd).toNat]? else none

variable {T : IntegralType}

/-- The digits put out by the loop of `convert`, unless it reads outside of the table. -/
def convertLoop (i : T.Value) : Option Bytes :=
  match zero (i.1.tmod 10) with
  | none => none
  | some digit =>
    if i.1.tdiv 10 = 0 then some [digit] else (convertLoop i.div10).map (digit :: ·)
termination_by i.1.natAbs
decreasing_by
  next hdiv =>
    have hquot : (i.1.tdiv 10).natAbs = i.1.natAbs / 10 := natAbs_tdiv_natCast i.1 10
    have hpos := Int.natAbs_pos.2 hdiv
    change (i.1.tdiv 10).natAbs < i.1.natAbs
    omega

/-- What `convert` writes into the buffer, and what it returns. -/
def convert (value : T.Value) : Option (Bytes × ℕ) :=
  (convertLoop value).map fun p =>
    let p := if value.1 < 0 then p ++ [minus] else p
    (p.reverse ++ [0], p.length)

/-- The table is symmetric. -/
theorem zero_tmod (z : ℤ) : zero (z.tmod 10) = some (ascii.digit (z.tmod 10).natAbs) := by
  have htable : ∀ d < 10,
      zero (d : ℕ) = some (ascii.digit d) ∧ zero (-(d : ℕ)) = some (ascii.digit d) := by
    decide +kernel
  have hlt : (z.tmod 10).natAbs < 10 := by
    rw [Int.natAbs_tmod]
    exact Nat.mod_lt _ (by decide)
  obtain ⟨hpos, hneg⟩ := htable _ hlt
  rcases Int.natAbs_eq (z.tmod 10) with h | h
  · rw [← hpos, ← h]
  · rw [← hneg, ← h]

/-- The loop finds the digits from the least significant one on, whatever the sign. -/
theorem convertLoop_eq (i : T.Value) : convertLoop i = some (ascii.natText i.1.natAbs).reverse := by
  have hloop : convertLoop i =
      some ((remainders (by decide : 1 < 10) i.1).map fun r => ascii.digit r.natAbs) := by
    fun_induction convertLoop i with
    | case1 i hzero => cases (zero_tmod i.1).symm.trans hzero
    | case2 i digit hzero hdiv =>
      cases (zero_tmod i.1).symm.trans hzero
      rw [remainders, if_pos (by exact hdiv)]
      rfl
    | case3 i digit hzero hdiv ih =>
      cases (zero_tmod i.1).symm.trans hzero
      rw [remainders, if_neg (by exact hdiv), ih]
      rfl
  have hcomp : (fun r : ℤ => ascii.digit r.natAbs) = ascii.digit ∘ Int.natAbs := rfl
  rw [hloop, hcomp, ← List.map_map, map_natAbs_remainders, List.map_reverse]
  rfl

/-- Every value of every type is printed in decimal, and can be read again. -/
theorem convert_eq (value : T.Value) :
    convert value = some (toStrInt value.1 ++ [0], (toStrInt value.1).length) ∧
      ascii.read (toStrInt value.1) = some value.1 := by
  rw [toStrInt_eq]
  refine ⟨?_, ascii.read_text (by decide) _⟩
  rw [convert, convertLoop_eq, Option.map_some, Alphabet.text]
  split <;> simp [ascii]

end Webserver
