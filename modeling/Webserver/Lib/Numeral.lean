import Mathlib.Data.Nat.Digits.Lemmas

/-!
# Positional numerals

Numbers written in a base, the most significant digit first (`numeral`), with the
digits and the sign taken from any alphabet (`Alphabet.text`).

A loop finds the digits of an integer as the remainders of a division that truncates
towards zero (`remainders`). Those of a negative number are negative or zero, so that
it does not have to be negated.

* `Alphabet.read_text`: an integer can be read off from what it is written as.
* `map_natAbs_remainders`: the remainders are the digits, the least significant first.
-/

namespace Numeral

variable {α : Type*} {b : ℕ}

/-- The digits of a number, the most significant first. Zero has one digit. -/
def numeral (b n : ℕ) : List ℕ := if n = 0 then [0] else (Nat.digits b n).reverse

/-- The number that has the digits. -/
def value (b : ℕ) (ds : List ℕ) : ℕ := ds.foldl (fun v d => d + b * v) 0

theorem numeral_ne_nil (b n : ℕ) : numeral b n ≠ [] := by
  rw [numeral]
  split
  · exact List.cons_ne_nil _ _
  · next hn => simpa [Nat.digits_eq_nil_iff_eq_zero] using hn

/-- Digits are smaller than the base. -/
theorem lt_of_mem_numeral (hb : 1 < b) {n d : ℕ} (hd : d ∈ numeral b n) : d < b := by
  rw [numeral] at hd
  split at hd
  · rw [List.mem_singleton.1 hd]
    omega
  · exact Nat.digits_lt_base hb (List.mem_reverse.1 hd)

/-- A number below a power of the base has no more digits than its exponent. -/
theorem length_numeral_le (hb : 1 < b) {n k : ℕ} (hk : 0 < k) (hn : n < b ^ k) :
    (numeral b n).length ≤ k := by
  rw [numeral]
  split
  · exact hk
  · rw [List.length_reverse]
    exact (Nat.digits_length_le_iff hb n).2 hn

/-- The last digit comes last. -/
theorem numeral_eq (hb : 1 < b) (n : ℕ) :
    numeral b n = if n / b = 0 then [n % b] else numeral b (n / b) ++ [n % b] := by
  by_cases hn : n = 0
  · simp [numeral, hn]
  · rw [numeral, if_neg hn, Nat.digits_def' hb (Nat.pos_of_ne_zero hn), List.reverse_cons, numeral]
    split
    · next hdiv => simp [hdiv]
    · rfl

/-- The digits of a number have its value. -/
theorem value_numeral (b n : ℕ) : value b (numeral b n) = n := by
  rw [numeral]
  split
  · next hn => simp [value, hn]
  · calc value b (Nat.digits b n).reverse
        = (Nat.digits b n).foldr (fun d v => d + b * v) 0 := List.foldl_reverse
      _ = Nat.ofDigits b (Nat.digits b n) := (Nat.ofDigits_eq_foldr b _).symm
      _ = n := Nat.ofDigits_digits b n

/-! ## Remainders -/

/-- Division that truncates divides the absolute value. -/
theorem natAbs_tdiv_natCast (z : ℤ) (b : ℕ) : (z.tdiv b).natAbs = z.natAbs / b := by
  rw [Int.natAbs_tdiv, Int.natAbs_natCast]
  rfl

/-- The remainders of a number and its quotients, up to the quotient zero. -/
def remainders (hb : 1 < b) (z : ℤ) : List ℤ :=
  if z.tdiv b = 0 then [z.tmod b] else z.tmod b :: remainders hb (z.tdiv b)
termination_by z.natAbs
decreasing_by
  next hdiv =>
    have hz : 0 < z.natAbs := by
      refine Int.natAbs_pos.2 fun h => hdiv ?_
      rw [h, Int.zero_tdiv]
    rw [natAbs_tdiv_natCast]
    exact Nat.div_lt_self hz hb

/-- The remainders of a number are, up to their signs, the digits of its absolute value, the
    last one first. -/
theorem map_natAbs_remainders (hb : 1 < b) (z : ℤ) :
    (remainders hb z).map Int.natAbs = (numeral b z.natAbs).reverse := by
  fun_induction remainders hb z with
  | case1 z hdiv =>
    have hquot : z.natAbs / b = 0 := by rw [← natAbs_tdiv_natCast, hdiv, Int.natAbs_zero]
    rw [numeral_eq hb, if_pos hquot]
    simp [Int.natAbs_tmod]
  | case2 z hdiv ih =>
    have hquot := natAbs_tdiv_natCast z b
    rw [numeral_eq hb, if_neg (by rwa [← hquot, Int.natAbs_eq_zero]), List.map_cons, ih, hquot]
    simp [Int.natAbs_tmod]

/-! ## Texts -/

/-- The digits of a base, and a sign for the negative numbers. -/
structure Alphabet (α : Type*) (b : ℕ) where
  digit : ℕ → α
  minus : α
  digit_inj : ∀ d < b, ∀ e < b, digit d = digit e → d = e
  digit_ne_minus : ∀ d < b, digit d ≠ minus

namespace Alphabet

variable (A : Alphabet α b)

/-- The text of a number without a sign. -/
def natText (n : ℕ) : List α := (numeral b n).map A.digit

/-- What an integer is written as. -/
def text (z : ℤ) : List α := (if z < 0 then [A.minus] else []) ++ A.natText z.natAbs

theorem text_ne_nil (z : ℤ) : A.text z ≠ [] := by
  rw [text, natText]
  exact List.append_ne_nil_of_right_ne_nil _ (by simpa using numeral_ne_nil b z.natAbs)

variable [DecidableEq α]

/-- The digit that is written as `c`. -/
def digitOf (c : α) : Option ℕ := (List.range b).find? fun d => A.digit d = c

/-- The number that some digits are the text of. -/
def readNat (s : List α) : Option ℕ :=
  if s = [] then none else (s.mapM A.digitOf).map (value b)

/-- The integer that is written as `s`. -/
def read : List α → Option ℤ
  | [] => none
  | c :: s =>
    if c = A.minus then (A.readNat s).map fun n : ℕ => -(n : ℤ)
    else (A.readNat (c :: s)).map fun n : ℕ => (n : ℤ)

/-- A character of the alphabet is read as the digit it is written for. -/
theorem digitOf_digit {d : ℕ} (hd : d < b) : A.digitOf (A.digit d) = some d := by
  rw [digitOf, List.find?_range_eq_some]
  refine ⟨decide_eq_true rfl, List.mem_range.2 hd, fun e he => ?_⟩
  have hne : A.digit e ≠ A.digit d := fun h => he.ne (A.digit_inj e (he.trans hd) d hd h)
  simp [hne]

theorem mapM_digitOf {ds : List ℕ} (hds : ∀ d ∈ ds, d < b) :
    (ds.map A.digit).mapM A.digitOf = some ds := by
  induction ds with
  | nil => rfl
  | cons d ds ih =>
    obtain ⟨hd, hds⟩ := List.forall_mem_cons.1 hds
    rw [List.map_cons, List.mapM_cons, A.digitOf_digit hd, ih hds]
    rfl

/-- A number is read from its text. -/
theorem readNat_natText (hb : 1 < b) (n : ℕ) : A.readNat (A.natText n) = some n := by
  have hne : A.natText n ≠ [] := by simpa [natText] using numeral_ne_nil b n
  rw [readNat, if_neg hne, natText, A.mapM_digitOf fun d hd => lt_of_mem_numeral hb hd,
    Option.map_some, value_numeral]

/-- So is a number with a sign. -/
theorem read_text (hb : 1 < b) (z : ℤ) : A.read (A.text z) = some z := by
  have hread := A.readNat_natText hb z.natAbs
  rw [text]
  split
  · next hz =>
    rw [List.singleton_append, read, if_pos rfl, hread, Option.map_some]
    congr
    omega
  · next hz =>
    rw [List.nil_append]
    cases hnumeral : numeral b z.natAbs with
    | nil => exact absurd hnumeral (numeral_ne_nil _ _)
    | cons d ds =>
      have hd : d < b := lt_of_mem_numeral (n := z.natAbs) hb (by simp [hnumeral])
      rw [natText, hnumeral, List.map_cons] at hread ⊢
      rw [read, if_neg (A.digit_ne_minus d hd), hread, Option.map_some]
      congr
      omega

end Alphabet

end Numeral
