import Mathlib.Data.List.Basic
import Mathlib.Data.Nat.Notation

/-!
# Searching and cutting strings

The three operations a hand-written text parser is made of, on lists over any
alphabet: the position of the first occurrence of a delimiter (`find`, where
`none` plays the role of `npos`), the part before a position (`upTo`) and the
part after it (`past`).

The handle for proofs is the splitting of a string at the first occurrence of
a delimiter (`exists_of_find`, `find_append_cons`): a parser that cuts at
delimiters is then reasoned about by rewriting its input as `a ++ c :: b`.
There is one such splitting (`append_cons_inj`). At its last occurrence a string is
split in the same way (`rfind`).
-/

namespace Text

variable {α : Type*}

/-- The position of the first `c` in `s`, if there is one. -/
def find [DecidableEq α] (c : α) (s : List α) : Option ℕ := s.idxOf? c

/-- The part of `s` before a position: all of `s` if there is none. -/
def upTo (s : List α) : Option ℕ → List α
  | none => s
  | some i => s.take i

/-- The part of `s` after a position: all of `s` if there is none (`npos + 1`
    is `0` in unsigned arithmetic). -/
def past (s : List α) : Option ℕ → List α
  | none => s
  | some i => s.drop (i + 1)

variable [DecidableEq α] {c : α} {s t : List α} {i : ℕ}

theorem find_eq_none_iff : find c s = none ↔ c ∉ s := List.idxOf?_eq_none_iff

/-- A delimiter is found right after a prefix that does not contain it. -/
theorem find_append_cons (hs : c ∉ s) : find c (s ++ c :: t) = some s.length := by
  induction s with
  | nil => simp [find, List.idxOf?_cons]
  | cons a s ih =>
    rw [List.mem_cons, not_or] at hs
    have ih := ih hs.2
    simp only [find] at ih
    rw [find, List.cons_append, List.idxOf?_cons, ih]
    simp [Ne.symm hs.1]

/-- A string has one splitting at the first occurrence of a delimiter. -/
theorem append_cons_inj {a a' b b' : List α} (ha : c ∉ a) (ha' : c ∉ a')
    (h : a ++ c :: b = a' ++ c :: b') : a = a' ∧ b = b' := by
  have hlen : a.length = a'.length :=
    Option.some.inj ((find_append_cons ha).symm.trans (h ▸ find_append_cons ha'))
  obtain ⟨rfl, hb⟩ := List.append_inj h hlen
  exact ⟨rfl, List.tail_eq_of_cons_eq hb⟩

/-- A string in which a delimiter is found splits at its first occurrence. -/
theorem exists_of_find (h : find c s = some i) :
    ∃ a b, s = a ++ c :: b ∧ c ∉ a ∧ a.length = i := by
  have hc : c ∈ s := by
    by_contra hc
    rw [find_eq_none_iff.2 hc] at h
    cases h
  obtain ⟨a, b, rfl, ha⟩ := List.eq_append_cons_of_mem hc
  rw [find_append_cons ha] at h
  exact ⟨a, b, rfl, ha, Option.some.inj h⟩

theorem lt_length_of_find (h : find c s = some i) : i < s.length := by
  obtain ⟨a, b, rfl, _, rfl⟩ := exists_of_find h
  simp

/-! ## The last occurrence -/

/-- The position of the last `c` in `s`, if there is one. -/
def rfind (c : α) (s : List α) : Option ℕ := (find c s.reverse).map fun i => s.length - 1 - i

theorem rfind_eq_none_iff : rfind c s = none ↔ c ∉ s := by
  rw [rfind, Option.map_eq_none_iff, find_eq_none_iff, List.mem_reverse]

theorem rfind_append_cons (ht : c ∉ t) : rfind c (s ++ c :: t) = some s.length := by
  have hreverse : (s ++ c :: t).reverse = t.reverse ++ c :: s.reverse := by simp
  rw [rfind, hreverse, find_append_cons (mt List.mem_reverse.1 ht), Option.map_some,
    List.length_reverse, List.length_append, List.length_cons]
  exact congrArg some (by omega)

/-- A string in which a delimiter is found splits at its last occurrence. -/
theorem exists_of_rfind (h : rfind c s = some i) :
    ∃ a b, s = a ++ c :: b ∧ c ∉ b ∧ a.length = i := by
  have hc : c ∈ s.reverse := by
    rw [List.mem_reverse]
    by_contra hc
    rw [rfind_eq_none_iff.2 hc] at h
    cases h
  obtain ⟨b, a, hs, hb⟩ := List.eq_append_cons_of_mem hc
  obtain rfl : s = a.reverse ++ c :: b.reverse := by simpa using congrArg List.reverse hs
  have hb : c ∉ b.reverse := mt List.mem_reverse.1 hb
  rw [rfind_append_cons hb] at h
  exact ⟨a.reverse, b.reverse, rfl, hb, Option.some.inj h⟩

omit [DecidableEq α] in
@[simp] theorem upTo_append_cons (a b : List α) : upTo (a ++ c :: b) (some a.length) = a := by
  simp [upTo]

omit [DecidableEq α] in
@[simp] theorem past_append_cons (a b : List α) : past (a ++ c :: b) (some a.length) = b := by
  simp [past]

end Text
