import Mathlib.Data.List.TakeDrop
import Mathlib.Data.List.Flatten

/-!
# Lines

A text is cut into lines, each of which ends with a delimiter, and the beginning of another
one (`lines`).

* `lines_flatMap`: a text is cut into the lines that it was made of.
* `lines_beginning`: the beginning of a text is cut into the first of its lines.
-/

namespace Text

variable {α : Type*} [DecidableEq α]

/-- The lines of a text, without the delimiters, and what follows the last one. -/
def lines (c : α) : List α → List (List α) × List α
  | [] => ([], [])
  | a :: s =>
    if a = c then ([] :: (lines c s).1, (lines c s).2)
    else
      match lines c s with
      | ([], rest) => ([], a :: rest)
      | (l :: ls, rest) => ((a :: l) :: ls, rest)

variable {c : α} {l s t : List α} {ls : List (List α)}

/-- The first line ends with the first delimiter. -/
theorem lines_append_cons (hl : c ∉ l) (t : List α) :
    lines c (l ++ c :: t) = (l :: (lines c t).1, (lines c t).2) := by
  induction l with
  | nil => rw [List.nil_append, lines, if_pos rfl]
  | cons a l ih =>
    rw [List.mem_cons, not_or] at hl
    rw [List.cons_append, lines, if_neg (Ne.symm hl.1), ih hl.2]

/-- A text is cut into the lines that it was made of. -/
theorem lines_flatMap (hls : ∀ l ∈ ls, c ∉ l) (t : List α) :
    lines c (ls.flatMap (· ++ [c]) ++ t) = (ls ++ (lines c t).1, (lines c t).2) := by
  induction ls with
  | nil => rfl
  | cons l ls ih =>
    obtain ⟨hl, hls⟩ := List.forall_mem_cons.1 hls
    rw [List.flatMap_cons, List.append_assoc, List.append_assoc, List.singleton_append,
      lines_append_cons hl, ih hls, List.cons_append]

/-- Cutting loses nothing. -/
theorem flatMap_lines (c : α) (s : List α) :
    (lines c s).1.flatMap (· ++ [c]) ++ (lines c s).2 = s := by
  induction s with
  | nil => rfl
  | cons a s ih =>
    rw [lines]
    split
    · next ha => simp [ha, ih]
    · split
      · next rest heq =>
        rw [heq] at ih
        simpa using ih
      · next l ls rest heq =>
        rw [heq] at ih
        simpa using ih

theorem notMem_of_mem_lines (hl : l ∈ (lines c s).1) : c ∉ l := by
  induction s generalizing l with
  | nil => cases hl
  | cons a s ih =>
    rw [lines] at hl
    split at hl
    · rcases List.mem_cons.1 hl with rfl | hl
      · exact List.not_mem_nil
      · exact ih hl
    · next ha =>
      split at hl
      · cases hl
      · next l' ls rest heq =>
        rw [heq] at ih
        rcases List.mem_cons.1 hl with rfl | hl
        · rw [List.mem_cons, not_or]
          exact ⟨Ne.symm ha, ih List.mem_cons_self⟩
        · exact ih (List.mem_cons_of_mem _ hl)

/-- The beginning of a text is cut into the first of its lines. -/
theorem lines_beginning (h : s <+: t) : (lines c s).1 <+: (lines c t).1 := by
  obtain ⟨u, rfl⟩ := h
  have hcut := lines_flatMap (fun l => notMem_of_mem_lines (s := s) (c := c)) ((lines c s).2 ++ u)
  rw [← List.append_assoc, flatMap_lines] at hcut
  rw [hcut]
  exact List.prefix_append _ _

end Text
