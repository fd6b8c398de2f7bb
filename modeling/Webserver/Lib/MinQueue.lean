import Mathlib.Data.List.Basic
import Mathlib.Data.Nat.Notation
import Mathlib.Order.Lattice

/-!
# Queues with a smallest element on top

A priority queue, seen as the list of its elements: `Top key` is a way of
choosing, in every non-empty list, an element with the smallest `key`. Which
one of several such elements is on top is left open, as it is for a binary
heap, whose answer depends on the order of the insertions.

Taking elements off the top (`Pops`), whatever is smaller than what is on top in the
end has been taken (`Pops.mem_of_lt`).
-/

namespace MinQueue

variable {α β : Type*} [LinearOrder β]

/-- A choice of an element with the smallest key, in every non-empty list. -/
structure Top (key : α → β) where
  top : List α → Option α
  mem {q : List α} {a : α} : top q = some a → a ∈ q
  le {q : List α} {a : α} : top q = some a → ∀ b ∈ q, key a ≤ key b
  nil_of_none {q : List α} : top q = none → q = []

variable {key : α → β} (T : Top key)

/-- Removing what is on top makes the queue shorter. -/
theorem Top.length_erase_lt [BEq α] [LawfulBEq α] {q : List α} {a : α}
    (h : T.top q = some a) : (q.erase a).length < q.length := by
  have hpos := List.length_pos_of_mem (T.mem h)
  rw [List.length_erase_of_mem (T.mem h)]
  omega

/-- The first of the elements with the smallest key. -/
def first (key : α → β) : List α → Option α
  | [] => none
  | a :: q =>
    match first key q with
    | none => some a
    | some b => if key a ≤ key b then some a else some b

theorem nil_of_first_eq_none {q : List α} (h : first key q = none) : q = [] := by
  cases q with
  | nil => rfl
  | cons a q =>
    rw [first] at h
    split at h
    · cases h
    · split at h <;> cases h

theorem mem_and_le_of_first {q : List α} {a : α} (h : first key q = some a) :
    a ∈ q ∧ ∀ b ∈ q, key a ≤ key b := by
  induction q generalizing a with
  | nil => cases h
  | cons c q ih =>
    rw [first] at h
    split at h
    · next hq =>
      cases h
      simp [nil_of_first_eq_none hq]
    · next d hq =>
      obtain ⟨hd, hle⟩ := ih hq
      split at h
      · next hcd =>
        cases h
        exact ⟨List.mem_cons_self,
          List.forall_mem_cons.2 ⟨le_rfl, fun b hb => hcd.trans (hle b hb)⟩⟩
      · next hcd =>
        cases h
        exact ⟨List.mem_cons_of_mem _ hd,
          List.forall_mem_cons.2 ⟨(not_le.1 hcd).le, hle⟩⟩

/-- The choice of the first element with the smallest key. -/
def Top.first (key : α → β) : Top key where
  top := MinQueue.first key
  mem h := (mem_and_le_of_first h).1
  le h := (mem_and_le_of_first h).2
  nil_of_none := nil_of_first_eq_none

/-! ## Taking elements off the top -/

section Pops

variable [BEq α]

/-- The elements taken off the top one after the other, by successive choices, and the
    queue left. -/
inductive Pops : (ℕ → Top key) → List α → List α → List α → Prop
  | nil (T : ℕ → Top key) (q : List α) : Pops T q [] q
  | cons {T : ℕ → Top key} {q popped q' : List α} {a : α} : (T 0).top q = some a →
      Pops (fun n => T (n + 1)) (q.erase a) popped q' → Pops T q (a :: popped) q'

variable [LawfulBEq α] {T : ℕ → Top key} {q popped q' : List α}

theorem Pops.perm (h : Pops T q popped q') : q.Perm (popped ++ q') := by
  induction h with
  | nil => exact .refl _
  | cons htop _ ih => exact (List.perm_cons_erase (Top.mem _ htop)).trans (.cons _ ih)

/-- What is smaller than the element on top in the end has been taken off. -/
theorem Pops.mem_of_lt {a b : α} (h : Pops T q popped q')
    (ha : (T popped.length).top q' = some a) (hb : b ∈ q) (hlt : key b < key a) :
    b ∈ popped ∧ b ∉ q' := by
  have hleft : b ∉ q' := fun hb' => absurd ((T popped.length).le ha b hb') (not_le.2 hlt)
  exact ⟨(List.mem_append.1 (h.perm.mem_iff.1 hb)).resolve_right hleft, hleft⟩

end Pops

end MinQueue
