import Mathlib.Data.List.Count
import Mathlib.Logic.Function.Basic

/-!
# Pointers to sequences

Objects that hold sequences, named by identities, and referred to by nullable
pointers: what the objects behind a list of pointers hold one by one (`chunks`)
and together (`contents`), and that no two of the pointers refer to the same
object (`Unique`). A program that moves objects around by moving pointers keeps
these, up to the order; one that writes to an object changes the contents of the
lists it is in only (`contents_update`).
-/

namespace Pointers

variable {α β : Type*}

/-- The sequences held by the objects that some pointers refer to, one after the
    other. A null pointer contributes nothing. -/
def contents (heap : α → List β) (ps : List (Option α)) : List β :=
  ps.flatMap fun p => p.elim [] heap

@[simp] theorem contents_nil (heap : α → List β) : contents heap [] = [] := rfl

@[simp] theorem contents_cons (heap : α → List β) (p : Option α) (ps : List (Option α)) :
    contents heap (p :: ps) = p.elim [] heap ++ contents heap ps := rfl

@[simp] theorem contents_append (heap : α → List β) (ps qs : List (Option α)) :
    contents heap (ps ++ qs) = contents heap ps ++ contents heap qs :=
  List.flatMap_append

/-- The sequences one by one, with an empty one for a null pointer. -/
def chunks (heap : α → List β) (ps : List (Option α)) : List (List β) :=
  ps.map fun p => p.elim [] heap

theorem flatten_chunks (heap : α → List β) (ps : List (Option α)) :
    (chunks heap ps).flatten = contents heap ps := List.flatMap_def.symm

@[simp] theorem chunks_nil (heap : α → List β) : chunks heap [] = [] := rfl

@[simp] theorem chunks_cons (heap : α → List β) (p : Option α) (ps : List (Option α)) :
    chunks heap (p :: ps) = p.elim [] heap :: chunks heap ps := rfl

@[simp] theorem chunks_append (heap : α → List β) (ps qs : List (Option α)) :
    chunks heap (ps ++ qs) = chunks heap ps ++ chunks heap qs := List.map_append

theorem eq_nil_of_contents {heap : α → List β} {ps : List (Option α)} {a : α}
    (h : contents heap ps = []) (ha : some a ∈ ps) : heap a = [] :=
  List.flatMap_eq_nil_iff.1 h _ ha

variable [DecidableEq α]

/-- Writing to an object that none of the pointers refers to. -/
theorem chunks_update {heap : α → List β} {ps : List (Option α)} {a : α} (h : some a ∉ ps)
    (xs : List β) : chunks (Function.update heap a xs) ps = chunks heap ps := by
  refine List.map_congr_left fun p hp => ?_
  cases p with
  | none => rfl
  | some b =>
    have hb : b ≠ a := by
      rintro rfl
      exact h hp
    exact Function.update_of_ne hb _ _

theorem contents_update {heap : α → List β} {ps : List (Option α)} {a : α} (h : some a ∉ ps)
    (xs : List β) : contents (Function.update heap a xs) ps = contents heap ps := by
  rw [← flatten_chunks, chunks_update h, flatten_chunks]

/-- No object is referred to by two of the pointers. -/
def Unique (ps : List (Option α)) : Prop := ∀ a, ps.count (some a) ≤ 1

theorem Unique.mono {ps qs : List (Option α)} (h : Unique ps)
    (hcount : ∀ a, qs.count (some a) ≤ ps.count (some a)) : Unique qs :=
  fun a => Nat.le_trans (hcount a) (h a)

/-- What one of the pointers refers to, the others do not. -/
theorem Unique.notMem {ps : List (Option α)} {a : α} (h : Unique (some a :: ps)) : some a ∉ ps := by
  intro ha
  have hcount := h a
  rw [List.count_cons_self] at hcount
  have hpos := List.count_pos_iff.2 ha
  omega

end Pointers
