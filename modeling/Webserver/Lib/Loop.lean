import Mathlib.Data.List.Basic
import Mathlib.Data.Nat.Notation

/-!
# Loops and their rounds

A loop is given by what one round of it does: it leads to the state the next round
starts from, or to the result. `Runs` are the runs that come to an end, with the
states their further rounds start from.

* `Runs.unique`: a loop has one run only.
* `exists_runs`, `Runs.length_le`: if every round that is followed by another makes a
  measure smaller, the loop ends, and the measure bounds the number of rounds.
* `exists_runs_eq`: the same for a function that is computed by the rounds.
* `Runs.forall_of_step`: what a round establishes holds at the start of the next.
-/

namespace Loop

variable {σ ρ : Type*}

/-- A run from a state, with the states its further rounds start from, and its result. -/
inductive Runs (round : σ → σ ⊕ ρ) : σ → List σ → ρ → Prop
  | done {s : σ} {r : ρ} : round s = .inr r → Runs round s [] r
  | again {s s' : σ} {rounds : List σ} {r : ρ} :
      round s = .inl s' → Runs round s' rounds r → Runs round s (s' :: rounds) r

variable {round : σ → σ ⊕ ρ} {s : σ} {rounds rounds' : List σ} {r r' : ρ}
  {f : σ → ρ}

theorem Runs.unique (h : Runs round s rounds r) (h' : Runs round s rounds' r') :
    rounds = rounds' ∧ r = r' := by
  induction h generalizing rounds' with
  | done hround =>
    cases h' with
    | done hround' => exact ⟨rfl, Sum.inr.inj (hround.symm.trans hround')⟩
    | again hround' _ => cases hround.symm.trans hround'
  | again hround _ ih =>
    cases h' with
    | done hround' => cases hround.symm.trans hround'
    | again hround' hrest =>
      cases hround.symm.trans hround'
      obtain ⟨rfl, rfl⟩ := ih hrest
      exact ⟨rfl, rfl⟩

/-- A loop ends, if every round that is followed by another makes a measure smaller. -/
theorem exists_runs (measure : σ → ℕ)
    (hlt : ∀ s s', round s = .inl s' → measure s' < measure s) (s : σ) :
    ∃ rounds r, Runs round s rounds r := by
  induction hn : measure s using Nat.strongRecOn generalizing s with
  | ind n ih =>
    cases hround : round s with
    | inl s' =>
      obtain ⟨rounds, r, h⟩ := ih _ (hn ▸ hlt s s' hround) s' rfl
      exact ⟨s' :: rounds, r, .again hround h⟩
    | inr r => exact ⟨[], r, .done hround⟩

/-- The measure bounds the number of further rounds. -/
theorem Runs.length_le (measure : σ → ℕ)
    (hlt : ∀ s s', round s = .inl s' → measure s' < measure s) (h : Runs round s rounds r) :
    rounds.length ≤ measure s := by
  induction h with
  | done => exact Nat.zero_le _
  | again hround _ ih => exact Nat.lt_of_le_of_lt ih (hlt _ _ hround)

/-- The result is what a function returns that goes on round by round. -/
theorem Runs.eq (hf : ∀ s, f s = (round s).elim f fun r => r) (h : Runs round s rounds r) :
    r = f s := by
  induction h with
  | done hround => rw [hf, hround]; rfl
  | again hround _ ih => rw [hf, hround]; exact ih

/-- A function that goes on round by round is computed by a run whose length the measure
    bounds. -/
theorem exists_runs_eq (hf : ∀ s, f s = (round s).elim f fun r => r) (measure : σ → ℕ)
    (hlt : ∀ s s', round s = .inl s' → measure s' < measure s) (s : σ) :
    ∃ rounds, Runs round s rounds (f s) ∧ rounds.length ≤ measure s := by
  obtain ⟨rounds, r, h⟩ := exists_runs measure hlt s
  obtain rfl := h.eq hf
  exact ⟨rounds, h, h.length_le measure hlt⟩

/-- What every round establishes holds where further rounds start. -/
theorem Runs.forall_of_step {P : σ → Prop} (hP : ∀ s s', round s = .inl s' → P s')
    (h : Runs round s rounds r) : ∀ s' ∈ rounds, P s' := by
  induction h with
  | done => exact List.forall_mem_nil _
  | again hround _ ih => exact List.forall_mem_cons.2 ⟨hP _ _ hround, ih⟩

end Loop
