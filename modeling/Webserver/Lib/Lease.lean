import Mathlib.Logic.Function.Basic
import Mathlib.Order.Lattice

/-!
# Leases

Keys that are held until a deadline: one is granted with every key that is taken up
and again when it is used, a key may be given up before, and a sweep at some time
removes all keys whose deadline has come.

* `Lease.run_iff_of_untouched`: a key that is neither granted anew nor given up is held
  until the first sweep at or after its deadline, and no longer.
-/

namespace Lease

/-- The keys held, with their deadlines. -/
abbrev Table (K T : Type*) := K → Option T

inductive Event (K T : Type*)
  | grant (k : K) (d : T)
  | revoke (k : K)
  | sweep (t : T)

variable {K T : Type*} [DecidableEq K] [LinearOrder T]

/-- The table after an event. -/
def apply (f : Table K T) : Event K T → Table K T
  | .grant k d => Function.update f k (some d)
  | .revoke k => Function.update f k none
  | .sweep t => fun k => (f k).filter fun d => decide (t < d)

/-- The table after a sequence of events. -/
def run (f : Table K T) (es : List (Event K T)) : Table K T := es.foldl apply f

/-- The event grants this key or revokes it. -/
def Event.Touches (k : K) : Event K T → Prop
  | .grant k' _ | .revoke k' => k' = k
  | .sweep _ => False

/-- The event is not a sweep at the deadline, or after it. -/
def Event.Spares (d : T) : Event K T → Prop
  | .grant _ _ | .revoke _ => True
  | .sweep t => t < d

theorem run_append (f : Table K T) (es es' : List (Event K T)) :
    run f (es ++ es') = run (run f es) es' := List.foldl_append

theorem apply_iff_of_not_touches {f : Table K T} {k : K} {d : T} {e : Event K T}
    (he : ¬e.Touches k) : apply f e k = some d ↔ f k = some d ∧ e.Spares d := by
  rcases e with ⟨k', d'⟩ | k' | t
  · rw [apply, Function.update_of_ne (Ne.symm he)]
    exact (and_iff_left trivial).symm
  · rw [apply, Function.update_of_ne (Ne.symm he)]
    exact (and_iff_left trivial).symm
  · rw [apply, Option.filter_eq_some_iff, decide_eq_true_eq]
    rfl

/-- A key is held with the same deadline as long as no sweep comes at it or after it. -/
theorem run_iff_of_untouched {f : Table K T} {k : K} {d : T} {es : List (Event K T)}
    (hes : ∀ e ∈ es, ¬e.Touches k) :
    run f es k = some d ↔ f k = some d ∧ ∀ e ∈ es, e.Spares d := by
  induction es generalizing f with
  | nil => exact (and_iff_left (List.forall_mem_nil _)).symm
  | cons e es ih =>
    obtain ⟨he, hes⟩ := List.forall_mem_cons.1 hes
    have hrest : run f (e :: es) k = some d ↔ _ := ih (f := apply f e) hes
    rw [hrest, apply_iff_of_not_touches he, List.forall_mem_cons, and_assoc]

end Lease
