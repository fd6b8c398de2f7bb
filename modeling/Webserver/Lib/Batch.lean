import Webserver.Lib.Transition
import Mathlib.Data.List.Flatten

/-!
# Batches

A hand-over of items in batches: items are put at the end of the last batch, new
batches are begun behind it, and batches are taken whole, the first one first
(`Batch.system`). A lossy hand-over may also drop some of the batches.

* `Batch.sublist_of_reachable`: what has been taken, followed by what is held, are
  items that were put, in their order.
* `Batch.conserved`: all of them, unless the hand-over is lossy.
-/

namespace Batch

open Transition

/-- The items put so far, the batches held, and the items that have been taken. -/
structure State (α : Type*) where
  put : List α
  batches : List (List α)
  taken : List α

inductive Event (α : Type*)
  | put (x : α)
  | begin
  | take
  | drop

variable {α : Type*} {lossy : Prop}

/-- The steps of a hand-over. -/
inductive Step (lossy : Prop) : State α → Event α → State α → Prop
  | put {q : State α} {bs : List (List α)} {b : List α} (x : α) : q.batches = bs ++ [b] →
      Step lossy q (.put x) ⟨q.put ++ [x], bs ++ [b ++ [x]], q.taken⟩
  | begin {q : State α} : Step lossy q .begin ⟨q.put, q.batches ++ [[]], q.taken⟩
  | take {q : State α} {b : List α} {bs : List (List α)} : q.batches = b :: bs →
      Step lossy q .take ⟨q.put, bs, q.taken ++ b⟩
  | drop {q : State α} {bs : List (List α)} : lossy → bs.Sublist q.batches →
      Step lossy q .drop ⟨q.put, bs, q.taken⟩

/-- The hand-over, with an empty batch to begin with. -/
def system (α : Type*) (lossy : Prop) : System (State α) (Event α) where
  init := {⟨[], [[]], []⟩}
  step := Step lossy

/-- Every batch taken or held has been put. -/
theorem sublist_of_reachable {q : State α} (hq : (system α lossy).Reachable q) :
    (q.taken ++ q.batches.flatten).Sublist q.put := by
  refine hq.invariant (I := fun q => (q.taken ++ q.batches.flatten).Sublist q.put)
    (fun q hq => ?_) fun q e q' _ hq _ hst => ?_
  · rw [Set.mem_singleton_iff.1 hq]
    exact List.Sublist.refl _
  · rcases hst with @⟨bs, b, x, hbs⟩ | _ | @⟨b, bs, hbs⟩ | @⟨bs, -, hbs⟩
    · rw [hbs] at hq
      simpa using hq.append (List.Sublist.refl [x])
    · simpa using hq
    · simpa [hbs] using hq
    · exact ((List.Sublist.refl _).append hbs.flatten).trans hq

/-- What has been taken, followed by what is held, is what has been put. -/
theorem conserved {q : State α} (hlossy : ¬lossy) (hq : (system α lossy).Reachable q) :
    q.taken ++ q.batches.flatten = q.put := by
  refine hq.invariant (I := fun q => q.taken ++ q.batches.flatten = q.put)
    (fun q hq => ?_) fun q e q' _ hq _ hst => ?_
  · rw [Set.mem_singleton_iff.1 hq]
    rfl
  · rcases hst with @⟨bs, b, x, hbs⟩ | _ | @⟨b, bs, hbs⟩ | @⟨bs, hdrop, -⟩
    · simp [← hq, hbs]
    · simp [← hq]
    · simp [← hq, hbs]
    · exact absurd hdrop hlossy

end Batch
