import Webserver.Lib.Transition

/-!
# First in, first out

What a hand-over between threads is for, in its own terms: items are `put` in
some order, held, and `taken` out in the same order (`Fifo.system`). Nothing is
said of where they are held, which may be any number of queues, batches and
buffers one behind the other: those are what an implementation refines this
system with.

`Fifo.conserved` is what a refinement gives: what has been taken, followed by
what is held, is what has been put, in order and once each.
-/

namespace Fifo

open Transition

/-- The state of a hand-over: the items put so far, and those of them that are
    held and that have been taken, each in order. -/
structure State (α : Type*) where
  put : List α
  held : List α
  taken : List α

/-- Putting items in at the end, or taking some out at the front. -/
inductive Event (α : Type*)
  | put (xs : List α)
  | take (xs : List α)

variable {α : Type*}

/-- The steps of a hand-over. -/
inductive Step : State α → Event α → State α → Prop
  | put {q : State α} (xs : List α) :
      Step q (.put xs) ⟨q.put ++ xs, q.held ++ xs, q.taken⟩
  | take {q : State α} (xs ys : List α) :
      q.held = xs ++ ys → Step q (.take xs) ⟨q.put, ys, q.taken ++ xs⟩

/-- The hand-over, initially empty. -/
def system (α : Type*) : System (State α) (Event α) where
  init := {⟨[], [], []⟩}
  step := Step

/-- What has been taken, followed by what is held, is what has been put. -/
theorem conserved {q : State α} (hq : (system α).Reachable q) : q.taken ++ q.held = q.put := by
  refine hq.invariant (I := fun q => q.taken ++ q.held = q.put) (fun q hq => ?_)
    fun q e q' _ hq _ hst => ?_
  · rw [Set.mem_singleton_iff.1 hq]
    rfl
  · cases hst with
    | put xs => simp only [← List.append_assoc, hq]
    | take xs ys hxs => rw [← hq, hxs, List.append_assoc]

/-- When nothing is held, everything put has been taken. -/
theorem taken_eq_put {q : State α} (hq : (system α).Reachable q) (hheld : q.held = []) :
    q.taken = q.put := by
  rw [← conserved hq, hheld, List.append_nil]

/-- Putting items in, as a run of one step. -/
theorem steps_put {q q' : State α} {xs : List α} (hput : q'.put = q.put ++ xs)
    (hheld : q'.held = q.held ++ xs) (htaken : q'.taken = q.taken) :
    ∃ es, (system α).Steps q es q' := by
  obtain ⟨_, _, _⟩ := q'
  cases hput
  cases hheld
  cases htaken
  exact ⟨_, .single (.put xs)⟩

/-- Taking items out, as a run of one step. -/
theorem steps_take {q q' : State α} {xs : List α} (hput : q'.put = q.put)
    (hheld : q.held = xs ++ q'.held) (htaken : q'.taken = q.taken ++ xs) :
    ∃ es, (system α).Steps q es q' := by
  obtain ⟨_, _, _⟩ := q'
  cases hput
  cases htaken
  exact ⟨_, .single (.take xs _ hheld)⟩

/-- Moving the items held from one place to another, as an empty run. -/
theorem steps_keep {q q' : State α} (h : q' = q) : ∃ es, (system α).Steps q es q' :=
  ⟨[], h ▸ .nil⟩

end Fifo
