import Mathlib.Data.Set.Insert

/-!
# Transition systems

A labelled transition system (`System`): a set of initial states, and steps
between states labelled by events. Its runs are observed by the states they
reach (`System.Reachable`).

Many properties only hold of the runs that stay clear of something, such as a
branch of the modelled code: `System.ReachableBy ok` are the states reached by
the runs all of whose steps meet the condition `ok`, on the state before the
step and its event.

* `ReachableBy.invariant`: the induction on runs, packaged once. What holds
  initially and is preserved by the steps that meet the condition holds of
  every state so reached.
* `Refinement`: an abstraction function under which every step of a concrete
  system is a sequence of steps of an abstract one (an empty one if the step
  is invisible there). What is reachable below is then reachable above
  (`Refinement.reachable`).
* `Simulation`: the same with a relation, where the concrete state does not
  determine the abstract one.
-/

namespace Transition

/-- A labelled transition system on the states `σ`, with the events `ε`. -/
structure System (σ ε : Type*) where
  /-- The initial states. -/
  init : Set σ
  /-- The steps: from a state, by an event, to a state. -/
  step : σ → ε → σ → Prop

namespace System

variable {σ ε τ δ : Type*} (S : System σ ε)

/-- The states reached by the runs whose steps all meet the condition `ok`. -/
inductive ReachableBy (ok : σ → ε → Prop) : σ → Prop
  | init {s : σ} : s ∈ S.init → ReachableBy ok s
  | step {s s' : σ} {e : ε} : ReachableBy ok s → ok s e → S.step s e s' → ReachableBy ok s'

/-- The states reached by any run. -/
abbrev Reachable : σ → Prop := S.ReachableBy fun _ _ => True

/-- The steps of a run from one state to another, with their events. -/
inductive Steps : σ → List ε → σ → Prop
  | nil {s : σ} : Steps s [] s
  | cons {s s' s'' : σ} {e : ε} {es : List ε} :
      S.step s e s' → Steps s' es s'' → Steps s (e :: es) s''

/-- A run from one state to another, with the state before each of its steps and
    the event of the step. -/
inductive Run : σ → List (σ × ε) → σ → Prop
  | nil {s : σ} : Run s [] s
  | cons {s s' s'' : σ} {e : ε} {ps : List (σ × ε)} :
      S.step s e s' → Run s' ps s'' → Run s ((s, e) :: ps) s''

variable {S} {ok : σ → ε → Prop}

theorem Run.single {s s' : σ} {e : ε} (h : S.step s e s') : S.Run s [(s, e)] s' := .cons h .nil

theorem Run.append {s s' s'' : σ} {ps ps' : List (σ × ε)} (h : S.Run s ps s')
    (h' : S.Run s' ps' s'') : S.Run s (ps ++ ps') s'' := by
  induction h with
  | nil => exact h'
  | cons hst _ ih => exact .cons hst (ih h')

theorem ReachableBy.mono {ok' : σ → ε → Prop} (hok : ∀ s e, ok s e → ok' s e) {s : σ}
    (hs : S.ReachableBy ok s) : S.ReachableBy ok' s := by
  induction hs with
  | init hs => exact .init hs
  | step _ he hst ih => exact .step ih (hok _ _ he) hst

theorem ReachableBy.reachable {s : σ} (hs : S.ReachableBy ok s) : S.Reachable s :=
  hs.mono fun _ _ _ => trivial

/-- What holds initially and is preserved by the steps that meet the condition
    holds of every state reached by such steps. The reachability of the state
    before the step is at hand, so that invariants build on one another. -/
theorem ReachableBy.invariant {I : σ → Prop} (hinit : ∀ s ∈ S.init, I s)
    (hstep : ∀ s e s', S.ReachableBy ok s → I s → ok s e → S.step s e s' → I s') {s : σ}
    (hs : S.ReachableBy ok s) : I s := by
  induction hs with
  | init hs => exact hinit _ hs
  | step hs he hst ih => exact hstep _ _ _ hs ih he hst

/-- A run computed by a function, with a property of the state it reaches. -/
theorem exists_reachableBy_of_any {next : σ → ε → Option σ}
    (hnext : ∀ s e s', next s e = some s' → S.step s e s') [∀ s e, Decidable (ok s e)] {s : σ}
    (hs : S.ReachableBy ok s) (es : List ε) (p : σ → Bool)
    (h : (es.foldlM (fun s e => if ok s e then next s e else none) s).any p = true) :
    ∃ s', S.ReachableBy ok s' ∧ p s' = true := by
  induction es generalizing s with
  | nil => exact ⟨s, hs, h⟩
  | cons e es ih =>
    rw [List.foldlM_cons] at h
    split at h
    · next hok =>
      cases hs' : next s e with
      | none => rw [hs'] at h; cases h
      | some s' =>
        rw [hs'] at h
        exact ih (.step hs hok (hnext s e s' hs')) h
    · cases h

theorem Steps.append {s s' s'' : σ} {es es' : List ε} (h : S.Steps s es s')
    (h' : S.Steps s' es' s'') : S.Steps s (es ++ es') s'' := by
  induction h with
  | nil => exact h'
  | cons hst _ ih => exact .cons hst (ih h')

theorem Steps.single {s s' : σ} {e : ε} (h : S.step s e s') : S.Steps s [e] s' := .cons h .nil

theorem Reachable.steps {s s' : σ} {es : List ε} (hs : S.Reachable s) (h : S.Steps s es s') :
    S.Reachable s' := by
  induction h with
  | nil => exact hs
  | cons hst _ ih => exact ih (.step hs trivial hst)

theorem Reachable.run {s s' : σ} {ps : List (σ × ε)} (hs : S.Reachable s) (h : S.Run s ps s') :
    S.Reachable s' := by
  induction h with
  | nil => exact hs
  | cons hst _ ih => exact ih (.step hs trivial hst)

end System

/-- A refinement of the abstract system `A` by the concrete system `C`, for the
    runs of `C` whose steps meet the condition `ok`: every such step, from a
    reachable state, is a sequence of abstract steps. -/
structure Refinement {σ ε τ δ : Type*} (C : System σ ε) (A : System τ δ)
    (ok : σ → ε → Prop) where
  /-- The abstraction of a concrete state. -/
  abs : σ → τ
  init : ∀ s ∈ C.init, abs s ∈ A.init
  step : ∀ s e s', C.ReachableBy ok s → ok s e → C.step s e s' →
    ∃ es, A.Steps (abs s) es (abs s')

/-- The abstraction of a reachable state is reachable. -/
theorem Refinement.reachable {σ ε τ δ : Type*} {C : System σ ε} {A : System τ δ}
    {ok : σ → ε → Prop} (R : Refinement C A ok) {s : σ} (hs : C.ReachableBy ok s) :
    A.Reachable (R.abs s) := by
  induction hs with
  | init hs => exact .init (R.init _ hs)
  | step hs he hst ih =>
    obtain ⟨es, hes⟩ := R.step _ _ _ hs he hst
    exact ih.steps hes

/-- A simulation of the concrete system `C` by the abstract system `A`, for the
    runs of `C` whose steps meet the condition `ok`: every such step, between
    reachable states that are related, is matched by abstract steps. -/
structure Simulation {σ ε τ δ : Type*} (C : System σ ε) (A : System τ δ)
    (ok : σ → ε → Prop) where
  /-- What an abstract state has to do with a concrete one. -/
  rel : σ → τ → Prop
  init : ∀ s ∈ C.init, ∃ t ∈ A.init, rel s t
  step : ∀ s e s' t, C.ReachableBy ok s → A.Reachable t → rel s t → ok s e → C.step s e s' →
    ∃ es t', A.Steps t es t' ∧ rel s' t'

/-- A reachable state is related to a reachable one. -/
theorem Simulation.reachable {σ ε τ δ : Type*} {C : System σ ε} {A : System τ δ}
    {ok : σ → ε → Prop} (R : Simulation C A ok) {s : σ} (hs : C.ReachableBy ok s) :
    ∃ t, A.Reachable t ∧ R.rel s t := by
  induction hs with
  | init hs =>
    obtain ⟨t, ht, hrel⟩ := R.init _ hs
    exact ⟨t, .init ht, hrel⟩
  | step hs he hst ih =>
    obtain ⟨t, ht, hrel⟩ := ih
    obtain ⟨es, t', hes, hrel'⟩ := R.step _ _ _ t hs ht hrel he hst
    exact ⟨t', ht.steps hes, hrel'⟩

end Transition
