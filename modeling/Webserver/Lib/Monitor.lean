import Webserver.Lib.Transition
import Mathlib.Data.Fintype.Defs
import Mathlib.Logic.Function.Basic

/-!
# Monitors

A mutex with one condition variable, and the data that threads work on in critical
sections. Within a critical section, what a thread does depends on its program point and
on the data (`Program`): it goes on to another point, waits for the condition, notifies
all threads that wait for it, or leaves. Between any two of these steps other threads may
take theirs, as long as they do not need the mutex.

A thread that waits gives the mutex back, and goes on when it has been notified, or woken
up for no reason, and has the mutex again.

* `Program.exclusive_of_reachable`: at most one thread is in a critical section.
* `Program.Signals.due_of_waiting`: no wake-up is lost. If threads wait only until the
  data have some property, and whoever gives the data this property notifies them before
  it leaves, then threads that still wait are about to be notified.
-/

namespace Monitor

open Transition

/-- Where a thread is: outside of critical sections, inside of one, or in a call that
    waits for the condition, after which it goes on inside. -/
inductive Place (P : Type*)
  | outside
  | inside (p : P)
  | waiting (p : P)
  | notified (p : P)
  deriving DecidableEq

/-- What a thread inside of a critical section does next. -/
inductive Action (P D : Type*)
  | goto (p : P) (d : D)
  | wait (p : P)
  | notifyAll (p : P)
  | leave

/-- Where critical sections begin, and their code. -/
structure Program (P D : Type*) where
  entry : P → Bool
  code : P → D → Action P D

/-- The data, and where the threads are. -/
structure State (T P D : Type*) where
  data : D
  place : T → Place P

variable {T P D : Type*}

namespace Place

/-- The thread has locked the mutex. -/
def Inside : Place P → Prop
  | inside _ => True
  | _ => False

instance (place : Place P) : Decidable place.Inside :=
  match place with
  | outside => isFalse not_false
  | inside _ => isTrue trivial
  | waiting _ => isFalse not_false
  | notified _ => isFalse not_false

/-- A thread that waits for the condition is notified. -/
def notify : Place P → Place P
  | waiting p => notified p
  | place => place

theorem notify_ne_waiting (place : Place P) (p : P) : place.notify ≠ waiting p := by
  cases place <;> exact nofun

theorem inside_notify {place : Place P} : place.notify.Inside ↔ place.Inside := by
  cases place <;> exact Iff.rfl

end Place

namespace State

/-- A monitor that no thread has entered. -/
def new (d : D) : State T P D := ⟨d, fun _ => .outside⟩

/-- The mutex is not locked. -/
def Free (m : State T P D) : Prop := ∀ t, ¬(m.place t).Inside

instance [Fintype T] (m : State T P D) : Decidable m.Free :=
  inferInstanceAs (Decidable (∀ t, ¬(m.place t).Inside))

def notifyAll (m : State T P D) : State T P D := { m with place := fun t => (m.place t).notify }

variable [DecidableEq T]

def move (m : State T P D) (t : T) (place : Place P) : State T P D :=
  { m with place := Function.update m.place t place }

@[simp] theorem place_move_self (m : State T P D) (t : T) (place : Place P) :
    (m.move t place).place t = place := Function.update_self _ _ _

theorem place_move_of_ne (m : State T P D) {t u : T} (h : u ≠ t) (place : Place P) :
    (m.move t place).place u = m.place u := Function.update_of_ne h _ _

end State

/-! ## Runs -/

inductive Event (T P : Type*)
  | enter (t : T) (p : P)
  | act (t : T)
  | leave (t : T)
  | wake (t : T)
  | resume (t : T)
  deriving DecidableEq

namespace Program

variable [DecidableEq T] (prog : Program P D)

/-- The steps of the threads, and the wake-ups that have no reason. -/
inductive Step : State T P D → Event T P → State T P D → Prop
  | enter {m : State T P D} {t : T} {p : P} :
      prog.entry p = true → m.place t = .outside → m.Free →
      Step m (.enter t p) (m.move t (.inside p))
  | goto {m : State T P D} {t : T} {p q : P} {d : D} :
      m.place t = .inside p → prog.code p m.data = .goto q d →
      Step m (.act t) { m.move t (.inside q) with data := d }
  | wait {m : State T P D} {t : T} {p q : P} :
      m.place t = .inside p → prog.code p m.data = .wait q →
      Step m (.act t) (m.move t (.waiting q))
  | notifyAll {m : State T P D} {t : T} {p q : P} :
      m.place t = .inside p → prog.code p m.data = .notifyAll q →
      Step m (.act t) (m.notifyAll.move t (.inside q))
  | leave {m : State T P D} {t : T} {p : P} :
      m.place t = .inside p → prog.code p m.data = .leave → Step m (.leave t) (m.move t .outside)
  | wake {m : State T P D} {t : T} {p : P} :
      m.place t = .waiting p → Step m (.wake t) (m.move t (.notified p))
  | resume {m : State T P D} {t : T} {p : P} :
      m.place t = .notified p → m.Free → Step m (.resume t) (m.move t (.inside p))

/-- The state an event leads to. -/
def next [Fintype T] (m : State T P D) : Event T P → Option (State T P D)
  | .enter t p =>
    match m.place t with
    | .outside => if prog.entry p = true ∧ m.Free then some (m.move t (.inside p)) else none
    | _ => none
  | .act t =>
    match m.place t with
    | .inside p =>
      match prog.code p m.data with
      | .goto q d => some { m.move t (.inside q) with data := d }
      | .wait q => some (m.move t (.waiting q))
      | .notifyAll q => some (m.notifyAll.move t (.inside q))
      | .leave => none
    | _ => none
  | .leave t =>
    match m.place t with
    | .inside p =>
      match prog.code p m.data with
      | .leave => some (m.move t .outside)
      | _ => none
    | _ => none
  | .wake t =>
    match m.place t with
    | .waiting p => some (m.move t (.notified p))
    | _ => none
  | .resume t =>
    match m.place t with
    | .notified p => if m.Free then some (m.move t (.inside p)) else none
    | _ => none

/-- The runs of any number of threads, from a monitor with the data `d`. -/
def system (T : Type*) [DecidableEq T] (d : D) : System (State T P D) (Event T P) where
  init := {State.new d}
  step := prog.Step

variable {prog} {d : D} {m m' : State T P D} {e : Event T P}

theorem step_of_next [Fintype T] (h : prog.next m e = some m') : prog.Step m e m' := by
  cases e with
  | enter t p =>
    rw [next] at h
    split at h
    · next hplace =>
      obtain ⟨⟨hentry, hfree⟩, h⟩ := Option.ite_none_right_eq_some.1 h
      cases h
      exact .enter hentry hplace hfree
    · cases h
  | act t =>
    rw [next] at h
    split at h
    · next hplace =>
      split at h
      · next hcode => cases h; exact .goto hplace hcode
      · next hcode => cases h; exact .wait hplace hcode
      · next hcode => cases h; exact .notifyAll hplace hcode
      · cases h
    · cases h
  | leave t =>
    rw [next] at h
    split at h
    · next hplace =>
      split at h
      · next hcode => cases h; exact .leave hplace hcode
      · cases h
    · cases h
  | wake t =>
    rw [next] at h
    split at h
    · next hplace => cases h; exact .wake hplace
    · cases h
  | resume t =>
    rw [next] at h
    split at h
    · next hplace =>
      obtain ⟨hfree, h⟩ := Option.ite_none_right_eq_some.1 h
      cases h
      exact .resume hplace hfree
    · cases h

/-! ## Mutual exclusion -/

/-- The threads inside of critical sections are the same one. -/
def Exclusive (m : State T P D) : Prop :=
  ∀ t u, (m.place t).Inside → (m.place u).Inside → t = u

theorem Exclusive.move (hm : Exclusive m) {t : T} {place : Place P}
    (ht : place.Inside → ∀ u ≠ t, ¬(m.place u).Inside) : Exclusive (m.move t place) := by
  have hother : ∀ u v, u ≠ t → ((m.move t place).place u).Inside →
      ((m.move t place).place v).Inside → u = v := by
    intro u v hu hinside hinside'
    rw [State.place_move_of_ne m hu] at hinside
    by_cases hv : v = t
    · subst hv
      rw [State.place_move_self] at hinside'
      exact absurd hinside (ht hinside' u hu)
    · rw [State.place_move_of_ne m hv] at hinside'
      exact hm u v hinside hinside'
  intro u v hinside hinside'
  by_cases hu : u = t
  · by_cases hv : v = t
    · rw [hu, hv]
    · exact (hother v u hv hinside' hinside).symm
  · exact hother u v hu hinside hinside'

theorem Exclusive.step (hm : Exclusive m) (hst : prog.Step m e m') : Exclusive m' := by
  have hinside : ∀ {t : T} {p : P}, m.place t = .inside p →
      ∀ u ≠ t, ¬(m.place u).Inside := by
    intro t p ht u hu hinside
    exact hu (hm u t hinside (by rw [ht]; trivial))
  cases hst with
  | enter _ _ hfree | resume _ hfree => exact hm.move fun _ u _ => hfree u
  | goto ht => exact Exclusive.move (m := m) hm fun _ => hinside ht
  | wait ht | leave ht => exact hm.move fun _ => hinside ht
  | notifyAll ht =>
    have hm : Exclusive m.notifyAll := fun u v hu hv =>
      hm u v (Place.inside_notify.1 hu) (Place.inside_notify.1 hv)
    exact hm.move fun _ u hu h => hinside ht u hu (Place.inside_notify.1 h)
  | wake => exact hm.move fun h => h.elim

theorem exclusive_of_reachable (hm : (prog.system T d).Reachable m) : Exclusive m := by
  refine hm.invariant (fun m hm => ?_) fun m e m' _ hm _ hst => hm.step hst
  rw [Set.mem_singleton_iff.1 hm]
  exact fun t u h => h.elim

/-! ## Wake-ups -/

/-- Threads wait only until `Awaited` holds of the data, and whoever makes it hold is at a
    point where a notification is due, and stays at such points until it has notified the
    others. -/
structure Signals (prog : Program P D) (Awaited : D → Prop) (Due : P → D → Prop) : Prop where
  wait : ∀ {p q d}, prog.code p d = .wait q → ¬Awaited d
  goto : ∀ {p q d d'}, prog.code p d = .goto q d' → Awaited d' →
    Due q d' ∨ (Awaited d ∧ ¬Due p d)
  leave : ∀ {p d}, prog.code p d = .leave → Awaited d → ¬Due p d

/-- Where `Awaited` holds, nobody waits, or a notification is due. -/
def Notified (Awaited : D → Prop) (Due : P → D → Prop) (m : State T P D) : Prop :=
  Awaited m.data → (∀ t p, m.place t ≠ .waiting p) ∨ ∃ u q, m.place u = .inside q ∧ Due q m.data

section Signals

variable {Awaited : D → Prop} {Due : P → D → Prop}

/-- Moving a thread to a place where it does not wait. -/
theorem not_waiting_move (h : ∀ t p, m.place t ≠ .waiting p) {t : T} {place : Place P}
    (hplace : ∀ p, place ≠ .waiting p) (u : T) (p : P) : (m.move t place).place u ≠ .waiting p := by
  by_cases hu : u = t
  · subst hu
    rw [State.place_move_self]
    exact hplace p
  · rw [State.place_move_of_ne m hu]
    exact h u p

omit [DecidableEq T] in
/-- If the mutex is not locked, nobody waits. -/
theorem Notified.of_free (h : Notified Awaited Due m) (hfree : m.Free) (hdata : Awaited m.data) :
    ∀ t p, m.place t ≠ .waiting p := by
  refine (h hdata).resolve_right ?_
  rintro ⟨u, q, hu, -⟩
  exact hfree u (by rw [hu]; trivial)

omit [DecidableEq T] in
/-- If a thread has locked it for which no notification is due, neither. -/
theorem Notified.of_inside (h : Notified Awaited Due m) (hm : Exclusive m) {t : T} {p : P}
    (ht : m.place t = .inside p) (hdue : ¬Due p m.data) (hdata : Awaited m.data) :
    ∀ t p, m.place t ≠ .waiting p := by
  refine (h hdata).resolve_right ?_
  rintro ⟨u, q, hu, hq⟩
  obtain rfl := hm u t (by rw [hu]; trivial) (by rw [ht]; trivial)
  cases ht.symm.trans hu
  exact hdue hq

theorem Notified.step (hsignals : prog.Signals Awaited Due) (h : Notified Awaited Due m)
    (hm : Exclusive m) (hst : prog.Step m e m') : Notified Awaited Due m' := by
  cases hst with
  | enter _ _ hfree | resume _ hfree =>
    exact fun hdata => .inl (not_waiting_move (h.of_free hfree hdata) nofun)
  | @goto t p q d' ht hcode =>
    intro hdata
    rcases hsignals.goto hcode hdata with hdue | ⟨hdata, hdue⟩
    · exact .inr ⟨t, q, State.place_move_self _ _ _, hdue⟩
    · exact .inl (not_waiting_move (h.of_inside hm ht hdue hdata) nofun)
  | wait ht hcode => exact fun hdata => absurd hdata (hsignals.wait hcode)
  | notifyAll =>
    exact fun _ => .inl (not_waiting_move (fun t p => Place.notify_ne_waiting _ p) nofun)
  | leave ht hcode =>
    exact fun hdata => .inl (not_waiting_move
      (h.of_inside hm ht (hsignals.leave hcode hdata) hdata) nofun)
  | @wake t p ht =>
    intro hdata
    rcases h hdata with hnone | ⟨u, q, hu, hdue⟩
    · exact .inl (not_waiting_move hnone nofun)
    · refine .inr ⟨u, q, ?_, hdue⟩
      rw [State.place_move_of_ne m (by rintro rfl; cases ht.symm.trans hu)]
      exact hu

/-- A thread that still waits is about to be notified by the one that has locked the
    mutex. -/
theorem Signals.due_of_waiting (hsignals : prog.Signals Awaited Due)
    (hm : (prog.system T d).Reachable m) (hdata : Awaited m.data) {t : T} {p : P}
    (ht : m.place t = .waiting p) : ∃ u q, m.place u = .inside q ∧ Due q m.data := by
  have h : Notified Awaited Due m := by
    refine hm.invariant (fun m hm => ?_) fun m e m' hm h _ hst =>
      h.step hsignals (exclusive_of_reachable hm) hst
    rw [Set.mem_singleton_iff.1 hm]
    exact fun _ => .inl nofun
  exact (h hdata).resolve_left fun hnone => hnone t p ht

end Signals

end Program

end Monitor
