import Webserver.Loop.Startup

/-!
# Waiting for a thread to start

Two threads meet at a latch with the count one: one of them waits until the other has
counted down, which each of them does once. This is how `Thread::start` and
`AsyncLogging::start` wait for the thread that they have made.

* `Rendezvous.after_of_reachable`: when the one has returned from `wait`, the other has
  returned from `countDown`, and uses the latch no more.
* `Rendezvous.exists_after`: at any time, the two threads can go on until the one that
  waits has returned.
-/

namespace Webserver

open Transition Monitor CountDownLatch

/-- Before a call, in it, or behind it. -/
inductive Side
  | before
  | during
  | after
  deriving DecidableEq

/-- A latch, and where the two threads are: the one that waits, and the one that counts
    down. -/
structure Rendezvous where
  latch : State Party Point ℤ
  starter : Side
  worker : Side

namespace Rendezvous

/-- The latch of which the count is one. -/
def new : Rendezvous := ⟨.new 1, .before, .before⟩

/-- A thread makes its call, goes on in it, or returns. -/
inductive Step (r : Rendezvous) : Monitor.Event Party Point → Rendezvous → Prop
  | wait {l : State Party Point ℤ} : r.starter = .before →
      program.Step r.latch (.enter .starter .test) l →
      Step r (.enter .starter .test) { r with latch := l, starter := .during }
  | countDown {l : State Party Point ℤ} : r.worker = .before →
      program.Step r.latch (.enter .worker .decrement) l →
      Step r (.enter .worker .decrement) { r with latch := l, worker := .during }
  | inside {e : Monitor.Event Party Point} {l : State Party Point ℤ} :
      (∀ t p, e ≠ .enter t p) → (∀ t, e ≠ .leave t) → program.Step r.latch e l →
      Step r e { r with latch := l }
  | waited {l : State Party Point ℤ} : program.Step r.latch (.leave .starter) l →
      Step r (.leave .starter) { r with latch := l, starter := .after }
  | countedDown {l : State Party Point ℤ} : program.Step r.latch (.leave .worker) l →
      Step r (.leave .worker) { r with latch := l, worker := .after }

def system : System Rendezvous (Monitor.Event Party Point) where
  init := {new}
  step := Step

/-! ## The invariant -/

/-- What the count and the place of the thread that counts down say about each other. -/
inductive Counting : Side → Place Point → ℤ → Prop
  | before : Counting .before .outside 1
  | entered : Counting .during (.inside .decrement) 1
  | counted {p : Point} : p = .compare ∨ p = .notifyAll ∨ p = .unlock →
      Counting .during (.inside p) 0
  | after : Counting .after .outside 0

/-- Where the other one is while it waits. -/
inductive Awaiting : Side → Place Point → Prop
  | outside {side : Side} : side ≠ .during → Awaiting side .outside
  | inside : Awaiting .during (.inside .test)
  | waiting : Awaiting .during (.waiting .test)
  | notified : Awaiting .during (.notified .test)

/-- The invariant: `wait` is left after the count has come to zero. -/
structure Inv (r : Rendezvous) : Prop where
  counting : Counting r.worker (r.latch.place .worker) r.latch.data
  awaiting : Awaiting r.starter (r.latch.place .starter)
  passed : r.starter = .after → r.worker = .after

variable {r r' : Rendezvous} {e : Monitor.Event Party Point} {side : Side} {place : Place Point}
  {count : ℤ} {p : Point}

theorem Counting.notify (h : Counting side place count) : Counting side place.notify count := by
  cases h with
  | before => exact .before
  | entered => exact .entered
  | counted hp => exact .counted hp
  | after => exact .after

theorem Awaiting.notify (h : Awaiting side place) : Awaiting side place.notify := by
  cases h with
  | outside hside => exact .outside hside
  | inside => exact .inside
  | waiting | notified => exact .notified

/-- In its call, the thread decrements the count, or has done so. -/
theorem Counting.of_inside (h : Counting side (.inside p) count) : side = .during ∧
    (p = .decrement ∧ count = 1 ∨ (p = .compare ∨ p = .notifyAll ∨ p = .unlock) ∧ count = 0) := by
  cases h with
  | entered => exact ⟨rfl, .inl ⟨rfl, rfl⟩⟩
  | counted hp => exact ⟨rfl, .inr ⟨hp, rfl⟩⟩

theorem Awaiting.of_inside (h : Awaiting side (.inside p)) : side = .during ∧ p = .test := by
  cases h
  exact ⟨rfl, rfl⟩

theorem Counting.zero_or_one (h : Counting side place count) : count = 0 ∨ count = 1 := by
  cases h with
  | before | entered => exact .inr rfl
  | counted | after => exact .inl rfl

theorem Counting.of_before (h : Counting .before place count) : place = .outside ∧ count = 1 := by
  cases h
  exact ⟨rfl, rfl⟩

theorem Counting.of_after (h : Counting .after place count) : place = .outside ∧ count = 0 := by
  cases h
  exact ⟨rfl, rfl⟩

theorem Awaiting.of_asleep (h : Awaiting side place)
    (hplace : place = .waiting p ∨ place = .notified p) : side = .during ∧ p = .test := by
  cases h with
  | outside | inside => rcases hplace with h | h <;> cases h
  | waiting | notified =>
    rcases hplace with h | h <;> cases h
    exact ⟨rfl, rfl⟩

theorem Counting.not_asleep (h : Counting side place count) :
    place ≠ .waiting p ∧ place ≠ .notified p := by
  cases h <;> exact ⟨nofun, nofun⟩

/-- Outside of its critical section, the thread has not counted down yet, or has returned. -/
theorem Counting.after_of_zero (h : Counting side place 0) (hplace : ¬place.Inside) :
    side = .after := by
  cases h with
  | counted => exact absurd trivial hplace
  | after => rfl

/-- What a thread does next that counts down, or has done so. -/
theorem Counting.goto {q : Point} {count' : ℤ} (h : Counting side (.inside p) count)
    (hcode : program.code p count = .goto q count') : Counting side (.inside q) count' := by
  obtain ⟨rfl, ⟨rfl, rfl⟩ | ⟨hp, rfl⟩⟩ := h.of_inside
  · cases hcode
    exact .counted (.inl rfl)
  · rcases hp with rfl | rfl | rfl <;> cases hcode
    exact .counted (.inr (.inl rfl))

/-- The thread that counts down is at another place, and the one that waits is not, or has
    been notified. -/
theorem Inv.move_worker (hr : r.Inv) {l : State Party Point ℤ}
    (hcounting : Counting side (l.place .worker) l.data)
    (hplace : l.place .starter = r.latch.place .starter ∨
      l.place .starter = (r.latch.place .starter).notify)
    (hside : r.worker = .after → side = .after) :
    { r with latch := l, worker := side }.Inv where
  counting := hcounting
  awaiting := hplace.elim (fun h => h ▸ hr.awaiting) fun h => h ▸ hr.awaiting.notify
  passed h := hside (hr.passed h)

/-- The thread that waits is at another place. -/
theorem Inv.move_starter (hr : r.Inv) (hawaiting : Awaiting side place)
    (hside : side = .after → r.worker = .after) :
    { r with latch := r.latch.move .starter place, starter := side }.Inv where
  counting := by
    rw [State.place_move_of_ne _ (by decide)]
    exact hr.counting
  awaiting := by
    rw [State.place_move_self]
    exact hawaiting
  passed := hside

/-- Within the calls. -/
theorem Inv.inside (hr : r.Inv) {l : State Party Point ℤ} (henter : ∀ t p, e ≠ .enter t p)
    (hleave : ∀ t, e ≠ .leave t) (h : program.Step r.latch e l) : { r with latch := l }.Inv := by
  have hother : ∀ place : Place Point,
      (r.latch.move .worker place).place .starter = r.latch.place .starter :=
    fun place => State.place_move_of_ne _ (by decide) place
  cases h with
  | enter => exact absurd rfl (henter _ _)
  | leave => exact absurd rfl (hleave _)
  | @goto t p q count ht hcode =>
    cases t with
    | starter =>
      obtain ⟨-, rfl⟩ := Awaiting.of_inside (ht ▸ hr.awaiting)
      simp only [program] at hcode
      split at hcode <;> cases hcode
    | worker =>
      refine hr.move_worker (l := { r.latch.move .worker (.inside q) with data := count }) ?_
        (.inl (hother (.inside q))) fun h => h
      have hcounting := (ht ▸ hr.counting).goto hcode
      change Counting _ ((r.latch.move .worker (.inside q)).place .worker) count
      rwa [State.place_move_self]
  | @wait t p q ht hcode =>
    cases t with
    | starter =>
      obtain ⟨hside, rfl⟩ := Awaiting.of_inside (ht ▸ hr.awaiting)
      simp only [program] at hcode
      split at hcode <;> cases hcode
      exact hr.move_starter (hside ▸ .waiting) hr.passed
    | worker =>
      obtain ⟨-, ⟨rfl, -⟩ | ⟨hp, hcount⟩⟩ := Counting.of_inside (ht ▸ hr.counting)
      · cases hcode
      · rcases hp with rfl | rfl | rfl
        · rw [hcount] at hcode
          cases hcode
        · cases hcode
        · cases hcode
  | @notifyAll t p q ht hcode =>
    cases t with
    | starter =>
      obtain ⟨-, rfl⟩ := Awaiting.of_inside (ht ▸ hr.awaiting)
      simp only [program] at hcode
      split at hcode <;> cases hcode
    | worker =>
      obtain ⟨hside, ⟨rfl, -⟩ | ⟨hp, hcount⟩⟩ := Counting.of_inside (ht ▸ hr.counting)
      · cases hcode
      · rcases hp with rfl | rfl | rfl
        · rw [hcount] at hcode
          cases hcode
        · cases hcode
          refine hr.move_worker ?_
            (.inr (State.place_move_of_ne _ (by decide) _)) fun h => h
          rw [State.place_move_self, hside]
          exact hcount ▸ .counted (.inr (.inr rfl))
        · cases hcode
  | @wake t p ht =>
    cases t with
    | starter =>
      obtain ⟨hside, rfl⟩ := hr.awaiting.of_asleep (.inl ht)
      exact hr.move_starter (hside ▸ .notified) hr.passed
    | worker => exact absurd ht hr.counting.not_asleep.1
  | @resume t p ht hfree =>
    cases t with
    | starter =>
      obtain ⟨hside, rfl⟩ := hr.awaiting.of_asleep (.inr ht)
      exact hr.move_starter (hside ▸ .inside) hr.passed
    | worker => exact absurd ht hr.counting.not_asleep.2

theorem Inv.step (hr : r.Inv) (hexclusive : Program.Exclusive r.latch) (h : Step r e r') :
    r'.Inv := by
  have hother : ∀ place : Place Point,
      (r.latch.move .worker place).place .starter = r.latch.place .starter :=
    fun place => State.place_move_of_ne _ (by decide) place
  cases h with
  | wait hbefore hst =>
    cases hst
    exact hr.move_starter .inside nofun
  | countDown hbefore hst =>
    cases hst with
    | enter _ hplace _ =>
      obtain ⟨-, hcount⟩ := Counting.of_before (hbefore ▸ hr.counting)
      refine hr.move_worker ?_ (.inl (hother _)) fun h => nomatch hbefore.symm.trans h
      rw [State.place_move_self]
      exact hcount ▸ .entered
  | inside henter hleave hst => exact hr.inside henter hleave hst
  | waited hst =>
    cases hst with
    | leave ht hcode =>
      obtain ⟨-, rfl⟩ := Awaiting.of_inside (ht ▸ hr.awaiting)
      refine hr.move_starter (.outside nofun) fun _ => ?_
      have hcount : r.latch.data = 0 := by
        refine hr.counting.zero_or_one.resolve_right fun hone => ?_
        rw [hone] at hcode
        cases hcode
      -- The other thread is not in its critical section.
      have hplace : ¬(r.latch.place .worker).Inside := fun hinside =>
        Party.noConfusion (hexclusive .worker .starter hinside (by rw [ht]; trivial))
      exact Counting.after_of_zero (hcount ▸ hr.counting) hplace
  | countedDown hst =>
    cases hst with
    | leave ht hcode =>
      refine hr.move_worker ?_ (.inl (hother _)) fun _ => rfl
      obtain ⟨hside, ⟨rfl, -⟩ | ⟨-, hcount⟩⟩ := Counting.of_inside (ht ▸ hr.counting)
      · cases hcode
      · rw [State.place_move_self]
        exact hcount ▸ .after

/-! ## Runs -/

/-- The steps are steps of the latch. -/
theorem Step.latch (h : Step r e r') : program.Step r.latch e r'.latch := by
  cases h with
  | wait _ hst | countDown _ hst | inside _ _ hst | waited hst | countedDown hst => exact hst

theorem latch_reachable (hr : system.Reachable r) :
    (program.system Party 1).Reachable r.latch := by
  refine System.ReachableBy.invariant (S := system)
    (I := fun r => (program.system Party 1).Reachable r.latch) (fun r hr => ?_)
    (fun r e r' _ hr _ hst => ?_) hr
  · rw [Set.mem_singleton_iff.1 hr]
    exact .init rfl
  · exact .step hr trivial (Step.latch hst)

theorem inv_of_reachable (hr : system.Reachable r) : r.Inv := by
  refine hr.invariant (fun r hr => ?_) fun r e r' hreach hr _ hst =>
    hr.step (Program.exclusive_of_reachable (latch_reachable hreach)) hst
  rw [Set.mem_singleton_iff.1 hr]
  exact ⟨.before, .outside nofun, nofun⟩

/-- When one thread has returned from `wait`, the other has returned from `countDown`. -/
theorem after_of_reachable (hr : system.Reachable r) (h : r.starter = .after) :
    r.worker = .after := (inv_of_reachable hr).passed h

/-- A thread makes its call once. -/
theorem Step.before (h : Step r e r') : (r'.starter = .before → r.starter = .before) ∧
    (r'.worker = .before → r.worker = .before) := by
  cases h with
  | wait hbefore => exact ⟨fun _ => hbefore, fun h => h⟩
  | countDown hbefore => exact ⟨fun h => h, fun _ => hbefore⟩
  | inside => exact ⟨fun h => h, fun h => h⟩
  | waited => exact ⟨nofun, fun h => h⟩
  | countedDown => exact ⟨fun h => h, nofun⟩

/-- It returns from it for good. -/
theorem Step.after (h : Step r e r') : (r.starter = .after → r'.starter = .after) ∧
    (r.worker = .after → r'.worker = .after) := by
  cases h with
  | wait hbefore => exact ⟨fun h => (nomatch hbefore.symm.trans h), fun h => h⟩
  | countDown hbefore => exact ⟨fun h => h, fun h => (nomatch hbefore.symm.trans h)⟩
  | inside => exact ⟨fun h => h, fun h => h⟩
  | waited => exact ⟨fun _ => rfl, fun h => h⟩
  | countedDown => exact ⟨fun h => h, fun _ => rfl⟩

theorem Inv.entered (hr : r.Inv) (h : Step r e r') (hworker : r'.worker ≠ .before) :
    r.worker ≠ .before ∨ ∃ p, e = .enter .worker p := by
  cases h with
  | countDown => exact .inr ⟨_, rfl⟩
  | countedDown hst =>
    cases hst with
    | leave ht _ =>
      obtain ⟨hside, -⟩ := Counting.of_inside (ht ▸ hr.counting)
      exact .inl (hside ▸ nofun)
  | wait | inside | waited => exact .inl hworker

/-! ## Both threads return -/

/-- How far a thread that counts down is from its return. -/
def rank : Side → Place Point → ℕ
  | .before, _ => 5
  | .during, .inside .decrement => 4
  | .during, .inside .compare => 3
  | .during, .inside .notifyAll => 2
  | .during, _ => 1
  | .after, _ => 0

/-- A thread goes on in its call. -/
theorem step_act {t : Party} {l : State Party Point ℤ} (h : program.Step r.latch (.act t) l) :
    Step r (.act t) { r with latch := l } :=
  .inside (fun _ _ h => by cases h) (fun _ h => by cases h) h

/-- Unless the other thread looks at the count, the one that counts down goes on. -/
theorem exists_step_worker (hr : r.Inv) (hstarter : ¬(r.latch.place .starter).Inside)
    (hworker : r.worker ≠ .after) :
    ∃ e r', Step r e r' ∧ ¬(r'.latch.place .starter).Inside ∧
      rank r'.worker (r'.latch.place .worker) < rank r.worker (r.latch.place .worker) := by
  have hcounting := hr.counting
  have hmove : ∀ place : Place Point, ¬((r.latch.move .worker place).place .starter).Inside :=
    fun place =>
      (State.place_move_of_ne r.latch (t := .worker) (u := .starter) (by decide) place).symm ▸
        hstarter
  generalize hside : r.worker = side at hcounting hworker ⊢
  generalize hplace : r.latch.place .worker = place at hcounting ⊢
  generalize hcount : r.latch.data = count at hcounting
  cases hcounting with
  | before =>
    have hfree : r.latch.Free := by
      rintro (- | -)
      · exact hstarter
      · rw [hplace]
        exact not_false
    refine ⟨_, _, .countDown hside (.enter rfl hplace hfree), hmove _, ?_⟩
    rw [State.place_move_self]
    exact (by decide : 4 < 5)
  | entered =>
    refine ⟨_, _, step_act (.goto hplace rfl), hmove (.inside .compare), ?_⟩
    change rank r.worker ((r.latch.move .worker (.inside .compare)).place .worker) < _
    rw [State.place_move_self, hside]
    decide
  | counted hp =>
    rcases hp with rfl | rfl | rfl
    · have hcode : program.code .compare r.latch.data = .goto .notifyAll r.latch.data :=
        if_pos hcount
      refine ⟨_, _, step_act (.goto hplace hcode), hmove (.inside .notifyAll), ?_⟩
      change rank r.worker ((r.latch.move .worker (.inside .notifyAll)).place .worker) < _
      rw [State.place_move_self, hside]
      decide
    · refine ⟨_, _, step_act (.notifyAll hplace rfl), fun h => hstarter ?_, ?_⟩
      · rw [State.place_move_of_ne _ (by decide)] at h
        exact Place.inside_notify.1 h
      · rw [State.place_move_self, hside]
        decide
    · refine ⟨_, _, .countedDown (.leave hplace rfl), hmove _, ?_⟩
      exact (by decide : 0 < 1)
  | after => exact absurd rfl hworker

/-- So it returns. -/
theorem exists_countedDown (hr : system.Reachable r)
    (hstarter : ¬(r.latch.place .starter).Inside) :
    ∃ es r', system.Steps r es r' ∧ r'.worker = .after := by
  induction hrank : rank r.worker (r.latch.place .worker) using Nat.strong_induction_on
    generalizing r with
  | h n ih =>
    by_cases hworker : r.worker = .after
    · exact ⟨[], r, .nil, hworker⟩
    · obtain ⟨e, r', hst, hstarter, hlt⟩ :=
        exists_step_worker (inv_of_reachable hr) hstarter hworker
      obtain ⟨es, r'', hsteps, hafter⟩ := ih _ (hrank ▸ hlt) (.step hr trivial hst) hstarter rfl
      exact ⟨e :: es, r'', .cons hst hsteps, hafter⟩

/-- The thread that waits does so no longer than the other one takes. -/
theorem exists_waited (hr : system.Reachable r) (hworker : r.worker = .after) :
    ∃ es r', system.Steps r es r' ∧ r'.starter = .after := by
  have hinv := inv_of_reachable hr
  have hplace : r.latch.place .worker = .outside ∧ r.latch.data = 0 := by
    have hcounting := hinv.counting
    rw [hworker] at hcounting
    exact hcounting.of_after
  have hleave : ∀ r : Rendezvous, r.latch.place .starter = .inside .test → r.latch.data = 0 →
      Step r (.leave .starter)
        { r with latch := r.latch.move .starter .outside, starter := .after } := by
    intro r ht hdata
    exact .waited (.leave ht (if_neg (by omega)))
  have hawaiting := hinv.awaiting
  generalize hside : r.starter = side at hawaiting
  generalize hstarter : r.latch.place .starter = place at hawaiting
  have hfree : ¬place.Inside → r.latch.Free := by
    rintro hnot (- | -)
    · exact hstarter ▸ hnot
    · rw [hplace.1]
      exact not_false
  cases hawaiting with
  | outside hne =>
    cases side with
    | before =>
      exact ⟨_, _, .cons (.wait hside (.enter rfl hstarter (hfree not_false)))
        (.single (hleave _ (State.place_move_self _ _ _) hplace.2)), rfl⟩
    | during => exact absurd rfl hne
    | after => exact ⟨[], r, .nil, hside⟩
  | inside => exact ⟨_, _, .single (hleave r hstarter hplace.2), rfl⟩
  | waiting =>
    -- It would have been notified.
    obtain ⟨u, q, hu, -⟩ := notifying_of_waiting (latch_reachable hr) hplace.2.le hstarter
    cases u with
    | starter => cases hstarter.symm.trans hu
    | worker => cases hplace.1.symm.trans hu
  | notified =>
    have hresume : Step r (.resume .starter)
        { r with latch := r.latch.move .starter (.inside .test) } :=
      .inside (fun _ _ h => by cases h) (fun _ h => by cases h)
        (.resume hstarter (hfree not_false))
    exact ⟨_, _, .cons hresume (.single (hleave _ (State.place_move_self _ _ _) hplace.2)), rfl⟩

/-- At any time, the threads can go on until the one that waits has returned. -/
theorem exists_after (hr : system.Reachable r) :
    ∃ es r', system.Steps r es r' ∧ r'.starter = .after := by
  have hall : ∀ {r : Rendezvous}, system.Reachable r → ¬(r.latch.place .starter).Inside →
      ∃ es r', system.Steps r es r' ∧ r'.starter = .after := by
    intro r hr hstarter
    obtain ⟨es, r₁, hsteps, hafter⟩ := exists_countedDown hr hstarter
    obtain ⟨es', r₂, hsteps', hafter'⟩ := exists_waited (System.Reachable.steps hr hsteps) hafter
    exact ⟨es ++ es', r₂, hsteps.append hsteps', hafter'⟩
  by_cases hstarter : (r.latch.place .starter).Inside
  · have hinv := inv_of_reachable hr
    generalize hplace : r.latch.place .starter = place at hstarter
    cases place with
    | inside p =>
      obtain ⟨hside, rfl⟩ := Awaiting.of_inside (hplace ▸ hinv.awaiting)
      rcases hinv.counting.zero_or_one with hcount | hcount
      · exact ⟨_, _, .single (.waited (.leave hplace (if_neg (by omega)))), rfl⟩
      · -- It waits, and lets the other one in.
        have hwait : Step r (.act .starter)
            { r with latch := r.latch.move .starter (.waiting .test) } :=
          step_act (.wait hplace (if_pos (by omega)))
        obtain ⟨es, r', hsteps, hafter⟩ := hall (.step hr trivial hwait) (by
          rw [State.place_move_self]
          exact not_false)
        exact ⟨_, r', .cons hwait hsteps, hafter⟩
    | outside | waiting | notified => exact hstarter.elim
  · exact hall hr hstarter

end Rendezvous

end Webserver
