import Webserver.Loop.EventLoopThread
import Webserver.Loop.Latch
import Mathlib.Data.Fintype.Basic

/-!
# Starting a thread

`threadStart` creates a thread, and waits on a latch until the thread has published the
address of its loop (`threadFunc`). The steps of the two threads on the latch may be
interleaved in any way, also with the calls that other threads make of the loop.

* `Startup.Latched`: the invariant of the latch. The count is zero once `wait` is left.
* `Startup.Published`: the address is there from before the count comes to zero until the
  loop ends.
* `Startup.handshake_of_reachable`: so `threadStart` returns it, as long as nobody has
  called `quit`, and nobody waits in vain.
-/

namespace Webserver

open Transition Monitor CountDownLatch

/-! ## The threads -/

/-- The two threads that use the latch: the one that calls `threadStart`, and the new one. -/
inductive Party
  | starter
  | worker
  deriving DecidableEq

instance : Fintype Party := ⟨{.starter, .worker}, fun t => by cases t <;> decide⟩

/-- Where a thread is in `threadStart`: before `pthread_create`, in `wait`, before it reads
    the address, and after it has returned. -/
inductive Starting
  | create
  | wait
  | read
  | done
  deriving DecidableEq

/-- An `EventLoopThread` while it is started: where the two threads are, and the loop of the
    new one, if it was created. The address that `threadStart` has returned is `some true`
    if it was that of the loop, and `some false` if it was null. Recorded is whether `quit`
    has been called. -/
structure Startup (Functor : Type*) where
  latch : State Party Point ℤ
  starting : Starting
  stage : Option Stage
  ownloop : Bool
  returned : Option Bool
  loop : TaskLoop Functor
  quitCalled : Bool

namespace Startup

variable {Functor : Type*}

/-- The constructor. The loop will be made in the thread `threadId`. -/
def new (threadId : ThreadId) : Startup Functor where
  latch := .new 1
  starting := .create
  stage := none
  ownloop := false
  returned := none
  loop := .new threadId
  quitCalled := false

/-- The threads after a step on the latch, if it is one they may take. -/
def after (s : Startup Functor) : Monitor.Event Party Point → Option (Startup Functor)
  | .enter .starter .test => if s.starting = .wait then some s else none
  | .enter .worker .decrement => if s.stage = some .countDown then some s else none
  | .enter _ _ => none
  | .leave .starter => some { s with starting := .read }
  | .leave .worker => some { s with stage := some .loop }
  | _ => some s

/-- The steps of the thread that starts the loop, of the latch, of the new thread, and of the
    threads that use its loop. -/
inductive Event (Functor : Type*)
  | create (created : Bool)
  | publish
  | latch (e : Monitor.Event Party Point)
  | read
  | loop
  | clear
  | push (t : ThreadId) (cb : Functor)
  | quit (t : ThreadId)
  | finish (t : ThreadId)

/-- The steps of the two threads, and of others that have the address of the loop. -/
inductive Step : Startup Functor → Event Functor → Startup Functor → Prop
  | created {s : Startup Functor} :
      s.starting = .create →
      Step s (.create true) { s with starting := .wait, stage := some .publish }
  | failed {s : Startup Functor} :
      s.starting = .create →
      Step s (.create false) { s with starting := .done, returned := some false }
  | publish {s : Startup Functor} :
      s.stage = some .publish →
      Step s .publish { s with ownloop := true, stage := some .countDown }
  | latch {s s₁ : Startup Functor} {e : Monitor.Event Party Point} {l : State Party Point ℤ} :
      s.after e = some s₁ → program.Step s.latch e l → Step s (.latch e) { s₁ with latch := l }
  | read {s : Startup Functor} :
      s.starting = .read → Step s .read { s with starting := .done, returned := some s.ownloop }
  | loop {s : Startup Functor} {l : TaskLoop Functor} :
      s.stage = some .loop → TaskLoop.Step s.loop .loop l → Step s .loop { s with loop := l }
  | clear {s : Startup Functor} :
      s.stage = some .loop → s.loop.phase = .stopped →
      Step s .clear { s with ownloop := false, stage := some .finished }
  | push {s : Startup Functor} {t : ThreadId} {cb : Functor} {l : TaskLoop Functor} :
      s.ownloop = true → TaskLoop.Step s.loop (.push t cb) l →
      Step s (.push t cb) { s with loop := l }
  | quit {s : Startup Functor} {t : ThreadId} {l : TaskLoop Functor} :
      s.ownloop = true → TaskLoop.Step s.loop (.quit t) l →
      Step s (.quit t) { s with loop := l, quitCalled := true }
  | finish {s : Startup Functor} {t : ThreadId} {l : TaskLoop Functor} :
      TaskLoop.Step s.loop (.finish t) l → Step s (.finish t) { s with loop := l }

/-- The state an event leads to. -/
def next (s : Startup Functor) : Event Functor → Option (Startup Functor)
  | .create true =>
    if s.starting = .create then some { s with starting := .wait, stage := some .publish } else none
  | .create false =>
    if s.starting = .create then some { s with starting := .done, returned := some false } else none
  | .publish =>
    if s.stage = some .publish then some { s with ownloop := true, stage := some .countDown }
    else none
  | .latch e =>
    (s.after e).bind fun s₁ => (program.next s.latch e).map fun l => { s₁ with latch := l }
  | .read =>
    if s.starting = .read then some { s with starting := .done, returned := some s.ownloop }
    else none
  | .loop =>
    if s.stage = some .loop then (s.loop.next .loop).map fun l => { s with loop := l } else none
  | .clear =>
    if s.stage = some .loop ∧ s.loop.phase = .stopped then
      some { s with ownloop := false, stage := some .finished }
    else none
  | .push t cb =>
    if s.ownloop = true then (s.loop.next (.push t cb)).map fun l => { s with loop := l } else none
  | .quit t =>
    if s.ownloop = true then
      (s.loop.next (.quit t)).map fun l => { s with loop := l, quitCalled := true }
    else none
  | .finish t => (s.loop.next (.finish t)).map fun l => { s with loop := l }

/-- `next` computes steps. -/
theorem step_of_next (s : Startup Functor) (e : Event Functor) (s' : Startup Functor)
    (h : s.next e = some s') : Step s e s' := by
  cases e with
  | create created =>
    cases created with
    | true =>
      obtain ⟨hstarting, h⟩ := Option.ite_none_right_eq_some.1 h
      cases h
      exact .created hstarting
    | false =>
      obtain ⟨hstarting, h⟩ := Option.ite_none_right_eq_some.1 h
      cases h
      exact .failed hstarting
  | publish =>
    obtain ⟨hstage, h⟩ := Option.ite_none_right_eq_some.1 h
    cases h
    exact .publish hstage
  | latch e =>
    obtain ⟨s₁, hafter, h⟩ := Option.bind_eq_some_iff.1 h
    obtain ⟨l, hl, rfl⟩ := Option.map_eq_some_iff.1 h
    exact .latch hafter (Program.step_of_next hl)
  | read =>
    obtain ⟨hstarting, h⟩ := Option.ite_none_right_eq_some.1 h
    cases h
    exact .read hstarting
  | loop =>
    obtain ⟨hstage, h⟩ := Option.ite_none_right_eq_some.1 h
    obtain ⟨l, hl, rfl⟩ := Option.map_eq_some_iff.1 h
    exact .loop hstage (TaskLoop.step_of_next _ _ _ hl)
  | clear =>
    obtain ⟨⟨hstage, hphase⟩, h⟩ := Option.ite_none_right_eq_some.1 h
    cases h
    exact .clear hstage hphase
  | push t cb =>
    obtain ⟨hownloop, h⟩ := Option.ite_none_right_eq_some.1 h
    obtain ⟨l, hl, rfl⟩ := Option.map_eq_some_iff.1 h
    exact .push hownloop (TaskLoop.step_of_next _ _ _ hl)
  | quit t =>
    obtain ⟨hownloop, h⟩ := Option.ite_none_right_eq_some.1 h
    obtain ⟨l, hl, rfl⟩ := Option.map_eq_some_iff.1 h
    exact .quit hownloop (TaskLoop.step_of_next _ _ _ hl)
  | finish t =>
    obtain ⟨l, hl, rfl⟩ := Option.map_eq_some_iff.1 h
    exact .finish (TaskLoop.step_of_next _ _ _ hl)

/-- The runs, from before the thread is created. -/
def system (Functor : Type*) : System (Startup Functor) (Event Functor) where
  init := Set.range new
  step := Step

/-! ## The handshake -/

/-- What the count and the place of the new thread say about each other. -/
inductive Counting : Option Stage → Place Point → ℤ → Prop
  | before {stage : Option Stage} :
      stage ≠ some .loop → stage ≠ some .finished → Counting stage .outside 1
  | entered : Counting (some .countDown) (.inside .decrement) 1
  | counted {p : Point} :
      p = .compare ∨ p = .notifyAll ∨ p = .unlock → Counting (some .countDown) (.inside p) 0
  | after {stage : Option Stage} :
      stage = some .loop ∨ stage = some .finished → Counting stage .outside 0

/-- Where the other thread is while it waits. -/
inductive Awaiting : Starting → Place Point → Prop
  | outside {starting : Starting} : Awaiting starting .outside
  | inside : Awaiting .wait (.inside .test)
  | waiting : Awaiting .wait (.waiting .test)
  | notified : Awaiting .wait (.notified .test)

/-- The invariant of the latch: `wait` is left when the count is zero. -/
structure Latched (s : Startup Functor) : Prop where
  counting : Counting s.stage (s.latch.place .worker) s.latch.data
  awaiting : Awaiting s.starting (s.latch.place .starter)
  create : s.starting = .create → s.stage = none
  passed : s.starting = .read ∨ s.starting = .done → s.stage = none ∨ s.latch.data = 0

variable {s s₁ s' : Startup Functor} {e : Monitor.Event Party Point} {l : State Party Point ℤ}

theorem Counting.of_inside {stage : Option Stage} {p : Point} {count : ℤ}
    (h : Counting stage (.inside p) count) : stage = some .countDown ∧
      (p = .decrement ∧ count = 1 ∨ (p = .compare ∨ p = .notifyAll ∨ p = .unlock) ∧ count = 0) := by
  cases h with
  | entered => exact ⟨rfl, .inl ⟨rfl, rfl⟩⟩
  | counted hp => exact ⟨rfl, .inr ⟨hp, rfl⟩⟩

theorem Counting.of_countDown {count : ℤ} (h : Counting (some .countDown) .outside count) :
    count = 1 := by
  cases h with
  | before => rfl
  | after hstage => rcases hstage with h | h <;> cases h

/-- Before it has published the address, the new thread has not used the latch. -/
theorem Counting.of_early {stage : Option Stage} {place : Place Point} {count : ℤ}
    (h : Counting stage place count) (hstage : stage = none ∨ stage = some .publish) :
    place = .outside ∧ count = 1 := by
  cases h with
  | before => exact ⟨rfl, rfl⟩
  | entered | counted => rcases hstage with h | h <;> cases h
  | after hlate => rcases hstage with rfl | rfl <;> rcases hlate with h | h <;> cases h

/-- Once it runs the loop, it does not use the latch any more. -/
theorem Counting.of_late {stage : Option Stage} {place : Place Point} {count : ℤ}
    (h : Counting stage place count) (hstage : stage = some .loop ∨ stage = some .finished) :
    place = .outside ∧ count = 0 := by
  cases h with
  | before hloop hfinished => exact (hstage.elim hloop hfinished).elim
  | entered | counted => rcases hstage with h | h <;> cases h
  | after => exact ⟨rfl, rfl⟩

/-- The count is one, and then zero. -/
theorem Counting.zero_or_one {stage : Option Stage} {place : Place Point} {count : ℤ}
    (h : Counting stage place count) : count = 0 ∨ count = 1 := by
  cases h with
  | before | entered => exact .inr rfl
  | counted | after => exact .inl rfl

/-- The new thread does not sleep in the latch. -/
theorem Counting.not_asleep {stage : Option Stage} {place : Place Point} {count : ℤ}
    (h : Counting stage place count) (p : Point) : place ≠ .waiting p ∧ place ≠ .notified p := by
  cases h <;> exact ⟨nofun, nofun⟩

theorem Counting.notify {stage : Option Stage} {place : Place Point} {count : ℤ}
    (h : Counting stage place count) : Counting stage place.notify count := by
  cases h with
  | before hloop hfinished => exact .before hloop hfinished
  | entered => exact .entered
  | counted hp => exact .counted hp
  | after hstage => exact .after hstage

theorem Awaiting.of_inside {starting : Starting} {p : Point}
    (h : Awaiting starting (.inside p)) : starting = .wait ∧ p = .test := by
  cases h
  exact ⟨rfl, rfl⟩

theorem Awaiting.of_asleep {starting : Starting} {place : Place Point} {p : Point}
    (h : Awaiting starting place) (hplace : place = .waiting p ∨ place = .notified p) :
    starting = .wait ∧ p = .test := by
  cases h with
  | outside | inside => rcases hplace with h | h <;> cases h
  | waiting | notified =>
    rcases hplace with h | h <;> cases h
    exact ⟨rfl, rfl⟩

/-- Outside of `wait`, the thread does not use the latch. -/
theorem Awaiting.of_ne {starting starting' : Starting} {place : Place Point}
    (h : Awaiting starting place) (hne : starting ≠ .wait) : Awaiting starting' place := by
  cases h with
  | outside => exact .outside
  | inside | waiting | notified => exact absurd rfl hne

theorem Awaiting.notify {starting : Starting} {place : Place Point}
    (h : Awaiting starting place) : Awaiting starting place.notify := by
  cases h with
  | outside => exact .outside
  | inside => exact .inside
  | waiting | notified => exact .notified

/-- The new thread has gone on in its critical section, or to or from it. -/
theorem Latched.worker (hs : s.Latched) {stage : Option Stage} {place : Place Point} {count : ℤ}
    (hstage : s.stage ≠ none) (hcounting : Counting stage place count)
    (hcount : s.latch.data = 0 → count = 0) :
    { s with
      stage := stage
      latch := { s.latch.move .worker place with data := count } : Startup Functor }.Latched where
  counting := by
    change Counting _ ((s.latch.move .worker place).place .worker) _
    rw [State.place_move_self]
    exact hcounting
  awaiting := by
    change Awaiting _ ((s.latch.move .worker place).place .starter)
    rw [State.place_move_of_ne _ (by decide)]
    exact hs.awaiting
  create h := absurd (hs.create h) hstage
  passed h := .inr (hcount ((hs.passed h).resolve_left hstage))

theorem Latched.starter (hs : s.Latched) {place : Place Point} (h : Awaiting s.starting place) :
    { s with latch := s.latch.move .starter place : Startup Functor }.Latched where
  counting := by
    rw [State.place_move_of_ne _ (by decide)]
    exact hs.counting
  awaiting := by
    rw [State.place_move_self]
    exact h
  create := hs.create
  passed := hs.passed

theorem Latched.notifyAll (hs : s.Latched) :
    { s with latch := s.latch.notifyAll : Startup Functor }.Latched :=
  ⟨hs.counting.notify, hs.awaiting.notify, hs.create, hs.passed⟩

/-- A thread of the two is at a point, in its own critical section. -/
theorem Latched.of_inside (hs : s.Latched) {t : Party} {p : Point}
    (ht : s.latch.place t = .inside p) :
    t = .starter ∧ s.starting = .wait ∧ p = .test ∨
      t = .worker ∧ s.stage = some .countDown ∧ (p = .decrement ∧ s.latch.data = 1 ∨
        (p = .compare ∨ p = .notifyAll ∨ p = .unlock) ∧ s.latch.data = 0) := by
  cases t with
  | starter =>
    have hawaiting := hs.awaiting
    rw [ht] at hawaiting
    exact .inl ⟨rfl, hawaiting.of_inside⟩
  | worker =>
    have hcounting := hs.counting
    rw [ht] at hcounting
    exact .inr ⟨rfl, hcounting.of_inside⟩

/-- Only the thread that calls `threadStart` waits for the condition. -/
theorem Latched.of_asleep (hs : s.Latched) {t : Party} {p : Point}
    (ht : s.latch.place t = .waiting p ∨ s.latch.place t = .notified p) :
    t = .starter ∧ s.starting = .wait ∧ p = .test := by
  cases t with
  | starter => exact ⟨rfl, hs.awaiting.of_asleep ht⟩
  | worker =>
    obtain ⟨hwaiting, hnotified⟩ := hs.counting.not_asleep p
    exact (ht.elim hwaiting hnotified).elim

theorem Latched.enter (hs : s.Latched) {t : Party} {p : Point}
    (hafter : s.after (.enter t p) = some s₁) (ht : s.latch.place t = .outside) :
    { s₁ with latch := s.latch.move t (.inside p) : Startup Functor }.Latched := by
  cases t with
  | starter =>
    cases p with
    | test =>
      obtain ⟨hwait, h⟩ := Option.ite_none_right_eq_some.1 hafter
      cases h
      exact hs.starter (hwait ▸ .inside)
    | decrement | compare | notifyAll | unlock => cases hafter
  | worker =>
    cases p with
    | decrement =>
      obtain ⟨hstage, h⟩ := Option.ite_none_right_eq_some.1 hafter
      cases h
      have hcount : s.latch.data = 1 := by
        have hcounting := hs.counting
        rw [ht, hstage] at hcounting
        exact hcounting.of_countDown
      have hcounting : Counting s.stage (.inside .decrement) s.latch.data := by
        rw [hstage, hcount]
        exact .entered
      exact hs.worker (by simp [hstage]) hcounting fun h => h
    | test | compare | notifyAll | unlock => cases hafter

theorem Latched.goto (hs : s.Latched) {t : Party} {p q : Point} {d : ℤ}
    (ht : s.latch.place t = .inside p) (hcode : program.code p s.latch.data = .goto q d) :
    { s with
      latch := { s.latch.move t (.inside q) with data := d } : Startup Functor }.Latched := by
  rcases hs.of_inside ht with ⟨-, -, rfl⟩ | ⟨rfl, hstage, hworker⟩
  · simp only [program] at hcode
    split at hcode <;> cases hcode
  · have hcounting : Counting s.stage (.inside q) d ∧ d = 0 := by
      rw [hstage]
      rcases hworker with ⟨rfl, hcount⟩ | ⟨rfl | rfl | rfl, hcount⟩
      · simp only [program, hcount] at hcode
        cases hcode
        exact ⟨.counted (.inl rfl), rfl⟩
      · simp only [program, hcount, if_true] at hcode
        cases hcode
        exact ⟨.counted (.inr (.inl rfl)), rfl⟩
      · cases hcode
      · cases hcode
    exact hs.worker (by simp [hstage]) hcounting.1 fun _ => hcounting.2

theorem Latched.wait (hs : s.Latched) {t : Party} {p q : Point}
    (ht : s.latch.place t = .inside p) (hcode : program.code p s.latch.data = .wait q) :
    { s with latch := s.latch.move t (.waiting q) : Startup Functor }.Latched := by
  rcases hs.of_inside ht with ⟨rfl, hwait, rfl⟩ | ⟨-, -, ⟨rfl, -⟩ | ⟨rfl | rfl | rfl, -⟩⟩
  · simp only [program] at hcode
    split at hcode <;> cases hcode
    exact hs.starter (hwait ▸ .waiting)
  · cases hcode
  · simp only [program] at hcode
    split at hcode <;> cases hcode
  · cases hcode
  · cases hcode

theorem Latched.notify (hs : s.Latched) {t : Party} {p q : Point}
    (ht : s.latch.place t = .inside p) (hcode : program.code p s.latch.data = .notifyAll q) :
    { s with latch := s.latch.notifyAll.move t (.inside q) : Startup Functor }.Latched := by
  rcases hs.of_inside ht with ⟨-, -, rfl⟩ | ⟨rfl, hstage, ⟨rfl, -⟩ | ⟨rfl | rfl | rfl, hcount⟩⟩
  · simp only [program] at hcode
    split at hcode <;> cases hcode
  · cases hcode
  · simp only [program] at hcode
    split at hcode <;> cases hcode
  · cases hcode
    have hcounting : Counting s.stage (.inside .unlock) s.latch.data := by
      rw [hstage, hcount]
      exact .counted (.inr (.inr rfl))
    exact hs.notifyAll.worker (by simp [hstage]) hcounting fun h => h
  · cases hcode

theorem Latched.leave (hs : s.Latched) {t : Party} {p : Point}
    (hafter : s.after (.leave t) = some s₁) (ht : s.latch.place t = .inside p)
    (hcode : program.code p s.latch.data = .leave) :
    { s₁ with latch := s.latch.move t .outside : Startup Functor }.Latched := by
  rcases hs.of_inside ht with ⟨rfl, hwait, rfl⟩ | ⟨rfl, hstage, hworker⟩
  · cases hafter
    have hcount : s.latch.data = 0 := by
      refine hs.counting.zero_or_one.resolve_right fun hone => ?_
      simp only [program, hone] at hcode
      cases hcode
    exact ⟨(hs.starter .outside).counting, by rw [State.place_move_self]; exact .outside,
      Starting.noConfusion, fun _ => .inr hcount⟩
  · cases hafter
    have hcount : s.latch.data = 0 := by
      rcases hworker with ⟨rfl, -⟩ | ⟨-, hcount⟩
      · cases hcode
      · exact hcount
    exact hs.worker (by simp [hstage]) (hcount ▸ .after (.inl rfl)) fun h => h

/-- A step of the latch keeps its invariant, whichever thread makes it. -/
theorem Latched.latch (hs : s.Latched) (hafter : s.after e = some s₁)
    (hst : program.Step s.latch e l) : { s₁ with latch := l : Startup Functor }.Latched := by
  cases hst with
  | enter _ ht _ => exact hs.enter hafter ht
  | goto ht hcode =>
    cases hafter
    exact hs.goto ht hcode
  | wait ht hcode =>
    cases hafter
    exact hs.wait ht hcode
  | notifyAll ht hcode =>
    cases hafter
    exact hs.notify ht hcode
  | leave ht hcode => exact hs.leave hafter ht hcode
  | wake ht =>
    cases hafter
    obtain ⟨rfl, hwait, rfl⟩ := hs.of_asleep (.inl ht)
    exact hs.starter (hwait ▸ .notified)
  | resume ht _ =>
    cases hafter
    obtain ⟨rfl, hwait, rfl⟩ := hs.of_asleep (.inr ht)
    exact hs.starter (hwait ▸ .inside)

/-- The steps of the latch do nothing else than moving the two threads on. -/
theorem after_same (hafter : s.after e = some s₁) :
    s₁.ownloop = s.ownloop ∧ s₁.returned = s.returned ∧ s₁.loop = s.loop ∧
      s₁.quitCalled = s.quitCalled ∧ (s₁.starting = s.starting ∨ e = .leave .starter) ∧
      (s₁.stage = s.stage ∨ e = .leave .worker ∧ s₁.stage = some .loop) := by
  unfold after at hafter
  split at hafter
  · split at hafter <;> cases hafter
    exact ⟨rfl, rfl, rfl, rfl, .inl rfl, .inl rfl⟩
  · split at hafter <;> cases hafter
    exact ⟨rfl, rfl, rfl, rfl, .inl rfl, .inl rfl⟩
  · cases hafter
  · cases hafter
    exact ⟨rfl, rfl, rfl, rfl, .inr rfl, .inl rfl⟩
  · cases hafter
    exact ⟨rfl, rfl, rfl, rfl, .inl rfl, .inr ⟨rfl, rfl⟩⟩
  · cases hafter
    exact ⟨rfl, rfl, rfl, rfl, .inl rfl, .inl rfl⟩

/-- The count comes to zero after the address has been published. -/
theorem Counting.stage_of_zero {stage : Option Stage} {place : Place Point}
    (h : Counting stage place 0) :
    stage = some .countDown ∨ stage = some .loop ∨ stage = some .finished := by
  cases h with
  | counted => exact .inl rfl
  | after hstage => exact .inr hstage

/-- So does every step. -/
theorem Latched.step {e : Event Functor} (hs : s.Latched) (hst : Step s e s') : s'.Latched := by
  obtain ⟨hcounting, hawaiting, hcreate, hpassed⟩ := hs
  cases hst with
  | created hstarting =>
    obtain ⟨hplace, hcount⟩ := hcounting.of_early (.inl (hcreate hstarting))
    refine ⟨?_, hawaiting.of_ne (by simp [hstarting]), nofun, nofun⟩
    rw [hplace, hcount]
    exact .before nofun nofun
  | failed hstarting =>
    exact ⟨hcounting, hawaiting.of_ne (by simp [hstarting]), nofun,
      fun _ => .inl (hcreate hstarting)⟩
  | publish hstage =>
    have hnone : s.stage ≠ none := by simp [hstage]
    obtain ⟨hplace, hcount⟩ := hcounting.of_early (.inr hstage)
    refine ⟨?_, hawaiting, fun h => absurd (hcreate h) hnone,
      fun h => .inr ((hpassed h).resolve_left hnone)⟩
    rw [hplace, hcount]
    exact .before nofun nofun
  | latch hafter hst => exact Latched.latch ⟨hcounting, hawaiting, hcreate, hpassed⟩ hafter hst
  | read hstarting =>
    exact ⟨hcounting, hawaiting.of_ne (by simp [hstarting]), nofun,
      fun _ => hpassed (.inl hstarting)⟩
  | clear hstage =>
    have hnone : s.stage ≠ none := by simp [hstage]
    obtain ⟨hplace, hcount⟩ := hcounting.of_late (.inl hstage)
    refine ⟨?_, hawaiting, fun h => absurd (hcreate h) hnone, fun _ => .inr hcount⟩
    rw [hplace, hcount]
    exact .after (.inr rfl)
  | loop | push | quit | finish => exact ⟨hcounting, hawaiting, hcreate, hpassed⟩

/-- The invariant of the latch holds in every run. -/
theorem latched_of_reachable (hs : (system Functor).Reachable s) : s.Latched := by
  refine hs.invariant (fun s hs => ?_) fun s e s' _ hs _ hst => hs.step hst
  obtain ⟨t, rfl⟩ := hs
  exact ⟨.before nofun nofun, .outside, fun _ => rfl, fun _ => .inl rfl⟩

/-- The latch goes through a run of its own. -/
theorem latch_reachable (hs : (system Functor).Reachable s) :
    (program.system Party 1).Reachable s.latch := by
  refine hs.invariant (I := fun s => (program.system Party 1).Reachable s.latch) (fun s hs => ?_)
    fun s e s' _ hs _ hst => ?_
  · obtain ⟨t, rfl⟩ := hs
    exact .init rfl
  · cases hst with
    | latch _ hst => exact .step hs trivial hst
    | _ => exact hs

/-! ### The address -/

/-- Until `quit` is called, the loop does not end. -/
def Loops (l : TaskLoop Functor) : Prop :=
  l.phase ≠ .stopped ∧ (l.phase ≠ .start → l.looping = true)

/-- A loop that nobody has asked to quit goes on. -/
theorem Loops.advance {l l' : TaskLoop Functor} (hl : Loops l) (h : l.advance = some l') :
    Loops l' := by
  cases TaskLoop.loopStep_of_advance h with
  | start => exact ⟨nofun, fun _ => rfl⟩
  | head hphase =>
    have hlooping : l.looping = true := hl.2 (by simp [hphase])
    exact ⟨by simp [hlooping], fun _ => hlooping⟩
  | poll hphase | events hphase | swap hphase | take hphase | done hphase | functor hphase
  | expired hphase => exact ⟨nofun, fun _ => hl.2 (by simp [hphase])⟩

/-- It also does when a caller returns. -/
theorem Loops.finish {l : TaskLoop Functor} (hl : Loops l) (t : ThreadId) :
    Loops (l.finish t) := by
  rw [TaskLoop.finish_eq]
  exact hl

/-- What has been published, and what is returned. -/
structure Published (s : Startup Functor) : Prop where
  ownloop : s.stage = some .countDown ∨ s.stage = some .loop → s.ownloop = true
  loops : s.quitCalled = false → Loops s.loop
  finished : s.stage = some .finished → s.quitCalled = true
  done : s.returned ≠ none → s.starting = .done
  returned : s.returned = some false → s.stage = none ∨ s.quitCalled = true

/-- Whoever leaves a critical section has been in the call it belongs to. -/
theorem Latched.of_leave (hs : s.Latched) {t : Party} (hst : program.Step s.latch (.leave t) l) :
    t = .starter ∧ s.starting = .wait ∨ t = .worker ∧ s.stage = some .countDown := by
  cases hst with
  | leave ht =>
    rcases hs.of_inside ht with ⟨rfl, hwait, -⟩ | ⟨rfl, hstage, -⟩
    · exact .inl ⟨rfl, hwait⟩
    · exact .inr ⟨rfl, hstage⟩

/-- A step of the latch keeps what has been published. -/
theorem Published.latch (hs : s.Published) (hlatched : s.Latched)
    (hafter : s.after e = some s₁) (hst : program.Step s.latch e l) :
    { s₁ with latch := l : Startup Functor }.Published := by
  obtain ⟨hownloop, hreturned, hloop, hquit, hstarting, hstage⟩ := after_same hafter
  have hworker : e = .leave .worker → s.stage = some .countDown := by
    rintro rfl
    exact (hlatched.of_leave hst).elim (fun h => nomatch h.1) And.right
  have hstarter : e = .leave .starter → s.starting = .wait := by
    rintro rfl
    exact (hlatched.of_leave hst).elim And.right fun h => nomatch h.1
  refine ⟨fun h => ?_, fun h => ?_, fun h => ?_, fun h => ?_, fun h => ?_⟩
  · refine hownloop.trans (hs.ownloop ?_)
    rcases hstage with hstage | ⟨hleave, -⟩
    · exact hstage ▸ h
    · exact .inl (hworker hleave)
  · exact hloop ▸ hs.loops (hquit ▸ h)
  · rcases hstage with hstage | ⟨-, hstage⟩
    · exact hquit.trans (hs.finished (hstage.symm.trans h))
    · cases hstage.symm.trans h
  · have hdone := hs.done (hreturned ▸ h)
    rcases hstarting with hstarting | hleave
    · exact hstarting.trans hdone
    · cases hdone.symm.trans (hstarter hleave)
  · refine (hs.returned (hreturned.symm.trans h)).imp (fun hnone => ?_) hquit.trans
    rcases hstage with hstage | ⟨hleave, -⟩
    · exact hstage.trans hnone
    · cases hnone.symm.trans (hworker hleave)

/-- So does every step: the new thread only ends after `quit`. -/
theorem Published.step {e : Event Functor} (hs : s.Published) (hlatched : s.Latched)
    (hst : Step s e s') : s'.Published := by
  obtain ⟨hownloop, hloops, hfinished, hdone, hreturned⟩ := hs
  cases hst with
  | created hstarting =>
    have hnone : s.returned = none := by
      by_contra hne
      cases hstarting.symm.trans (hdone hne)
    exact ⟨by simp, hloops, nofun, fun h => absurd hnone h, fun h => by simp [hnone] at h⟩
  | failed hstarting =>
    exact ⟨hownloop, hloops, hfinished, fun _ => rfl, fun _ => .inl (hlatched.create hstarting)⟩
  | publish hstage =>
    refine ⟨fun _ => rfl, hloops, nofun, hdone, fun h => ?_⟩
    exact .inr ((hreturned h).resolve_left (by simp [hstage]))
  | latch hafter hst =>
    exact Published.latch ⟨hownloop, hloops, hfinished, hdone, hreturned⟩ hlatched hafter hst
  | read hstarting =>
    refine ⟨hownloop, hloops, hfinished, fun _ => rfl, fun h => ?_⟩
    have hnull : s.ownloop = false := Option.some.inj h
    refine (hlatched.passed (.inl hstarting)).imp_right fun hcount => ?_
    have hcounting := hlatched.counting
    rw [hcount] at hcounting
    rcases hcounting.stage_of_zero with hstage | hstage | hstage
    · cases hnull.symm.trans (hownloop (.inl hstage))
    · cases hnull.symm.trans (hownloop (.inr hstage))
    · exact hfinished hstage
  | loop hstage hst =>
    cases hst with
    | loop _ hadvance =>
      exact ⟨hownloop, fun h => (hloops h).advance hadvance, hfinished, hdone, hreturned⟩
  | clear hstage hphase =>
    have hquit : s.quitCalled = true := by
      by_contra hquit
      exact (hloops (by simpa using hquit)).1 hphase
    exact ⟨by simp, hloops, fun _ => hquit, hdone, fun _ => .inr hquit⟩
  | push _ hst =>
    cases hst
    exact ⟨hownloop, hloops, hfinished, hdone, hreturned⟩
  | quit => exact ⟨hownloop, nofun, fun _ => rfl, hdone, fun _ => .inr rfl⟩
  | finish hst =>
    cases hst
    exact ⟨hownloop, fun h => (hloops h).finish _, hfinished, hdone, hreturned⟩

/-- What has been published, in every run. -/
theorem published_of_reachable (hs : (system Functor).Reachable s) : s.Published := by
  refine hs.invariant (fun s hs => ?_) fun s e s' hreach hs _ hst =>
    hs.step (latched_of_reachable hreach) hst
  obtain ⟨t, rfl⟩ := hs
  exact ⟨by simp [new], fun _ => ⟨nofun, fun h => absurd rfl h⟩, nofun, fun h => absurd rfl h,
    nofun⟩

/-- `threadStart` returns after the address has been published, and returns it, unless
    `quit` has been called. If a thread still waits while the count is zero, the new thread
    is about to notify it, which it has done before it runs the loop. -/
structure Handshake (s : Startup Functor) : Prop where
  published : ∀ address, s.returned = some address → s.stage ≠ some .publish
  address : s.stage ≠ none → s.quitCalled = false →
    ∀ address, s.returned = some address → address = true
  notifying : s.latch.data = 0 → ∀ t p, s.latch.place t = .waiting p →
    s.latch.place .worker = .inside .compare ∨ s.latch.place .worker = .inside .notifyAll
  notified : s.stage = some .loop ∨ s.stage = some .finished →
    ∀ t p, s.latch.place t ≠ .waiting p

/-- If a thread waits while the count is zero, the new thread is about to notify it. -/
theorem Latched.notifying (hs : s.Latched) (hreach : (program.system Party 1).Reachable s.latch)
    (hcount : s.latch.data = 0) {t : Party} {p : Point} (ht : s.latch.place t = .waiting p) :
    s.latch.place .worker = .inside .compare ∨ s.latch.place .worker = .inside .notifyAll := by
  obtain ⟨u, q, hu, hq⟩ := notifying_of_waiting hreach hcount.le ht
  -- The other thread would be at the condition of the loop in `wait`.
  rcases hs.of_inside hu with ⟨-, -, rfl⟩ | ⟨rfl, -⟩
  · exact hq.elim
  · cases q with
    | compare => exact .inl hu
    | notifyAll => exact .inr hu
    | test | decrement | unlock => exact hq.elim

/-- The handshake holds in every run, spurious wake-ups included. -/
theorem handshake_of_reachable (hs : (system Functor).Reachable s) : s.Handshake := by
  have hlatched := latched_of_reachable hs
  have hpublished := published_of_reachable hs
  refine ⟨fun address haddress hstage => ?_, fun hstage hquit address haddress => ?_,
    fun hcount t p => hlatched.notifying (latch_reachable hs) hcount, fun hstage t p ht => ?_⟩
  · have hdone := hpublished.done (by simp [haddress])
    have hcount := (hlatched.passed (.inr hdone)).resolve_left (by simp [hstage])
    have hcounting := hlatched.counting
    rw [hcount, hstage] at hcounting
    rcases hcounting.stage_of_zero with h | h | h <;> cases h
  · cases address with
    | true => rfl
    | false =>
      rcases hpublished.returned haddress with h | h
      · exact absurd h hstage
      · cases hquit.symm.trans h
  · obtain ⟨hplace, hcount⟩ := hlatched.counting.of_late hstage
    rcases hlatched.notifying (latch_reachable hs) hcount ht with h | h
    · cases hplace.symm.trans h
    · cases hplace.symm.trans h

/-- With a wake-up for no reason before the count comes to zero. -/
theorem handshake_of_reachable_woken :
    ∃ s : Startup ℕ, s.returned = some true ∧ s.quitCalled = false ∧ s.Handshake := by
  obtain ⟨s, hs, hp⟩ := System.exists_reachableBy_of_any step_of_next
    (.init ⟨0, rfl⟩ : (system ℕ).Reachable (new 0))
    [.create true, .latch (.enter .starter .test), .latch (.act .starter), .publish,
      .latch (.wake .starter), .latch (.resume .starter), .latch (.act .starter),
      .latch (.enter .worker .decrement), .latch (.act .worker), .latch (.act .worker),
      .latch (.act .worker), .latch (.leave .worker), .latch (.resume .starter),
      .latch (.leave .starter), .read]
    (fun s => decide (s.returned = some true ∧ s.quitCalled = false)) (by decide +kernel)
  rw [decide_eq_true_eq] at hp
  exact ⟨s, hp.1, hp.2, handshake_of_reachable hs⟩

end Startup

end Webserver
