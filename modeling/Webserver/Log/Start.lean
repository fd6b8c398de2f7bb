import Webserver.Loop.Rendezvous

/-!
# Starting the logger

The first thread that logs something makes the logger and starts its thread (`once_init`),
while others that log wait for it in `pthread_once`. `Thread::start` waits until the new
thread has published its id, and `AsyncLogging::start` until it runs `threadFunc`.

* `LoggerStart.safe_of_reachable`: whatever the order of the steps of any number of threads,
  one logger is made, no assertion of `Thread::start` fails, and a thread only appends to the
  logger when its thread runs.
* `LoggerStart.getsThrough_iff`: a thread that logs gets to append if and only if the thread
  of the logger could be created. If not, everybody who logs waits forever.
-/

namespace Webserver

open Transition

/-- The control of `pthread_once`. -/
inductive Once (T : Type*)
  | fresh
  | running (t : T)
  | done

/-- Where a thread is in `output`: in `pthread_once`, in `once_init`, or before it appends. -/
inductive Calling
  | idle
  | once
  | init
  | append
  deriving DecidableEq

/-- Where a thread is in `once_init`: before `new`, before `running_` is set, before
    `pthread_create`, in the `wait` of `Thread::start`, before its assertion, in the `wait` of
    `AsyncLogging::start`, and behind it. -/
inductive Initializing
  | new
  | start
  | create
  | wait
  | check
  | latch
  | done
  deriving DecidableEq

/-- Where the new thread is: before it publishes its id, in the `countDown` of
    `runInThread`, in that of `threadFunc`, and in the loop. -/
inductive Logging
  | tid
  | countDown
  | threadFunc
  | loop
  deriving DecidableEq

/-- The latches of the `Thread` and of the `AsyncLogging`. -/
inductive LatchOf
  | thread
  | logging
  deriving DecidableEq

/-- The logger while it is started. Recorded is how many have been made, and what
    `pthread_create` has returned. -/
structure LoggerStart (T : Type*) where
  once : Once T
  calling : T → Calling
  initializing : Initializing
  made : ℕ
  running : Bool
  started : Bool
  tid : ℕ
  created : Option Bool
  logging : Option Logging
  latch : LatchOf → Rendezvous

namespace LoggerStart

variable {T : Type*}

/-- Before anything has been logged. -/
def new : LoggerStart T where
  once := .fresh
  calling _ := .idle
  initializing := .new
  made := 0
  running := false
  started := false
  tid := 0
  created := none
  logging := none
  latch _ := .new

/-- Where the latch is waited for. -/
def waitsAt : LatchOf → Initializing
  | .thread => .wait
  | .logging => .latch

/-- Where the latch is counted down. -/
def countsAt : LatchOf → Logging
  | .thread => .countDown
  | .logging => .threadFunc

inductive Event (T : Type*)
  | output (t : T)
  | enter (t : T)
  | pass (t : T)
  | append (t : T)
  | new
  | start
  | create (created : Bool)
  | publish (tid : ℕ)
  | latch (k : LatchOf) (e : Monitor.Event Party CountDownLatch.Point)
  | waited
  | counted
  | check
  | loop
  | finish (t : T)

variable [DecidableEq T]

def call (s : LoggerStart T) (t : T) (calling : Calling) : LoggerStart T :=
  { s with calling := Function.update s.calling t calling }

def setLatch (s : LoggerStart T) (k : LatchOf) (r : Rendezvous) : LoggerStart T :=
  { s with latch := Function.update s.latch k r }

/-- The steps of the threads that log, of the one of them that runs `once_init`, and of the
    thread of the logger. -/
inductive Step (s : LoggerStart T) : Event T → LoggerStart T → Prop
  | output {t : T} : s.calling t = .idle → Step s (.output t) (s.call t .once)
  | enter {t : T} : s.calling t = .once → s.once = .fresh →
      Step s (.enter t) { s.call t .init with once := .running t }
  | pass {t : T} : s.calling t = .once → s.once = .done → Step s (.pass t) (s.call t .append)
  | append {t : T} : s.calling t = .append → Step s (.append t) (s.call t .idle)
  | new {t : T} : s.once = .running t → s.initializing = .new →
      Step s .new { s with made := s.made + 1, initializing := .start }
  | start : s.initializing = .start →
      Step s .start { s with running := true, initializing := .create }
  | created : s.initializing = .create →
      Step s (.create true) { s with
        started := true, created := some true, logging := some .tid, initializing := .wait }
  | failed : s.initializing = .create →
      Step s (.create false) { s with
        started := false, created := some false, initializing := .latch }
  | publish {tid : ℕ} : s.logging = some .tid → 0 < tid →
      Step s (.publish tid) { s with tid := tid, logging := some .countDown }
  | latch {k : LatchOf} {e : Monitor.Event Party CountDownLatch.Point} {r : Rendezvous} :
      (∀ p, e = .enter .starter p → s.initializing = waitsAt k) →
      (∀ p, e = .enter .worker p → s.logging = some (countsAt k)) →
      Rendezvous.Step (s.latch k) e r → Step s (.latch k e) (s.setLatch k r)
  | waited : s.initializing = .wait → (s.latch .thread).starter = .after →
      Step s .waited { s with initializing := .check }
  | counted : s.logging = some .countDown → (s.latch .thread).worker = .after →
      Step s .counted { s with logging := some .threadFunc }
  | check : s.initializing = .check → Step s .check { s with initializing := .latch }
  | loop : s.logging = some .threadFunc → (s.latch .logging).worker = .after →
      Step s .loop { s with logging := some .loop }
  | finish {t : T} : s.once = .running t → s.initializing = .latch →
      (s.latch .logging).starter = .after →
      Step s (.finish t) { s.call t .append with once := .done, initializing := .done }

/-- The runs of any number of threads. -/
def system (T : Type*) [DecidableEq T] : System (LoggerStart T) (Event T) where
  init := {new}
  step := Step

/-! ## The invariant -/

/-- What has been done, by where `once_init` is. -/
def Initialized (s : LoggerStart T) : Initializing → Prop
  | .new => s.made = 0 ∧ s.started = false ∧ s.created = none ∧ s.logging = none
  | .start => s.made = 1 ∧ s.started = false ∧ s.created = none ∧ s.logging = none
  | .create =>
    s.made = 1 ∧ s.started = false ∧ s.created = none ∧ s.logging = none ∧ s.running = true
  | .wait =>
    s.made = 1 ∧ s.started = true ∧ s.created = some true ∧ s.logging ≠ none ∧ s.running = true
  | .check =>
    s.made = 1 ∧ s.started = true ∧ s.created = some true ∧ s.logging ≠ none ∧ s.running = true ∧
      (s.latch .thread).starter = .after
  | .latch => s.made = 1 ∧ s.running = true ∧
    (s.created = some false ∧ s.logging = none ∨ s.created = some true ∧ s.started = true ∧
      s.logging ≠ none ∧ (s.latch .thread).starter = .after)
  | .done =>
    s.made = 1 ∧ s.started = true ∧ s.created = some true ∧ s.logging ≠ none ∧ s.running = true ∧
      (s.latch .thread).starter = .after ∧ (s.latch .logging).starter = .after

/-- Where the threads are that log. -/
structure Calls (s : LoggerStart T) : Prop where
  init : ∀ t, s.calling t = .init ↔ s.once = .running t
  append : ∀ t, s.calling t = .append → s.once = .done
  fresh : s.once = .fresh → s.initializing = .new
  done : s.once = .done ↔ s.initializing = .done

/-- Where the new thread is. -/
structure Runs (s : LoggerStart T) : Prop where
  tid : s.logging ≠ none → s.logging ≠ some .tid → 0 < s.tid
  thread : (s.latch .thread).worker ≠ .before → s.logging ≠ none ∧ s.logging ≠ some .tid
  threadFunc : s.logging = some .threadFunc ∨ s.logging = some .loop →
    (s.latch .thread).worker = .after
  logging : (s.latch .logging).worker ≠ .before →
    s.logging = some .threadFunc ∨ s.logging = some .loop
  loop : s.logging = some .loop → (s.latch .logging).worker = .after

/-- The invariant of the start. -/
structure Inv (s : LoggerStart T) : Prop where
  latch : ∀ k, Rendezvous.system.Reachable (s.latch k)
  initialized : s.Initialized s.initializing
  calls : s.Calls
  runs : s.Runs

variable {s s' : LoggerStart T} {e : Event T} {t : T}

@[simp] theorem call_calling_self {calling : Calling} : (s.call t calling).calling t = calling :=
  Function.update_self _ _ _

theorem call_calling_of_ne {u : T} (h : u ≠ t) {calling : Calling} :
    (s.call t calling).calling u = s.calling u := Function.update_of_ne h _ _

omit [DecidableEq T] in
@[simp] theorem setLatch_latch_self {k : LatchOf} {r : Rendezvous} :
    (s.setLatch k r).latch k = r := Function.update_self _ _ _

omit [DecidableEq T] in
theorem setLatch_latch_of_ne {k k' : LatchOf} (h : k' ≠ k) {r : Rendezvous} :
    (s.setLatch k r).latch k' = s.latch k' := Function.update_of_ne h _ _

/-- A thread that does not run `once_init` goes on. -/
theorem Calls.call (h : s.Calls) {calling : Calling} (hold : s.calling t ≠ .init)
    (hnew : calling ≠ .init) (happend : calling = .append → s.once = .done) :
    (s.call t calling).Calls := by
  refine ⟨fun u => ?_, fun u hu => ?_, h.fresh, h.done⟩
  · by_cases hut : u = t
    · subst hut
      rw [call_calling_self]
      exact iff_of_false hnew fun honce => hold ((h.init u).2 honce)
    · rw [call_calling_of_ne hut]
      exact h.init u
  · by_cases hut : u = t
    · subst hut
      rw [call_calling_self] at hu
      exact happend hu
    · rw [call_calling_of_ne hut] at hu
      exact h.append u hu

omit [DecidableEq T] in
/-- `once_init` goes on. -/
theorem Calls.go (h : s.Calls) (honce : s'.once = s.once) (hcalling : s'.calling = s.calling)
    (hfresh : s.once ≠ .fresh) (hdone : s.initializing ≠ .done) (hdone' : s'.initializing ≠ .done) :
    s'.Calls where
  init t := by rw [hcalling, honce, h.init]
  append t ht := honce.trans (h.append t (hcalling ▸ ht))
  fresh hs' := absurd (honce.symm.trans hs') hfresh
  done := iff_of_false (fun hs' => hdone (h.done.1 (honce.symm.trans hs'))) hdone'

theorem Calls.step (h : s.Calls) (hst : Step s e s') : s'.Calls := by
  have hgo : ∀ {s' : LoggerStart T}, s'.once = s.once → s'.calling = s.calling →
      s.initializing ≠ .new → s.initializing ≠ .done → s'.initializing ≠ .done → s'.Calls :=
    fun honce hcalling hnew hdone hdone' =>
      h.go honce hcalling (fun hfresh => hnew (h.fresh hfresh)) hdone hdone'
  cases hst with
  | output ht => exact h.call (by simp [ht]) nofun nofun
  | @enter t ht hfresh =>
    have hnew := h.fresh hfresh
    refine ⟨fun u => ?_, fun u hu => ?_, nofun, iff_of_false nofun ?_⟩
    · by_cases hut : u = t
      · subst hut
        exact iff_of_true call_calling_self rfl
      · refine iff_of_false (fun hu => ?_) fun hu => hut (by cases hu; rfl)
        have hu : (s.call t .init).calling u = .init := hu
        rw [call_calling_of_ne hut, h.init, hfresh] at hu
        cases hu
    · have hu : (s.call t .init).calling u = .append := hu
      by_cases hut : u = t
      · subst hut
        rw [call_calling_self] at hu
        cases hu
      · rw [call_calling_of_ne hut] at hu
        cases hfresh.symm.trans (h.append u hu)
    · change s.initializing ≠ .done
      rw [hnew]
      exact nofun
  | pass ht hdone => exact h.call (by simp [ht]) nofun fun _ => hdone
  | append ht => exact h.call (by simp [ht]) nofun nofun
  | new honce hnew => exact h.go rfl rfl (by simp [honce]) (by simp [hnew]) nofun
  | start hi | created hi | failed hi | waited hi | check hi =>
    exact hgo rfl rfl (by simp [hi]) (by simp [hi]) nofun
  | publish | latch | counted | loop => exact ⟨h.init, h.append, h.fresh, h.done⟩
  | @finish t honce hi =>
    refine ⟨fun u => ?_, fun _ _ => rfl, nofun, iff_of_true rfl rfl⟩
    refine iff_of_false (fun hu => ?_) nofun
    have hu : (s.call t .append).calling u = .init := hu
    by_cases hut : u = t
    · subst hut
      rw [call_calling_self] at hu
      cases hu
    · rw [call_calling_of_ne hut, h.init, honce] at hu
      cases hu
      exact hut rfl

omit [DecidableEq T] in
/-- Nothing has been done that `once_init` does. -/
theorem Initialized.congr {i : Initializing} (h : s.Initialized i) (hmade : s'.made = s.made)
    (hstarted : s'.started = s.started) (hcreated : s'.created = s.created)
    (hrunning : s'.running = s.running) (hlogging : s'.logging = none ↔ s.logging = none)
    (hlatch : ∀ k, (s.latch k).starter = .after → (s'.latch k).starter = .after) :
    s'.Initialized i := by
  have hthread := hlatch .thread
  have hloggingLatch := hlatch .logging
  cases i <;>
    simp only [Initialized, hmade, hstarted, hcreated, hrunning, ne_eq, hlogging] at h ⊢ <;>
    tauto

theorem Inv.initialized_step (hs : s.Inv) (hst : Step s e s') :
    s'.Initialized s'.initializing := by
  have hinit := hs.initialized
  have hkeep : ∀ {s' : LoggerStart T}, s'.initializing = s.initializing → s'.made = s.made →
      s'.started = s.started → s'.created = s.created → s'.running = s.running →
      (s'.logging = none ↔ s.logging = none) → s'.latch = s.latch →
      s'.Initialized s'.initializing := fun hi hmade hstarted hcreated hrunning hlogging hlatch =>
    hi ▸ hinit.congr hmade hstarted hcreated hrunning hlogging fun k h => hlatch ▸ h
  cases hst with
  | output | enter | pass | append => exact hkeep rfl rfl rfl rfl rfl Iff.rfl rfl
  | new _ hi =>
    rw [hi] at hinit
    obtain ⟨hmade, hstarted, hcreated, hlogging⟩ := hinit
    exact ⟨congrArg Nat.succ hmade, hstarted, hcreated, hlogging⟩
  | start hi =>
    rw [hi] at hinit
    obtain ⟨hmade, hstarted, hcreated, hlogging⟩ := hinit
    exact ⟨hmade, hstarted, hcreated, hlogging, rfl⟩
  | created hi =>
    rw [hi] at hinit
    obtain ⟨hmade, -, -, -, hrunning⟩ := hinit
    exact ⟨hmade, rfl, rfl, nofun, hrunning⟩
  | failed hi =>
    rw [hi] at hinit
    obtain ⟨hmade, -, -, hlogging, hrunning⟩ := hinit
    exact ⟨hmade, hrunning, .inl ⟨rfl, hlogging⟩⟩
  | publish hlogging | counted hlogging | loop hlogging =>
    exact hkeep rfl rfl rfl rfl rfl (by simp [hlogging]) rfl
  | @latch k e r _ _ hst =>
    refine hinit.congr rfl rfl rfl rfl Iff.rfl fun k' hk' => ?_
    by_cases hk : k' = k
    · subst hk
      rw [setLatch_latch_self]
      exact hst.after.1 hk'
    · rwa [setLatch_latch_of_ne hk]
  | waited hi hafter =>
    rw [hi] at hinit
    obtain ⟨hmade, hstarted, hcreated, hlogging, hrunning⟩ := hinit
    exact ⟨hmade, hstarted, hcreated, hlogging, hrunning, hafter⟩
  | check hi =>
    rw [hi] at hinit
    obtain ⟨hmade, hstarted, hcreated, hlogging, hrunning, hafter⟩ := hinit
    exact ⟨hmade, hrunning, .inr ⟨hcreated, hstarted, hlogging, hafter⟩⟩
  | finish _ hi hafter =>
    rw [hi] at hinit
    obtain ⟨hmade, hrunning, ⟨-, hnone⟩ | ⟨hcreated, hstarted, hlogging, hthread⟩⟩ := hinit
    · -- Nobody has counted down.
      have hworker := Rendezvous.after_of_reachable (hs.latch .logging) hafter
      rcases hs.runs.logging (by simp [hworker]) with h | h <;> cases hnone.symm.trans h
    · exact ⟨hmade, hstarted, hcreated, hlogging, hrunning, hthread, hafter⟩

theorem Inv.runs_step (hs : s.Inv) (hst : Step s e s') : s'.Runs := by
  have h := hs.runs
  have hinit := hs.initialized
  cases hst with
  | output | enter | pass | append | new | start | failed | waited | check | finish =>
    exact ⟨h.tid, h.thread, h.threadFunc, h.logging, h.loop⟩
  | created hi =>
    rw [hi] at hinit
    obtain ⟨-, -, -, hnone, -⟩ := hinit
    refine ⟨fun _ hne => absurd rfl hne, fun hne => absurd hnone (h.thread hne).1, ?_,
      fun hne => ?_, nofun⟩
    · rintro (h | h) <;> cases h
    · rcases h.logging hne with h | h <;> cases hnone.symm.trans h
  | publish hlogging hpos =>
    refine ⟨fun _ _ => hpos, fun _ => ⟨nofun, nofun⟩, ?_, fun hne => ?_, nofun⟩
    · rintro (h | h) <;> cases h
    · rcases h.logging hne with h | h <;> cases hlogging.symm.trans h
  | counted hlogging hafter =>
    refine ⟨fun _ _ => h.tid (by simp [hlogging]) (by simp [hlogging]), fun _ => ⟨nofun, nofun⟩,
      fun _ => hafter, fun _ => .inl rfl, nofun⟩
  | loop hlogging hafter =>
    refine ⟨fun _ _ => h.tid (by simp [hlogging]) (by simp [hlogging]), fun _ => ⟨nofun, nofun⟩,
      fun _ => h.threadFunc (.inl hlogging), fun _ => .inr rfl, fun _ => hafter⟩
  | @latch k e r _ hworker hst =>
    have hentered := (Rendezvous.inv_of_reachable (hs.latch k)).entered hst
    have hbefore : r.worker ≠ .before →
        (s.latch k).worker ≠ .before ∨ s.logging = some (countsAt k) := fun hne =>
      (hentered hne).imp_right fun ⟨p, hp⟩ => hworker p hp
    cases k with
    | thread =>
      refine ⟨h.tid, fun hne => ?_, fun hlogging => ?_, h.logging, h.loop⟩
      · rw [setLatch_latch_self] at hne
        refine (hbefore hne).elim h.thread fun hlogging => ?_
        have hlogging : (s.setLatch .thread r).logging = some .countDown := hlogging
        simp [hlogging]
      · rw [setLatch_latch_self]
        exact hst.after.2 (h.threadFunc hlogging)
    | logging =>
      refine ⟨h.tid, h.thread, h.threadFunc, fun hne => ?_, fun hlogging => ?_⟩
      · rw [setLatch_latch_self] at hne
        exact (hbefore hne).elim h.logging .inl
      · rw [setLatch_latch_self]
        exact hst.after.2 (h.loop hlogging)

theorem Inv.step (hs : s.Inv) (hst : Step s e s') : s'.Inv := by
  refine ⟨fun k => ?_, hs.initialized_step hst, hs.calls.step hst, hs.runs_step hst⟩
  cases hst with
  | @latch k' e r _ _ hst =>
    by_cases hk : k = k'
    · subst hk
      rw [setLatch_latch_self]
      exact .step (hs.latch k) trivial hst
    · rw [setLatch_latch_of_ne hk]
      exact hs.latch k
  | _ => exact hs.latch k

theorem inv_of_reachable (hs : (system T).Reachable s) : s.Inv := by
  refine hs.invariant (fun s hs => ?_) fun s e s' _ hs _ hst => hs.step hst
  rw [Set.mem_singleton_iff.1 hs]
  refine ⟨fun k => .init rfl, ⟨rfl, rfl, rfl, rfl⟩, ⟨fun t => iff_of_false nofun nofun, nofun,
    fun _ => rfl, iff_of_false nofun nofun⟩, ⟨fun h => absurd rfl h, fun h => absurd rfl h, ?_,
    fun h => absurd rfl h, nofun⟩⟩
  rintro (h | h) <;> cases h

/-! ## Safety -/

/-- What the assertions ask for, and what a thread finds that appends. -/
structure Safe (s : LoggerStart T) : Prop where
  /-- The assertions of `Thread::start`. -/
  fresh : s.initializing = .create → s.started = false
  checked : s.initializing = .check → 0 < s.tid
  /-- At most one thread runs `once_init`, and one logger is made. -/
  made : s.made ≤ 1
  alone : ∀ t u, s.calling t = .init → s.calling u = .init → t = u
  /-- When `Thread::start` has returned, the new thread has used its arguments. -/
  used : s.initializing = .check ∨ s.initializing = .latch ∨ s.initializing = .done →
    s.created = some false ∨ (s.latch .thread).worker = .after ∧ s.logging ≠ some .tid
  /-- Who appends finds the logger, and its thread in `threadFunc`. -/
  append : ∀ t, s.calling t = .append →
    s.made = 1 ∧ s.running = true ∧ s.started = true ∧ 0 < s.tid ∧
      (s.logging = some .threadFunc ∨ s.logging = some .loop) ∧
      (s.latch .logging).worker = .after

omit [DecidableEq T] in
theorem Inv.safe (hs : s.Inv) : s.Safe := by
  have hinit := hs.initialized
  have hthread : (s.latch .thread).starter = .after →
      (s.latch .thread).worker = .after ∧ s.logging ≠ some .tid := fun hafter => by
    have hworker := Rendezvous.after_of_reachable (hs.latch .thread) hafter
    exact ⟨hworker, (hs.runs.thread (by simp [hworker])).2⟩
  have htid : (s.latch .thread).starter = .after → 0 < s.tid := fun hafter => by
    obtain ⟨hne, hne'⟩ := hs.runs.thread (by simp [(hthread hafter).1])
    exact hs.runs.tid hne hne'
  refine ⟨fun hi => ?_, fun hi => ?_, ?_, fun t u ht hu => ?_, fun hi => ?_, fun t ht => ?_⟩
  · rw [hi] at hinit
    exact hinit.2.1
  · rw [hi] at hinit
    obtain ⟨-, -, -, -, -, hafter⟩ := hinit
    exact htid hafter
  · cases hi : s.initializing <;> rw [hi] at hinit <;> simp [hinit.1]
  · have honce := ((hs.calls.init t).1 ht).symm.trans ((hs.calls.init u).1 hu)
    cases honce
    rfl
  · rcases hi with hi | hi | hi
    · rw [hi] at hinit
      exact .inr (hthread hinit.2.2.2.2.2)
    · rw [hi] at hinit
      obtain ⟨-, -, ⟨hfailed, -⟩ | ⟨-, -, -, hafter⟩⟩ := hinit
      · exact .inl hfailed
      · exact .inr (hthread hafter)
    · rw [hi] at hinit
      obtain ⟨-, -, -, -, -, hafter, -⟩ := hinit
      exact .inr (hthread hafter)
  · rw [hs.calls.done.1 (hs.calls.append t ht)] at hinit
    obtain ⟨hmade, hstarted, -, -, hrunning, hafter, hlogging⟩ := hinit
    have hworker := Rendezvous.after_of_reachable (hs.latch .logging) hlogging
    exact ⟨hmade, hrunning, hstarted, htid hafter, hs.runs.logging (by simp [hworker]), hworker⟩

/-- Whatever the threads do, and in which order. -/
theorem safe_of_reachable (hs : (system T).Reachable s) : s.Safe := (inv_of_reachable hs).safe

/-! ## Progress -/

/-- What the two threads of a latch do. -/
theorem steps_latch {k : LatchOf} {es : List (Monitor.Event Party CountDownLatch.Point)}
    {r : Rendezvous} (h : Rendezvous.system.Steps (s.latch k) es r)
    (hwaits : s.initializing = waitsAt k)
    (hcounts : (s.latch k).worker = .before → s.logging = some (countsAt k)) :
    (system T).Steps s (es.map (.latch k)) (s.setLatch k r) := by
  generalize hl : s.latch k = l at h hcounts
  induction h generalizing s with
  | nil =>
    have hself : s.setLatch k (s.latch k) = s := by
      rw [setLatch, Function.update_eq_self]
    rw [← hl, hself]
    exact .nil
  | @cons l l' r e es hst _ ih =>
    have hworker : ∀ p, e = .enter .worker p → s.logging = some (countsAt k) := by
      rintro p rfl
      cases hst with
      | countDown hbefore => exact hcounts hbefore
      | inside henter => exact absurd rfl (henter _ _)
    have hstep : Step s (.latch k e) (s.setLatch k l') :=
      .latch (fun _ _ => hwaits) hworker (hl ▸ hst)
    have hrest := ih (s := s.setLatch k l') hwaits setLatch_latch_self
      fun hbefore => hcounts (Rendezvous.Step.before hst |>.2 hbefore)
    have hsame : (s.setLatch k l').setLatch k r = s.setLatch k r := by
      simp only [setLatch, Function.update_idem]
    rw [hsame] at hrest
    exact .cons hstep hrest

/-- `once_init` goes on until it returns, whoever runs it. -/
def Ends (s : LoggerStart T) (t : T) : Prop :=
  ∃ es s', (system T).Steps s es s' ∧ s'.once = .done ∧
    s'.calling = Function.update s.calling t .append

theorem Ends.step (hst : Step s e s') (hcalling : s'.calling = s.calling) (h : s'.Ends t) :
    s.Ends t := by
  obtain ⟨es, s'', hsteps, hdone, hcalling'⟩ := h
  exact ⟨e :: es, s'', .cons hst hsteps, hdone, hcalling ▸ hcalling'⟩

theorem Ends.latch {k : LatchOf} (hs : (system T).Reachable s) (hwaits : s.initializing = waitsAt k)
    (hcounts : (s.latch k).worker = .before → s.logging = some (countsAt k))
    (h : ∀ r : Rendezvous, (system T).Reachable (s.setLatch k r) → r.starter = .after →
      (s.setLatch k r).Ends t) : s.Ends t := by
  obtain ⟨es, r, hsteps, hafter⟩ := Rendezvous.exists_after ((inv_of_reachable hs).latch k)
  have hsteps := steps_latch hsteps hwaits hcounts
  obtain ⟨es', s', hsteps', hdone, hcalling⟩ := h r (System.Reachable.steps hs hsteps) hafter
  exact ⟨_, s', hsteps.append hsteps', hdone, hcalling⟩

theorem ends_of_latch (hs : (system T).Reachable s) (honce : s.once = .running t)
    (hi : s.initializing = .latch) (hcreated : s.created = some true) : s.Ends t := by
  have hend : ∀ s : LoggerStart T, (system T).Reachable s → s.once = .running t →
      s.initializing = .latch →
      ((s.latch .logging).worker = .before → s.logging = some .threadFunc) → s.Ends t := by
    intro s hs honce hi hcounts
    exact .latch (k := .logging) hs hi hcounts fun r _ hafter =>
      ⟨_, _, .single (.finish honce hi (by rw [setLatch_latch_self]; exact hafter)), rfl, rfl⟩
  have hinv := inv_of_reachable hs
  have hinit := hinv.initialized
  rw [hi] at hinit
  obtain ⟨-, -, ⟨hfailed, -⟩ | ⟨-, -, hlogging, hafter⟩⟩ := hinit
  · cases hcreated.symm.trans hfailed
  · have hworker := Rendezvous.after_of_reachable (hinv.latch .thread) hafter
    cases hcase : s.logging with
    | none => exact absurd hcase hlogging
    | some logging =>
      cases logging with
      | tid => exact absurd hcase (hinv.runs.thread (by simp [hworker])).2
      | countDown =>
        have hst := Step.counted hcase hworker
        exact .step hst rfl (hend _ (.step hs trivial hst) honce hi fun _ => rfl)
      | threadFunc => exact hend s hs honce hi fun _ => hcase
      | loop =>
        exact hend s hs honce hi fun hbefore => by
          simp [hinv.runs.loop hcase] at hbefore

theorem ends_of_check (hs : (system T).Reachable s) (honce : s.once = .running t)
    (hi : s.initializing = .check) : s.Ends t := by
  have hinit := (inv_of_reachable hs).initialized
  rw [hi] at hinit
  have hst := Step.check hi
  exact .step hst rfl (ends_of_latch (.step hs trivial hst) honce rfl hinit.2.2.1)

theorem ends_of_wait (hs : (system T).Reachable s) (honce : s.once = .running t)
    (hi : s.initializing = .wait) : s.Ends t := by
  have hend : ∀ s : LoggerStart T, (system T).Reachable s → s.once = .running t →
      s.initializing = .wait →
      ((s.latch .thread).worker = .before → s.logging = some .countDown) → s.Ends t := by
    intro s hs honce hi hcounts
    refine .latch (k := .thread) hs hi hcounts fun r hr hafter => ?_
    have hst := Step.waited (s := s.setLatch .thread r) hi
      (by rw [setLatch_latch_self]; exact hafter)
    exact .step hst rfl (ends_of_check (.step hr trivial hst) honce rfl)
  have hinv := inv_of_reachable hs
  have hinit := hinv.initialized
  rw [hi] at hinit
  cases hcase : s.logging with
  | none => exact absurd hcase hinit.2.2.2.1
  | some logging =>
    cases logging with
    | tid =>
      have hst : Step s (.publish 1) _ := .publish hcase Nat.one_pos
      exact .step hst rfl (hend _ (.step hs trivial hst) honce hi fun _ => rfl)
    | countDown => exact hend s hs honce hi fun _ => hcase
    | threadFunc | loop =>
      refine hend s hs honce hi fun hbefore => ?_
      simp [hinv.runs.threadFunc (by simp [hcase])] at hbefore

/-- If the thread of the logger can still be created, or has been, `once_init` returns. -/
theorem ends_of_running (hs : (system T).Reachable s) (honce : s.once = .running t)
    (hcreated : s.created ≠ some false) : s.Ends t := by
  have hcreate : ∀ s : LoggerStart T, (system T).Reachable s → s.once = .running t →
      s.initializing = .create → s.Ends t := by
    intro s hs honce hi
    have hst := Step.created hi
    exact .step hst rfl (ends_of_wait (.step hs trivial hst) honce rfl)
  have hstart : ∀ s : LoggerStart T, (system T).Reachable s → s.once = .running t →
      s.initializing = .start → s.Ends t := by
    intro s hs honce hi
    have hst := Step.start hi
    exact .step hst rfl (hcreate _ (.step hs trivial hst) honce rfl)
  have hinv := inv_of_reachable hs
  cases hi : s.initializing with
  | new =>
    have hst := Step.new honce hi
    exact .step hst rfl (hstart _ (.step hs trivial hst) honce rfl)
  | start => exact hstart s hs honce hi
  | create => exact hcreate s hs honce hi
  | wait => exact ends_of_wait hs honce hi
  | check => exact ends_of_check hs honce hi
  | latch =>
    refine ends_of_latch hs honce hi ?_
    have hinit := hinv.initialized
    rw [hi] at hinit
    obtain ⟨-, -, ⟨hfailed, -⟩ | ⟨hok, -⟩⟩ := hinit
    · exact absurd hfailed hcreated
    · exact hok
  | done => cases honce.symm.trans (hinv.calls.done.2 hi)

/-- If it could not be created, that is for good. -/
theorem failed_of_steps {es : List (Event T)} (hs : (system T).Reachable s)
    (hsteps : (system T).Steps s es s') (hfailed : s.created = some false) :
    s'.created = some false := by
  induction hsteps with
  | nil => exact hfailed
  | @cons s s₁ s₂ e es hst _ ih =>
    refine ih (.step hs trivial hst) ?_
    cases hst with
    | created hi =>
      have hinit := (inv_of_reachable hs).initialized
      rw [hi] at hinit
      cases hfailed.symm.trans hinit.2.2.1
    | failed => rfl
    | _ => exact hfailed

/-- A thread that logs something gets to append it if and only if the creation of the thread
    of the logger has not failed. -/
theorem getsThrough_iff (hs : (system T).Reachable s)
    (ht : s.calling t = .once ∨ s.calling t = .init) :
    (∃ es s', (system T).Steps s es s' ∧ s'.calling t = .append) ↔ s.created ≠ some false := by
  have hinv := inv_of_reachable hs
  constructor
  · rintro ⟨es, s', hsteps, happend⟩ hfailed
    have hinv' := inv_of_reachable (System.Reachable.steps hs hsteps)
    have hinit := hinv'.initialized
    rw [hinv'.calls.done.1 (hinv'.calls.append t happend)] at hinit
    cases (failed_of_steps hs hsteps hfailed).symm.trans hinit.2.2.1
  · intro hcreated
    -- Whoever runs `once_init` lets the others pass in the end.
    have hpass : ∀ {s : LoggerStart T} {u : T}, s.Ends u → s.calling t = .once ∨ u = t →
        ∃ es s', (system T).Steps s es s' ∧ s'.calling t = .append := by
      rintro s u ⟨es, s', hsteps, hdone, hcalling⟩ htu
      by_cases hut : u = t
      · subst hut
        exact ⟨es, s', hsteps, by rw [hcalling, Function.update_self]⟩
      · have honce : s'.calling t = .once := by
          rw [hcalling, Function.update_of_ne (Ne.symm hut)]
          exact htu.resolve_right hut
        exact ⟨_, _, hsteps.append (.single (.pass honce hdone)), call_calling_self⟩
    rcases ht with ht | ht
    · cases honce : s.once with
      | fresh =>
        have hst := Step.enter ht honce
        obtain ⟨es, s', hsteps, happend⟩ :=
          hpass (ends_of_running (.step hs trivial hst) rfl hcreated) (.inr rfl)
        exact ⟨_, s', .cons hst hsteps, happend⟩
      | running u => exact hpass (ends_of_running hs honce hcreated) (.inl ht)
      | done => exact ⟨_, _, .single (.pass ht honce), call_calling_self⟩
    · exact hpass (ends_of_running hs ((hinv.calls.init t).1 ht) hcreated) (.inr rfl)

/-! ## Some runs -/

/-- The thread 0 is the first one to log something. -/
theorem exists_running : ∃ s : LoggerStart ℕ, (system ℕ).Reachable s ∧ s.once = .running 0 ∧
    s.calling 0 = .init ∧ s.created = none ∧ s.initializing = .new := by
  have hs : (system ℕ).Reachable new := .init rfl
  have hs := hs.step trivial (Step.output (t := 0) rfl)
  have hs := hs.step trivial (Step.enter (t := 0) rfl rfl)
  exact ⟨_, hs, rfl, rfl, rfl, rfl⟩

theorem safe_of_reachable_append :
    ∃ s : LoggerStart ℕ, s.calling 0 = .append ∧ s.Safe := by
  obtain ⟨s, hs, honce, -, hcreated, -⟩ := exists_running
  obtain ⟨es, s', hsteps, -, hcalling⟩ := ends_of_running hs honce (by simp [hcreated])
  exact ⟨s', by rw [hcalling, Function.update_self],
    safe_of_reachable (System.Reachable.steps hs hsteps)⟩

/-- No thread can be created, and the one that logs waits forever. -/
theorem getsThrough_iff_failed : ∃ s : LoggerStart ℕ, s.created = some false ∧
    ((∃ es s', (system ℕ).Steps s es s' ∧ s'.calling 0 = .append) ↔ s.created ≠ some false) := by
  obtain ⟨s, hs, honce, hcalling, -, hi⟩ := exists_running
  have hs := hs.step trivial (Step.new honce hi)
  have hs := hs.step trivial (Step.start rfl)
  have hs := hs.step trivial (Step.failed rfl)
  exact ⟨_, rfl, getsThrough_iff hs (.inr hcalling)⟩

end LoggerStart

end Webserver
