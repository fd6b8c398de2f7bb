import Webserver.Lib.Fifo
import Mathlib.Logic.Function.Basic

/-!
# The hand-over of functors to a loop

`EventLoop::queueInLoop` hands functors over to the thread of a loop: it pushes
them under a mutex, and then wakes the loop up unless the loop will look at them
anyway. `EventLoop::loop` goes through its phases in its own thread, and swaps
the pending functors out in one of them. Threads are interleaved where another
one may interfere: between the push and the wake-up, and between the phases.

* `TaskLoop.refinement`: functors go through the loop first in, first out.
* `TaskLoop.Awake`: the invariant behind the wake-ups. Where functors are pending
  and the loop is past the point where it swaps them out, it has been woken up
  or is about to be.
* `TaskLoop.handedOver_of_reachable`: so no functor is lost, run twice or
  overtaken by another one, and no wake-up is lost.
-/

namespace Webserver

open Transition

abbrev ThreadId := ℕ

/-- Where the thread of a loop is: before `loop`, at the condition of its loop,
    about to block in `epoll_wait`, handling events, about to swap the pending
    functors out, between two of them, in one of them, and after the last one;
    and after `loop`. -/
inductive Phase
  | start
  | head
  | poll
  | events
  | swap
  | run
  | functor
  | expired
  | stopped
  deriving DecidableEq

/-- Where a thread is in a call that another one may interfere with: after the
    push in `queueInLoop`, or after the store in `quit`. -/
inductive Caller
  | idle
  | pushed
  | quitting
  deriving DecidableEq

/-- An `EventLoop`, as far as functors are handed over to it. Recorded besides are
    the functors pushed (`queued`) and started (`executed`), in order, and if the
    wake-up descriptor has been written to since `epoll_wait` last returned
    (`woken`). -/
structure TaskLoop (Functor : Type*) where
  threadId : ThreadId
  looping : Bool
  phase : Phase
  callingPendingFunctors : Bool
  pendingFunctors : List Functor
  functors : List Functor
  caller : ThreadId → Caller
  queued : List Functor
  executed : List Functor
  woken : Bool

namespace TaskLoop

variable {Functor : Type*}

/-- A loop constructed in some thread. -/
def new (threadId : ThreadId) : TaskLoop Functor where
  threadId := threadId
  looping := false
  phase := .start
  callingPendingFunctors := false
  pendingFunctors := []
  functors := []
  caller _ := .idle
  queued := []
  executed := []
  woken := false

def isInLoopThread (s : TaskLoop Functor) (t : ThreadId) : Bool := s.threadId == t

def wakeUp (s : TaskLoop Functor) : TaskLoop Functor := { s with woken := true }

def setCaller (s : TaskLoop Functor) (t : ThreadId) (c : Caller) : TaskLoop Functor :=
  { s with caller := Function.update s.caller t c }

theorem setCaller_self (s : TaskLoop Functor) (t : ThreadId) (c : Caller) :
    (s.setCaller t c).caller t = c := Function.update_self _ _ _

theorem setCaller_of_ne (s : TaskLoop Functor) {t t' : ThreadId} (h : t' ≠ t) (c : Caller) :
    (s.setCaller t c).caller t' = s.caller t' := Function.update_of_ne h _ _

/-! ## Callers -/

/-- The critical section of `queueInLoop`. -/
def push (s : TaskLoop Functor) (t : ThreadId) (cb : Functor) : TaskLoop Functor :=
  { s.setCaller t .pushed with
    pendingFunctors := s.pendingFunctors ++ [cb]
    queued := s.queued ++ [cb] }

/-- The store in `quit`. -/
def quit (s : TaskLoop Functor) (t : ThreadId) : TaskLoop Functor :=
  { s.setCaller t .quitting with looping := false }

/-- The rest of the call a thread is in. -/
def finish (s : TaskLoop Functor) (t : ThreadId) : TaskLoop Functor :=
  let s' := s.setCaller t .idle
  match s.caller t with
  | .idle => s
  -- The condition of `queueInLoop`, evaluated after the mutex is released.
  | .pushed => if !s.isInLoopThread t || s.callingPendingFunctors then s'.wakeUp else s'
  | .quitting => if !s.isInLoopThread t then s'.wakeUp else s'

/-! ## The thread of the loop -/

/-- The next step of `loop`, if it has not returned. What a functor or a callback
    does is left to `push` and `quit`. -/
def advance (s : TaskLoop Functor) : Option (TaskLoop Functor) :=
  match s.phase with
  | .start => some { s with looping := true, phase := .head }
  | .head => some { s with phase := if s.looping then .poll else .stopped }
  | .poll => some { s with woken := false, phase := .events }
  | .events => some { s with callingPendingFunctors := true, phase := .swap }
  | .swap => some { s with functors := s.pendingFunctors, pendingFunctors := [], phase := .run }
  | .run =>
    match s.functors with
    | [] => some { s with callingPendingFunctors := false, phase := .expired }
    | functor :: functors =>
      some { s with executed := s.executed ++ [functor], functors := functors, phase := .functor }
  | .functor => some { s with phase := .run }
  | .expired => some { s with phase := .head }
  | .stopped => none

/-! ## Runs -/

inductive Event (Functor : Type*)
  | push (t : ThreadId) (cb : Functor)
  | quit (t : ThreadId)
  | finish (t : ThreadId)
  | loop

/-- A thread may call the loop: any other thread, or the one of the loop from a
    callback or a functor. -/
def MayCall (s : TaskLoop Functor) (t : ThreadId) : Prop :=
  s.caller t = .idle ∧ (t = s.threadId → s.phase = .events ∨ s.phase = .functor)

/-- The steps of the threads. The one of the loop goes on with it when it is not
    in a call. -/
inductive Step : TaskLoop Functor → Event Functor → TaskLoop Functor → Prop
  | push {s : TaskLoop Functor} {t : ThreadId} {cb : Functor} :
      s.MayCall t → Step s (.push t cb) (s.push t cb)
  | quit {s : TaskLoop Functor} {t : ThreadId} : s.MayCall t → Step s (.quit t) (s.quit t)
  | finish {s : TaskLoop Functor} {t : ThreadId} :
      s.caller t ≠ .idle → Step s (.finish t) (s.finish t)
  | loop {s s' : TaskLoop Functor} :
      s.caller s.threadId = .idle → s.advance = some s' → Step s .loop s'

instance (s : TaskLoop Functor) (t : ThreadId) : Decidable (s.MayCall t) :=
  inferInstanceAs (Decidable (_ ∧ _))

/-- The state an event leads to. -/
def next (s : TaskLoop Functor) : Event Functor → Option (TaskLoop Functor)
  | .push t cb => if s.MayCall t then some (s.push t cb) else none
  | .quit t => if s.MayCall t then some (s.quit t) else none
  | .finish t => if s.caller t = .idle then none else some (s.finish t)
  | .loop => if s.caller s.threadId = .idle then s.advance else none

theorem step_of_next (s : TaskLoop Functor) (e : Event Functor) (s' : TaskLoop Functor)
    (h : s.next e = some s') : Step s e s' := by
  cases e with
  | push t cb =>
    obtain ⟨ht, h⟩ := Option.ite_none_right_eq_some.1 h
    cases h
    exact .push ht
  | quit t =>
    obtain ⟨ht, h⟩ := Option.ite_none_right_eq_some.1 h
    cases h
    exact .quit ht
  | finish t =>
    obtain ⟨ht, h⟩ := Option.ite_none_left_eq_some.1 h
    cases h
    exact .finish ht
  | loop =>
    obtain ⟨hidle, h⟩ := Option.ite_none_right_eq_some.1 h
    exact .loop hidle h

/-- The runs of a loop and any number of threads that call it. -/
def system (Functor : Type*) : System (TaskLoop Functor) (Event Functor) where
  init := Set.range new
  step := Step

/-- Finishing a call ends it, and may wake the loop up. -/
theorem finish_eq (s : TaskLoop Functor) (t : ThreadId) :
    s.finish t = { s.setCaller t .idle with woken := (s.finish t).woken } := by
  rw [finish]
  split
  · next h => simp [setCaller, ← h]
  · split <;> rfl
  · split <;> rfl

/-- A wake-up is not taken back. -/
theorem woken_finish {s : TaskLoop Functor} {t : ThreadId} (h : s.woken = true) :
    (s.finish t).woken = true := by
  rw [finish]
  split
  · exact h
  · split
    · rfl
    · exact h
  · split
    · rfl
    · exact h

/-- What a step of `loop` does, phase by phase. -/
inductive LoopStep (s : TaskLoop Functor) : TaskLoop Functor → Prop
  | start : s.phase = .start → LoopStep s { s with looping := true, phase := .head }
  | head : s.phase = .head →
      LoopStep s { s with phase := if s.looping then .poll else .stopped }
  | poll : s.phase = .poll → LoopStep s { s with woken := false, phase := .events }
  | events : s.phase = .events →
      LoopStep s { s with callingPendingFunctors := true, phase := .swap }
  | swap : s.phase = .swap →
      LoopStep s { s with functors := s.pendingFunctors, pendingFunctors := [], phase := .run }
  | take {functor : Functor} {functors : List Functor} :
      s.phase = .run → s.functors = functor :: functors →
      LoopStep s { s with
        executed := s.executed ++ [functor]
        functors := functors
        phase := .functor }
  | done : s.phase = .run → s.functors = [] →
      LoopStep s { s with callingPendingFunctors := false, phase := .expired }
  | functor : s.phase = .functor → LoopStep s { s with phase := .run }
  | expired : s.phase = .expired → LoopStep s { s with phase := .head }

theorem loopStep_of_advance {s s' : TaskLoop Functor} (h : s.advance = some s') :
    s.LoopStep s' := by
  rw [advance] at h
  split at h
  · next hphase =>
    cases h
    exact .start hphase
  · next hphase =>
    cases h
    exact .head hphase
  · next hphase =>
    cases h
    exact .poll hphase
  · next hphase =>
    cases h
    exact .events hphase
  · next hphase =>
    cases h
    exact .swap hphase
  · next hphase =>
    split at h
    · next hnil =>
      cases h
      exact .done hphase hnil
    · next hcons =>
      cases h
      exact .take hphase hcons
  · next hphase =>
    cases h
    exact .functor hphase
  · next hphase =>
    cases h
    exact .expired hphase
  · cases h

/-! ## No wake-up is lost -/

/-- What holds between the steps of the threads. -/
structure Awake (s : TaskLoop Functor) : Prop where
  /-- The thread of the loop calls it from callbacks and functors only. -/
  caller : s.caller s.threadId ≠ .idle → s.phase = .events ∨ s.phase = .functor
  calling : s.phase = .swap ∨ s.phase = .run ∨ s.phase = .functor →
    s.callingPendingFunctors = true
  functors : s.functors ≠ [] → s.phase = .run ∨ s.phase = .functor
  /-- Pending functors are about to be swapped out, or the loop has been woken up,
      or will be by the one who pushed them. -/
  pending : s.pendingFunctors ≠ [] → s.phase = .events ∨ s.phase = .swap ∨ s.woken = true ∨
    ∃ t, s.caller t = .pushed

theorem awake_new (t : ThreadId) : (new t : TaskLoop Functor).Awake := by
  constructor <;> simp [new]

section Awake

variable {s s' : TaskLoop Functor} {t : ThreadId}

/-- A thread enters a call. -/
theorem Awake.enter (hs : s.Awake) (ht : s.MayCall t) (c : Caller) : (s.setCaller t c).Awake := by
  refine ⟨fun h => ?_, hs.calling, hs.functors, fun hne => ?_⟩
  · by_cases heq : t = s.threadId
    · exact ht.2 heq
    · exact hs.caller fun hidle => h ((s.setCaller_of_ne (Ne.symm heq) c).trans hidle)
  · rcases hs.pending hne with h | h | h | ⟨t', h⟩
    · exact .inl h
    · exact .inr (.inl h)
    · exact .inr (.inr (.inl h))
    · refine .inr (.inr (.inr ⟨t', ?_⟩))
      have hne : t' ≠ t := by
        rintro rfl
        rw [ht.1] at h
        cases h
      exact (s.setCaller_of_ne hne c).trans h

theorem Awake.push (hs : s.Awake) (ht : s.MayCall t) (cb : Functor) : (s.push t cb).Awake := by
  obtain ⟨hcaller, hcalling, hfunctors, -⟩ := hs.enter ht .pushed
  exact ⟨hcaller, hcalling, hfunctors,
    fun _ => .inr (.inr (.inr ⟨t, s.setCaller_self t .pushed⟩))⟩

theorem Awake.quit (hs : s.Awake) (ht : s.MayCall t) : (s.quit t).Awake := by
  obtain ⟨hcaller, hcalling, hfunctors, hpending⟩ := hs.enter ht .quitting
  exact ⟨hcaller, hcalling, hfunctors, hpending⟩

/-- Whoever has pushed wakes the loop up, unless it is the thread of the loop and
    the loop has not swapped the pending functors out yet. -/
theorem Awake.finish_pushed (hs : s.Awake) (ht : s.caller t = .pushed) :
    s.phase = .events ∨ (s.finish t).woken = true := by
  rw [finish, ht]
  -- A functor runs with `callingPendingFunctors` set, so what it pushes wakes the loop up.
  by_cases heq : t = s.threadId
  · subst heq
    rcases hs.caller (by rw [ht]; exact Caller.noConfusion) with h | h
    · exact .inl h
    · have hcalling := hs.calling (.inr (.inr h))
      simp [hcalling, wakeUp]
  · simp [isInLoopThread, Ne.symm heq, wakeUp]

theorem Awake.finish (hs : s.Awake) (t : ThreadId) : (s.finish t).Awake := by
  have hpushed : s.caller t = .pushed → s.phase = .events ∨ (s.finish t).woken = true :=
    hs.finish_pushed
  rw [finish_eq]
  refine ⟨fun h => ?_, hs.calling, hs.functors, fun hne => ?_⟩
  · refine hs.caller fun hidle => h ?_
    by_cases heq : s.threadId = t
    · subst heq
      exact s.setCaller_self _ _
    · exact (s.setCaller_of_ne heq _).trans hidle
  -- If it was this thread that had pushed, its wake-up takes over.
  · rcases hs.pending hne with h | h | h | ⟨t', h⟩
    · exact .inl h
    · exact .inr (.inl h)
    · exact .inr (.inr (.inl (woken_finish h)))
    · by_cases heq : t' = t
      · subst heq
        rcases hpushed h with h | h
        · exact .inl h
        · exact .inr (.inr (.inl h))
      · exact .inr (.inr (.inr ⟨t', (s.setCaller_of_ne heq _).trans h⟩))

/-- The thread of the loop goes on with it. -/
theorem Awake.advance (hs : s.Awake) (hidle : s.caller s.threadId = .idle)
    (h : s.advance = some s') : s'.Awake := by
  have hpending := hs.pending
  have hcalling := hs.calling
  have hfunctors := hs.functors
  cases loopStep_of_advance h with
  | start hphase =>
    rw [hphase] at hpending hfunctors
    exact ⟨fun h => absurd hidle h, by simp, by simpa using hfunctors, by simpa using hpending⟩
  | head hphase =>
    rw [hphase] at hpending hfunctors
    refine ⟨fun h => absurd hidle h, ?_, ?_, ?_⟩ <;> by_cases hlooping : s.looping = true <;>
      simp_all
  | poll hphase =>
    rw [hphase] at hfunctors
    exact ⟨fun h => absurd hidle h, by simp, by simpa using hfunctors, fun _ => .inl rfl⟩
  | events hphase =>
    rw [hphase] at hfunctors
    exact ⟨fun h => absurd hidle h, fun _ => rfl, by simpa using hfunctors,
      fun _ => .inr (.inl rfl)⟩
  | swap hphase =>
    exact ⟨fun h => absurd hidle h, fun _ => hcalling (.inl hphase), fun _ => .inl rfl,
      fun h => absurd rfl h⟩
  | take hphase =>
    rw [hphase] at hpending
    exact ⟨fun h => absurd hidle h, fun _ => hcalling (.inr (.inl hphase)), fun _ => .inr rfl,
      by simpa using hpending⟩
  | done hphase hnil =>
    rw [hphase] at hpending
    exact ⟨fun h => absurd hidle h, by simp, fun h => absurd hnil h, by simpa using hpending⟩
  | functor hphase =>
    rw [hphase] at hpending
    exact ⟨fun h => absurd hidle h, fun _ => hcalling (.inr (.inr hphase)), fun _ => .inl rfl,
      by simpa using hpending⟩
  | expired hphase =>
    rw [hphase] at hpending hfunctors
    exact ⟨fun h => absurd hidle h, by simp, by simpa using hfunctors, by simpa using hpending⟩

theorem awake_of_reachable (hs : (system Functor).Reachable s) : s.Awake := by
  refine hs.invariant (fun s hs => ?_) fun s e s' _ hs _ hst => ?_
  · obtain ⟨t, rfl⟩ := hs
    exact awake_new t
  · cases hst with
    | push ht => exact hs.push ht _
    | quit ht => exact hs.quit ht
    | finish => exact hs.finish _
    | loop hidle h => exact hs.advance hidle h

end Awake

/-! ## Functors go through first in, first out -/

/-- The loop as a hand-over of functors. -/
def handOver (s : TaskLoop Functor) : Fifo.State Functor :=
  ⟨s.queued, s.functors ++ s.pendingFunctors, s.executed⟩

theorem handOver_finish (s : TaskLoop Functor) (t : ThreadId) :
    (s.finish t).handOver = s.handOver := by
  rw [finish_eq]
  rfl

/-- The thread of the loop takes a functor out, or moves functors. -/
theorem handOver_advance {s s' : TaskLoop Functor} (hs : s.Awake) (h : s.advance = some s') :
    ∃ es, (Fifo.system Functor).Steps s.handOver es s'.handOver := by
  cases loopStep_of_advance h with
  | start | head | poll | events | done | functor | expired => exact Fifo.steps_keep rfl
  | swap hphase =>
    -- The functors of the last round have all been run.
    have hfunctors : s.functors = [] := by
      by_contra hne
      have hrun := hs.functors hne
      simp [hphase] at hrun
    refine Fifo.steps_keep ?_
    simp [handOver, hfunctors]
  | take _ hcons =>
    refine Fifo.steps_take rfl ?_ rfl
    simp [handOver, hcons]

/-- The loop refines the hand-over of functors. -/
def refinement (Functor : Type*) :
    Refinement (system Functor) (Fifo.system Functor) fun _ _ => True where
  abs := handOver
  init s hs := by
    obtain ⟨t, rfl⟩ := hs
    rfl
  step s e s' hs _ hst := by
    cases hst with
    | push => exact Fifo.steps_put rfl (List.append_assoc _ _ _).symm rfl
    | quit => exact Fifo.steps_keep rfl
    | finish => exact Fifo.steps_keep (handOver_finish _ _)
    | loop _ h => exact handOver_advance (awake_of_reachable hs) h

/-- The functors executed, those swapped out and those pending are the ones that
    have been queued, in order. Where some are pending when the loop is about to
    block, the wake-up descriptor has been written to since `epoll_wait` last
    returned, or it will be by another thread that has just pushed one. -/
theorem handedOver_of_reachable {s : TaskLoop Functor} (hs : (system Functor).Reachable s) :
    s.executed ++ (s.functors ++ s.pendingFunctors) = s.queued ∧
      (s.phase = .poll → s.pendingFunctors ≠ [] →
        s.woken = true ∨ ∃ t, t ≠ s.threadId ∧ s.caller t = .pushed) := by
  refine ⟨Fifo.conserved ((refinement Functor).reachable hs), fun hphase hne => ?_⟩
  have hawake := awake_of_reachable hs
  have hpending := hawake.pending hne
  simp only [hphase, reduceCtorEq, false_or] at hpending
  refine hpending.imp_right fun ⟨t, ht⟩ => ⟨t, ?_, ht⟩
  -- The thread of the loop is not in a call when it blocks.
  rintro rfl
  have hcaller := hawake.caller (by simp [ht])
  simp [hphase] at hcaller

/-- A functor queued by another thread, the 5, has queued one in its turn. -/
theorem handedOver_of_reachable_functor :
    ∃ s : TaskLoop ℕ, s.phase = .poll ∧ s.executed = [1] ∧ s.pendingFunctors = [2] ∧
      s.executed ++ (s.functors ++ s.pendingFunctors) = s.queued ∧
      (s.phase = .poll → s.pendingFunctors ≠ [] →
        s.woken = true ∨ ∃ t, t ≠ s.threadId ∧ s.caller t = .pushed) := by
  obtain ⟨s, hs, hp⟩ := System.exists_reachableBy_of_any step_of_next
    (.init ⟨0, rfl⟩ : (system ℕ).Reachable (new 0))
    [.push 5 1, .finish 5, .loop, .loop, .loop, .loop, .loop, .loop, .push 0 2, .finish 0, .loop,
      .loop, .loop, .loop]
    (fun s => decide (s.phase = .poll ∧ s.executed = [1] ∧ s.pendingFunctors = [2]))
    (by decide +kernel)
  rw [decide_eq_true_eq] at hp
  exact ⟨s, hp.1, hp.2.1, hp.2.2, handedOver_of_reachable hs⟩

end TaskLoop

end Webserver
