import Webserver.Loop.TaskLoop

/-!
# Threads that run a loop

`threadFunc` makes a loop, publishes its address, releases the latch that
`threadStart` waits for, and runs the loop. Whoever has got the address may call
`quit` then, whether the loop has started or not.

* `EventLoopThread.Stopping`: the invariant behind the flag. Once it is cleared it
  stays cleared, unless `loop` sets it, and the loop is past its start.
* `EventLoopThread.quits_of_reachable`: so where no thread calls `quit` before `loop`
  has set the flag, the loop does not go back to wait once `quit` has returned.
* `EventLoopThread.exists_lost`: a call before that is lost.
-/

namespace Webserver

open Transition

/-- Where a thread is in `threadFunc`: before it publishes the address of its loop,
    before it counts the latch down, in `loop`, and after it. -/
inductive Stage
  | publish
  | countDown
  | loop
  | finished
  deriving DecidableEq

/-- An `EventLoopThread`, with the loop its thread has made. What `threadStart` has
    returned is `some true` if it was the address of the loop, and `some false` if it
    was null. Recorded are whether a call of `quit` has returned (`quitted`), and how
    often the loop has gone to wait since (`polls`). -/
structure EventLoopThread (Functor : Type*) where
  ownloop : Bool
  latch : ℕ
  stage : Stage
  loop : TaskLoop Functor
  returned : Option Bool
  quitted : Bool
  polls : ℕ

namespace EventLoopThread

variable {Functor : Type*}

/-- A thread that has just been created, and made its loop. -/
def new (threadId : ThreadId) : EventLoopThread Functor where
  ownloop := false
  latch := 1
  stage := .publish
  loop := .new threadId
  returned := none
  quitted := false
  polls := 0

/-! ## The thread and its owner -/

/-- The next step of `threadFunc` outside of `loop`. -/
def threadFunc (s : EventLoopThread Functor) : Option (EventLoopThread Functor) :=
  match s.stage with
  | .publish => some { s with ownloop := true, stage := .countDown }
  | .countDown => some { s with latch := s.latch - 1, stage := .loop }
  | .loop =>
    if s.loop.phase = .stopped then some { s with ownloop := false, stage := .finished } else none
  | .finished => none

/-- `threadStart` returns, as the latch has been released. -/
def threadStart (s : EventLoopThread Functor) : Option (EventLoopThread Functor) :=
  if s.latch = 0 ∧ s.returned = none then some { s with returned := some s.ownloop } else none

/-- A step of `loop`. -/
def advance (s : EventLoopThread Functor) (loop : TaskLoop Functor) : EventLoopThread Functor :=
  { s with
    loop := loop
    polls := if s.quitted = true ∧ loop.phase = .poll then s.polls + 1 else s.polls }

/-- A step of a thread in a call of the loop. -/
def call (s : EventLoopThread Functor) (loop : TaskLoop Functor) : EventLoopThread Functor :=
  { s with loop := loop }

/-- A thread returns from a call of the loop. -/
def leave (s : EventLoopThread Functor) (t : ThreadId) (loop : TaskLoop Functor) :
    EventLoopThread Functor :=
  { s with loop := loop, quitted := s.quitted || decide (s.loop.caller t = .quitting) }

/-! ## Runs -/

inductive Event (Functor : Type*)
  | threadFunc
  | threadStart
  | push (t : ThreadId) (cb : Functor)
  | quit (t : ThreadId)
  | finish (t : ThreadId)
  | loop

/-- The steps of the thread, and of the threads that have the address of its loop. -/
inductive Step : EventLoopThread Functor → Event Functor → EventLoopThread Functor → Prop
  | threadFunc {s s' : EventLoopThread Functor} :
      s.threadFunc = some s' → Step s .threadFunc s'
  | threadStart {s s' : EventLoopThread Functor} :
      s.threadStart = some s' → Step s .threadStart s'
  | push {s : EventLoopThread Functor} {t : ThreadId} {cb : Functor} {loop : TaskLoop Functor} :
      s.returned = some true → TaskLoop.Step s.loop (.push t cb) loop →
      Step s (.push t cb) (s.call loop)
  | quit {s : EventLoopThread Functor} {t : ThreadId} {loop : TaskLoop Functor} :
      s.returned = some true → TaskLoop.Step s.loop (.quit t) loop → Step s (.quit t) (s.call loop)
  | finish {s : EventLoopThread Functor} {t : ThreadId} {loop : TaskLoop Functor} :
      TaskLoop.Step s.loop (.finish t) loop → Step s (.finish t) (s.leave t loop)
  | loop {s : EventLoopThread Functor} {loop : TaskLoop Functor} :
      s.stage = .loop → TaskLoop.Step s.loop .loop loop → Step s .loop (s.advance loop)

/-- The state an event leads to. -/
def next (s : EventLoopThread Functor) : Event Functor → Option (EventLoopThread Functor)
  | .threadFunc => s.threadFunc
  | .threadStart => s.threadStart
  | .push t cb => if s.returned = some true then (s.loop.next (.push t cb)).map s.call else none
  | .quit t => if s.returned = some true then (s.loop.next (.quit t)).map s.call else none
  | .finish t => (s.loop.next (.finish t)).map (s.leave t)
  | .loop => if s.stage = .loop then (s.loop.next .loop).map s.advance else none

theorem step_of_next (s : EventLoopThread Functor) (e : Event Functor)
    (s' : EventLoopThread Functor) (h : s.next e = some s') : Step s e s' := by
  cases e with
  | threadFunc => exact .threadFunc h
  | threadStart => exact .threadStart h
  | push t cb =>
    obtain ⟨hreturned, h⟩ := Option.ite_none_right_eq_some.1 h
    obtain ⟨loop, hloop, rfl⟩ := Option.map_eq_some_iff.1 h
    exact .push hreturned (TaskLoop.step_of_next _ _ _ hloop)
  | quit t =>
    obtain ⟨hreturned, h⟩ := Option.ite_none_right_eq_some.1 h
    obtain ⟨loop, hloop, rfl⟩ := Option.map_eq_some_iff.1 h
    exact .quit hreturned (TaskLoop.step_of_next _ _ _ hloop)
  | finish t =>
    obtain ⟨loop, hloop, rfl⟩ := Option.map_eq_some_iff.1 h
    exact .finish (TaskLoop.step_of_next _ _ _ hloop)
  | loop =>
    obtain ⟨hstage, h⟩ := Option.ite_none_right_eq_some.1 h
    obtain ⟨loop, hloop, rfl⟩ := Option.map_eq_some_iff.1 h
    exact .loop hstage (TaskLoop.step_of_next _ _ _ hloop)

/-- The runs of a thread with a loop, and any number of threads that call it. -/
def system (Functor : Type*) : System (EventLoopThread Functor) (Event Functor) where
  init := Set.range new
  step := Step

/-- Once `quit` has returned, the flag is clear, the loop has not gone to wait again,
    and if it has not come back from waiting yet, it has been woken up. -/
structure Quits (s : EventLoopThread Functor) : Prop where
  looping : s.quitted = true → s.loop.looping = false
  polls : s.polls = 0
  woken : s.quitted = true → s.loop.phase = .poll → s.loop.woken = true

/-- The condition on the steps of a run: `quit` is called after `loop` has set the
    flag. -/
def AfterStart (s : EventLoopThread Functor) : Event Functor → Prop
  | .quit _ => s.loop.phase ≠ .start
  | _ => True

instance (s : EventLoopThread Functor) (e : Event Functor) : Decidable (AfterStart s e) :=
  match e with
  | .quit _ => inferInstanceAs (Decidable (_ ≠ _))
  | .threadFunc => isTrue trivial
  | .threadStart => isTrue trivial
  | .push _ _ => isTrue trivial
  | .finish _ => isTrue trivial
  | .loop => isTrue trivial

/-! ## The flag -/

/-- Once a call of `quit` has cleared the flag, it is clear, and `loop` will not set
    it again. -/
structure Stopping (s : EventLoopThread Functor) : Prop where
  flag : (s.quitted = true ∨ ∃ t, s.loop.caller t = .quitting) →
    s.loop.looping = false ∧ s.loop.phase ≠ .start
  polls : s.polls = 0
  woken : s.quitted = true → s.loop.phase = .poll → s.loop.woken = true

variable {s s' : EventLoopThread Functor} {loop : TaskLoop Functor} {t : ThreadId}

/-- What a step of `loop` does to the flag. It is only read where the loop goes to
    wait. -/
theorem flag_of_advance {l l' : TaskLoop Functor} (h : l.advance = some l') :
    l'.caller = l.caller ∧ l'.phase ≠ .start ∧ (l.phase ≠ .start → l'.looping = l.looping) ∧
      (l'.phase = .poll → l.looping = true) := by
  cases TaskLoop.loopStep_of_advance h with
  | start hphase => exact ⟨rfl, Phase.noConfusion, fun h => absurd hphase h, Phase.noConfusion⟩
  | head => cases l.looping <;> simp
  | poll | events | swap | take | done | functor | expired =>
    exact ⟨rfl, Phase.noConfusion, fun _ => rfl, Phase.noConfusion⟩

theorem Stopping.same (hs : s.Stopping) (hloop : s'.loop = s.loop)
    (hquitted : s'.quitted = s.quitted) (hpolls : s'.polls = s.polls) : s'.Stopping := by
  refine ⟨?_, hpolls.trans hs.polls, ?_⟩
  · rw [hloop, hquitted]
    exact hs.flag
  · rw [hloop, hquitted]
    exact hs.woken

/-- Whoever is in a call of `quit` after a thread has entered or left another call
    was so before. -/
theorem quitting_of_setCaller {l : TaskLoop Functor} {c : Caller} (hc : c ≠ .quitting)
    (h : ∃ t', (l.setCaller t c).caller t' = .quitting) : ∃ t', l.caller t' = .quitting := by
  obtain ⟨t', ht'⟩ := h
  by_cases heq : t' = t
  · subst heq
    rw [l.setCaller_self] at ht'
    exact absurd ht' hc
  · rw [l.setCaller_of_ne heq] at ht'
    exact ⟨t', ht'⟩

theorem Stopping.push (hs : s.Stopping) (t : ThreadId) (cb : Functor) :
    (s.call (s.loop.push t cb)).Stopping :=
  ⟨fun h => hs.flag (h.imp_right (quitting_of_setCaller Caller.noConfusion)), hs.polls, hs.woken⟩

theorem Stopping.quit (hs : s.Stopping) (t : ThreadId) (hphase : s.loop.phase ≠ .start) :
    (s.call (s.loop.quit t)).Stopping :=
  ⟨fun _ => ⟨rfl, hphase⟩, hs.polls, hs.woken⟩

/-- A thread that has cleared the flag wakes the loop up, if it is another one. -/
theorem Stopping.finish (hs : s.Stopping) (hawake : s.loop.Awake) (t : ThreadId) :
    (s.leave t (s.loop.finish t)).Stopping := by
  have hfinish := s.loop.finish_eq t
  have hsame : (s.loop.finish t).phase = s.loop.phase ∧
      (s.loop.finish t).looping = s.loop.looping := by
    rw [hfinish]
    exact ⟨rfl, rfl⟩
  -- Who has returned from `quit` had been in it.
  have hquitted : (s.leave t (s.loop.finish t)).quitted = true →
      s.quitted = true ∨ s.loop.caller t = .quitting := by
    intro h
    rwa [leave, Bool.or_eq_true, decide_eq_true_eq] at h
  refine ⟨fun h => ?_, hs.polls, fun h hphase => ?_⟩
  · have hold : s.quitted = true ∨ ∃ t', s.loop.caller t' = .quitting := by
      rcases h with h | h
      · exact (hquitted h).imp_right fun h => ⟨t, h⟩
      · rw [leave, hfinish] at h
        exact .inr (quitting_of_setCaller Caller.noConfusion h)
    rw [leave, hsame.1, hsame.2]
    exact hs.flag hold
  · have hphase : s.loop.phase = .poll := hsame.1.symm.trans hphase
    rcases hquitted h with h | h
    · exact TaskLoop.woken_finish (hs.woken h hphase)
    · -- The thread of the loop would be in a callback or a functor.
      have hne : s.loop.threadId ≠ t := by
        intro heq
        rcases hawake.caller (by rw [heq, h]; exact Caller.noConfusion) with hcaller | hcaller
        · cases hphase.symm.trans hcaller
        · cases hphase.symm.trans hcaller
      simp [leave, TaskLoop.finish, h, TaskLoop.isInLoopThread, hne, TaskLoop.wakeUp]

theorem Stopping.advance (hs : s.Stopping) (h : s.loop.advance = some loop) :
    (s.advance loop).Stopping := by
  obtain ⟨hcaller, hstart, hlooping, hpoll⟩ := flag_of_advance h
  -- With the flag clear, the loop does not go to wait.
  have hstop : s.quitted = true → loop.phase ≠ .poll := by
    intro hquitted hphase
    have hflag := (hs.flag (.inl hquitted)).1
    rw [hpoll hphase] at hflag
    cases hflag
  refine ⟨fun hquit => ?_, ?_, fun hquitted hphase => absurd hphase (hstop hquitted)⟩
  · have hold : s.quitted = true ∨ ∃ t, s.loop.caller t = .quitting := by
      rw [← hcaller]
      exact hquit
    obtain ⟨hflag, hphase⟩ := hs.flag hold
    exact ⟨(hlooping hphase).trans hflag, hstart⟩
  · have hnot : ¬(s.quitted = true ∧ loop.phase = .poll) := fun h => hstop h.1 h.2
    exact (if_neg hnot).trans hs.polls

/-- The steps outside of the loop leave it alone. -/
theorem threadFunc_same (h : s.threadFunc = some s') :
    s'.loop = s.loop ∧ s'.quitted = s.quitted ∧ s'.polls = s.polls := by
  rw [threadFunc] at h
  split at h
  · cases h
    exact ⟨rfl, rfl, rfl⟩
  · cases h
    exact ⟨rfl, rfl, rfl⟩
  · split at h <;> cases h
    exact ⟨rfl, rfl, rfl⟩
  · cases h

theorem threadStart_same (h : s.threadStart = some s') :
    s'.loop = s.loop ∧ s'.quitted = s.quitted ∧ s'.polls = s.polls := by
  rw [threadStart] at h
  split at h <;> cases h
  exact ⟨rfl, rfl, rfl⟩

/-- The loop goes through the steps of a loop. -/
theorem loop_reachable (hs : (system Functor).Reachable s) :
    (TaskLoop.system Functor).Reachable s.loop := by
  refine System.ReachableBy.invariant (S := system Functor)
    (I := fun s => (TaskLoop.system Functor).Reachable s.loop) (fun s hs => ?_)
    (fun s e s' _ hs _ hst => ?_) hs
  · obtain ⟨t, rfl⟩ := hs
    exact .init ⟨t, rfl⟩
  · cases hst with
    | threadFunc h =>
      rw [(threadFunc_same h).1]
      exact hs
    | threadStart h =>
      rw [(threadStart_same h).1]
      exact hs
    | push _ h => exact .step hs trivial h
    | quit _ h => exact .step hs trivial h
    | finish h => exact .step hs trivial h
    | loop _ h => exact .step hs trivial h

theorem stopping_of_reachable (hs : (system Functor).ReachableBy AfterStart s) : s.Stopping := by
  refine System.ReachableBy.invariant (S := system Functor) (I := Stopping) (fun s hs => ?_)
    (fun s e s' hreach hs hok hst => ?_) hs
  · obtain ⟨t, rfl⟩ := hs
    constructor <;> simp [new, TaskLoop.new]
  · have hawake := TaskLoop.awake_of_reachable (loop_reachable hreach.reachable)
    cases hst with
    | threadFunc h =>
      obtain ⟨hloop, hquitted, hpolls⟩ := threadFunc_same h
      exact hs.same hloop hquitted hpolls
    | threadStart h =>
      obtain ⟨hloop, hquitted, hpolls⟩ := threadStart_same h
      exact hs.same hloop hquitted hpolls
    | push _ h =>
      cases h
      exact hs.push _ _
    | quit _ h =>
      cases h
      exact hs.quit _ hok
    | finish h =>
      cases h
      exact hs.finish hawake _
    | loop _ h =>
      cases h with
      | loop _ h => exact hs.advance h

/-- Where `quit` is called after `loop` has set the flag, it is not lost: the flag
    stays clear, and the loop does not go back to wait. -/
theorem quits_of_reachable (hs : (system Functor).ReachableBy AfterStart s) : s.Quits := by
  obtain ⟨hflag, hpolls, hwoken⟩ := stopping_of_reachable hs
  exact ⟨fun h => (hflag (.inl h)).1, hpolls, hwoken⟩

/-- The loop is left after a call from another thread while it waits. -/
theorem quits_of_reachable_waiting :
    ∃ s : EventLoopThread ℕ, s.quitted = true ∧ s.loop.phase = .stopped ∧ s.Quits := by
  obtain ⟨s, hs, hp⟩ := System.exists_reachableBy_of_any step_of_next
    (.init ⟨0, rfl⟩ : (system ℕ).ReachableBy AfterStart (new 0))
    [.threadFunc, .threadFunc, .threadStart, .loop, .loop, .quit 5, .finish 5, .loop, .loop, .loop,
      .loop, .loop, .loop]
    (fun s => decide (s.quitted = true ∧ s.loop.phase = .stopped)) (by decide +kernel)
  rw [decide_eq_true_eq] at hp
  exact ⟨s, hp.1, hp.2, quits_of_reachable hs⟩

/-! ## Calls that are lost -/

/-- The latch is released before `loop`, which `threadFunc` does not leave early. -/
structure Released (s : EventLoopThread Functor) : Prop where
  latch : s.latch = 0 → s.stage = .loop ∨ s.stage = .finished
  returned : s.returned ≠ none → s.latch = 0
  finished : s.stage = .finished → s.loop.phase = .stopped

theorem Released.threadFunc (hs : s.Released) (h : s.threadFunc = some s') : s'.Released := by
  obtain ⟨hlatch, hreturned, hfinished⟩ := hs
  rw [EventLoopThread.threadFunc] at h
  split at h
  · next hstage =>
    cases h
    rw [hstage] at hlatch
    exact ⟨fun h => by simpa using hlatch h, hreturned, fun h => by cases h⟩
  · next hstage =>
    cases h
    refine ⟨fun _ => .inl rfl, fun h => ?_, fun h => by cases h⟩
    rw [hstage] at hlatch
    simpa using hlatch (hreturned h)
  · split at h <;> cases h
    next hphase => exact ⟨fun _ => .inr rfl, hreturned, fun _ => hphase⟩
  · cases h

theorem released_of_reachable (hs : (system Functor).Reachable s) : s.Released := by
  refine System.ReachableBy.invariant (S := system Functor) (I := Released) (fun s hs => ?_)
    (fun s e s' _ hs _ hst => ?_) hs
  · obtain ⟨t, rfl⟩ := hs
    constructor <;> simp [new]
  · cases hst with
    | threadFunc h => exact hs.threadFunc h
    | threadStart h =>
      rw [threadStart] at h
      split at h <;> cases h
      next hlatch => exact ⟨hs.latch, fun _ => hlatch.1, hs.finished⟩
    | push _ h =>
      cases h
      exact ⟨hs.latch, hs.returned, hs.finished⟩
    | quit _ h =>
      cases h
      exact ⟨hs.latch, hs.returned, hs.finished⟩
    | finish h =>
      cases h
      refine ⟨hs.latch, hs.returned, fun h => ?_⟩
      rw [leave, TaskLoop.finish_eq]
      exact hs.finished h
    | loop hstage _ => exact ⟨hs.latch, hs.returned, fun h => by cases hstage.symm.trans h⟩

/-- Wherever the condition is not met, a call of `quit` can be lost: it is if `loop`
    starts right after it. -/
theorem exists_lost (hs : (system Functor).Reachable s) (hreturned : s.returned = some true)
    (ht : s.loop.MayCall t) (hphase : s.loop.phase = .start) :
    ∃ s', (system Functor).Steps s [.quit t, .finish t, .loop] s' ∧ ¬s'.Quits := by
  have hreleased := released_of_reachable hs
  have hstage : s.stage = .loop := by
    rcases hreleased.latch (hreleased.returned (by simp [hreturned])) with h | h
    · exact h
    · cases hphase.symm.trans (hreleased.finished h)
  have hne : t ≠ s.loop.threadId := by
    intro h
    rcases ht.2 h with h | h <;> cases hphase.symm.trans h
  -- The thread of the loop has not called anything yet.
  have hidle : s.loop.caller s.loop.threadId = .idle := by
    by_contra h
    rcases (TaskLoop.awake_of_reachable (loop_reachable hs)).caller h with h | h <;>
      cases hphase.symm.trans h
  let s₁ := s.call (s.loop.quit t)
  let s₂ := s₁.leave t (s₁.loop.finish t)
  have hcaller : s₁.loop.caller t = .quitting := s.loop.setCaller_self t .quitting
  have hfinish := s₁.loop.finish_eq t
  have hphase₂ : s₂.loop.phase = .start := by
    change (s₁.loop.finish t).phase = .start
    rw [hfinish]
    exact hphase
  have hidle₂ : s₂.loop.caller s₂.loop.threadId = .idle := by
    change (s₁.loop.finish t).caller (s₁.loop.finish t).threadId = .idle
    rw [hfinish]
    exact ((s₁.loop.setCaller_of_ne hne.symm .idle).trans
      (s.loop.setCaller_of_ne hne.symm .quitting)).trans hidle
  have hstart : s₂.loop.advance = some { s₂.loop with looping := true, phase := .head } := by
    rw [TaskLoop.advance, hphase₂]
  have hsteps : (system Functor).Steps s [.quit t, .finish t, .loop] (s₂.advance _) :=
    .cons (.quit hreturned (.quit ht))
      (.cons (.finish (.finish (by rw [hcaller]; exact Caller.noConfusion)))
        (.cons (.loop hstage (.loop hidle₂ hstart)) .nil))
  refine ⟨_, hsteps, fun hquits => ?_⟩
  have hquitted : s₂.quitted = true := by simp [s₂, leave, hcaller]
  cases hquits.looping hquitted

/-- Between `threadStart` and the start of `loop`, a call of `quit` is undone, and
    the loop goes back to wait: what has woken it up is gone after one iteration. -/
theorem not_quits_of_early :
    ¬∀ s : EventLoopThread ℕ, (system ℕ).Reachable s → s.Quits := by
  intro hall
  obtain ⟨s, hs, hp⟩ := System.exists_reachableBy_of_any step_of_next
    (.init ⟨0, rfl⟩ : (system ℕ).Reachable (new 0))
    [.threadFunc, .threadFunc, .threadStart, .quit 5, .finish 5, .loop, .loop, .loop, .loop, .loop,
      .loop, .loop, .loop]
    (fun s => decide (s.quitted = true ∧ s.loop.phase = .poll ∧ s.loop.woken = false))
    (by decide +kernel)
  rw [decide_eq_true_eq] at hp
  obtain ⟨hquitted, hphase, hwoken⟩ := hp
  cases hwoken.symm.trans ((hall s hs).woken hquitted hphase)

end EventLoopThread

end Webserver
