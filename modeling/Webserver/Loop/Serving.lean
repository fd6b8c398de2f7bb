import Webserver.Loop.Server
import Mathlib.Data.List.Range

/-!
# Runs of the server

What holds in every state that the threads of the server get to together, whatever
the order of their steps.

* `Server.component_of_reachable`: every loop is in a state that it gets to by itself.
* `Server.lives_of_reachable`: a descriptor is handed over to one loop, registered
  there and closed, once each; no other one is open, except those left over.
* `Server.inTurn_of_reachable`: connections go to the loops in turn, each of which
  registers them in the order they were accepted in.
* `Server.sound_of_reachable`: no assertion of the poller fails, and events are handled
  for registered connections only.
* `Server.registers_of_reachable`: a loop registers all that it has been handed, in one
  iteration and without the help of another thread.
* `Server.steps_of_acceptLoop`: `handleNewConn` is a run of the main thread.
-/

namespace Webserver

open Transition

namespace Server

variable {s s' : Server} {l l' : LoopId} {w w' : ServerLoop} {threadnum : ℕ} {created : ℕ → Bool}

/-! ## An iteration of a loop -/

/-- The thread of a loop goes on. -/
theorem exists_loop (hs : s.Inv) (hw : s.loops l = w)
    (hidle : w.task.caller w.task.threadId = .idle) (hstep : w.Step w') :
    ∃ s', Step s (.loop l) s' ∧ s'.loops l = w' ∧ s'.Inv := by
  subst hw
  have hst : Step s (.loop l) (s.act l w') := .loop hidle hstep
  exact ⟨_, hst, act_loops_self, hs.step hst⟩

/-- The loop runs the functors that it has swapped out. -/
theorem exists_run (hs : s.Inv) (hidle : (s.loops l).task.caller (s.loops l).task.threadId = .idle)
    (hphase : (s.loops l).task.phase = .run) :
    ∃ s', (system threadnum created).Steps s
        (.replicate (2 * (s.loops l).task.functors.length) (.loop l)) s' ∧
      (s'.loops l).task.functors = [] ∧
      (s'.loops l).task.pendingFunctors = (s.loops l).task.pendingFunctors ∧
      ∀ fd, fd ∈ (s.loops l).task.functors ∨ s.At fd (.registered l) →
        s'.At fd (.registered l) := by
  induction hfunctors : (s.loops l).task.functors generalizing s with
  | nil => exact ⟨s, .nil, hfunctors, rfl, fun fd h => h.resolve_left List.not_mem_nil⟩
  | cons fd functors ih =>
    have hwaiting : fd ∈ (s.loops l).waiting := by
      rw [ServerLoop.waiting, hfunctors]
      exact List.mem_cons_self
    obtain ⟨r, hr⟩ := Registry.exists_newEvent (Registry.inv_of_calls (hs.registry l))
      (Registry.matches_of_calls (hs.registry l)) (hs.unused hwaiting).2 none 0 0 ⟨0, 0⟩
    obtain ⟨hhttpdatas, -, -⟩ := Registry.httpdatas_of_newEvent hr
    -- The functor is taken out and run, and the loop goes on to the next one.
    obtain ⟨s₁, hst₁, hw₁, hs₁⟩ := exists_loop hs rfl hidle (.newEvent none 0 0 ⟨0, 0⟩ hphase
      hfunctors (by rw [TaskLoop.advance, hphase]; simp only [hfunctors]; rfl) hr)
    obtain ⟨s₂, hst₂, hw₂, hs₂⟩ := exists_loop hs₁ hw₁ hidle (.turn trivial rfl)
    obtain ⟨s', hsteps, hnil, hpending, hregistered⟩ := ih hs₂
      (by rw [hw₂]; exact hidle) (by rw [hw₂]) (by rw [hw₂])
    refine ⟨s', ?_, hnil, by rw [hpending, hw₂], fun fd' hfd' => ?_⟩
    · rw [List.length_cons, Nat.mul_succ, List.replicate_succ, List.replicate_succ]
      exact .cons hst₁ (.cons hst₂ hsteps)
    · refine hregistered fd' ?_
      rw [At, hw₂, hhttpdatas]
      by_cases heq : fd' = fd
      · exact .inr ⟨_, by rw [heq, Function.update_self]⟩
      · rw [Function.update_of_ne heq]
        exact hfd'.imp_left fun h => (List.mem_cons.1 h).resolve_left heq

/-- A loop at the head of its body that goes on registers every connection that has been
    handed over to it. -/
theorem exists_iteration (hs : s.Inv) (hphase : (s.loops l).task.phase = .head)
    (hlooping : (s.loops l).task.looping = true) :
    ∃ s', (system threadnum created).Steps s
        (.replicate (2 * (s.loops l).waiting.length + 4) (.loop l)) s' ∧
      (s'.loops l).waiting = [] ∧
      ∀ fd ∈ (s.loops l).waiting, s'.At fd (.registered l) := by
  have hawake := TaskLoop.awake_of_reachable (hs.task l)
  have hidle : (s.loops l).task.caller (s.loops l).task.threadId = .idle := by
    by_contra hne
    simpa [hphase] using hawake.caller hne
  have hfunctors : (s.loops l).task.functors = [] := by
    by_contra hne
    simpa [hphase] using hawake.functors hne
  have hactive := hs.activeChannels_eq_nil (l := l) (by rw [hphase]; exact Phase.noConfusion)
  have hwaiting : (s.loops l).waiting = (s.loops l).task.pendingFunctors := by
    rw [ServerLoop.waiting, hfunctors, List.nil_append]
  -- Nothing is reported, so that the pending functors are swapped out next.
  obtain ⟨s₁, hst₁, hw₁, hs₁⟩ := exists_loop hs rfl hidle (.turn
    (by rw [ServerLoop.Turns, hphase]; trivial) (by rw [TaskLoop.advance, hphase, hlooping]))
  obtain ⟨s₂, hst₂, hw₂, hs₂⟩ := exists_loop hs₁ hw₁ hidle
    (.poll rfl rfl (ServerLoop.reports_nil _))
  obtain ⟨s₃, hst₃, hw₃, hs₃⟩ := exists_loop hs₂ hw₂ hidle (.turn rfl rfl)
  obtain ⟨s₄, hst₄, hw₄, hs₄⟩ := exists_loop hs₃ hw₃ hidle (.turn trivial rfl)
  obtain ⟨s', hsteps, hnil, hpending, hregistered⟩ := exists_run hs₄
    (by rw [hw₄]; exact hidle) (by rw [hw₄])
  rw [hw₄] at hsteps hpending
  refine ⟨s', ?_, ?_, fun fd hfd => hregistered fd (.inl ?_)⟩
  · rw [hwaiting]
    exact .cons hst₁ (.cons hst₂ (.cons hst₃ (.cons hst₄ hsteps)))
  · rw [ServerLoop.waiting, hnil, hpending]
    rfl
  · rw [hw₄]
    exact hwaiting ▸ hfd

/-! ## Some runs -/

/-- The threads of the server: the main thread is `0`. -/
def threadIds : LoopId → ThreadId
  | .owner => 0
  | .worker n => n + 1

/-- A connection on the descriptor 7 waits in the first loop of the pool. -/
theorem exists_waiting : ∃ s, (system 4 fun _ => true).Reachable s ∧
    (s.loops (.worker 0)).task.phase = .head ∧ (s.loops (.worker 0)).task.looping = true ∧
      (s.loops (.worker 0)).waiting = [7] := by
  have h₀ : (system 4 fun _ => true).Reachable (start 4 (fun _ => true) threadIds) :=
    .init ⟨threadIds, rfl⟩
  have h₁ := System.ReachableBy.step h₀ trivial
    (.accept (l := .worker 0) (by decide : 0 < 7) (by decide) (fun h => h) rfl
      ⟨rfl, fun h => by cases h⟩)
  have h₂ := System.ReachableBy.step h₁ trivial
    (.finish (l := .worker 0) (t := 0) Caller.noConfusion)
  have h₃ := System.ReachableBy.step h₂ trivial (.loop (l := .worker 0) rfl (.turn trivial rfl))
  exact ⟨_, h₃, rfl, rfl, rfl⟩

/-- It is registered there. -/
theorem exists_registered :
    ∃ s, (system 4 fun _ => true).Reachable s ∧ s.At 7 (.registered (.worker 0)) := by
  obtain ⟨s, hs, hphase, hlooping, hwaiting⟩ := exists_waiting
  obtain ⟨s', hsteps, -, hregistered⟩ := exists_iteration (inv_of_reachable hs) hphase hlooping
  exact ⟨s', System.Reachable.steps hs hsteps, hregistered 7 (by rw [hwaiting]; decide)⟩

/-- Whatever the other threads have done, a loop that goes on registers, in its next
    iteration and by itself, all connections that it has been handed. -/
theorem registers_of_reachable (hs : (system threadnum created).Reachable s)
    (hphase : (s.loops l).task.phase = .head) (hlooping : (s.loops l).task.looping = true) :
    ∃ s', (system threadnum created).Steps s
        (.replicate (2 * (s.loops l).waiting.length + 4) (.loop l)) s' ∧
      (s'.loops l).waiting = [] ∧
      ∀ fd ∈ (s.loops l).waiting, s'.At fd (.registered l) :=
  exists_iteration (inv_of_reachable hs) hphase hlooping

theorem registers_of_reachable_waiting :
    ∃ s s', (system 4 fun _ => true).Reachable s ∧
      (system 4 fun _ => true).Steps s (.replicate 6 (.loop (.worker 0))) s' ∧
      s'.At 7 (.registered (.worker 0)) := by
  obtain ⟨s, hs, hphase, hlooping, hwaiting⟩ := exists_waiting
  obtain ⟨s', hsteps, -, hregistered⟩ := registers_of_reachable hs hphase hlooping
  rw [hwaiting] at hsteps hregistered
  exact ⟨s, s', hs, hsteps, hregistered 7 List.mem_cons_self⟩

/-! ## The loops by themselves -/

/-- The loop of every thread behaves as if there were no other: what it is handed over
    could have come from any threads, and the descriptors it registers are ones that no
    connection of the loop has. -/
theorem component_of_reachable (hs : (system threadnum created).Reachable s) (l : LoopId) :
    (TaskLoop.system Fd).Reachable (s.loops l).task ∧
      (Registry.calls Registry.Reported).Reachable (s.loops l).registry :=
  ⟨(inv_of_reachable hs).task l, (inv_of_reachable hs).registry l⟩

theorem component_of_reachable_registered :
    ∃ s, (system 4 fun _ => true).Reachable s ∧ s.At 7 (.registered (.worker 0)) ∧
      (TaskLoop.system Fd).Reachable (s.loops (.worker 0)).task ∧
        (Registry.calls Registry.Reported).Reachable (s.loops (.worker 0)).registry := by
  obtain ⟨s, hs, hregistered⟩ := exists_registered
  exact ⟨s, hs, hregistered, component_of_reachable hs _⟩

/-! ## The life of descriptors -/

/-- At any time, the descriptors are at some stage of their lives: at each place of the
    server, there are exactly those whose life says so, and no others are open. -/
theorem lives_of_reachable (hs : (system threadnum created).Reachable s) :
    ∃ f, Life.system.Reachable f ∧ s.Lives f := (inv_of_reachable hs).lives

theorem lives_of_reachable_registered :
    ∃ s, (system 4 fun _ => true).Reachable s ∧ s.At 7 (.registered (.worker 0)) ∧
      ∃ f, Life.system.Reachable f ∧ s.Lives f := by
  obtain ⟨s, hs, hregistered⟩ := exists_registered
  exact ⟨s, hs, hregistered, lives_of_reachable hs⟩

/-! ## No assertion of the poller fails -/

/-- No assertion of `addChannel`, `updateChannel` and `removeChannel` fails, in any loop: new
    connections are registered and expired ones removed, and the connections that events are
    handled for are there. Nothing is said of the assertion of `handleNewConn`, which fails if
    the thread of the loop could not be created. -/
theorem sound_of_reachable (hs : (system threadnum created).Reachable s) (l : LoopId) :
    (∀ fd functors method events revents now, (s.loops l).task.functors = fd :: functors →
      ∃ r, (s.loops l).registry.newEvent fd method events revents now = .ok r) ∧
    (∀ id revents, (id, revents) ∈ (s.loops l).activeChannels →
      (s.loops l).registry.Kept id ∧ ∀ fs reads writes now fault,
        (s.loops l).registry.handleEvents fs id revents reads writes now = .error fault →
          fault.Thrown) ∧
    ∀ top clock, ∃ r, (s.loops l).registry.handleExpired top clock = .ok r := by
  have hinv := inv_of_reachable hs
  have hregistry := Registry.inv_of_calls (hinv.registry l)
  have hmatches := Registry.matches_of_calls (hinv.registry l)
  refine ⟨fun fd functors method events revents now hcons => ?_, fun id revents hid => ?_,
    fun top clock => ?_⟩
  · have hwaiting : fd ∈ (s.loops l).waiting := by
      rw [ServerLoop.waiting, hcons]
      exact List.mem_cons_self
    exact Registry.exists_newEvent hregistry hmatches (hinv.unused hwaiting).2 method events
      revents now
  · obtain ⟨fd, hfd⟩ := (hinv.active l).registered _ hid
    exact ⟨.inl ⟨fd, (hregistry.consistent.registered fd id).1 hfd⟩,
      fun fs reads writes now fault h => Registry.thrown_of_handleEvents hregistry hmatches hfd h⟩
  · obtain ⟨r, hr, -⟩ := Registry.exists_handleExpired hregistry hmatches top clock
    exact ⟨r, hr⟩

theorem sound_of_reachable_registered :
    ∃ s, (system 4 fun _ => true).Reachable s ∧ s.At 7 (.registered (.worker 0)) ∧
      ∀ top clock, ∃ r, (s.loops (.worker 0)).registry.handleExpired top clock = .ok r := by
  obtain ⟨s, hs, hregistered⟩ := exists_registered
  exact ⟨s, hs, hregistered, (sound_of_reachable hs _).2.2⟩

/-! ## Connections are registered in the order they were accepted in -/

/-- The descriptors handed over to a loop, in order. -/
def handedTo (s : Server) (l : LoopId) : List Fd :=
  (s.handed.filter fun p => p.1 = l).map Prod.snd

/-- The descriptors of the connections made in a loop, in order. -/
def madeIn (s : Server) (l : LoopId) : List (Option Fd) :=
  (List.range (s.loops l).registry.nextId).map (s.loops l).registry.fdOf

/-- The loop whose turn it is. -/
def turnOf (threadnum i : ℕ) : LoopId := if threadnum = 0 then .owner else .worker (i % threadnum)

/-- What is recorded of the functors of a loop. -/
structure Recorded (s : Server) (l : LoopId) : Prop where
  queued : (s.loops l).task.queued = s.handedTo l
  executed : s.madeIn l = (s.loops l).task.executed.map some

theorem handedTo_dispatch (s : Server) (l l' : LoopId) (pool : EventLoopThreadPool) (fd : Fd) :
    (s.dispatch l pool fd).handedTo l' = s.handedTo l' ++ if l = l' then [fd] else [] := by
  rw [handedTo, dispatch, List.filter_append, List.map_append]
  split
  · next h => simp [handedTo, h]
  · next h => simp [handedTo, h]

/-- A loop that another one leaves alone. -/
theorem Recorded.of_loops (hs : s.Recorded l) (hloops : s'.loops l = s.loops l)
    (hhanded : s'.handedTo l = s.handedTo l) : s'.Recorded l :=
  ⟨by rw [hloops, hhanded, hs.queued], by rw [madeIn, hloops, ← hs.executed, madeIn]⟩

theorem Recorded.setTask (hs : s.Recorded l) {task : TaskLoop Fd}
    (hqueued : task.queued = (s.loops l).task.queued)
    (hexecuted : task.executed = (s.loops l).task.executed) : (s.setTask l task).Recorded l := by
  refine ⟨?_, ?_⟩
  · rw [setTask_loops_self, hqueued]
    exact hs.queued
  · rw [madeIn, setTask_loops_self, hexecuted]
    exact hs.executed

/-- The thread of a loop makes a connection for each functor it takes out. -/
theorem Recorded.loop (hs : s.Recorded l) (hinv : s.Inv) (hstep : (s.loops l).Step w) :
    (s.act l w).Recorded l := by
  have hawake := TaskLoop.awake_of_reachable (hinv.task l)
  have hregistry := Registry.inv_of_calls (hinv.registry l)
  have hqueued := hs.queued
  have hexecuted := hs.executed
  -- Where no functor is taken out, no connection is made.
  have hsame : w.task.queued = (s.loops l).task.queued →
      w.task.executed = (s.loops l).task.executed →
      w.registry.fdOf = (s.loops l).registry.fdOf →
      w.registry.nextId = (s.loops l).registry.nextId → (s.act l w).Recorded l := by
    intro hq he hfdOf hnextId
    refine ⟨?_, ?_⟩
    · rw [act_loops_self, hq, hqueued]
      rfl
    · rw [madeIn, act_loops_self, hfdOf, hnextId, he, ← hexecuted, madeIn]
  have hheld : ∀ {task : TaskLoop Fd}, (s.loops l).task.phase ≠ .run →
      (s.loops l).task.advance = some task → task.executed = (s.loops l).task.executed ∧
        task.queued = (s.loops l).task.queued := fun hne hadv =>
    have h := TaskLoop.advance_held hawake (fun hrun => absurd hrun hne) hadv
    ⟨h.2.1, h.2.2.1⟩
  rcases hstep with ⟨hturns, hadv⟩ | ⟨hphase, hadv, -⟩ | ⟨fs, reads, writes, now, -, hcons, h⟩ |
    ⟨method, events, revents, now, hphase, hcons, hadv, hnew⟩ | ⟨top, clock, hphase, hadv, h⟩
  · have hrun : (s.loops l).task.phase = .run → (s.loops l).task.functors = [] := fun hphase => by
      rwa [ServerLoop.Turns, hphase] at hturns
    obtain ⟨-, he, hq, -⟩ := TaskLoop.advance_held hawake hrun hadv
    exact hsame hq he rfl rfl
  · obtain ⟨he, hq⟩ := hheld (by rw [hphase]; exact Phase.noConfusion) hadv
    exact hsame hq he rfl rfl
  · have hreports := hinv.active l
    rw [hcons] at hreports
    obtain ⟨fd, hfd⟩ := hreports.registered _ List.mem_cons_self
    have hreported := hreports.reported _ List.mem_cons_self
    obtain ⟨-, hfdOf, hnextId⟩ := Registry.httpdatas_of_handleEvents hregistry hfd hreported h
    exact hsame rfl rfl hfdOf hnextId
  · obtain ⟨-, hfdOf, hnextId⟩ := Registry.httpdatas_of_newEvent hnew
    have htask := TaskLoop.advance_take hphase hcons hadv
    refine ⟨?_, ?_⟩
    · rw [act_loops_self, htask]
      exact hqueued
    · rw [madeIn, act_loops_self, hfdOf, hnextId, htask, List.range_succ, List.map_append,
        List.map_append, ← hexecuted, List.map_singleton, Function.update_self]
      refine congrArg (· ++ _) (List.map_congr_left fun id hid => ?_)
      rw [Function.update_of_ne (List.mem_range.1 hid).ne]
  · obtain ⟨he, hq⟩ := hheld (by rw [hphase]; exact Phase.noConfusion) hadv
    obtain ⟨-, hfdOf, hnextId⟩ := Registry.httpdatas_of_handleExpired hregistry h
    exact hsame hq he hfdOf hnextId

theorem recorded_of_reachable (hs : (system threadnum created).Reachable s) :
    ∀ l, s.Recorded l := by
  refine hs.invariant (I := fun s => ∀ l, s.Recorded l) (fun s hs => ?_)
    fun s e s' hreach hs _ hst l' => ?_
  · obtain ⟨threadId, rfl⟩ := hs
    exact fun l => ⟨rfl, rfl⟩
  · have hinv := inv_of_reachable hreach
    rcases hst with @⟨fd, l, pool, -, -, -, -, -⟩ | - | @⟨l, t, -⟩ | @⟨l, t, -⟩ |
      @⟨l, w, -, hloop⟩
    · by_cases heq : l' = l
      · subst heq
        refine ⟨?_, ?_⟩
        · rw [handedTo_dispatch, if_pos rfl, ← (hs l').queued]
          exact congrArg (fun w => w.task.queued) setTask_loops_self
        · have hmade : (s.dispatch l' pool fd).madeIn l' = s.madeIn l' := by
            rw [madeIn, dispatch, setTask_loops_self, madeIn]
          rw [hmade, (hs l').executed, dispatch, setTask_loops_self]
          rfl
      · refine (hs l').of_loops (setTask_loops_of_ne heq) ?_
        rw [handedTo_dispatch, if_neg (Ne.symm heq), List.append_nil]
    · exact (hs l').of_loops rfl rfl
    · by_cases heq : l' = l
      · subst heq
        refine (hs l').setTask ?_ ?_
        all_goals
          rw [TaskLoop.finish_eq]
          rfl
      · exact (hs l').of_loops (setTask_loops_of_ne heq) rfl
    · by_cases heq : l' = l
      · subst heq
        exact (hs l').setTask rfl rfl
      · exact (hs l').of_loops (setTask_loops_of_ne heq) rfl
    · by_cases heq : l' = l
      · subst heq
        exact (hs l').loop hinv hloop
      · exact (hs l').of_loops (act_loops_of_ne heq) rfl

/-- The pool has given the loops in turn. -/
structure InTurn (threadnum : ℕ) (created : ℕ → Bool) (s : Server) : Prop where
  started : s.eventLoopThreadPool.started = true
  loops : s.eventLoopThreadPool.loops =
    (List.range threadnum).map fun i => if created i then some (.worker i) else none
  threadNum : s.eventLoopThreadPool.threadNum = threadnum
  next : 0 < threadnum → s.eventLoopThreadPool.next = s.handed.length % threadnum
  handed : ∀ i l fd, s.handed[i]? = some (l, fd) → l = turnOf threadnum i ∧
    (0 < threadnum → created (i % threadnum) = true)

theorem inTurn_start (threadnum : ℕ) (created : ℕ → Bool) (threadId : LoopId → ThreadId) :
    (start threadnum created threadId).InTurn threadnum created where
  started := rfl
  loops := by simp [start, EventLoopThreadPool.threadPoolInit, EventLoopThreadPool.new]
  threadNum := rfl
  next _ := (Nat.zero_mod threadnum).symm
  handed i l fd h := by cases h

/-- The loop that the pool gives next. -/
theorem InTurn.getNextPool (hs : s.InTurn threadnum created) {pool : EventLoopThreadPool}
    (h : s.eventLoopThreadPool.getNextPool = .ok (some l, pool)) :
    l = turnOf threadnum s.handed.length ∧
      (0 < threadnum → created (s.handed.length % threadnum) = true) ∧
      ∃ next, pool = { s.eventLoopThreadPool with next := next } ∧
        (0 < threadnum → next = (s.handed.length + 1) % threadnum) := by
  rw [EventLoopThreadPool.getNextPool, if_pos hs.started] at h
  rcases Nat.eq_zero_or_pos threadnum with rfl | hpos
  · rw [if_neg (by simp [hs.loops])] at h
    cases h
    exact ⟨rfl, fun h => absurd h (Nat.lt_irrefl 0), _, rfl, fun h => absurd h (Nat.lt_irrefl 0)⟩
  · rw [if_pos (by simp [hs.loops, hpos.ne'])] at h
    simp only [Except.ok.injEq, Prod.mk.injEq] at h
    obtain ⟨hloop, rfl⟩ := h
    rw [hs.loops, hs.next hpos, List.getD_eq_getElem?_getD, List.getElem?_map,
      List.getElem?_range (Nat.mod_lt _ hpos), Option.map_some, Option.getD_some] at hloop
    obtain ⟨hcreated, hloop⟩ := Option.ite_none_right_eq_some.1 hloop
    refine ⟨?_, fun _ => hcreated, _, rfl, fun _ => ?_⟩
    · rw [turnOf, if_neg hpos.ne']
      exact (Option.some.inj hloop).symm
    · rw [hs.next hpos, hs.threadNum, Nat.mod_add_mod]

theorem InTurn.dispatch (hs : s.InTurn threadnum created) {pool : EventLoopThreadPool} (fd : Fd)
    (h : s.eventLoopThreadPool.getNextPool = .ok (some l, pool)) :
    (s.dispatch l pool fd).InTurn threadnum created := by
  obtain ⟨hl, hcreated, next, rfl, hnext⟩ := hs.getNextPool h
  refine ⟨hs.started, hs.loops, hs.threadNum, fun hpos => ?_, fun i l' fd' hi => ?_⟩
  · rw [hnext hpos, Server.dispatch, List.length_append, List.length_singleton]
  · have hi : (s.handed ++ [(l, fd)])[i]? = some (l', fd') := hi
    rcases Nat.lt_trichotomy i s.handed.length with hlt | rfl | hgt
    · rw [List.getElem?_append_left hlt] at hi
      exact hs.handed i l' fd' hi
    · rw [List.getElem?_concat_length] at hi
      cases hi
      exact ⟨hl, hcreated⟩
    · rw [List.getElem?_eq_none (by simpa using Nat.succ_le_of_lt hgt)] at hi
      cases hi

/-- The connections of a loop are those handed over to it, in order: the ones it has
    made, and those that wait. The loops have been given connections in turn, and every
    one that was given some runs in a thread that has been created. -/
theorem inTurn_of_reachable (hs : (system threadnum created).Reachable s) :
    (∀ l, s.madeIn l ++ (s.loops l).waiting.map some = (s.handedTo l).map some) ∧
      ∀ i l fd, s.handed[i]? = some (l, fd) → l = turnOf threadnum i ∧
        (0 < threadnum → created (i % threadnum) = true) := by
  refine ⟨fun l => ?_, ?_⟩
  · have hrecorded := recorded_of_reachable hs l
    have hconserved :=
      Fifo.conserved ((TaskLoop.refinement Fd).reachable ((inv_of_reachable hs).task l))
    rw [hrecorded.executed, ← hrecorded.queued, ← List.map_append]
    exact congrArg _ hconserved
  · have hturn : s.InTurn threadnum created := by
      refine hs.invariant (fun s hs => ?_) fun s e s' _ hs _ hst => ?_
      · obtain ⟨threadId, rfl⟩ := hs
        exact inTurn_start threadnum created threadId
      · rcases hst with ⟨-, -, -, hnext, -⟩ | - | - | - | -
        · exact hs.dispatch _ hnext
        all_goals exact ⟨hs.started, hs.loops, hs.threadNum, hs.next, hs.handed⟩
    exact hturn.handed

theorem inTurn_of_reachable_waiting :
    ∃ s, (system 4 fun _ => true).Reachable s ∧ (s.loops (.worker 0)).waiting = [7] ∧
      s.madeIn (.worker 0) ++ [7].map some = (s.handedTo (.worker 0)).map some := by
  obtain ⟨s, hs, -, -, hwaiting⟩ := exists_waiting
  exact ⟨s, hs, hwaiting, hwaiting ▸ (inTurn_of_reachable hs).1 (.worker 0)⟩

/-! ## Accepting connections -/

/-- The descriptor that stays open after a result of `accept`, unless another result has
    ended the loop before. -/
def opened? (r : AcceptResult) : Option Fd :=
  if 0 < r.acceptFd ∧ r.acceptFd ≤ Acceptor.MAXFDS then some r.acceptFd.toNat else none

/-- The main thread may queue a functor in any loop. -/
def MayAccept (s : Server) : Prop := ∀ l, (s.loops l).task.MayCall s.mainThread

/-- The hand-over of a connection, to its end. -/
def handOver (s : Server) (l : LoopId) (pool : EventLoopThreadPool) (fd : Fd) : Server :=
  let s := s.dispatch l pool fd
  s.setTask l ((s.loops l).task.finish s.mainThread)

theorem mainThread_setTask {task : TaskLoop Fd}
    (h : task.threadId = (s.loops l).task.threadId) :
    (s.setTask l task).mainThread = s.mainThread := by
  by_cases heq : l = .owner
  · subst heq
    rw [mainThread, setTask_loops_self, h, mainThread]
  · rw [mainThread, setTask_loops_of_ne (Ne.symm heq), mainThread]

theorem mainThread_dispatch (pool : EventLoopThreadPool) (fd : Fd) :
    (s.dispatch l pool fd).mainThread = s.mainThread := mainThread_setTask rfl

theorem task_dispatch (pool : EventLoopThreadPool) (fd : Fd) :
    ((s.dispatch l pool fd).loops l).task = (s.loops l).task.push s.mainThread fd :=
  congrArg ServerLoop.task setTask_loops_self

theorem MayAccept.handOver (hs : s.MayAccept) (pool : EventLoopThreadPool) (fd : Fd) :
    (s.handOver l pool fd).MayAccept := by
  have hmain : (s.handOver l pool fd).mainThread = s.mainThread := by
    rw [Server.handOver, mainThread_setTask (by rw [TaskLoop.finish_eq]; rfl), mainThread_dispatch]
  intro l'
  rw [hmain]
  by_cases heq : l' = l
  · subst heq
    rw [Server.handOver, setTask_loops_self, mainThread_dispatch, task_dispatch,
      TaskLoop.finish_eq]
    exact ⟨TaskLoop.setCaller_self _ _ _, (hs l').2⟩
  · rw [Server.handOver, setTask_loops_of_ne heq, dispatch, setTask_loops_of_ne heq]
    exact hs l'

/-- `handleNewConn` is a run of the main thread: for every connection that it hands over
    it queues a functor in the same loop, and wakes the loop up. -/
theorem steps_of_acceptLoop {accepts : List AcceptResult} {a a' : Acceptor} {flag : Bool}
    (hs : s.MayAccept) (hpool : s.eventLoopThreadPool = a.eventLoopThreadPool)
    (hfresh : ∀ fd ∈ accepts.filterMap opened?, fd ∉ s.fds)
    (hnodup : (accepts.filterMap opened?).Nodup)
    (h : Acceptor.acceptLoop accepts a = .ok (flag, a')) :
    ∃ es s' handed, (system threadnum created).Steps s es s' ∧ s'.MayAccept ∧
      s'.eventLoopThreadPool = a'.eventLoopThreadPool ∧ s'.handed = s.handed ++ handed ∧
      a'.queued = a.queued ++ handed.map fun q => (q.1, (q.2 : ℤ)) := by
  induction accepts generalizing s a with
  | nil =>
    cases h
    exact ⟨[], s, [], .nil, hs, hpool, (List.append_nil _).symm, (List.append_nil _).symm⟩
  | cons r accepts ih =>
    rw [Acceptor.acceptLoop] at h
    split at h
    · next hpos =>
      split at h
      · next hmax =>
        -- Beyond the limit: the descriptor is closed at once.
        have hopened : opened? r = none := if_neg fun h => absurd hmax (not_lt.2 h.2)
        rw [List.filterMap_cons_none hopened] at hfresh hnodup
        exact ih (a := { a with closed := a.closed ++ [r.acceptFd] }) hs hpool hfresh hnodup h
      · next hmax =>
        have hmax : r.acceptFd ≤ Acceptor.MAXFDS := not_lt.1 hmax
        have hopened : opened? r = some r.acceptFd.toNat := if_pos ⟨hpos, hmax⟩
        rw [List.filterMap_cons_some hopened] at hfresh hnodup
        obtain ⟨hfd, hfresh⟩ := List.forall_mem_cons.1 hfresh
        obtain ⟨hnot, hnodup⟩ := List.nodup_cons.1 hnodup
        have hcast : ((r.acceptFd.toNat : ℕ) : ℤ) = r.acceptFd := Int.toNat_of_nonneg hpos.le
        have hlt : 0 < r.acceptFd.toNat := Int.lt_toNat.2 hpos
        split at h
        · cases h
          exact ⟨_, _, [], .single (.abandon hlt (hcast ▸ hmax) hfd), hs, hpool,
            (List.append_nil _).symm, (List.append_nil _).symm⟩
        · split at h
          · cases h
          · next a₁ hdispatch =>
            rw [Acceptor.dispatch] at hdispatch
            split at hdispatch
            · cases hdispatch
            · cases hdispatch
            · next l pool hnext =>
              cases hdispatch
              have hrest : ∀ fd ∈ accepts.filterMap opened?,
                  fd ∉ (s.handOver l pool r.acceptFd.toNat).fds := by
                rintro fd hmem (rfl | hopen)
                · exact hnot hmem
                · exact hfresh fd hmem hopen
              have hpushed : ((s.dispatch l pool r.acceptFd.toNat).loops l).task.caller
                  (s.dispatch l pool r.acceptFd.toNat).mainThread ≠ .idle := by
                rw [mainThread_dispatch, task_dispatch, TaskLoop.push, TaskLoop.setCaller_self]
                exact Caller.noConfusion
              obtain ⟨es, s', handed, hsteps, hs', hpool', hhanded, hqueued⟩ :=
                ih (hs.handOver pool r.acceptFd.toNat) rfl hrest hnodup h
              refine ⟨_, s', (l, r.acceptFd.toNat) :: handed,
                .cons (.accept hlt (hcast ▸ hmax) hfd (hpool ▸ hnext) (hs l))
                  (.cons (.finish hpushed) hsteps), hs', hpool', ?_, ?_⟩
              · rw [hhanded]
                exact List.append_assoc _ _ _
              · rw [hqueued, List.append_assoc]
                simp [hcast]
    · cases h
      exact ⟨[], s, [], .nil, hs, hpool, (List.append_nil _).symm, (List.append_nil _).symm⟩

/-- The main thread is handling events, and may accept connections. -/
theorem exists_mayAccept : ∃ s, (system 4 fun _ => true).Reachable s ∧ s.MayAccept ∧
    s.fds ⊆ ∅ ∧ s.eventLoopThreadPool = Acceptor.listening.eventLoopThreadPool := by
  have h₀ : (system 4 fun _ => true).Reachable (start 4 (fun _ => true) threadIds) :=
    .init ⟨threadIds, rfl⟩
  have h₁ := System.ReachableBy.step h₀ trivial (.loop (l := .owner) rfl (.turn trivial rfl))
  have h₂ := System.ReachableBy.step h₁ trivial (.loop (l := .owner) rfl (.turn trivial rfl))
  have h₃ := System.ReachableBy.step h₂ trivial
    (.loop (l := .owner) rfl (.poll rfl rfl (ServerLoop.reports_nil _)))
  refine ⟨_, h₃, fun l => ?_, fun fd hfd => hfd.1.1.1, rfl⟩
  rcases l with - | n
  · exact ⟨rfl, fun _ => .inl rfl⟩
  · exact ⟨rfl, fun h => by cases h⟩

/-- Two connections, and one between them that is beyond the limit. -/
theorem steps_of_acceptLoop_two : ∃ s es s' handed, (system 4 fun _ => true).Reachable s ∧
    (system 4 fun _ => true).Steps s es s' ∧ s'.MayAccept ∧ s'.handed = s.handed ++ handed ∧
      handed.map (fun q => (q.1, (q.2 : ℤ))) = [(.worker 0, 7), (.worker 1, 8)] := by
  obtain ⟨s, hs, hmay, hfds, hpool⟩ := exists_mayAccept
  have hloop : ∃ a', Acceptor.acceptLoop [⟨7, true⟩, ⟨5000, false⟩, ⟨8, true⟩, ⟨-1, false⟩]
      .listening = .ok (false, a') ∧ a'.queued = [(.worker 0, 7), (.worker 1, 8)] := ⟨_, rfl, rfl⟩
  obtain ⟨a', hloop, hqueued'⟩ := hloop
  obtain ⟨es, s', handed, hsteps, hmay', -, hhanded, hqueued⟩ :=
    steps_of_acceptLoop hmay hpool (fun fd _ hfd => hfds hfd) (by decide) hloop
  exact ⟨s, es, s', handed, hs, hsteps, hmay', hhanded, hqueued.symm.trans hqueued'⟩

end Server

end Webserver
