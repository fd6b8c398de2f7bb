import Webserver.Loop.Idle

/-!
# The timer queue does not grow without bound

A timer node that is cleared stays in the queue: only the expiry phase of the loop takes
nodes out, and only from the top. This file finds that this is often enough. After an expiry
phase, all nodes in the queue, the cleared ones included, are yet to expire, so that there
are no more of them than connections have been registered, or registered again, within the
longest timeout.

* `Registry.later_of_step`: what a phase adds to the nodes that expire after some time.
* `Registry.backlog_of_run`: so what is left in the queue after an expiry phase.

Times are readings of the clock, as for the leases. What has been recent is told by it alone.
-/

namespace Webserver

open Transition Timer

namespace Timer

theorem clearHttp_deadlines (t : Timer) (id : NodeId) :
    (t.clearHttp id).timerNodeQueue.map TimerNode.expiredTime =
      t.timerNodeQueue.map TimerNode.expiredTime := by
  rw [clearHttp, List.map_map]
  refine List.map_congr_left fun node _ => ?_
  simp only [Function.comp_apply]
  split <;> rfl

end Timer

namespace Conn

/-- A connection that gives up its timer node leaves it in the queue. -/
theorem seperaterTimer_deadlines (c : Conn) :
    c.seperaterTimer.poller.timermanager.timerNodeQueue.map TimerNode.expiredTime =
      c.poller.timermanager.timerNodeQueue.map TimerNode.expiredTime := by
  rw [seperaterTimer]
  split
  · rfl
  · exact clearHttp_deadlines _ _

end Conn

namespace Registry

variable {s s' : Registry} {time : ℕ}

/-- When the nodes in the queue expire. -/
def deadlines (s : Registry) : List ℕ := s.queue.map TimerNode.expiredTime

/-! ## What the phases do to the queue -/

section Phases

variable {fs : FileSystem} {fd : Fd} {id : HttpId} {method : Option HttpMethod}
  {events revents : Mask} {reads : List ReadResult} {writes : List WriteResult} {now : Timeval}
  {top : ℕ → MinQueue.Top TimerNode.expiredTime} {clock : ℕ → Timeval} {sweep : Sweep}

theorem deadlines_of_newEvent (h : s.newEvent fd method events revents now = .ok s') :
    s'.deadlines = (now.clock + DEFAULT_EXPIRED_TIME) :: s.deadlines := by
  rw [newEvent] at h
  split at h
  · cases h
  · next c hnew =>
    cases h
    rw [deadlines, queue, store_poller, Conn.newEvent_poller hnew]
    rfl

/-- Handling events adds one node at most. -/
theorem deadlines_of_handleEvents (hreported : Reported revents)
    (h : s.handleEvents fs id revents reads writes now = .ok s') :
    s'.deadlines = s.deadlines ∨
      ∃ timeout ≤ DEFAULT_KEEP_ALIVE_TIME, s'.deadlines = (now.clock + timeout) :: s.deadlines := by
  rw [handleEvents] at h
  split at h
  · cases h
  · next http hhttp =>
    simp only at h
    split at h
    · cases h
    · next c hevents =>
      cases h
      rcases Conn.handleEvents_conn hreported hevents with
        hkept | ⟨d, d', hkept, hconn, hkept'⟩
      · refine .inl ?_
        rw [deadlines, queue, store_poller, hkept.poller]
        rfl
      · have hold : d.poller.timermanager.timerNodeQueue.map TimerNode.expiredTime =
            s.deadlines := by
          rw [hkept.poller, Conn.seperaterTimer_deadlines]
          rfl
        obtain ⟨t, p, hsep⟩ := (s.conn
          { http with ownchannel := http.ownchannel.setRevents revents }
          ⟨reads, writes, [], now⟩).seperaterTimer_eq
        have hnow : d.socket.now = now := by
          rw [hkept.now, hsep]
          rfl
        rw [deadlines, queue, store_poller, hkept'.poller]
        rcases Conn.handleConn_poller hconn with ⟨events, hpoller⟩ | hpoller
        · refine .inr ⟨d.timeout, ?_, ?_⟩
          · rcases d.timeout_cases with htimeout | htimeout <;> rw [htimeout]
            decide
          · rw [hpoller, ← hold, ← hnow]
            rfl
        · rw [hpoller]
          exact .inl hold

/-- The expiry phase takes nodes out of the queue until all that are left are yet to expire. -/
theorem deadlines_of_handleExpired (hs : Inv s) (hclock : Steady clock)
    (hsweep : handleExpiredEvent top clock s.queue = .ok sweep)
    (h : s.handleExpired top clock = .ok s') :
    (∃ popped, s.deadlines.Perm (popped ++ s'.deadlines)) ∧
      ∀ d ∈ s'.deadlines, sweep.last clock < d := by
  obtain ⟨sweep', hsweep', hqueue, -⟩ := hs.handleExpired_eq h
  obtain rfl := Except.ok.inj (hsweep.symm.trans hsweep')
  obtain ⟨popped, sweep', hsweep', hswept⟩ :=
    handleExpiredEvent_swept top clock hs.mixed.ownHttp_ne_none
  obtain rfl := Except.ok.inj (hsweep.symm.trans hsweep')
  have hexact := hswept.exact hclock hs.mixed
  refine ⟨⟨popped.map TimerNode.expiredTime, ?_⟩, fun d hd => ?_⟩
  · rw [deadlines, deadlines, hqueue, ← List.map_append]
    exact hswept.pops.perm.map _
  · rw [deadlines, hqueue] at hd
    obtain ⟨node, hnode, rfl⟩ := List.mem_map.1 hd
    -- What is on top of the queue in the end expires no later than this node.
    obtain ⟨first, htop, -, hlt⟩ := hexact.top (List.ne_nil_of_mem hnode)
    exact hlt.trans_le ((top _).le htop node hnode)

end Phases

/-! ## Runs -/

/-- A connection has been registered, or its events handled, within the longest timeout. -/
def TimedEvent.Recent (time : ℕ) : TimedEvent → Prop
  | .newEvent _ now | .handleEvents _ now => time < now.clock + DEFAULT_KEEP_ALIVE_TIME
  | .handleExpired _ => False

instance (time : ℕ) (e : TimedEvent) : Decidable (e.Recent time) :=
  match e with
  | .newEvent _ _ | .handleEvents _ _ => inferInstanceAs (Decidable (time < _))
  | .handleExpired _ => inferInstanceAs (Decidable False)

/-- How many nodes in the queue expire after some time. -/
def later (s : Registry) (time : ℕ) : ℕ := s.deadlines.countP fun d => decide (time < d)

/-- A node is added. -/
theorem later_of_cons {d : ℕ} (h : s'.deadlines = d :: s.deadlines) {bound : ℕ} (hd : d ≤ bound) :
    s'.later time ≤ s.later time + if time < bound then 1 else 0 := by
  rw [later, h, List.countP_cons, later]
  simp only [decide_eq_true_eq]
  split <;> split <;> omega

/-- A phase adds one such node at most, and only if the timeout reaches beyond that time. -/
theorem later_of_step {e : TimedEvent} (hs : timed.Reachable s) (hstep : TimedStep s e s') :
    s'.later time ≤ s.later time + if e.Recent time then 1 else 0 := by
  have hinv := inv_of_calls (calls_of_timed hs)
  rcases hstep with ⟨-, h⟩ | ⟨-, hreported, h⟩ | ⟨hclock, hsweep, h⟩
  · exact later_of_cons (deadlines_of_newEvent h) (Nat.add_le_add_left (by decide) _)
  · rcases deadlines_of_handleEvents hreported h with hsame | ⟨timeout, htimeout, hcons⟩
    · rw [later, hsame]
      exact Nat.le_add_right _ _
    · exact later_of_cons hcons (Nat.add_le_add_left htimeout _)
  · obtain ⟨⟨popped, hperm⟩, -⟩ := deadlines_of_handleExpired hinv hclock hsweep h
    rw [later, later, hperm.countP_eq, List.countP_append]
    omega

/-- In every run, there are no more of them than recent events. -/
theorem later_of_run {ps : List (Registry × TimedEvent)} (hs : timed.Reachable s)
    (hrun : timed.Run s ps s') :
    s'.later time ≤ s.later time + ps.countP fun p => decide (p.2.Recent time) := by
  induction hrun with
  | nil => exact Nat.le_add_right _ _
  | cons hst _ ih =>
    have hfirst : _ ≤ _ + if TimedEvent.Recent time _ then 1 else 0 := later_of_step hs hst
    have hrest := ih (.step hs trivial hst)
    rw [List.countP_cons]
    simp only [decide_eq_true_eq]
    omega

/-- After an expiry phase, all nodes in the queue are yet to expire. -/
theorem unexpired_of_step (hs : timed.Reachable s)
    (hstep : TimedStep s (.handleExpired time) s') :
    ∀ node ∈ s'.queue, time < node.expiredTime := by
  cases hstep with
  | handleExpired hclock hsweep h =>
    obtain ⟨-, hlater⟩ :=
      deadlines_of_handleExpired (inv_of_calls (calls_of_timed hs)) hclock hsweep h
    exact fun node hnode => hlater _ (List.mem_map_of_mem hnode)

/-- In every run of a loop that ends with an expiry phase, all nodes that are left in the
    timer queue expire later than this phase has ended, and there are no more of them than
    connections have been registered, or their events handled, in the five seconds before,
    by the clock. -/
theorem backlog_of_run {ps : List (Registry × TimedEvent)} (hrun : timed.Run empty ps s)
    (hstep : timed.step s (.handleExpired time) s') :
    (∀ node ∈ s'.queue, time < node.expiredTime) ∧
      s'.queue.length ≤ ps.countP fun p => decide (p.2.Recent time) := by
  have hreach : timed.Reachable s := .run (.init rfl) hrun
  have hnodes := unexpired_of_step hreach hstep
  refine ⟨hnodes, ?_⟩
  have hlength : s'.later time = s'.queue.length := by
    rw [later, deadlines, List.countP_map, List.countP_eq_length]
    exact fun node hnode => decide_eq_true (hnodes node hnode)
  have hrun' : s.later time ≤ _ := later_of_run (.init rfl) hrun
  have hlast : s'.later time ≤ _ := later_of_step hreach hstep
  rw [hlength] at hlast
  have hnone : empty.later time = 0 := rfl
  have hsweep : ¬TimedEvent.Recent time (.handleExpired time) := id
  rw [if_neg hsweep] at hlast
  omega

/-- A connection is made at the time 1000, and there is an expiry phase at the time 2000. -/
theorem backlog_of_run_timed : ∃ s s' : Registry,
    timed.Run empty [(empty, .newEvent 5 ⟨1, 0⟩)] s ∧ timed.step s (.handleExpired 2000) s' ∧
    (∀ node ∈ s'.queue, 2000 < node.expiredTime) ∧
    s'.queue.length ≤ [(empty, TimedEvent.newEvent 5 ⟨1, 0⟩)].countP
      fun p => decide (p.2.Recent 2000) := by
  have hempty : timed.Reachable empty := .init rfl
  have hunused : empty.Unused 5 := ⟨by decide, fun id h _ hh => by cases hh⟩
  have hcalls := calls_of_timed hempty
  obtain ⟨s, hs⟩ := exists_newEvent (inv_of_calls hcalls) (matches_of_calls hcalls) hunused none 0 0
    ⟨1, 0⟩
  have hrun : timed.Run empty [(empty, .newEvent 5 ⟨1, 0⟩)] s := .single (.newEvent hunused hs)
  obtain ⟨s', hstep⟩ := exists_handleExpired_timed (.run hempty hrun)
    (by simp [Timeval.Valid] : Timeval.Valid ⟨2, 0⟩)
  exact ⟨s, s', hrun, hstep, backlog_of_run hrun hstep⟩

end Registry

end Webserver
