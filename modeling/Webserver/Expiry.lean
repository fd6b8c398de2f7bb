import Webserver.Timer
import Mathlib.Algebra.Group.Nat.Defs

/-!
# The expiry of a timer node

A node expires when the clock, which wraps every 10000 seconds, has reached the
sum of its reading at the creation of the node and the timeout, which is a
`size_t`. Between the two readings the clock may have wrapped (`Timeval.wraps`),
and the sum may have overflowed (`TimerNode.lost`).

* `TimerNode.isVaild_new`: what `isVaild` compares, in terms of the time that has
  passed.
* `TimerNode.onTime_iff`: a node expires on time, unless it outlives the wraps of
  the clock (`TimerNode.Overstays`), or its sum has overflowed
  (`TimerNode.CutShort`).
-/

namespace Webserver

namespace Timeval

/-- A reading in milliseconds, as if the clock did not wrap. -/
def ms (t : Timeval) : ℕ := t.sec * 1000 + t.usec / 1000

/-- The microseconds are a fraction of a second. -/
def Valid (t : Timeval) : Prop := t.usec < 1000000

/-- The order of readings in time. -/
def NotAfter (t₀ t : Timeval) : Prop := t₀.sec * 1000000 + t₀.usec ≤ t.sec * 1000000 + t.usec

/-- The milliseconds that have passed. -/
def elapsed (t₀ t : Timeval) : ℕ := t.ms - t₀.ms

/-- How often the clock has wrapped. -/
def wraps (t₀ t : Timeval) : ℕ := t.sec / 10000 - t₀.sec / 10000

theorem clock_add (t : Timeval) : t.clock + 10000000 * (t.sec / 10000) = t.ms := by
  simp only [clock, ms]
  omega

theorem clock_lt {t : Timeval} (ht : t.Valid) : t.clock < 10000000 := by
  simp only [clock, Valid] at *
  omega

/-- The clock advances by the time that has passed, less what it has wrapped. -/
theorem elapsed_add {t₀ t : Timeval} (ht : t.Valid) (hle : t₀.NotAfter t) :
    t₀.elapsed t + t₀.clock = t.clock + 10000000 * t₀.wraps t := by
  simp only [Valid, NotAfter] at *
  have hclock₀ := t₀.clock_add
  have hclock := t.clock_add
  simp only [elapsed, wraps, ms] at *
  omega

end Timeval

namespace TimerNode

/-- The constructor. -/
def new (id : NodeId) (http : HttpId) (timeout : ℕ) (now : Timeval) : TimerNode :=
  ⟨id, (now.clock + timeout) % 2 ^ 64, some http, false⟩

/-- What the sum of the constructor loses to its overflow. -/
def lost (t₀ : Timeval) (timeout : ℕ) : ℕ := if t₀.clock + timeout < 2 ^ 64 then 0 else 2 ^ 64

/-- The time is over, but the wraps of the clock hide it. -/
def Overstays (t₀ t : Timeval) (timeout : ℕ) : Prop :=
  timeout ≤ t₀.elapsed t ∧ t₀.elapsed t + lost t₀ timeout < timeout + 10000000 * t₀.wraps t

/-- The time is not over, but the sum has overflowed. -/
def CutShort (t₀ t : Timeval) (timeout : ℕ) : Prop :=
  t₀.elapsed t < timeout ∧ timeout + 10000000 * t₀.wraps t ≤ t₀.elapsed t + lost t₀ timeout

/-- The node is valid as long as less than the timeout has passed. -/
def OnTime (id : NodeId) (http : HttpId) (timeout : ℕ) (t₀ t : Timeval) : Prop :=
  ((new id http timeout t₀).isVaild t).1 = true ↔ t₀.elapsed t < timeout

section Expiry

variable {id : NodeId} {http : HttpId} {timeout : ℕ} {t₀ t : Timeval}

theorem isVaild_iff {node : TimerNode} {now : Timeval} :
    (node.isVaild now).1 = true ↔ now.clock < node.expiredTime := by
  rw [isVaild]
  split <;> simp_all

theorem new_expiredTime (h₀ : t₀.Valid) (htimeout : timeout < 2 ^ 64) :
    (new id http timeout t₀).expiredTime + lost t₀ timeout = t₀.clock + timeout := by
  have hclock := Timeval.clock_lt h₀
  simp only [new, lost]
  split <;> omega

/-- What the comparison of `isVaild` comes to. -/
theorem isVaild_new (h₀ : t₀.Valid) (ht : t.Valid) (hle : t₀.NotAfter t)
    (htimeout : timeout < 2 ^ 64) :
    ((new id http timeout t₀).isVaild t).1 = true ↔
      t₀.elapsed t + lost t₀ timeout < timeout + 10000000 * t₀.wraps t := by
  have hexpired : (new id http timeout t₀).expiredTime + lost t₀ timeout = t₀.clock + timeout :=
    new_expiredTime h₀ htimeout
  have helapsed := Timeval.elapsed_add ht hle
  rw [isVaild_iff]
  omega

/-- Timeouts that do not overflow never cut a node short. -/
theorem not_cutShort (h : t₀.clock + timeout < 2 ^ 64) : ¬CutShort t₀ t timeout := by
  rw [CutShort, lost, if_pos h]
  omega

/-- As long as the clock has not wrapped, no node overstays. -/
theorem not_overstays (hwraps : t₀.wraps t = 0) : ¬Overstays t₀ t timeout := by
  rw [Overstays, hwraps]
  omega

/-- A node expires on time, except for the two ways of failing. -/
theorem onTime_iff (id : NodeId) (http : HttpId) (h₀ : t₀.Valid) (ht : t.Valid)
    (hle : t₀.NotAfter t) (htimeout : 0 < timeout ∧ timeout < 2 ^ 64) :
    OnTime id http timeout t₀ t ↔ ¬Overstays t₀ t timeout ∧ ¬CutShort t₀ t timeout := by
  rw [OnTime, isVaild_new h₀ ht hle htimeout.2, Overstays, CutShort]
  omega

/-- A node made right before the clock wraps, a second later. -/
theorem onTime_iff_late :
    OnTime 0 0 2000 ⟨9999, 0⟩ ⟨10000, 0⟩ ↔
      ¬Overstays ⟨9999, 0⟩ ⟨10000, 0⟩ 2000 ∧ ¬CutShort ⟨9999, 0⟩ ⟨10000, 0⟩ 2000 :=
  onTime_iff 0 0 (by simp [Timeval.Valid]) (by simp [Timeval.Valid])
    (by simp [Timeval.NotAfter]) (by decide)

/-- Three seconds later it has still not expired, although its timeout was two. -/
theorem not_onTime :
    ¬∀ (id : NodeId) (http : HttpId) (timeout : ℕ) (t₀ t : Timeval), t₀.Valid → t.Valid →
      t₀.NotAfter t → 0 < timeout ∧ timeout < 2 ^ 64 → OnTime id http timeout t₀ t := by
  intro hall
  have hon := hall 0 0 2000 ⟨9999, 0⟩ ⟨10002, 0⟩ (by simp [Timeval.Valid]) (by simp [Timeval.Valid])
    (by simp [Timeval.NotAfter]) (by decide)
  exact absurd (hon.1 (by decide)) (by decide)

end Expiry

end TimerNode

/-- The nodes of the queue are made by the constructor. -/
theorem Timer.addTimer_eq_new (t : Timer) (http : HttpId) {timeout : ℕ} {now : Timeval}
    (h : now.clock + timeout < 2 ^ 64) :
    t.addTimer http timeout now = (t.nextNode,
      ⟨.new t.nextNode http timeout now :: t.timerNodeQueue, t.nextNode + 1⟩) := by
  rw [addTimer, TimerNode.new, Nat.mod_eq_of_lt h]

end Webserver
