import Webserver.Lib.Monitor

/-!
# Latches

`CountDownLatch`: threads `wait` until others have called `countDown` often enough. It is a
monitor, whose data are the count.

* `CountDownLatch.notifying_of_waiting`: threads that still wait while the count is zero
  are about to be notified.
* `CountDownLatch.steps_of_notifying`: the thread that is about to do so needs no other one
  for it.
-/

namespace Webserver

open Transition Monitor

namespace CountDownLatch

/-- Where a thread is in `wait` and in `countDown`: before the condition of the loop, before
    the decrement, before the comparison, before the notification, and behind it. -/
inductive Point
  | test
  | decrement
  | compare
  | notifyAll
  | unlock
  deriving DecidableEq

/-- The critical sections of `wait` and `countDown`, on the count. -/
def program : Program Point ℤ where
  entry p := p = .test ∨ p = .decrement
  code
    | .test, count => if count > 0 then .wait .test else .leave
    | .decrement, count => .goto .compare (count - 1)
    | .compare, count => if count = 0 then .goto .notifyAll count else .leave
    | .notifyAll, _ => .notifyAll .unlock
    | .unlock, _ => .leave

/-- A thread at this point goes on to notify the others. -/
def Notifying : Point → ℤ → Prop
  | .compare, count => count = 0
  | .notifyAll, _ => True
  | _, _ => False

/-- Threads wait while the count is positive, and the one that brings it to zero notifies
    them. -/
theorem signals : program.Signals (fun count => count ≤ 0) Notifying := by
  constructor
  · intro p q count hcode
    cases p with
    | test =>
      simp only [program] at hcode
      split at hcode
      · omega
      · cases hcode
    | compare =>
      simp only [program] at hcode
      split at hcode <;> cases hcode
    | decrement | notifyAll | unlock => cases hcode
  · intro p q count count' hcode hcount
    cases p with
    | decrement =>
      cases hcode
      -- The count comes to zero, or has been there before.
      by_cases hzero : count - 1 = 0
      · exact .inl hzero
      · exact .inr ⟨by omega, not_false⟩
    | compare =>
      simp only [program] at hcode
      split at hcode <;> cases hcode
      exact .inl trivial
    | test =>
      simp only [program] at hcode
      split at hcode <;> cases hcode
    | notifyAll | unlock => cases hcode
  · intro p count hcode _
    cases p with
    | compare =>
      simp only [program] at hcode
      split at hcode
      · cases hcode
      · assumption
    | test | unlock => exact not_false
    | decrement | notifyAll => cases hcode

/-- With any number of threads that wait and count down. -/
theorem notifying_of_waiting {T : Type*} [DecidableEq T] {count : ℤ} {m : State T Point ℤ}
    (hm : (program.system T count).Reachable m) (hcount : m.data ≤ 0) {t : T} {p : Point}
    (ht : m.place t = .waiting p) : ∃ u q, m.place u = .inside q ∧ Notifying q m.data :=
  signals.due_of_waiting hm hcount ht

/-- The next steps of such a thread notify all others, none of which can stop it. -/
theorem steps_of_notifying {T : Type*} [DecidableEq T] (count : ℤ) {m : State T Point ℤ} {u : T}
    {q : Point} (hu : m.place u = .inside q) (hq : Notifying q m.data) :
    ∃ es m', (program.system T count).Steps m es m' ∧ (∀ e ∈ es, e = .act u) ∧
      ∀ t p, m'.place t ≠ .waiting p := by
  have hnotify : ∀ m : State T Point ℤ, m.place u = .inside .notifyAll →
      program.Step m (.act u) (m.notifyAll.move u (.inside .unlock)) ∧
        ∀ t p, (m.notifyAll.move u (.inside .unlock)).place t ≠ .waiting p := fun m hm =>
    ⟨.notifyAll hm rfl,
      Program.not_waiting_move (fun t p => Place.notify_ne_waiting (m.place t) p) nofun⟩
  cases q with
  | compare =>
    have hcode : program.code .compare m.data = .goto .notifyAll m.data := if_pos hq
    have hplace : { m.move u (.inside .notifyAll) with data := m.data }.place u =
        .inside .notifyAll := State.place_move_self _ _ _
    obtain ⟨hst, hnone⟩ := hnotify _ hplace
    exact ⟨_, _, .cons (.goto hu hcode) (.single hst), by simp, hnone⟩
  | notifyAll =>
    obtain ⟨hst, hnone⟩ := hnotify m hu
    exact ⟨_, _, .single hst, by simp, hnone⟩
  | test | decrement | unlock => exact hq.elim

end CountDownLatch

end Webserver
