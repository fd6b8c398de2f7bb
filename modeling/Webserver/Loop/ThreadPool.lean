import Webserver.Loop.Acceptor
import Mathlib.Data.Int.CardIntervalMod

/-!
# Handing out loops

`getNextPool` goes through the loops of the pool in turn. The index wraps around at the
number of threads that were asked for, and the loops of threads that could not be created
are in the vector as null pointers, whose turn comes like that of the others.

* `EventLoopThreadPool.getNextPools_eq`: which loops are handed out.
* `EventLoopThreadPool.sharesOut_iff`: they are all running until it is the turn of a
  thread that could not be created.
-/

namespace Webserver

namespace EventLoopThreadPool

/-- The loops handed out in a number of calls. -/
def getNextPools : ℕ → EventLoopThreadPool →
    Except Fault (List (Option LoopId) × EventLoopThreadPool)
  | 0, p => .ok ([], p)
  | k + 1, p =>
    match p.getNextPool with
    | .error f => .error f
    | .ok (loop, p) =>
      match p.getNextPools k with
      | .error f => .error f
      | .ok (loops, p) => .ok (loop :: loops, p)

/-- The pool after `threadPoolInit`. No thread is started for a negative number. -/
def initialized (threadnum : ℤ) (created : ℕ → Bool) : EventLoopThreadPool :=
  (new threadnum.toNat).threadPoolInit created

/-- The loops that run: that of the main thread, and those of the threads created. -/
def Running (threadnum : ℤ) (created : ℕ → Bool) : LoopId → Prop
  | .owner => True
  | .worker i => i < threadnum ∧ created i = true

/-- Only loops that run are handed out, and none of those in the pool more often than
    another one, except for one time. -/
structure Shared (threadnum : ℤ) (created : ℕ → Bool) (handed : List (Option LoopId)) :
    Prop where
  running : ∀ l ∈ handed, ∃ loop, l = some loop ∧ Running threadnum created loop
  owner : (∀ i, ¬Running threadnum created (.worker i)) → ∀ l ∈ handed, l = some .owner
  balanced : ∀ i j, Running threadnum created (.worker i) → Running threadnum created (.worker j) →
    handed.count (some (.worker i)) ≤ handed.count (some (.worker j)) + 1

/-- What is handed out in `k` calls. -/
def SharesOut (threadnum : ℤ) (created : ℕ → Bool) (k : ℕ) : Prop :=
  ∃ handed p, (initialized threadnum created).getNextPools k = .ok (handed, p) ∧
    Shared threadnum created handed

/-! ## The turns -/

variable {p : EventLoopThreadPool} {created : ℕ → Bool}

/-- Without threads, the loop of the main thread is handed out. -/
theorem getNextPools_of_nil (hstarted : p.started = true) (hloops : p.loops = []) (k : ℕ) :
    p.getNextPools k = .ok (List.replicate k (some .owner), p) := by
  have hnext : p.getNextPool = .ok (some .owner, p) := by simp [getNextPool, hstarted, hloops]
  induction k with
  | zero => rfl
  | succ k ih =>
    rw [getNextPools, hnext]
    simp only [ih]
    rfl

/-- The calls go through the vector from the index on, again and again. -/
theorem getNextPools_eq (hstarted : p.started = true) (hloops : p.loops.length = p.threadNum)
    (hnext : p.next < p.threadNum) (k : ℕ) :
    ∃ p', p.getNextPools k = .ok ((List.range k).map fun j =>
      p.loops.getD ((p.next + j) % p.threadNum) none, p') := by
  induction k generalizing p with
  | zero => exact ⟨p, rfl⟩
  | succ k ih =>
    have hne : p.loops ≠ [] := by
      rw [← List.length_pos_iff, hloops]
      exact Nat.zero_lt_of_lt hnext
    have hcall : p.getNextPool = .ok (p.loops.getD p.next none,
        { p with next := (p.next + 1) % p.threadNum }) := by
      simp [getNextPool, hstarted, hne]
    obtain ⟨p', hp'⟩ := ih (p := { p with next := (p.next + 1) % p.threadNum }) hstarted hloops
      (Nat.mod_lt _ (Nat.zero_lt_of_lt hnext))
    refine ⟨p', ?_⟩
    rw [getNextPools, hcall]
    simp only [hp', List.range_succ_eq_map, List.map_cons, List.map_map, Nat.add_zero,
      Nat.mod_eq_of_lt hnext]
    have hturn : ∀ j, ((p.next + 1) % p.threadNum + j) % p.threadNum =
        (p.next + (j + 1)) % p.threadNum := by
      intro j
      rw [Nat.mod_add_mod, Nat.add_assoc, Nat.add_comm 1 j]
    simp only [hturn, Function.comp_def, Nat.succ_eq_add_one]

/-- The turn `j` is that of the thread `j % n`. -/
def turn (n : ℕ) (created : ℕ → Bool) (j : ℕ) : Option LoopId :=
  if created (j % n) then some (.worker (j % n)) else none

theorem getNextPools_initialized {n : ℕ} (hn : 0 < n) (created : ℕ → Bool) (k : ℕ) :
    ∃ p, (initialized n created).getNextPools k = .ok ((List.range k).map (turn n created), p) := by
  have hlength : (initialized n created).loops.length = (initialized n created).threadNum := by
    simp [initialized, threadPoolInit, new]
  obtain ⟨p, hp⟩ := getNextPools_eq rfl hlength hn k
  refine ⟨p, hp.trans ?_⟩
  have hturn : ∀ j, (initialized n created).loops.getD (j % n) none = turn n created j := by
    intro j
    simp [initialized, threadPoolInit, new, turn, Nat.mod_lt j hn]
  refine congrArg (fun f => Except.ok ((List.range k).map f, p)) (funext fun j => ?_)
  rw [← hturn]
  exact congrArg (fun i => (initialized n created).loops.getD (i % n) none) (Nat.zero_add j)

/-- A thread that was created has its turn once in a round. -/
theorem count_turn {n i : ℕ} (hi : i < n) (hcreated : created i = true) (k : ℕ) :
    ((List.range k).map (turn n created)).count (some (.worker i)) =
      k / n + if i < k % n then 1 else 0 := by
  have hcount : ((List.range k).map (turn n created)).count (some (.worker i)) =
      k.count (· ≡ i [MOD n]) := by
    induction k with
    | zero => rfl
    | succ k ih =>
      rw [List.range_succ, List.map_append, List.count_append, ih, Nat.count_succ,
        List.map_singleton, List.count_singleton]
      refine congrArg _ (if_congr ?_ rfl rfl)
      rw [beq_iff_eq, turn, Nat.ModEq, Nat.mod_eq_of_lt hi]
      constructor
      · intro h
        split at h
        · cases h
          rfl
        · cases h
      · intro h
        rw [h, if_pos hcreated]
  rw [hcount, Nat.count_modEq_card k (Nat.zero_lt_of_lt hi), Nat.mod_eq_of_lt hi]

/-! ## Which calls go well -/

/-- In turns that all run, no thread is ahead of another one by more than one. -/
theorem shared_turns_iff {n : ℕ} (hn : 0 < n) (created : ℕ → Bool) (k : ℕ) :
    Shared n created ((List.range k).map (turn n created)) ↔
      ∀ i : ℕ, (i : ℤ) < (n : ℤ) → created i = false → k ≤ i := by
  constructor
  · intro h i hi hfailed
    by_contra hk
    have hturn : turn n created i = none := by
      rw [turn, Nat.mod_eq_of_lt (by omega), if_neg (by simp [hfailed])]
    obtain ⟨loop, hloop, -⟩ := h.running (turn n created i)
      (List.mem_map_of_mem (List.mem_range.2 (Nat.not_le.1 hk)))
    rw [hturn] at hloop
    cases hloop
  · intro h
    have hcreated : ∀ j < k, created (j % n) = true := by
      intro j hj
      by_contra hfailed
      have hlt := Nat.mod_lt j hn
      have hle := h (j % n) (by omega) (by simpa using hfailed)
      have := Nat.mod_le j n
      omega
    refine ⟨fun l hl => ?_, fun hnone l hl => ?_, fun i j hi hj => ?_⟩
    · obtain ⟨j, hj, rfl⟩ := List.mem_map.1 hl
      have hj := hcreated j (List.mem_range.1 hj)
      have hlt := Nat.mod_lt j hn
      exact ⟨.worker (j % n), by rw [turn, if_pos hj], by exact ⟨by omega, hj⟩⟩
    · obtain ⟨j, hj, rfl⟩ := List.mem_map.1 hl
      have hlt := Nat.mod_lt j hn
      exact absurd ⟨by omega, hcreated j (List.mem_range.1 hj)⟩ (hnone (j % n))
    · rw [count_turn (by have := hi.1; omega) hi.2, count_turn (by have := hj.1; omega) hj.2]
      split <;> split <;> omega

/-- The loops handed out are running and shared out evenly, exactly if the calls end before
    the turn of a thread that could not be created. -/
theorem sharesOut_iff (threadnum : ℤ) (created : ℕ → Bool) (k : ℕ) :
    SharesOut threadnum created k ↔
      ∀ i : ℕ, i < threadnum → created i = false → k ≤ i := by
  by_cases hn : 0 < threadnum
  · obtain ⟨n, rfl⟩ := Int.eq_ofNat_of_zero_le hn.le
    obtain ⟨p, hp⟩ := getNextPools_initialized (Int.natCast_pos.1 hn) created k
    rw [← shared_turns_iff (Int.natCast_pos.1 hn), SharesOut, hp]
    constructor
    · rintro ⟨handed, p', h, hshared⟩
      cases h
      exact hshared
    · exact fun hshared => ⟨_, p, rfl, hshared⟩
  · have hloops : (initialized threadnum created).loops = [] := by
      simp [initialized, threadPoolInit, new, Int.toNat_of_nonpos (not_lt.1 hn)]
    refine iff_of_true ⟨_, _, getNextPools_of_nil rfl hloops k, ?_⟩ fun i hi => by omega
    refine ⟨fun l hl => ⟨.owner, List.eq_of_mem_replicate hl, trivial⟩,
      fun _ l hl => List.eq_of_mem_replicate hl, fun i j hi => ?_⟩
    have := hi.1
    omega

/-- Of four threads, the second one could not be created. -/
theorem not_sharesOut : ¬∀ (threadnum : ℤ) (created : ℕ → Bool) (k : ℕ),
    SharesOut threadnum created k := by
  intro hall
  obtain ⟨handed, p, h, hshared⟩ := hall 4 (fun i => i ≠ 1) 2
  cases h
  obtain ⟨loop, hloop, -⟩ := hshared.running none (by decide)
  cases hloop

end EventLoopThreadPool

end Webserver
