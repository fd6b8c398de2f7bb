import Mathlib.Data.Set.Card
import Mathlib.Order.Interval.Finset.Nat
import Webserver.Loop.Serving

/-!
# How many connections the server holds

`handleNewConn` closes a connection at once whose descriptor is beyond the limit. So the
server never holds more connections than that, in all its loops together; and as a
descriptor that it returns without handing over is never closed, there is room for one less
from then on.

* `Server.Limited`: the invariant.
* `Server.limit_of_steps`: the limit, at any time and for what follows.
-/

namespace Webserver

open Transition

namespace Server

variable {s s' : Server} {e : Event} {threadnum : ℕ} {created : ℕ → Bool}

/-- The connections of the server: those that wait in a loop, and those registered there. -/
def connections (s : Server) : Set Fd :=
  {fd | ∃ l, s.At fd (.waiting l) ∨ s.At fd (.registered l)}

/-- The descriptors open are within the limit, and none has been left over twice. -/
structure Limited (s : Server) : Prop where
  le : ∀ fd ∈ s.fds, (fd : ℤ) ≤ Acceptor.MAXFDS
  nodup : s.abandoned.Nodup

/-- A step of a thread keeps the descriptors within the limit, and closes none of those
    that are left over. -/
theorem Limited.step (hs : s.Limited) (hinv : s.Inv) (hstep : Step s e s') :
    s'.Limited ∧ s.abandoned <+: s'.abandoned := by
  obtain ⟨f, -, hlives⟩ := hinv.lives
  rcases hstep with ⟨-, hle, -, -, -⟩ | ⟨-, hle, hfd⟩ | - | - | -
  · refine ⟨⟨fun fd' hfd' => ?_, hs.nodup⟩, List.prefix_rfl⟩
    rcases hfd' with rfl | hfd'
    · exact hle
    · exact hs.le fd' hfd'
  · refine ⟨⟨fun fd' hfd' => ?_, hs.nodup.append (List.nodup_singleton _) ?_⟩,
      List.prefix_append _ _⟩
    · rcases hfd' with rfl | hfd'
      · exact hle
      · exact hs.le fd' hfd'
    · exact List.disjoint_singleton.2 (hlives.not_at hfd .abandoned)
  · exact ⟨⟨hs.le, hs.nodup⟩, List.prefix_rfl⟩
  · exact ⟨⟨hs.le, hs.nodup⟩, List.prefix_rfl⟩
  · exact ⟨⟨fun fd hfd => hs.le fd hfd.1, hs.nodup⟩, List.prefix_rfl⟩

theorem limited_of_reachable (hs : (system threadnum created).Reachable s) : s.Limited := by
  refine hs.invariant (fun s hs => ?_) fun s e s' hreach hs _ hst =>
    (hs.step (inv_of_reachable hreach) hst).1
  obtain ⟨threadId, rfl⟩ := hs
  exact ⟨fun fd hfd => hfd.elim, List.nodup_nil⟩

/-- The connections and the descriptors left over are different ones. -/
theorem Limited.ncard_le (hs : s.Limited) (hinv : s.Inv) :
    s.connections.Finite ∧ s.connections.ncard + s.abandoned.length ≤ 4096 := by
  obtain ⟨f, -, hlives⟩ := hinv.lives
  have hopen : ∀ {fd p}, s.At fd p → fd ∈ Finset.Icc 1 4096 := fun {fd p} hat => by
    have hfd : fd ∈ s.fds := by
      rw [hlives.fds_iff, (hlives.at_iff fd p).1 hat]
      exact Option.some_ne_none p
    have hle : (fd : ℤ) ≤ 4096 := hs.le fd hfd
    rw [Finset.mem_Icc]
    exact ⟨hlives.pos fd hfd, Int.ofNat_le.1 hle⟩
  have hsub : s.connections ∪ {fd | fd ∈ s.abandoned} ⊆ (Finset.Icc 1 4096 : Finset Fd) := by
    rintro fd (⟨l, hwaiting | hregistered⟩ | habandoned)
    · exact hopen hwaiting
    · exact hopen hregistered
    · exact hopen (p := .abandoned) habandoned
  have hfinite := (Finset.finite_toSet _).subset hsub
  have hdisjoint : Disjoint s.connections {fd | fd ∈ s.abandoned} := by
    refine Set.disjoint_left.2 fun fd hfd habandoned => ?_
    have habandoned : s.At fd .abandoned := habandoned
    obtain ⟨l, hwaiting | hregistered⟩ := hfd
    · exact Place.noConfusion (hlives.eq_of_at habandoned hwaiting)
    · exact Place.noConfusion (hlives.eq_of_at habandoned hregistered)
  have hfinite' : s.connections.Finite := hfinite.subset Set.subset_union_left
  refine ⟨hfinite', ?_⟩
  have hleft : {fd | fd ∈ s.abandoned}.ncard = s.abandoned.length := by
    have hset : {fd | fd ∈ s.abandoned} = (s.abandoned.toFinset : Set Fd) := by
      ext fd
      simp
    rw [hset, Set.ncard_coe_finset, List.toFinset_card_of_nodup hs.nodup]
  have hcard := Set.ncard_le_ncard hsub (Finset.finite_toSet _)
  rw [Set.ncard_union_eq hdisjoint hfinite' (hfinite.subset Set.subset_union_right), hleft,
    Set.ncard_coe_finset, Nat.card_Icc] at hcard
  exact hcard

/-- At any time of any run, and whatever follows, the server holds no more than 4096
    connections, less the descriptors that have been left over by then. -/
theorem limit_of_steps (hs : (system threadnum created).Reachable s) {es : List Event}
    (hsteps : (system threadnum created).Steps s es s') :
    s.abandoned <+: s'.abandoned ∧ s'.connections.Finite ∧
      s'.connections.ncard + s.abandoned.length ≤ 4096 := by
  have hkept : s.abandoned <+: s'.abandoned := by
    induction hsteps with
    | nil => exact List.prefix_rfl
    | cons hst _ ih =>
      have hfirst := ((limited_of_reachable hs).step (inv_of_reachable hs) hst).2
      exact hfirst.trans (ih (.step hs trivial hst))
  have hs' := hs.steps hsteps
  obtain ⟨hfinite, hle⟩ := (limited_of_reachable hs').ncard_le (inv_of_reachable hs')
  have hlength := hkept.length_le
  exact ⟨hkept, hfinite, by omega⟩

/-- After a descriptor has been left over, a connection is accepted. -/
theorem exists_abandoned : ∃ s s' : Server, (system 4 fun _ => true).Reachable s ∧
    (system 4 fun _ => true).Steps s [.accept 8] s' ∧ s.abandoned = [7] ∧
      s'.At 8 (.waiting (.worker 0)) := by
  have h₀ : (system 4 fun _ => true).Reachable (start 4 (fun _ => true) threadIds) :=
    .init (Set.mem_range_self threadIds)
  have h₁ := System.ReachableBy.step h₀ trivial
    (.abandon (by decide) (by decide) (Set.notMem_empty 7))
  refine ⟨_, _, h₁, .single (.accept (l := .worker 0) (by decide) (by decide) ?_ rfl ?_), rfl,
    List.mem_singleton_self 8⟩
  · simp [abandon, start]
  · exact ⟨rfl, fun h => by cases h⟩

theorem limit_of_steps_abandoned : ∃ s s' : Server, s.abandoned = [7] ∧ 8 ∈ s'.connections ∧
    s.abandoned <+: s'.abandoned ∧ s'.connections.Finite ∧
      s'.connections.ncard + s.abandoned.length ≤ 4096 := by
  obtain ⟨s, s', hs, hsteps, habandoned, hwaiting⟩ := exists_abandoned
  exact ⟨s, s', habandoned, ⟨_, .inl hwaiting⟩, limit_of_steps hs hsteps⟩

end Server

end Webserver
