import Webserver.Loop.Kernel
import Webserver.Loop.Sweep

/-!
# Destroying a loop

What is destroyed with an `EventLoop` before its poller holds no connection. The
destructor of `EPollPoller` closes the epoll descriptor, and only then its members are
destroyed, the timer first: each node of the queue that still holds a connection closes
it, which removes a channel from the very poller.

* `Registry.tornDown_iff`: so this ends well only if no connection is left.
* `Registry.exists_destroyTimer_of_calls`: with the descriptor still open, the timer could be
  destroyed in every state.
-/

namespace Webserver

open Transition

namespace Registry

/-- A loop that is being destroyed: its connections, and whether the epoll descriptor is
    still open. -/
structure Teardown where
  registry : Registry
  epollOpen : Bool

namespace Teardown

/-- The destructor of a node of the queue. `removeChannel` asserts that `epoll_ctl`
    succeeds, which it does not on a descriptor that is closed. -/
def destroyNode (t : Teardown) (node : TimerNode) : Except Fault Teardown :=
  if node.ownHttp ≠ none ∧ ¬t.epollOpen then .error .assertFailed
  else
    match (t.registry.pop node).destroy node with
    | .error f => .error f
    | .ok s => .ok { t with registry := s }

/-- The destructor of `Timer`: the nodes of the queue, in some order. -/
def destroyTimer (t : Teardown) (order : List TimerNode) : Except Fault Teardown :=
  order.foldlM destroyNode t

/-- The tables of the poller let go of channels and connections. -/
def destroyTables (t : Teardown) : Teardown :=
  { t with
    registry.poller.httpdatas := fun _ => none
    registry.poller.channels := fun _ => none }

/-- The destructor of `EPollPoller`: its body, and its members, the last one first. -/
def destroyPoller (t : Teardown) (order : List TimerNode) : Except Fault Teardown :=
  match { t with epollOpen := false }.destroyTimer order with
  | .error f => .error f
  | .ok t => .ok t.destroyTables

end Teardown

/-- The destructor of `EventLoop`, whose other members hold no connection. -/
def destroyEventLoop (s : Registry) (order : List TimerNode) : Except Fault Teardown :=
  Teardown.destroyPoller ⟨s, true⟩ order

/-! ## Clean destruction -/

/-- The connections registered have been closed, each once, and there is no node left that
    could hold one. -/
structure Clean (s : Registry) (t : Teardown) : Prop where
  closed : ∃ ids, t.registry.closed = s.closed ++ ids ∧ ids.Nodup ∧
    ∀ id, id ∈ ids ↔ ∃ fd, s.poller.channels fd = some (.http id)
  queue : t.registry.queue = []

/-- The loop is destroyed without a failed assertion, and cleanly. -/
def TornDown (s : Registry) (order : List TimerNode) : Prop :=
  ∃ t, s.destroyEventLoop order = .ok t ∧ Clean s t

variable {s : Registry} {t : Teardown} {order : List TimerNode}

/-- The nodes hold the connections registered. -/
theorem Inv.mem_filterMap_iff (hs : Inv s) {id : HttpId} :
    id ∈ s.queue.filterMap TimerNode.ownHttp ↔ ∃ fd, s.poller.channels fd = some (.http id) := by
  rw [List.mem_filterMap]
  constructor
  · rintro ⟨node, hnode, hown⟩
    obtain ⟨h, -, -, hfd⟩ := hs.exists_http hnode hown
    exact ⟨_, (hs.consistent.registered _ _).2 hfd⟩
  · rintro ⟨fd, hfd⟩
    rw [hs.consistent.registered] at hfd
    obtain ⟨timer, hholder⟩ := hs.consistent.fds fd id hfd
    obtain ⟨node, hnode, -, hown, -⟩ :=
      hs.owned.held fd id timer hfd hholder (Option.some_ne_none _)
    exact ⟨node, hnode, hown⟩

/-- Destruction is clean if it closes what the nodes hold. -/
theorem Inv.clean (hs : Inv s) (horder : order.Perm s.queue)
    (hclosed : t.registry.closed = s.closed ++ order.filterMap TimerNode.ownHttp)
    (hqueue : t.registry.queue = []) : Clean s t := by
  have hperm := horder.filterMap TimerNode.ownHttp
  refine ⟨⟨_, hclosed, ?_, fun id => ?_⟩, hqueue⟩
  · exact hperm.nodup_iff.2 hs.mixed.nodup
  · rw [hperm.mem_iff, hs.mem_filterMap_iff]

/-! ## An open descriptor -/

namespace Teardown

theorem destroyNode_of_open {node : TimerNode} {s' : Registry}
    (h : node.ownHttp = none ∨ t.epollOpen = true)
    (hdestroy : (t.registry.pop node).destroy node = .ok s') :
    t.destroyNode node = .ok { t with registry := s' } := by
  rw [destroyNode, if_neg, hdestroy]
  rintro ⟨hown, hopen⟩
  exact h.elim hown hopen

end Teardown

/-- If the descriptor is open, the nodes can be destroyed in any order. -/
theorem Inv.exists_destroyTimer (hs : Inv s) (hp : s.poller.Matches)
    (horder : order.Perm s.queue) :
    ∃ t, Teardown.destroyTimer ⟨s, true⟩ order = .ok t ∧ Clean s t := by
  suffices h : ∃ t, Teardown.destroyTimer ⟨s, true⟩ order = .ok t ∧ t.registry.queue = [] ∧
      t.registry.closed = s.closed ++ order.filterMap TimerNode.ownHttp by
    obtain ⟨t, ht, hqueue, hclosed⟩ := h
    exact ⟨t, ht, hs.clean horder hclosed hqueue⟩
  induction order generalizing s with
  | nil => exact ⟨_, rfl, horder.symm.eq_nil, (List.append_nil _).symm⟩
  | cons node order ih =>
    have hnode : node ∈ s.queue := horder.subset List.mem_cons_self
    obtain ⟨s₁, hdestroy, hp₁⟩ := exists_destroy hs hp hnode rfl
    obtain ⟨hs₁, hqueue, -⟩ := hs.destroy hnode rfl hdestroy
    have hclosed := hs.destroy_closed hnode rfl hdestroy
    have hrest : order.Perm s₁.queue := by
      rw [hqueue]
      exact (List.cons_perm_iff_perm_erase.1 horder).2
    obtain ⟨t, ht, hempty, hall⟩ := ih hs₁ hp₁ hrest
    refine ⟨t, ?_, hempty, ?_⟩
    · rw [Teardown.destroyTimer, List.foldlM_cons,
        Teardown.destroyNode_of_open (.inr rfl) hdestroy]
      exact ht
    · rw [hall, hclosed, List.append_assoc]
      cases hown : node.ownHttp with
      | none => rw [List.filterMap_cons_none hown]; rfl
      | some id => rw [List.filterMap_cons_some hown]; rfl

/-- The timer could be destroyed in every state, before the descriptor is closed. -/
theorem exists_destroyTimer_of_calls (hs : (calls Reported).Reachable s)
    (horder : order.Perm s.queue) :
    ∃ t, Teardown.destroyTimer ⟨s, true⟩ order = .ok t ∧ Clean s t :=
  (inv_of_calls hs).exists_destroyTimer (matches_of_calls hs) horder

/-! ## A closed descriptor -/

namespace Teardown

/-- A node that holds a connection cannot be destroyed. -/
theorem destroyTimer_of_held (hclosed : t.epollOpen = false)
    (hheld : order.filterMap TimerNode.ownHttp ≠ []) :
    t.destroyTimer order = .error .assertFailed := by
  induction order generalizing t with
  | nil => exact absurd rfl hheld
  | cons node order ih =>
    rw [destroyTimer, List.foldlM_cons]
    cases hown : node.ownHttp with
    | none =>
      rw [List.filterMap_cons_none hown] at hheld
      have hdestroy : (t.registry.pop node).destroy node = .ok (t.registry.pop node) := by
        rw [Registry.destroy, hown]
      rw [destroyNode_of_open (.inl hown) hdestroy]
      exact ih (by exact hclosed) hheld
    | some id =>
      have hheld : node.ownHttp ≠ none := by simp [hown]
      rw [destroyNode, if_pos ⟨hheld, by simp [hclosed]⟩]
      rfl

/-- Nodes that hold none are just taken out of the queue. -/
theorem destroyTimer_of_not_held (horder : order.Perm t.registry.queue)
    (hheld : order.filterMap TimerNode.ownHttp = []) :
    ∃ t', t.destroyTimer order = .ok t' ∧ t'.registry.queue = [] ∧
      t'.registry.closed = t.registry.closed := by
  induction order generalizing t with
  | nil => exact ⟨_, rfl, horder.symm.eq_nil, rfl⟩
  | cons node order ih =>
    have hown : node.ownHttp = none := List.filterMap_eq_nil_iff.1 hheld node List.mem_cons_self
    have hdestroy : (t.registry.pop node).destroy node = .ok (t.registry.pop node) := by
      rw [Registry.destroy, hown]
    rw [List.filterMap_cons_none hown] at hheld
    obtain ⟨t', ht', hqueue, hclosed⟩ := ih (t := { t with registry := t.registry.pop node })
      (List.cons_perm_iff_perm_erase.1 horder).2 hheld
    refine ⟨t', ?_, hqueue, hclosed⟩
    rw [destroyTimer, List.foldlM_cons, destroyNode_of_open (.inl hown) hdestroy]
    exact ht'

end Teardown

theorem Inv.tornDown (hs : Inv s) (horder : order.Perm s.queue) :
    s.TornDown order ↔ ∀ fd id, s.poller.channels fd ≠ some (.http id) := by
  have hnone : order.filterMap TimerNode.ownHttp = [] ↔
      ∀ fd id, s.poller.channels fd ≠ some (.http id) := by
    simp only [List.eq_nil_iff_forall_not_mem, (horder.filterMap _).mem_iff, hs.mem_filterMap_iff,
      not_exists]
    exact forall_comm
  rw [← hnone]
  constructor
  · rintro ⟨t, ht, -⟩
    by_contra hheld
    rw [destroyEventLoop, Teardown.destroyPoller, Teardown.destroyTimer_of_held rfl hheld] at ht
    cases ht
  · intro hheld
    obtain ⟨t, ht, hqueue, hclosed⟩ :=
      Teardown.destroyTimer_of_not_held (t := ⟨s, false⟩) horder hheld
    refine ⟨t.destroyTables, ?_, hs.clean horder ?_ hqueue⟩
    · rw [destroyEventLoop, Teardown.destroyPoller, ht]
    · rw [hheld, List.append_nil]
      exact hclosed

/-- A loop can be destroyed cleanly if and only if no connection is registered. -/
theorem tornDown_iff (hs : system.Reachable s) (horder : order.Perm s.queue) :
    s.TornDown order ↔ ∀ fd id, s.poller.channels fd ≠ some (.http id) :=
  (inv_of_reachable hs).tornDown horder

theorem tornDown_iff_one :
    ∃ s, system.Reachable s ∧ s.poller.channels 5 = some (.http 0) ∧
      (s.TornDown s.queue ↔ ∀ fd id, s.poller.channels fd ≠ some (.http id)) := by
  obtain ⟨s, hs, hfd⟩ := exists_registered_reachable
  exact ⟨s, reachable_of_calls hs, hfd, tornDown_iff (reachable_of_calls hs) (.refl _)⟩

theorem not_tornDown :
    ¬∀ s, system.Reachable s → ∀ order : List TimerNode, order.Perm s.queue →
      s.TornDown order := by
  intro hall
  obtain ⟨s, hs, hfd⟩ := exists_registered_reachable
  have hclean := hall s (reachable_of_calls hs) s.queue (.refl _)
  exact ((inv_of_calls hs).tornDown (.refl _)).1 hclean 5 0 hfd

end Registry

end Webserver
