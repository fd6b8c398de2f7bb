import Webserver.Expiry
import Webserver.Loop.Ownership

/-!
# Sweeping the expired timers

`Timer::handleExpiredEvent` takes nodes off the top of its queue as long as they are
deleted or expired. A node that is destroyed with an `HttpData` closes it.

* `Timer.handleExpiredEvent_swept`: what a sweep does, round by round.
* `Timer.handleExpiredEvent_exact`: it closes what had expired when it began, each
  once, and nothing that has not expired when it ends.
* `Registry.handleExpired_eq`: the sweep of a loop closes what this one does.
-/

namespace Webserver

open MinQueue

namespace Timer

/-- What a sweep leaves in the queue and what it closes, and how often it has taken a
    node and has read the clock. -/
structure Sweep where
  queue : List TimerNode
  closed : List HttpId
  rounds : ℕ
  readings : ℕ

/-- The sweep with a round before it, in which a node is destroyed. -/
def Sweep.after (s : Sweep) (node : TimerNode) (readings : ℕ) : Sweep :=
  { s with
    closed := node.ownHttp.toList ++ s.closed
    rounds := s.rounds + 1
    readings := s.readings + readings }

/-- `Timer::handleExpiredEvent`. Closing a connection adds no timer. -/
def handleExpiredEvent (top : ℕ → Top TimerNode.expiredTime) (clock : ℕ → Timeval)
    (queue : List TimerNode) : Except Fault Sweep :=
  match _htop : (top 0).top queue with
  | none => .ok ⟨queue, [], 0, 0⟩
  | some node =>
    if node.deleted then
      (handleExpiredEvent (fun n => top (n + 1)) clock (queue.erase node)).map (·.after node 0)
    else
      let (valid, expired) := node.isVaild (clock 0)
      if valid then .ok ⟨queue, [], 0, 1⟩
      -- The message about the connection reads its descriptor.
      else if node.ownHttp = none then .error .nullDereference
      else
        (handleExpiredEvent (fun n => top (n + 1)) (fun n => clock (n + 1))
          (queue.erase node)).map (·.after expired 1)
termination_by queue.length
decreasing_by all_goals exact (top 0).length_erase_lt _htop

/-- Successive readings of the clock, which has not wrapped between them. -/
structure Steady (clock : ℕ → Timeval) : Prop where
  valid : ∀ i, (clock i).Valid
  notAfter : ∀ i j, i ≤ j → (clock i).NotAfter (clock j)
  wraps : ∀ i, (clock 0).wraps (clock i) = 0

/-- The nodes of a queue are live, each with an `HttpData` of its own, or cleared. -/
structure Mixed (queue : List TimerNode) : Prop where
  node : ∀ node ∈ queue, node.deleted = true ∧ node.ownHttp = none ∨
    node.deleted = false ∧ node.ownHttp ≠ none
  nodup : (queue.filterMap TimerNode.ownHttp).Nodup

/-- What a sweep has done: which nodes it has taken off the top, and why it has
    stopped. -/
structure Swept (top : ℕ → Top TimerNode.expiredTime) (clock : ℕ → Timeval)
    (queue popped : List TimerNode) (s : Sweep) : Prop where
  pops : Pops top queue popped s.queue
  rounds : s.rounds = popped.length
  closed : s.closed = popped.filterMap TimerNode.ownHttp
  expired : ∀ node ∈ popped, node.deleted = true ∨
    ∃ k < s.readings, node.expiredTime ≤ (clock k).clock
  stopped : s.queue ≠ [] → ∃ node, (top s.rounds).top s.queue = some node ∧
    node.deleted = false ∧ 0 < s.readings ∧ (clock (s.readings - 1)).clock < node.expiredTime

section Sweep

variable {top : ℕ → Top TimerNode.expiredTime} {clock : ℕ → Timeval}
  {queue popped : List TimerNode} {node : TimerNode} {s : Sweep}

theorem Mixed.ownHttp_ne_none (hqueue : Mixed queue) :
    ∀ node ∈ queue, node.deleted = false → node.ownHttp ≠ none :=
  fun node hnode hlive => ((hqueue.node node hnode).resolve_left (by simp [hlive])).2

/-- The clock does not go back. -/
theorem Steady.clock_le (h : Steady clock) {i j : ℕ} (hij : i ≤ j) :
    (clock i).clock ≤ (clock j).clock := by
  have hi := (clock i).clock_add
  have hj := (clock j).clock_add
  have hvalid₀ := h.valid 0
  have hvalidi := h.valid i
  have hvalidj := h.valid j
  have hle := h.notAfter i j hij
  have hi₀ := h.notAfter 0 i (Nat.zero_le i)
  have hj₀ := h.notAfter 0 j (Nat.zero_le j)
  have hwi := h.wraps i
  have hwj := h.wraps j
  simp only [Timeval.Valid, Timeval.NotAfter, Timeval.wraps, Timeval.ms] at *
  omega

theorem isVaild_eq_false {now : Timeval} {valid : Bool} {expired : TimerNode}
    (h : node.isVaild now = (valid, expired)) (hvalid : ¬valid = true) :
    expired = node.setDeleted ∧ node.expiredTime ≤ now.clock := by
  rw [TimerNode.isVaild] at h
  split at h
  · cases h
    exact absurd rfl hvalid
  · next hle =>
    cases h
    exact ⟨rfl, Nat.le_of_not_lt hle⟩

/-- A round that takes a deleted node. -/
theorem Swept.deleted (htop : (top 0).top queue = some node) (hdeleted : node.deleted = true)
    (h : Swept (fun n => top (n + 1)) clock (queue.erase node) popped s) :
    Swept top clock queue (node :: popped) (s.after node 0) where
  pops := .cons htop h.pops
  rounds := congrArg (· + 1) h.rounds
  closed := by
    rw [List.filterMap_cons, Sweep.after, h.closed]
    cases node.ownHttp <;> rfl
  expired := List.forall_mem_cons.2 ⟨.inl hdeleted, h.expired⟩
  stopped := h.stopped

/-- A round that takes an expired node. -/
theorem Swept.expire (htop : (top 0).top queue = some node)
    (hexpired : node.expiredTime ≤ (clock 0).clock)
    (h : Swept (fun n => top (n + 1)) (fun n => clock (n + 1)) (queue.erase node) popped s) :
    Swept top clock queue (node :: popped) (s.after node.setDeleted 1) where
  pops := .cons htop h.pops
  rounds := congrArg (· + 1) h.rounds
  closed := by
    rw [List.filterMap_cons, Sweep.after, h.closed, TimerNode.setDeleted]
    cases node.ownHttp <;> rfl
  expired := by
    refine List.forall_mem_cons.2 ⟨.inr ⟨0, Nat.succ_pos _, hexpired⟩, fun n hn => ?_⟩
    refine (h.expired n hn).imp_right ?_
    rintro ⟨k, hk, hle⟩
    exact ⟨k + 1, Nat.succ_lt_succ hk, hle⟩
  stopped hne := by
    obtain ⟨n, hn, hlive, hpos, hlt⟩ := h.stopped hne
    refine ⟨n, hn, hlive, Nat.succ_pos _, ?_⟩
    rwa [Nat.sub_add_cancel hpos] at hlt

theorem handleExpiredEvent_of_none (htop : (top 0).top queue = none) :
    handleExpiredEvent top clock queue = .ok ⟨queue, [], 0, 0⟩ := by
  rw [handleExpiredEvent]
  split
  · rfl
  · next h => cases h.symm.trans htop

theorem handleExpiredEvent_of_some (htop : (top 0).top queue = some node) :
    handleExpiredEvent top clock queue =
      if node.deleted then
        (handleExpiredEvent (fun n => top (n + 1)) clock (queue.erase node)).map (·.after node 0)
      else if (node.isVaild (clock 0)).1 then .ok ⟨queue, [], 0, 1⟩
      else if node.ownHttp = none then .error .nullDereference
      else
        (handleExpiredEvent (fun n => top (n + 1)) (fun n => clock (n + 1))
          (queue.erase node)).map (·.after (node.isVaild (clock 0)).2 1) := by
  rw [handleExpiredEvent]
  split
  · next h => cases h.symm.trans htop
  · next h =>
    obtain rfl := Option.some.inj (h.symm.trans htop)
    rfl

/-- A sweep comes to its end, if every node that is not deleted has an `HttpData`. -/
theorem handleExpiredEvent_swept (top : ℕ → Top TimerNode.expiredTime) (clock : ℕ → Timeval)
    (hlive : ∀ node ∈ queue, node.deleted = false → node.ownHttp ≠ none) :
    ∃ popped s, handleExpiredEvent top clock queue = .ok s ∧ Swept top clock queue popped s := by
  fun_induction handleExpiredEvent top clock queue with
  | case1 top clock queue htop =>
    obtain rfl := (top 0).nil_of_none htop
    exact ⟨[], _, rfl, .nil _ _, rfl, rfl, by simp, fun h => absurd rfl h⟩
  | case2 top clock queue node htop hdeleted ih =>
    obtain ⟨popped, s, hs, hswept⟩ := ih fun n hn => hlive n (List.mem_of_mem_erase hn)
    exact ⟨node :: popped, s.after node 0, by rw [hs]; rfl, hswept.deleted htop hdeleted⟩
  | case3 top clock queue node htop hdeleted expired hvalid =>
    have hlt : (clock 0).clock < node.expiredTime := TimerNode.isVaild_iff.1 (by rw [hvalid])
    refine ⟨[], _, rfl, .nil _ _, rfl, rfl, by simp, fun _ => ⟨node, htop, ?_, Nat.one_pos, hlt⟩⟩
    exact Bool.not_eq_true _ ▸ hdeleted
  | case4 top clock queue node htop hdeleted valid expired hvalid hfalse hown =>
    exact absurd hown (hlive node ((top 0).mem htop) (Bool.not_eq_true _ ▸ hdeleted))
  | case5 top clock queue node htop hdeleted valid expired hvalid hfalse hown ih =>
    obtain ⟨popped, s, hs, hswept⟩ := ih fun n hn => hlive n (List.mem_of_mem_erase hn)
    obtain ⟨rfl, hle⟩ := isVaild_eq_false hvalid hfalse
    exact ⟨node :: popped, s.after node.setDeleted 1, by rw [hs]; rfl, hswept.expire htop hle⟩

/-- The last reading of the clock. -/
def Sweep.last (s : Sweep) (clock : ℕ → Timeval) : ℕ := (clock (s.readings - 1)).clock

/-- Of the live nodes, those that have expired when the sweep begins are taken out and
    their `HttpData` closed once, and those that have not expired when it ends are left;
    nothing else is closed. What is on top then is live and has not expired. -/
structure Exact (top : ℕ → Top TimerNode.expiredTime) (clock : ℕ → Timeval)
    (queue : List TimerNode) (s : Sweep) : Prop where
  expired : ∀ node ∈ queue, node.deleted = false → node.expiredTime ≤ (clock 0).clock →
    node ∉ s.queue ∧ ∃ id, node.ownHttp = some id ∧ s.closed.count id = 1
  unexpired : ∀ node ∈ queue, node.deleted = false → s.last clock < node.expiredTime →
    node ∈ s.queue ∧ ∀ id, node.ownHttp = some id → id ∉ s.closed
  closed : ∀ id ∈ s.closed, ∃ node ∈ queue, node.deleted = false ∧ node.ownHttp = some id ∧
    node.expiredTime ≤ s.last clock
  top : s.queue ≠ [] → ∃ node, (top s.rounds).top s.queue = some node ∧ node.deleted = false ∧
    s.last clock < node.expiredTime

/-- What is taken off the top and is not deleted has expired. -/
theorem Swept.le_last (hclock : Steady clock) (h : Swept top clock queue popped s)
    (hnode : node ∈ popped) (hlive : node.deleted = false) :
    node.expiredTime ≤ s.last clock := by
  obtain ⟨k, hk, hle⟩ := (h.expired node hnode).resolve_left (by simp [hlive])
  exact hle.trans (hclock.clock_le (Nat.le_sub_one_of_lt hk))

theorem Swept.nodup (hqueue : Mixed queue) (h : Swept top clock queue popped s) :
    (s.closed ++ s.queue.filterMap TimerNode.ownHttp).Nodup := by
  rw [h.closed, ← List.filterMap_append]
  exact (h.pops.perm.filterMap _).nodup_iff.1 hqueue.nodup

theorem Swept.exact (hclock : Steady clock) (hqueue : Mixed queue)
    (h : Swept top clock queue popped s) : Exact top clock queue s where
  expired node hnode hlive hle := by
    have hmem : node ∈ popped ∧ node ∉ s.queue := by
      by_cases hnil : s.queue = []
      · rw [hnil]
        have hpopped := h.pops.perm.mem_iff.1 hnode
        rw [hnil, List.append_nil] at hpopped
        exact ⟨hpopped, List.not_mem_nil⟩
      · -- The node on top in the end expires later than this one.
        obtain ⟨a, htop, -, -, hlt⟩ := h.stopped hnil
        refine h.pops.mem_of_lt (h.rounds ▸ htop) hnode ?_
        exact hle.trans_lt ((hclock.clock_le (Nat.zero_le _)).trans_lt hlt)
    obtain ⟨id, hid⟩ := Option.ne_none_iff_exists'.1 (hqueue.ownHttp_ne_none node hnode hlive)
    refine ⟨hmem.2, id, hid, List.count_eq_one_of_mem (h.nodup hqueue).of_append_left ?_⟩
    rw [h.closed]
    exact List.mem_filterMap.2 ⟨node, hmem.1, hid⟩
  unexpired node hnode hlive hlt := by
    have hleft : node ∈ s.queue := by
      refine (List.mem_append.1 (h.pops.perm.mem_iff.1 hnode)).resolve_left fun hpopped => ?_
      exact absurd (h.le_last hclock hpopped hlive) (Nat.not_le_of_lt hlt)
    refine ⟨hleft, fun id hid hclosed => ?_⟩
    exact List.disjoint_of_nodup_append (h.nodup hqueue) hclosed
      (List.mem_filterMap.2 ⟨node, hleft, hid⟩)
  closed id hid := by
    rw [h.closed] at hid
    obtain ⟨node, hnode, hown⟩ := List.mem_filterMap.1 hid
    have hmem : node ∈ queue := h.pops.perm.mem_iff.2 (List.mem_append_left _ hnode)
    have hlive := ((hqueue.node node hmem).resolve_left (by simp [hown])).1
    exact ⟨node, hmem, hlive, hown, h.le_last hclock hnode hlive⟩
  top hne := by
    obtain ⟨node, htop, hlive, -, hlt⟩ := h.stopped hne
    exact ⟨node, htop, hlive, hlt⟩

/-- The sweep is exact, whatever the queue holds and whatever the clock reads. -/
theorem handleExpiredEvent_exact (top : ℕ → Top TimerNode.expiredTime) (hclock : Steady clock)
    (hqueue : Mixed queue) :
    ∃ s, handleExpiredEvent top clock queue = .ok s ∧ Exact top clock queue s := by
  obtain ⟨popped, s, hs, hswept⟩ := handleExpiredEvent_swept top clock hqueue.ownHttp_ne_none
  exact ⟨s, hs, hswept.exact hclock hqueue⟩

end Sweep

/-- Two live nodes, one of which has expired, and a cleared one between them. -/
def three : List TimerNode :=
  [⟨0, 2000, some 0, false⟩, ⟨1, 4000, none, true⟩, ⟨2, 5000, some 1, false⟩]

theorem handleExpiredEvent_exact_three :
    ∃ s, handleExpiredEvent (fun _ => .first _) (fun _ => ⟨4, 500000⟩) three = .ok s ∧
      Exact (fun _ => .first _) (fun _ => ⟨4, 500000⟩) three s :=
  handleExpiredEvent_exact _
    ⟨fun _ => by simp [Timeval.Valid], fun _ _ _ => Nat.le_refl _, fun _ => Nat.sub_self _⟩
    ⟨by simp [three], by simp [three]⟩

end Timer

/-! ## The sweep of a loop -/

namespace Registry

open Timer

variable {s s' : Registry} {top : ℕ → Top TimerNode.expiredTime} {clock : ℕ → Timeval}

/-- Between two phases, the nodes of a loop are such as a sweep needs. -/
theorem Inv.mixed (hs : Inv s) : Mixed s.queue where
  node node hnode := by
    cases hdeleted : node.deleted with
    | true => exact .inl ⟨rfl, hs.owned.cleared node hnode hdeleted⟩
    | false =>
      obtain ⟨id, fd, hown, -, -, -⟩ := hs.owned.live node hnode hdeleted
      exact .inr ⟨rfl, by simp [hown]⟩
  nodup := by
    rw [List.Nodup, List.pairwise_filterMap]
    refine (List.pairwise_map.1 hs.owned.nodup).imp_of_mem fun {a b} ha hb hne id hid id' hid' => ?_
    rintro rfl
    -- An `HttpData` has one timer only.
    obtain ⟨ida, fda, howna, -, hholda, -⟩ :=
      hs.owned.live a ha (hs.owned.deleted_eq_false ha hid)
    obtain ⟨idb, fdb, hownb, -, hholdb, -⟩ :=
      hs.owned.live b hb (hs.owned.deleted_eq_false hb hid')
    obtain rfl : id = ida := Option.some.inj (hid.symm.trans howna)
    obtain rfl : id = idb := Option.some.inj (hid'.symm.trans hownb)
    have hholds := hholda.symm.trans hholdb
    rw [Option.some.injEq, Prod.mk.injEq, Option.some.injEq] at hholds
    exact hne hholds.2

theorem Inv.destroy_closed (hs : Inv s) {node expired : TimerNode} (hnode : node ∈ s.queue)
    (hown : expired.ownHttp = node.ownHttp) (h : (s.pop node).destroy expired = .ok s') :
    s'.closed = s.closed ++ expired.ownHttp.toList := by
  rw [Registry.destroy, hown] at h
  rw [hown]
  cases hid : node.ownHttp with
  | none =>
    rw [hid] at h
    cases h
    exact (List.append_nil _).symm
  | some id =>
    obtain ⟨http, hhttp, rfl, -⟩ := hs.exists_http hnode hid
    have hhttp : (s.pop node).https http.id = some http := hhttp
    simp only [hid, hhttp] at h
    split at h
    · cases h
    · next hclose =>
      cases h
      exact (Conn.handleClose_dropped hclose).closed

/-- The sweep of a loop leaves and closes what the sweep of its timers does. -/
theorem Inv.handleExpired_eq (hs : Inv s) (h : s.handleExpired top clock = .ok s') :
    ∃ sweep, handleExpiredEvent top clock s.queue = .ok sweep ∧ s'.queue = sweep.queue ∧
      s'.closed = s.closed ++ sweep.closed := by
  fun_induction Registry.handleExpired top clock s with
  | case1 top clock s htop =>
    cases h
    exact ⟨_, handleExpiredEvent_of_none htop, rfl, (List.append_nil _).symm⟩
  | case3 top clock s node htop hdeleted s₁ hdestroy ih =>
    have hnode : node ∈ s.queue := (top 0).mem htop
    obtain ⟨hs₁, hqueue, -⟩ := hs.destroy hnode rfl hdestroy
    obtain ⟨sweep, hsweep, hleft, hclosed⟩ := ih hs₁ h
    refine ⟨sweep.after node 0, ?_, hleft, ?_⟩
    · rw [handleExpiredEvent_of_some (show (top 0).top s.queue = some node from htop),
        if_pos hdeleted, ← hqueue, hsweep]
      rfl
    · rw [hclosed, hs.destroy_closed hnode rfl hdestroy, List.append_assoc]
      rfl
  | case4 top clock s node htop hdeleted expired hvalid =>
    obtain rfl := Except.ok.inj h
    refine ⟨⟨s.queue, [], 0, 1⟩, ?_, rfl, (List.append_nil _).symm⟩
    rw [handleExpiredEvent_of_some (show (top 0).top s.queue = some node from htop),
      if_neg hdeleted, hvalid, if_pos rfl]
  | case7 top clock s node htop hdeleted valid expired hvalid hfalse hown s₁ hdestroy ih =>
    have hnode : node ∈ s.queue := (top 0).mem htop
    obtain ⟨rfl, -⟩ := isVaild_eq_false hvalid hfalse
    obtain ⟨hs₁, hqueue, -⟩ := hs.destroy hnode rfl hdestroy
    obtain ⟨sweep, hsweep, hleft, hclosed⟩ := ih hs₁ h
    refine ⟨sweep.after node.setDeleted 1, ?_, hleft, ?_⟩
    · rw [handleExpiredEvent_of_some (show (top 0).top s.queue = some node from htop),
        if_neg hdeleted, hvalid, if_neg hfalse, if_neg hown, ← hqueue, hsweep]
      rfl
    · rw [hclosed, hs.destroy_closed hnode rfl hdestroy, List.append_assoc]
      rfl
  | _ => cases h

/-- The sweep of a loop is exact as well, between any two phases. -/
theorem Inv.exact (hs : Inv s) (hclock : Steady clock)
    (h : s.handleExpired top clock = .ok s') :
    ∃ sweep, Exact top clock s.queue sweep ∧ s'.queue = sweep.queue ∧
      s'.closed = s.closed ++ sweep.closed := by
  obtain ⟨sweep, hsweep, hqueue, hclosed⟩ := hs.handleExpired_eq h
  obtain ⟨popped, sweep', hsweep', hswept⟩ :=
    handleExpiredEvent_swept top clock hs.mixed.ownHttp_ne_none
  obtain rfl := Except.ok.inj (hsweep.symm.trans hsweep')
  exact ⟨sweep, hswept.exact hclock hs.mixed, hqueue, hclosed⟩

end Registry

end Webserver
