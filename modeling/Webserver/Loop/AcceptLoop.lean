import Webserver.Loop.Acceptor

/-!
# Accepting a burst of connections

The listening channel is edge-triggered, so that `handleNewConn` has to accept until
there is nothing left to accept, and to see to every connection it has accepted. But
`accept` ends its loop by whatever error it returns, and a connection that cannot be
made non-blocking ends it by leaving the function.

* `Acceptor.Accepting.Handled`: the results of `accept` after which the loop goes on.
* `Acceptor.drainsAll_iff`: no connection is lost, if and only if all of them are such.
-/

namespace Webserver

namespace EventLoopThreadPool

/-- The pool has been started, with all of its threads. -/
structure Ready (p : EventLoopThreadPool) : Prop where
  started : p.started = true
  created : none ∉ p.loops
  length : p.loops.length = p.threadNum
  next : p.loops ≠ [] → p.next < p.threadNum

/-- The loop is one of the pool, or that of the main thread if the pool has none. -/
def Hands (p : EventLoopThreadPool) (loop : LoopId) : Prop :=
  if p.loops = [] then loop = .owner else some loop ∈ p.loops

theorem ready_threadPoolInit (threadnum : ℕ) :
    ((new threadnum).threadPoolInit fun _ => true).Ready where
  started := rfl
  created := by simp [threadPoolInit, new]
  length := by simp [threadPoolInit, new]
  next h := by
    rw [threadPoolInit, new] at *
    by_contra hzero
    obtain rfl : threadnum = 0 := Nat.eq_zero_of_not_pos hzero
    exact h rfl

/-- A pool that is ready has a loop for the next connection, and stays ready. -/
theorem Ready.getNextPool {p : EventLoopThreadPool} (hp : p.Ready) :
    ∃ loop pool, p.getNextPool = .ok (some loop, pool) ∧ p.Hands loop ∧ pool.Ready ∧
      pool.loops = p.loops := by
  rw [EventLoopThreadPool.getNextPool, if_pos hp.started]
  split
  · next hne =>
    have hlt : p.next < p.loops.length := hp.length ▸ hp.next hne
    have hmem : p.loops.getD p.next none ∈ p.loops := by
      rw [List.getD_eq_getElem?_getD, List.getElem?_eq_getElem hlt, Option.getD_some]
      exact List.getElem_mem hlt
    cases hloop : p.loops.getD p.next none with
    | none => exact absurd (hloop ▸ hmem) hp.created
    | some loop =>
      refine ⟨loop, _, rfl, ?_, ⟨hp.started, hp.created, hp.length, fun _ => ?_⟩, rfl⟩
      · rw [Hands, if_neg hne]
        exact hloop ▸ hmem
      · exact Nat.mod_lt _ (Nat.zero_lt_of_lt (hp.next hne))
  · next hnil =>
    refine ⟨.owner, p, rfl, ?_, hp, rfl⟩
    rw [Hands, if_pos (not_not.1 hnil)]

end EventLoopThreadPool

namespace Acceptor

/-- How a call of `accept` ends while there may be connections left. -/
inductive Accepting
  | connection (fd : ℕ) (nonBlocking : Bool)
  | failed

namespace Accepting

/-- What the loop sees: it does not look at the error. -/
def result : Accepting → AcceptResult
  | connection fd nonBlocking => ⟨fd, nonBlocking⟩
  | failed => ⟨-1, false⟩

/-- The descriptor of a connection. -/
def fd? : Accepting → Option ℤ
  | connection fd _ => some fd
  | failed => none

/-- After this result the loop goes on: the descriptor is closed or handed over. -/
def Handled : Accepting → Prop
  | connection fd nonBlocking => 0 < fd ∧ ((fd : ℤ) > MAXFDS ∨ nonBlocking = true)
  | failed => False

end Accepting

/-- There is nothing left to accept. -/
def again : AcceptResult := ⟨-1, false⟩

/-- How the next calls of `accept` will end: as in a burst, until there is nothing
    left, and then as they may. -/
def arrive (a : Acceptor) (burst : List Accepting) (later : List AcceptResult) : Acceptor :=
  { a with accepts := burst.map Accepting.result ++ again :: later }

/-- From `a` to `a'`, every one of the descriptors has been closed or handed over to a
    loop, once. -/
def SeesTo (a a' : Acceptor) (fds : List ℤ) : Prop :=
  ∃ closed queued, a'.closed = a.closed ++ closed ∧ a'.queued = a.queued ++ queued ∧
    (closed ++ queued.map Prod.snd).Perm fds ∧ ∀ q ∈ queued, a.eventLoopThreadPool.Hands q.1

/-- The connections of a burst have all been seen to, `accept` has reported that
    nothing is left, and the channel waits for the next burst. -/
structure Drained (a a' : Acceptor) (burst : List Accepting) (later : List AcceptResult) :
    Prop where
  seesTo : SeesTo a a' (burst.filterMap Accepting.fd?)
  accepts : a'.accepts = later
  events : a'.acceptChannel.events = EPOLLIN ||| EPOLLET

/-- `handleNewConn` loses none of a burst of connections. -/
def DrainsAll (a : Acceptor) (burst : List Accepting) (later : List AcceptResult) : Prop :=
  ∃ a', (a.arrive burst later).handleNewConn = .ok a' ∧ Drained a a' burst later

variable {a a' a'' : Acceptor} {burst : List Accepting} {later : List AcceptResult}

theorem seesTo_nil (h : a'.closed = a.closed ∧ a'.queued = a.queued) : SeesTo a a' [] :=
  ⟨[], [], by simp [h]⟩

theorem SeesTo.trans {fds fds' : List ℤ} (h : SeesTo a a' fds)
    (hloops : a'.eventLoopThreadPool.loops = a.eventLoopThreadPool.loops)
    (h' : SeesTo a' a'' fds') : SeesTo a a'' (fds ++ fds') := by
  obtain ⟨closed, queued, hclosed, hqueued, hperm, hhands⟩ := h
  obtain ⟨closed', queued', hclosed', hqueued', hperm', hhands'⟩ := h'
  refine ⟨closed ++ closed', queued ++ queued', ?_, ?_, ?_, fun q hq => ?_⟩
  · rw [hclosed', hclosed, List.append_assoc]
  · rw [hqueued', hqueued, List.append_assoc]
  · -- The descriptors closed later come before those handed over earlier.
    refine List.Perm.trans ?_ (hperm.append hperm')
    rw [List.map_append, List.append_assoc, List.append_assoc]
    refine .append_left closed ?_
    rw [← List.append_assoc, ← List.append_assoc]
    exact .append_right _ List.perm_append_comm
  · rcases List.mem_append.1 hq with hq | hq
    · exact hhands q hq
    · have hq := hhands' q hq
      rwa [EventLoopThreadPool.Hands, hloops] at hq

/-- One round of the loop that goes on. -/
theorem exists_round {r : Accepting} (hpool : a.eventLoopThreadPool.Ready) (hr : r.Handled) :
    ∃ a', (∀ accepts, acceptLoop (r.result :: accepts) a = acceptLoop accepts a') ∧
      a'.eventLoopThreadPool.Ready ∧
      a'.eventLoopThreadPool.loops = a.eventLoopThreadPool.loops ∧
      SeesTo a a' r.fd?.toList := by
  cases r with
  | failed => cases hr
  | connection fd nonBlocking =>
    obtain ⟨hpos, hfd⟩ := hr
    have hpos : (fd : ℤ) > 0 := Int.natCast_pos.2 hpos
    by_cases hmax : (fd : ℤ) > MAXFDS
    · refine ⟨{ a with closed := a.closed ++ [(fd : ℤ)] }, fun accepts => ?_, hpool, rfl,
        [(fd : ℤ)], [], rfl, by simp, .refl _, by simp⟩
      rw [acceptLoop, Accepting.result, if_pos hpos, if_pos hmax]
    · obtain ⟨loop, pool, hnext, hhands, hready, hloops⟩ := hpool.getNextPool
      refine ⟨{ a with eventLoopThreadPool := pool, queued := a.queued ++ [(loop, (fd : ℤ))] },
        fun accepts => ?_, hready, hloops, [], [(loop, (fd : ℤ))], by simp, rfl, .refl _, ?_⟩
      · have hblock : nonBlocking ≠ false := by simp [hfd.resolve_left hmax]
        rw [acceptLoop, Accepting.result, if_pos hpos, if_neg hmax, if_neg hblock, dispatch, hnext]
      · intro q hq
        obtain rfl := List.mem_singleton.1 hq
        exact hhands

variable (later) in
/-- The loop, as long as it goes on. -/
theorem acceptLoop_of_handled (hpool : a.eventLoopThreadPool.Ready)
    (hburst : ∀ r ∈ burst, r.Handled) :
    ∃ a', acceptLoop (burst.map Accepting.result ++ again :: later) a = .ok (false, a') ∧
      a'.accepts = later ∧ SeesTo a a' (burst.filterMap Accepting.fd?) := by
  induction burst generalizing a with
  | nil => exact ⟨{ a with accepts := later }, rfl, rfl, seesTo_nil ⟨rfl, rfl⟩⟩
  | cons r burst ih =>
    obtain ⟨hr, hburst⟩ := List.forall_mem_cons.1 hburst
    obtain ⟨a₁, hround, hready, hloops, hfirst⟩ := exists_round hpool hr
    obtain ⟨a₂, hloop, haccepts, hrest⟩ := ih hready hburst
    refine ⟨a₂, (hround _).trans hloop, haccepts, ?_⟩
    have hsees := hfirst.trans hloops hrest
    rwa [show r.fd?.toList ++ burst.filterMap Accepting.fd? =
      (r :: burst).filterMap Accepting.fd? by rw [List.filterMap_cons]; cases r <;> rfl] at hsees

variable (later) in
/-- A result after which the loop does not go on ends it, before `accept` has reported
    that nothing is left. -/
theorem acceptLoop_of_not_handled (hpool : a.eventLoopThreadPool.Ready)
    (hburst : ¬∀ r ∈ burst, r.Handled) :
    ∃ flag a', acceptLoop (burst.map Accepting.result ++ again :: later) a = .ok (flag, a') ∧
      later.length < a'.accepts.length := by
  induction burst generalizing a with
  | nil => exact absurd (List.forall_mem_nil _) hburst
  | cons r burst ih =>
    by_cases hr : r.Handled
    · obtain ⟨a₁, hround, hready, -, -⟩ := exists_round hpool hr
      obtain ⟨flag, a₂, hloop, hlt⟩ :=
        ih hready fun hall => hburst (List.forall_mem_cons.2 ⟨hr, hall⟩)
      exact ⟨flag, a₂, (hround _).trans hloop, hlt⟩
    · have hlt : later.length < (burst.map Accepting.result ++ again :: later).length := by
        rw [List.length_append, List.length_cons]
        omega
      cases r with
      | failed => exact ⟨false, _, rfl, hlt⟩
      | connection fd nonBlocking =>
        rw [Accepting.Handled, not_and_or, not_or] at hr
        simp only [List.map_cons, List.cons_append, Accepting.result, acceptLoop]
        by_cases hpos : (fd : ℤ) > 0
        · obtain ⟨hmax, hblock⟩ := hr.resolve_left (not_not.2 (Int.natCast_pos.1 hpos))
          rw [if_pos hpos, if_neg hmax, if_pos (Bool.not_eq_true _ ▸ hblock)]
          exact ⟨true, _, rfl, hlt⟩
        · rw [if_neg hpos]
          exact ⟨false, _, rfl, hlt⟩

theorem drainsAll_of_handled (hpool : a.eventLoopThreadPool.Ready)
    (hburst : ∀ r ∈ burst, r.Handled) : a.DrainsAll burst later := by
  obtain ⟨a', hloop, haccepts, hsees⟩ :=
    acceptLoop_of_handled (a := a.arrive burst later) later hpool hburst
  refine ⟨{ a' with acceptChannel := a'.acceptChannel.setEvents (EPOLLIN ||| EPOLLET) }, ?_,
    hsees, haccepts, rfl⟩
  rw [handleNewConn]
  simp only [arrive] at hloop ⊢
  rw [hloop]

theorem handled_of_drainsAll (hpool : a.eventLoopThreadPool.Ready)
    (h : a.DrainsAll burst later) : ∀ r ∈ burst, r.Handled := by
  by_contra hburst
  obtain ⟨a', hconn, hdrained⟩ := h
  obtain ⟨flag, a₁, hloop, hlt⟩ :=
    acceptLoop_of_not_handled (a := a.arrive burst later) later hpool hburst
  rw [handleNewConn] at hconn
  simp only [arrive] at hloop hconn
  rw [hloop] at hconn
  -- What is left of the schedule shows that the loop ended too early.
  have haccepts : a'.accepts = a₁.accepts := by
    cases flag with
    | true => cases hconn; rfl
    | false => cases hconn; rfl
  rw [← haccepts, hdrained.accepts] at hlt
  exact Nat.lt_irrefl _ hlt

/-- No connection of a burst is lost, if and only if `accept` reports no error before
    there is nothing left, and every connection that is not beyond the limit can be made
    non-blocking. -/
theorem drainsAll_iff (hpool : a.eventLoopThreadPool.Ready) :
    a.DrainsAll burst later ↔ ∀ r ∈ burst, r.Handled :=
  ⟨handled_of_drainsAll hpool, drainsAll_of_handled hpool⟩

/-- Three connections, one of which is beyond the limit. -/
theorem drainsAll_iff_listening :
    listening.DrainsAll [.connection 7 true, .connection 5000 false, .connection 8 true] [] ↔
      ∀ r ∈ [Accepting.connection 7 true, .connection 5000 false, .connection 8 true], r.Handled :=
  drainsAll_iff (EventLoopThreadPool.ready_threadPoolInit 4)

/-- The first of two connections is aborted, and the second one is not accepted. -/
theorem exists_not_drainsAll : ¬∀ (a : Acceptor) (burst : List Accepting)
    (later : List AcceptResult), a.eventLoopThreadPool.Ready → a.DrainsAll burst later := by
  intro hall
  have hpool := EventLoopThreadPool.ready_threadPoolInit 4
  exact handled_of_drainsAll (a := listening) hpool
    (hall listening [.failed, .connection 7 true] [] hpool) .failed List.mem_cons_self

end Acceptor

end Webserver
