import Webserver.Loop.Traffic

/-!
# Every request is answered

What clients have read is right in every run (`Loop.Traffic`); this file finds that they do
get to read it. A loop at the head of its body that goes on, and is told by the poller what
has happened on some of its connections, handles all of it in its next steps, whatever the
other threads do or do not do, unless the code fails on one of the reports. Those who have
sent well-formed requests for files have then read the responses.

* `Traffic.exists_handled`: the loop handles one report after the other.
* `Traffic.answers_of_run`: so it answers every request in as many steps.
-/

namespace Webserver

open Transition
open Conn (Report)

/-- By itself, a connection does not fail on well-formed requests for files. -/
theorem Conn.Converses.exists_responds {fs : FileSystem} {rs : List RequestText}
    {reports : List Report} (h : Converses rs reports) (hfile : ∀ r ∈ rs, r.Names fs)
    (hfits : ∀ r ∈ rs, DotFits r.url) (method : Option HttpMethod) :
    ∃ c, (solo method).responds fs (reports.map Report.untimed) = .ok c := by
  obtain ⟨c, hfresh, hsolo⟩ := exists_fresh_solo method
  obtain ⟨d, hd, -, -⟩ := hfresh.ready.responds h hfile hfits
  exact ⟨_, hsolo ▸ hd⟩

namespace Traffic

/-- Something that is reported for a connection. -/
structure Due where
  fd : Fd
  id : HttpId
  report : Report

/-- The connection is registered in the loop, and by itself it does not fail on what has been
    reported for it in the run so far, and is reported now. -/
structure Due.Harmless (a : Due) (fs : FileSystem) (l : LoopId) (t : Traffic)
    (ps : List (Traffic × Event)) : Prop where
  registered : (t.served l).registry.poller.httpdatas a.fd = some a.id
  reported : Registry.Reported a.report.revents
  responds : ∃ c, (Conn.solo ((t.served l).method a.id)).responds fs
    (reportsFor l a.id ps ++ [a.report.untimed]) = .ok c

variable {fs : FileSystem} {t : Traffic} {l : LoopId} {threadnum : ℕ} {created : ℕ → Bool}
  {threadId : LoopId → ThreadId} {ps : List (Traffic × Event)} {a : Due} {as : List Due}

theorem recorded_of_run (hrun : (system fs threadnum created).Run
    (start threadnum created threadId) ps t) : t.Recorded := by
  have hreach : (system fs threadnum created).Reachable t :=
    .run (.init (Set.mem_range_self threadId)) hrun
  refine System.ReachableBy.invariant (I := Recorded) (fun t ht => ?_)
    (fun _ _ _ _ ht _ hst => ht.step hst) hreach
  obtain ⟨threadId, rfl⟩ := ht
  exact recorded_start

/-- The loop handles a report. -/
theorem exists_handled {active : List (HttpId × Mask)}
    (hrun : (system fs threadnum created).Run (start threadnum created threadId) ps t)
    (hidle : (t.server.loops l).task.caller (t.server.loops l).task.threadId = .idle)
    (hphase : (t.server.loops l).task.phase = .events)
    (hactive : (t.server.loops l).activeChannels = (a.id, a.report.revents) :: active)
    (ha : a.Harmless fs l t ps) :
    ∃ t', Step fs t (.loop l (some (.handleEvents a.id a.report))) t' ∧
      (t'.server.loops l).task = (t.server.loops l).task ∧
      (t'.server.loops l).activeChannels = active ∧
      (t'.served l).method = (t.served l).method ∧
      ∀ fd ≠ a.fd, (t'.served l).registry.poller.httpdatas fd =
        (t.served l).registry.poller.httpdatas fd := by
  have hcalls := Served.calls_of_reachable
    (.run (.init rfl) (served_run recorded_start hrun l) : (Served.system fs).Reachable _)
  have hinv := Registry.inv_of_calls hcalls
  obtain ⟨h, hh, -, -⟩ := hinv.consistent.exists_http ha.registered
  obtain ⟨c, hresponds, hc⟩ := exists_alike hrun (hinv.consistent.ids a.id h hh).2
  obtain ⟨c', hresponds'⟩ := ha.responds
  have hrespond : c.respond fs a.report.untimed = .ok c' := by
    rw [Conn.responds_snoc, hresponds] at hresponds'
    exact hresponds'
  -- If it failed in the loop, it would fail by itself.
  have hiff : _ ↔ ∃ e, c.respond fs a.report.untimed = .error e :=
    hc.error_iff hinv (Registry.matches_of_calls hcalls) ha.registered hh a.report
  cases hevents : (((t.served l).registry.conn h ⟨[], [], [], a.report.now⟩).deliver
      a.report).handleEvents fs with
  | error e =>
    obtain ⟨e', he'⟩ := hiff.1 ⟨e, hevents⟩
    cases hrespond.symm.trans he'
  | ok d =>
    obtain ⟨hhttpdatas, -, -⟩ := Registry.httpdatas_of_handleEvents hinv
      ((hinv.consistent.registered a.fd a.id).2 ha.registered) ha.reported
      (Served.handleEvents_eq hh hevents)
    refine ⟨_, .loop hidle (.handleEvents hphase hactive hh hevents), ?_, ?_, ?_, fun fd hfd => ?_⟩
    · rw [act_server, Server.act_loops_self]
    · rw [act_server, Server.act_loops_self]
    · rw [act_served_self]
      rfl
    · rw [act_served_self]
      rcases hhttpdatas with heq | heq
      · exact congrFun heq fd
      · exact (congrFun heq fd).trans (Function.update_of_ne hfd _ _)

/-- What is reported in a step in which a connection handles its events. -/
theorem reportsFor_handleEvents (id' : HttpId) (r : Report) (id : HttpId) :
    reportsFor l id' (ps ++ [(t, .loop l (some (.handleEvents id r)))]) =
      reportsFor l id' ps ++ if id = id' then [r.untimed] else [] := by
  rw [reportsFor_append]
  by_cases heq : id = id' <;> simp [reportsFor, servedIn, Served.reportsFor, heq]

/-- The loop handles one report after the other. -/
theorem exists_all_handled
    (hrun : (system fs threadnum created).Run (start threadnum created threadId) ps t)
    (hidle : (t.server.loops l).task.caller (t.server.loops l).task.threadId = .idle)
    (hphase : (t.server.loops l).task.phase = .events)
    (hactive : (t.server.loops l).activeChannels = as.map fun a => (a.id, a.report.revents))
    (has : ∀ a ∈ as, a.Harmless fs l t ps) (hnodup : (as.map Due.id).Nodup) :
    ∃ ps' t', (system fs threadnum created).Run t ps' t' ∧ ps'.length = as.length ∧
      (∀ p ∈ ps', ∃ e, p.2 = .loop l e) ∧
      (∀ id ∉ as.map Due.id, reportsFor l id (ps ++ ps') = reportsFor l id ps) ∧
      ∀ a ∈ as, reportsFor l a.id (ps ++ ps') = reportsFor l a.id ps ++ [a.report.untimed] := by
  induction as generalizing t ps with
  | nil =>
    exact ⟨[], t, .nil, rfl, List.forall_mem_nil _, fun id _ => by rw [List.append_nil],
      List.forall_mem_nil _⟩
  | cons a as ih =>
    obtain ⟨ha, has⟩ := List.forall_mem_cons.1 has
    obtain ⟨hnot, hnodup⟩ := List.nodup_cons.1 hnodup
    obtain ⟨t₁, hst, htask, hactive₁, hmethod, hhttpdatas⟩ :=
      exists_handled hrun hidle hphase hactive ha
    have hreports : ∀ id,
        reportsFor l id (ps ++ [(t, .loop l (some (.handleEvents a.id a.report)))]) =
          reportsFor l id ps ++ if a.id = id then [a.report.untimed] else [] :=
      fun id => reportsFor_handleEvents id a.report a.id
    have hne : ∀ b ∈ as, a.id ≠ b.id := fun b hb heq => hnot (List.mem_map.2 ⟨b, hb, heq.symm⟩)
    -- The others are registered as before, and nothing has been reported for them.
    have has' : ∀ b ∈ as, b.Harmless fs l t₁
        (ps ++ [(t, .loop l (some (.handleEvents a.id a.report)))]) := by
      intro b hb
      obtain ⟨hregistered, hreported, hresponds⟩ := has b hb
      have hfd : b.fd ≠ a.fd := fun heq =>
        hne b hb (Option.some.inj (ha.registered.symm.trans (heq ▸ hregistered)))
      refine ⟨(hhttpdatas b.fd hfd).trans hregistered, hreported, ?_⟩
      rwa [hmethod, hreports, if_neg (hne b hb), List.append_nil]
    obtain ⟨ps', t', hrun', hlength, hloop, hothers, hall⟩ :=
      ih (hrun.append (.single hst)) (htask ▸ hidle) (htask ▸ hphase) hactive₁ has' hnodup
    refine ⟨_ :: ps', t', .cons hst hrun', congrArg (· + 1) hlength,
      List.forall_mem_cons.2 ⟨⟨_, rfl⟩, hloop⟩, fun id hid => ?_,
      List.forall_mem_cons.2 ⟨?_, fun b hb => ?_⟩⟩
    · obtain ⟨hid', hid⟩ := not_or.1 (mt List.mem_cons.2 hid)
      rw [List.append_cons, hothers id hid, hreports, if_neg (Ne.symm hid'), List.append_nil]
    · rw [List.append_cons, hothers a.id hnot, hreports, if_pos rfl]
    · rw [List.append_cons, hall b hb, hreports, if_neg (hne b hb), List.append_nil]

/-- In every run of the server, let a loop be at the head of its body and go on, and let the
    poller report something for some of its connections, on none of which the code fails.
    Then the thread of the loop handles all of it by itself, in two steps more than there are
    reports; and each client that has sent well-formed requests for files up to then, in
    batches that have each been reported in one readable event, has read the responses to
    all of them, and nothing else. -/
theorem answers_of_run
    (hrun : (system fs threadnum created).Run (start threadnum created threadId) ps t)
    (hphase : (t.server.loops l).task.phase = .head)
    (hlooping : (t.server.loops l).task.looping = true)
    (has : ∀ a ∈ as, a.Harmless fs l t ps) (hnodup : (as.map Due.id).Nodup) :
    ∃ ps' t', (system fs threadnum created).Run t ps' t' ∧ ps'.length = as.length + 2 ∧
      (∀ p ∈ ps', ∃ e, p.2 = .loop l e) ∧
      ∀ a ∈ as, ∀ rs, Conn.Converses rs (reportsFor l a.id ps ++ [a.report.untimed]) →
        (∀ r ∈ rs, r.Names fs) → (∀ r ∈ rs, DotFits r.url) →
        ∃ frames,
          readResponses (rs.map RequestText.request) ((t'.served l).sent a.id) = (frames, []) ∧
          List.Forall₂ (Request.Gets fs) (rs.map RequestText.request) frames := by
  obtain ⟨hserver, hregistry⟩ := recorded_of_run hrun
  have hawake := TaskLoop.awake_of_reachable (hserver.task l)
  have hidle : (t.server.loops l).task.caller (t.server.loops l).task.threadId = .idle := by
    by_contra hne
    simpa [hphase] using hawake.caller hne
  have hinv := Registry.inv_of_calls (hserver.registry l)
  -- All these events may be reported.
  have hreports : ServerLoop.Reports (t.server.loops l).registry
      (as.map fun a => (a.id, a.report.revents)) := by
    refine ⟨List.forall_mem_map.2 fun a ha => ?_, List.forall_mem_map.2 fun a ha => ?_, ?_⟩
    · exact ⟨a.fd, (hinv.consistent.registered a.fd a.id).2 (hregistry l ▸ (has a ha).registered)⟩
    · exact (has a ha).reported
    · rw [List.map_map]
      exact hnodup
  obtain ⟨t₁, hrun₁, hw₁, hv₁⟩ := exists_loop .nil rfl rfl hidle
    (.turn (by rw [ServerLoop.Turns, hphase]; trivial) (by rw [TaskLoop.advance, hphase, hlooping]))
  obtain ⟨t₂, hrun₂, hw₂, hv₂⟩ := exists_loop hrun₁ hw₁ hv₁ hidle (.poll rfl rfl hreports)
  have hsame : ∀ id, reportsFor l id (ps ++ ([] ++ [(t, .loop l none)] ++ [(t₁, .loop l none)])) =
      reportsFor l id ps := fun id => by
    rw [reportsFor_append]
    exact List.append_nil _
  obtain ⟨ps', t', hrun', hlength, hloop, -, hall⟩ := exists_all_handled
    (hrun.append hrun₂) (by rw [hw₂]; exact hidle) (by rw [hw₂]) (by rw [hw₂])
    (fun a ha => ⟨by rw [hv₂]; exact (has a ha).registered, (has a ha).reported,
      by rw [hv₂, hsame]; exact (has a ha).responds⟩) hnodup
  refine ⟨_, t', hrun₂.append hrun', ?_, ?_, fun a ha rs hconverses hfile hfits => ?_⟩
  · rw [List.length_append, hlength, Nat.add_comm]
    rfl
  · exact List.forall_mem_append.2 ⟨List.forall_mem_cons.2 ⟨⟨_, rfl⟩,
      List.forall_mem_singleton.2 ⟨_, rfl⟩⟩, hloop⟩
  · have hrun := (hrun.append hrun₂).append hrun'
    rw [← hsame, ← hall a ha] at hconverses
    -- Something has been reported for the connection, so it has been made.
    have hid : a.id < (t'.served l).registry.nextId := by
      by_contra hge
      have hnil : reportsFor l a.id _ = [] :=
        ((follows_of_run hrun l).unmade a.id (Nat.le_of_not_lt hge)).2.2
      rw [hall a ha] at hnil
      exact List.append_ne_nil_of_right_ne_nil _ (List.cons_ne_nil _ _) hnil
    obtain ⟨-, -, -, hsent⟩ := exists_ready hrun hid hconverses hfile hfits
    rw [hsent]
    exact RequestText.exists_readResponses hfile hfits

/-! ## A run -/

/-- The start page is asked for on a new connection. -/
def asking : Due := ⟨7, 0, asks⟩

/-- The connection is registered, and its loop is about to go on. -/
theorem exists_asking : ∃ ps t,
    (system (.logHtml (bytes "hi")) 4 fun _ => true).Run
      (start 4 (fun _ => true) Server.threadIds) ps t ∧
    Free .head (t.server.loops (.worker 0)) ∧ reportsFor (.worker 0) 0 ps = [] ∧
    asking.Harmless (.logHtml (bytes "hi")) (.worker 0) t ps := by
  obtain ⟨made, hnew, hmade⟩ := exists_ok_of_any
    (x := Registry.empty.newEvent 7 none 0 0 ⟨0, 0⟩)
    (p := fun made => (made.handleExpired (fun _ => .first _) fun _ => ⟨0, 0⟩).toOption.any
      fun registry : Registry => decide (registry.poller.httpdatas 7 = some 0))
    (by decide +kernel)
  obtain ⟨registry, hexpired, hregistry⟩ := exists_ok_of_any hmade
  obtain ⟨ps, t, hrun, hreports, hfree, hv, -⟩ := exists_registered _ hnew hexpired
  have hnil : reportsFor (.worker 0) asking.id ps = [] := hreports
  refine ⟨ps, t, hrun, hfree, hreports, ?_, by decide, ?_⟩
  · rw [hv]
    exact of_decide_eq_true hregistry
  · have hconverses : Conn.Converses ([Conn.getStart 1] ++ []) [asks] :=
      Conn.converses_arrival _ _ .nil
    rw [hnil]
    exact hconverses.exists_responds (List.forall_mem_singleton.2 (Conn.names_of_target rfl))
      (List.forall_mem_singleton.2 (by decide +kernel)) _

theorem answers_of_run_asking : ∃ (t t' : Traffic) (ps' : List (Traffic × Event))
    (frames : List (Text.Frame UInt8)),
    (system (.logHtml (bytes "hi")) 4 fun _ => true).Run t ps' t' ∧
    ps'.length = [asking].length + 2 ∧ (∀ p ∈ ps', ∃ e, p.2 = .loop (.worker 0) e) ∧
    readResponses ([Conn.getStart 1].map RequestText.request)
      ((t'.served (.worker 0)).sent asking.id) = (frames, []) ∧
    List.Forall₂ (Request.Gets (.logHtml (bytes "hi")))
      ([Conn.getStart 1].map RequestText.request) frames := by
  obtain ⟨ps, t, hrun, hfree, hnil, hasking⟩ := exists_asking
  have hnil : reportsFor (.worker 0) asking.id ps = [] := hnil
  have hconverses : Conn.Converses ([Conn.getStart 1] ++ []) [asks] :=
    Conn.converses_arrival _ _ .nil
  obtain ⟨ps', t', hrun', hlength, hloop, hanswers⟩ := answers_of_run hrun hfree.phase
    hfree.looping (List.forall_mem_singleton.2 hasking) (List.nodup_singleton _)
  obtain ⟨frames, hread, hgets⟩ := hanswers asking List.mem_cons_self [Conn.getStart 1]
    (by rw [hnil]; exact hconverses) (List.forall_mem_singleton.2 (Conn.names_of_target rfl))
    (List.forall_mem_singleton.2 (by decide +kernel))
  exact ⟨t, t', ps', frames, hrun', hlength, hloop, hread, hgets⟩

end Traffic

end Webserver
