import Webserver.Http.Dismissal
import Webserver.Loop.Traffic

/-!
# The last request of a connection

A loop keeps a connection as long as it is connected. One that has read what it refuses is
closed: its client reads an error page behind the responses, and nothing else, however long
the server runs.

* `Registry.live_of_calls`: whatever the loop does, the connections registered are connected.
* `Traffic.dismisses_of_run`: what the client has read in the end.
-/

namespace Webserver

open Transition Text
open Conn (Report)

namespace Conn

variable {c d : Conn}

theorem connectionState_of_newEvent (h : c.newEvent = .ok d) :
    d.http.connectionState = c.http.connectionState := by
  obtain ⟨t, p, rfl⟩ := newEvent_eq h
  rfl

/-- `handleConn` registers a connection that is connected, and drops any other. -/
theorem connected_of_handleConn (h : c.handleConn = .ok d) :
    d.http.connectionState = .connected ∨ Dropped c d := by
  rw [handleConn_eq_rearm, rearm] at h
  split at h
  · next hrearm =>
    exact .inr (handleClose_dropped h)
  · next hrearm =>
    obtain ⟨⟨-, hconnected⟩, -⟩ := Option.ite_none_right_eq_some.1 hrearm
    obtain ⟨t, p, rfl⟩ := updateChannel_eq h
    exact .inl hconnected

end Conn

namespace Registry

variable {s s' : Registry} {fd : Fd} {id : HttpId}

/-- The connections registered are connected. -/
def Live (s : Registry) : Prop :=
  ∀ fd id h, s.poller.httpdatas fd = some id → s.https id = some h →
    h.connectionState = .connected

theorem Live.newEvent (hs : Inv s) (hlive : s.Live) {method : Option HttpMethod}
    {events revents : Mask} {now : Timeval}
    (h : s.newEvent fd method events revents now = .ok s') : s'.Live := by
  intro fd' id' h' hfd' hh'
  obtain ⟨hhttpdatas, -, -⟩ := httpdatas_of_newEvent h
  rw [hhttpdatas, Function.update_apply] at hfd'
  split at hfd'
  · cases hfd'
    rw [Registry.newEvent] at h
    split at h
    · cases h
    · next c hnew =>
      cases h
      have hid : c.http.id = s.nextId := (Conn.newEvent_renewed hnew).2.id
      rw [← hid] at hh'
      obtain rfl : c.http = h' := Option.some.inj (store_https_self.symm.trans hh')
      exact Conn.connectionState_of_newEvent hnew
  · have hne : id' ≠ s.nextId := by
      obtain ⟨http, hhttp, -, -⟩ := hs.consistent.exists_http hfd'
      exact (hs.consistent.ids id' http hhttp).2.ne
    rw [https_of_newEvent h hne] at hh'
    exact hlive fd' id' h' hfd' hh'

theorem Live.handleEvents (hs : Inv s) (hlive : s.Live) {fs : FileSystem} {revents : Mask}
    {reads : List ReadResult} {writes : List WriteResult} {now : Timeval}
    (hfd : s.poller.channels fd = some (.http id)) (hreported : Reported revents)
    (h : s.handleEvents fs id revents reads writes now = .ok s') : s'.Live := by
  intro fd' id' h' hfd' hh'
  have hhttpdatas := (hs.consistent.registered fd id).1 hfd
  obtain ⟨hsame, -, -⟩ := httpdatas_of_handleEvents hs hfd hreported h
  have hold : s.poller.httpdatas fd' = some id' := by
    rcases hsame with hsame | hsame
    · rwa [hsame] at hfd'
    · rw [hsame, Function.update_apply] at hfd'
      split at hfd'
      · cases hfd'
      · exact hfd'
  obtain ⟨http, hhttp, rfl, rfl⟩ := hs.consistent.exists_http hhttpdatas
  rw [Registry.handleEvents, hhttp] at h
  simp only at h
  split at h
  · cases h
  · next c hevents =>
    cases h
    have hid : c.http.id = http.id := Conn.id_of_handleEvents hreported hevents
    by_cases heq : id' = http.id
    · subst heq
      have hself : (s.store c).https http.id = some c.http := hid ▸ store_https_self
      obtain rfl : c.http = h' := Option.some.inj (hself.symm.trans hh')
      have hconnected : http.connectionState = .connected := hlive _ _ http hhttpdatas hhttp
      rcases Conn.handleEvents_conn hreported hevents with hkept | ⟨d, d', hkept, hconn, hkept'⟩
      · exact hkept.connectionState.trans hconnected
      · rcases Conn.connected_of_handleConn hconn with hconnected' | hdropped
        · exact hkept'.connectionState.trans hconnected'
        · -- Nothing is registered any longer for the descriptor.
          have hfd₁ : fd' = http.ownchannel.fd :=
            Option.some.inj ((hs.fdOf hold).symm.trans (hs.fdOf hhttpdatas))
          obtain ⟨t, p, hsep⟩ := (s.conn { http with
            ownchannel := http.ownchannel.setRevents revents }
              ⟨reads, writes, [], now⟩).seperaterTimer_eq
          have hfd₂ : d.http.ownchannel.fd = http.ownchannel.fd :=
            hkept.fd.trans (by rw [hsep]; rfl)
          have hnone : (d.poller.drop http.ownchannel.fd).httpdatas http.ownchannel.fd = none :=
            Function.update_self _ _ _
          rw [store_poller, hkept'.poller, hdropped.poller, hfd₂, hfd₁, hnone] at hfd'
          cases hfd'
    · rw [store_https_of_ne (hid ▸ heq)] at hh'
      exact hlive fd' id' h' hold hh'

/-- Whatever a loop does, the connections registered are connected. -/
theorem live_of_calls (hs : (calls Reported).Reachable s) : s.Live := by
  refine System.ReachableBy.invariant (S := calls Reported) (I := Live) (fun s hs => ?_)
    (fun s e s' hs hlive _ hst => ?_) hs
  · obtain rfl := Set.mem_singleton_iff.1 hs
    exact fun fd id h hfd => by cases hfd
  · have hinv := inv_of_calls hs
    have hcall : Call Reported s e (.ok s') := hst
    generalize hr : (Except.ok s' : Except Fault Registry) = r at hcall
    cases hcall with
    | newEvent method events revents now hfd => exact hlive.newEvent hinv hr.symm
    | handleEvents fs reads writes now hfd hreported =>
      exact hlive.handleEvents hinv hfd hreported hr.symm
    | handleExpired top clock =>
      obtain ⟨hkept, -, -⟩ := httpdatas_of_handleExpired hinv hr.symm
      intro fd id h hfd hh
      obtain ⟨hfd, hhttps⟩ := hkept fd id hfd
      exact hlive fd id h hfd (hhttps ▸ hh)

end Registry

namespace Traffic

variable {fs : FileSystem} {t : Traffic} {l : LoopId} {id : HttpId} {threadnum : ℕ}
  {created : ℕ → Bool} {threadId : LoopId → ThreadId}

/-- In every run of the server, a client that sends well-formed requests for files, in
    batches that are each reported in one readable event, and then something that is refused,
    has read the responses to all requests and then an error page, and nothing else; and its
    connection is no longer registered. -/
theorem dismisses_of_run {ps : List (Traffic × Event)} {rs : List RequestText}
    {reports : List Report} {r : Report} {m : HttpMessage}
    (hrun : (system fs threadnum created).Run (start threadnum created threadId) ps t)
    (hid : id < (t.served l).registry.nextId) (hreports : reportsFor l id ps = reports ++ [r])
    (h : Conn.Converses rs reports) (hfile : ∀ r ∈ rs, r.Names fs)
    (hfits : ∀ r ∈ rs, DotFits r.url) (hr : Conn.Readable r) (hrefuses : Conn.Refuses fs r m) :
    (∃ frames, readAll crlf ((rs.map fun r => bodyLength r.method) ++ [bodyLength none])
        ((t.served l).sent id) = (frames ++ [m.frame], []) ∧
      List.Forall₂ (Request.Gets fs) (rs.map RequestText.request) frames) ∧
      ∀ fd, (t.served l).registry.poller.httpdatas fd ≠ some id := by
  obtain ⟨c, hresponds, hc⟩ := exists_alike hrun hid
  obtain ⟨c₀, hfresh, hsolo⟩ := Conn.exists_fresh_solo ((t.served l).method id)
  obtain ⟨d, hd, hready, hsent⟩ := hfresh.ready.responds h hfile hfits
  obtain ⟨hrefused, rfl⟩ := hrefuses d hready
  obtain ⟨e, he, hclosed, hpage⟩ := hready.exists_dismissed hr hrefused
  -- The connection in the loop, by itself, is the one that has been registered.
  have hlast := Conn.respond_of_handleEvents [] [] he
  rw [hsolo] at hd
  rw [← untimed_reportsFor, hreports, List.map_append, List.map_singleton, Conn.responds_snoc,
    hd] at hresponds
  obtain rfl : e.alone [] [] = c := Except.ok.inj (hlast.symm.trans hresponds)
  have hbytes : (t.served l).sent id = RequestText.responses fs rs ++ (d.start r).page.render := by
    have hsent' : e.socket.sent = (t.served l).sent id := hc.sent
    rw [← hsent', hpage, hsent, hfresh.eq.1, List.nil_append]
  refine ⟨?_, fun fd hfd => ?_⟩
  · rw [hbytes]
    exact RequestText.readAll_dismissed hfile hfits (Conn.sized_page _)
  · have hserved : (Served.system fs).Reachable (t.served l) :=
      System.Reachable.run (.init rfl) (served_run recorded_start hrun l)
    have hcalls := Served.calls_of_reachable hserved
    obtain ⟨http, hhttp, -, -⟩ :=
      (Registry.inv_of_calls hcalls).consistent.exists_http hfd
    have hconnected := Registry.live_of_calls hcalls fd id http hfd hhttp
    obtain ⟨revents, halone⟩ := hc.http fd http hfd hhttp
    have hstate := congrArg HttpData.connectionState halone
    have hstate : http.connectionState = e.http.connectionState := hstate
    rw [hconnected, hclosed] at hstate
    cases hstate

/-! ## A run -/

/-- A request for a page that is not there. -/
def getNothing : RequestText :=
  { Conn.getStart 1 with target := bytes "/nothing", target_plain := by decide +kernel }

theorem length_getNothing_le : (RequestText.renderAll [getNothing]).length ≤ maxBuff := by
  decide +kernel

/-- It is reported. -/
def asksNothing : Report := Conn.arrival [getNothing] (List.cons_ne_nil _ _) length_getNothing_le

theorem readable_asksNothing : Conn.Readable asksNothing := Conn.readable_of_in rfl rfl

theorem refuses_asksNothing : Conn.Refuses (.logHtml (bytes "hi")) asksNothing notFoundPage := by
  have hreads : Delivers asksNothing.reads (getNothing.render ++ [] ++ []) :=
    .data ⟨RequestText.renderAll [getNothing], RequestText.renderAll_ne_nil (List.cons_ne_nil _ _),
      length_getNothing_le⟩ delivers_nil
  rw [List.append_nil (getNothing.render ++ [])] at hreads
  have hmissing : (FileSystem.logHtml (bytes "hi")).lookup (cStr getNothing.url) = none := by
    decide +kernel
  refine Conn.refuses_of_not_serves hreads (by decide +kernel) (by decide +kernel) ?_
  rintro ⟨inode, hinode, -⟩
  rw [hmissing] at hinode
  cases hinode

/-- A client asks for the start page, and then for a page that is not there. -/
theorem exists_dismissed : ∃ ps t,
    (system (.logHtml (bytes "hi")) 4 fun _ => true).Run
      (start 4 (fun _ => true) Server.threadIds) ps t ∧
    0 < (t.served (.worker 0)).registry.nextId ∧
    reportsFor (.worker 0) 0 ps = [asks] ++ [asksNothing] := by
  obtain ⟨made, hnew, hmade⟩ := exists_ok_of_any
    (x := Registry.empty.newEvent 7 none 0 0 ⟨0, 0⟩)
    (p := fun made => (made.handleExpired (fun _ => .first _) fun _ => ⟨0, 0⟩).toOption.any
      fun registry : Registry => decide (registry.poller.channels 7 = some (.http 0)) &&
        decide (registry.nextId = 1) && (registry.https 0).any fun h =>
          (((registry.conn h ⟨[], [], [], ⟨0, 0⟩⟩).deliver asks).handleEvents
            (.logHtml (bytes "hi"))).toOption.any fun c : Conn =>
              ((registry.store c).handleExpired (fun _ => .first _)
                fun _ => ⟨0, 0⟩).toOption.any fun registry : Registry =>
                  decide (registry.poller.channels 7 = some (.http 0)) &&
                    decide (registry.nextId = 1) && (registry.https 0).any fun h =>
                      (((registry.conn h ⟨[], [], [], ⟨0, 0⟩⟩).deliver asksNothing).handleEvents
                        (.logHtml (bytes "hi"))).toOption.any fun _ => true) (by decide +kernel)
  obtain ⟨registry, hexpired, hregistry⟩ := exists_ok_of_any hmade
  rw [Bool.and_eq_true, Bool.and_eq_true, decide_eq_true_eq, decide_eq_true_eq] at hregistry
  obtain ⟨⟨hchannel, -⟩, hhttp⟩ := hregistry
  obtain ⟨h, hh, hc⟩ := (Option.any_eq_true _ _).1 hhttp
  obtain ⟨c, hevents, hc⟩ := exists_ok_of_any hc
  obtain ⟨registry', hexpired', hregistry'⟩ := exists_ok_of_any hc
  rw [Bool.and_eq_true, Bool.and_eq_true, decide_eq_true_eq, decide_eq_true_eq] at hregistry'
  obtain ⟨⟨hchannel', hnextId'⟩, hhttp'⟩ := hregistry'
  obtain ⟨h', hh', hc'⟩ := (Option.any_eq_true _ _).1 hhttp'
  obtain ⟨c', hevents', -⟩ := exists_ok_of_any hc'
  obtain ⟨ps, t, hrun, hreports, hfree, hv, hw⟩ := exists_registered _ hnew hexpired
  obtain ⟨ps₁, t₁, hrun, hreports₁, hfree, hv₁, -⟩ := exists_event (r := asks) hrun hfree
    (by rw [hw, hv]) (by rw [hv]; exact hchannel) (by decide) (by rw [hv]; exact hh)
    (by rw [hv]; exact hevents)
  rw [hv] at hv₁
  obtain ⟨ps₂, t₂, hrun, hreports₂, hfree, hv₂, hw₂⟩ :=
    exists_expired 0 hrun hfree (by rw [hv₁]; exact hexpired')
  rw [hv₁] at hv₂
  obtain ⟨ps₃, t₃, hrun, hreports₃, -, hv₃, -⟩ := exists_event (r := asksNothing) hrun hfree hw₂
    (by rw [hv₂]; exact hchannel') (by decide) (by rw [hv₂]; exact hh')
    (by rw [hv₂]; exact hevents')
  rw [hv₂] at hv₃
  refine ⟨_, t₃, hrun, ?_, ?_⟩
  · rw [hv₃]
    exact hnextId' ▸ Nat.zero_lt_one
  · rw [hreports₃, hreports₂, hreports₁, hreports]
    rfl

theorem dismisses_of_run_missing : ∃ (ps : List (Traffic × Event)) (t : Traffic),
    reportsFor (.worker 0) 0 ps = [asks] ++ [asksNothing] ∧
    (∃ frames, readAll crlf
        (([Conn.getStart 1].map fun r => bodyLength r.method) ++ [bodyLength none])
        ((t.served (.worker 0)).sent 0) = (frames ++ [notFoundPage.frame], []) ∧
      List.Forall₂ (Request.Gets (.logHtml (bytes "hi")))
        ([Conn.getStart 1].map RequestText.request) frames) ∧
      ∀ fd, (t.served (.worker 0)).registry.poller.httpdatas fd ≠ some 0 := by
  obtain ⟨ps, t, hrun, hid, hreports⟩ := exists_dismissed
  have hconverses : Conn.Converses ([Conn.getStart 1] ++ []) [asks] :=
    Conn.converses_arrival _ _ .nil
  exact ⟨ps, t, hreports, dismisses_of_run hrun hid hreports hconverses
    (List.forall_mem_singleton.2 (Conn.names_of_target rfl))
    (List.forall_mem_singleton.2 (by decide +kernel)) readable_asksNothing refuses_asksNothing⟩

end Traffic

end Webserver
