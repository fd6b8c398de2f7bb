import Webserver.Http.Service
import Webserver.Http.Termination
import Webserver.Loop.Isolation
import Webserver.Loop.Serving

/-!
# What the clients of the server read

The server with all its threads and connections, and with a record of what each of the
connections has sent. What a client reads depends on the reports for its connection only:
neither on the other connections, of its loop and of others, nor on the order in which the
threads of the server take their steps.

* `Traffic.Recorded.exists_step`: every step of the server is one that is recorded.
* `Traffic.served_run`: what happens to the connections of a loop, in a run of the whole
  server, is a run of the loop by itself.
* `Traffic.gets_of_run`: a client whose connection only goes through proper cycles has read
  the responses to the first requests.
* `Traffic.converses_of_run`: a client that sends well-formed requests for files, a batch
  at a time, has read the responses to all of them.

As in `Loop.Server`, the poller hands on what is reported.
-/

namespace Webserver

open Transition
open Conn (Report)

/-! ## Loops -/

/-- The next step of the thread of a loop, and what is recorded of it. -/
inductive ServerLoop.Serves (fs : FileSystem) (w : ServerLoop) (v : Served) :
    Option Served.Event → ServerLoop → Served → Prop
  | turn {task : TaskLoop Fd} : w.Turns → w.task.advance = some task →
      Serves fs w v none { w with task := task } v
  | poll {task : TaskLoop Fd} {active : List (HttpId × Mask)} :
      w.task.phase = .poll → w.task.advance = some task → Reports w.registry active →
      Serves fs w v none { w with task := task, activeChannels := active } v
  | handleEvents {id : HttpId} {r : Report} {active : List (HttpId × Mask)} {h : HttpData}
      {c : Conn} :
      w.task.phase = .events → w.activeChannels = (id, r.revents) :: active →
      v.registry.https id = some h →
      ((v.registry.conn h ⟨[], [], [], r.now⟩).deliver r).handleEvents fs = .ok c →
      Serves fs w v (some (.handleEvents id r))
        { w with registry := v.registry.store c, activeChannels := active } (v.record id c)
  | newEvent {fd : Fd} {functors : List Fd} {task : TaskLoop Fd} {registry : Registry}
      {method : Option HttpMethod} {events revents : Mask} {now : Timeval} :
      w.task.phase = .run → w.task.functors = fd :: functors → w.task.advance = some task →
      v.registry.newEvent fd method events revents now = .ok registry →
      Serves fs w v (some (.newEvent v.registry.nextId))
        { w with task := task, registry := registry } (v.make registry method)
  | handleExpired {task : TaskLoop Fd} {registry : Registry}
      {top : ℕ → MinQueue.Top TimerNode.expiredTime} {clock : ℕ → Timeval} :
      w.task.phase = .expired → w.task.advance = some task →
      v.registry.handleExpired top clock = .ok registry →
      Serves fs w v (some .handleExpired)
        { w with task := task, registry := registry } { v with registry := registry }

/-! ## The server -/

/-- The server, with what is recorded of the connections of each loop. -/
structure Traffic where
  server : Server
  served : LoopId → Served

namespace Traffic

/-- The thread of a loop has gone on. -/
def act (t : Traffic) (l : LoopId) (w : ServerLoop) (v : Served) : Traffic :=
  ⟨t.server.act l w, Function.update t.served l v⟩

inductive Event
  | thread (e : Server.Event)
  | loop (l : LoopId) (e : Option Served.Event)

/-- The steps of the threads: of the one of a loop that goes on, and of all others. -/
inductive Step (fs : FileSystem) (t : Traffic) : Event → Traffic → Prop
  | thread {e : Server.Event} {s : Server} : (∀ l, e ≠ .loop l) → t.server.Step e s →
      Step fs t (.thread e) { t with server := s }
  | loop {l : LoopId} {e : Option Served.Event} {w : ServerLoop} {v : Served} :
      (t.server.loops l).task.caller (t.server.loops l).task.threadId = .idle →
      (t.server.loops l).Serves fs (t.served l) e w v →
      Step fs t (.loop l e) (t.act l w v)

/-- The server after `Acceptor::start`. -/
def start (threadnum : ℕ) (created : ℕ → Bool) (threadId : LoopId → ThreadId) : Traffic :=
  ⟨.start threadnum created threadId, fun _ => .empty⟩

/-- The runs of the threads, from the start of the server. -/
def system (fs : FileSystem) (threadnum : ℕ) (created : ℕ → Bool) : System Traffic Event where
  init := Set.range (start threadnum created)
  step := Step fs

/-- What happens to the connections of a loop in a run. -/
def servedIn (l : LoopId) (ps : List (Traffic × Event)) : List (Served × Served.Event) :=
  ps.filterMap fun p =>
    match p.2 with
    | .loop l' (some e) => if l' = l then some (p.1.served l, e) else none
    | _ => none

/-- The reports for a connection in a run, without their times. -/
def reportsFor (l : LoopId) (id : HttpId) (ps : List (Traffic × Event)) : List Report :=
  Served.reportsFor id (servedIn l ps)

variable {fs : FileSystem} {t t' : Traffic} {e : Event} {l : LoopId} {id : HttpId}
  {threadnum : ℕ} {created : ℕ → Bool} {threadId : LoopId → ThreadId}

/-! ## The threads -/

@[simp] theorem act_server {w : ServerLoop} {v : Served} :
    (t.act l w v).server = t.server.act l w := rfl

@[simp] theorem act_served_self {w : ServerLoop} {v : Served} : (t.act l w v).served l = v :=
  Function.update_self _ _ _

theorem act_served_of_ne {l' : LoopId} (h : l' ≠ l) {w : ServerLoop} {v : Served} :
    (t.act l w v).served l' = t.served l' := Function.update_of_ne h _ _

/-- What is recorded are the connections of the server. -/
def Recorded (t : Traffic) : Prop :=
  t.server.Inv ∧ ∀ l, (t.served l).registry = (t.server.loops l).registry

/-- The step is one of the thread of the loop. -/
theorem step_of_serves {w w' : ServerLoop} {v v' : Served} {e : Option Served.Event}
    (hv : v.registry = w.registry) (h : w.Serves fs v e w' v') :
    w.Step w' ∧ v'.registry = w'.registry := by
  cases h with
  | turn hturns hadvance => exact ⟨.turn hturns hadvance, hv⟩
  | poll hphase hadvance hreports => exact ⟨.poll hphase hadvance hreports, hv⟩
  | @handleEvents id r active h c hphase hcons hh hc =>
    have hevents := Served.handleEvents_eq hh hc
    rw [hv] at hevents
    exact ⟨.handleEvents fs r.reads r.writes r.now hphase hcons (hv ▸ hevents), rfl⟩
  | newEvent hphase hcons hadvance hnew =>
    exact ⟨.newEvent _ _ _ _ hphase hcons hadvance (hv ▸ hnew), rfl⟩
  | handleExpired hphase hadvance hexpired =>
    exact ⟨.handleExpired _ _ hphase hadvance (hv ▸ hexpired), rfl⟩

/-- The other threads do not act on connections. -/
theorem registry_of_thread {s s' : Server} {e : Server.Event} (he : ∀ l, e ≠ .loop l)
    (h : s.Step e s') (l : LoopId) : (s'.loops l).registry = (s.loops l).registry := by
  have hset : ∀ (l' : LoopId) (task : TaskLoop Fd),
      ((s.setTask l' task).loops l).registry = (s.loops l).registry := by
    intro l' task
    by_cases hl : l = l'
    · rw [hl, Server.setTask_loops_self]
    · rw [Server.setTask_loops_of_ne hl]
  cases h with
  | accept => exact hset _ _
  | abandon => rfl
  | finish => exact hset _ _
  | quit => exact hset _ _
  | loop => exact absurd rfl (he _)

theorem Recorded.step (ht : t.Recorded) (h : Step fs t e t') : t'.Recorded := by
  obtain ⟨hinv, hregistry⟩ := ht
  cases h with
  | thread he hst =>
    exact ⟨hinv.step hst, fun l => (hregistry l).trans (registry_of_thread he hst l).symm⟩
  | @loop l e w v hidle hserves =>
    obtain ⟨hst, hv⟩ := step_of_serves (hregistry l) hserves
    refine ⟨hinv.loop hidle hst, fun l' => ?_⟩
    by_cases hl : l' = l
    · subst hl
      rw [act_served_self, act_server, Server.act_loops_self]
      exact hv
    · rw [act_served_of_ne hl, act_server, Server.act_loops_of_ne hl]
      exact hregistry l'

theorem recorded_start : (start threadnum created threadId).Recorded :=
  ⟨Server.inv_start threadnum created threadId, fun _ => rfl⟩

/-- What the thread of a loop does is recorded. -/
theorem exists_serves {w w' : ServerLoop} {v : Served} (hv : v.registry = w.registry)
    (h : w.Step w') : ∃ fs e v', w.Serves fs v e w' v' := by
  have hfs : FileSystem := .logHtml []
  cases h with
  | turn hturns hadvance => exact ⟨hfs, none, v, .turn hturns hadvance⟩
  | poll hphase hadvance hreports => exact ⟨hfs, none, v, .poll hphase hadvance hreports⟩
  | @handleEvents id revents active registry fs reads writes now hphase hcons hevents =>
    rw [← hv, Registry.handleEvents] at hevents
    split at hevents
    · cases hevents
    · next h hh =>
      simp only at hevents
      split at hevents
      · cases hevents
      · next c hc =>
        cases hevents
        exact ⟨fs, _, _, .handleEvents (r := ⟨revents, reads, writes, now⟩) hphase hcons hh hc⟩
  | newEvent method events revents now hphase hcons hadvance hnew =>
    exact ⟨hfs, _, _, .newEvent hphase hcons hadvance (hv ▸ hnew)⟩
  | handleExpired top clock hphase hadvance hexpired =>
    exact ⟨hfs, _, _, .handleExpired hphase hadvance (hv ▸ hexpired)⟩

/-- So is every step of the server. -/
theorem Recorded.exists_step (ht : t.Recorded) {e : Server.Event} {s : Server}
    (h : t.server.Step e s) : ∃ fs e' t', Step fs t e' t' ∧ t'.server = s := by
  by_cases he : ∀ l, e ≠ .loop l
  · exact ⟨.logHtml [], _, _, .thread he h, rfl⟩
  · push Not at he
    obtain ⟨l, rfl⟩ := he
    cases h with
    | loop hidle hst =>
      obtain ⟨fs, e, v, hserves⟩ := exists_serves (ht.2 l) hst
      exact ⟨fs, _, _, .loop hidle hserves, rfl⟩

/-! ## The loops by themselves -/

/-- The step is one of the connections of the loop, if it acts on them. -/
theorem Recorded.served_of_serves (ht : t.Recorded) {e : Option Served.Event} {w : ServerLoop}
    {v : Served} (h : (t.server.loops l).Serves fs (t.served l) e w v) :
    match e with
    | none => v = t.served l
    | some e => Served.Step fs (t.served l) e v := by
  obtain ⟨hinv, hregistry⟩ := ht
  cases h with
  | turn => rfl
  | poll => rfl
  | @handleEvents id r active h c hphase hcons hh hc =>
    have hreports := hinv.active l
    rw [hcons] at hreports
    obtain ⟨fd, hfd⟩ := hreports.registered _ List.mem_cons_self
    have hreported := hreports.reported _ List.mem_cons_self
    rw [← hregistry l] at hfd
    exact .handleEvents hfd hreported hh hc
  | @newEvent fd functors task registry method events revents now hphase hcons hadvance hnew =>
    have hwaiting : fd ∈ (t.server.loops l).waiting := by
      rw [ServerLoop.waiting, hcons]
      exact List.mem_cons_self
    exact .newEvent ((hregistry l).symm ▸ (hinv.unused hwaiting).2) hnew
  | handleExpired hphase hadvance hexpired => exact .handleExpired hexpired

/-- In a run of the server, the connections of a loop go through a run of the loop. -/
theorem served_run {ps : List (Traffic × Event)} (ht : t.Recorded)
    (hrun : (system fs threadnum created).Run t ps t') (l : LoopId) :
    (Served.system fs).Run (t.served l) (servedIn l ps) (t'.served l) := by
  induction hrun with
  | nil => exact .nil
  | @cons t t₁ t₂ e ps hst hrun ih =>
    have hrest := ih (ht.step hst)
    cases hst with
    | thread he hst => exact hrest
    | @loop l' e w v hidle hserves =>
      have hserved := ht.served_of_serves hserves
      by_cases hl : l' = l
      · subst hl
        rw [act_served_self] at hrest
        cases e with
        | none =>
          obtain rfl : v = t.served l' := hserved
          exact hrest
        | some e =>
          have hcons : servedIn l' ((t, .loop l' (some e)) :: ps) =
              (t.served l', e) :: servedIn l' ps := by
            simp [servedIn]
          rw [hcons]
          exact .cons hserved hrest
      · have hskip : servedIn l ((t, .loop l' e) :: ps) = servedIn l ps := by
          cases e <;> simp [servedIn, hl]
        rw [act_served_of_ne (Ne.symm hl)] at hrest
        rw [hskip]
        exact hrest

/-! ## Clients -/

theorem untimed_reportsFor (l : LoopId) (id : HttpId) (ps : List (Traffic × Event)) :
    (reportsFor l id ps).map Report.untimed = reportsFor l id ps := by
  rw [reportsFor, Served.reportsFor, List.map_filterMap]
  congr
  funext p
  split
  · split <;> rfl
  · rfl

/-- In a run of the server, each connection does what it would do by itself. -/
theorem follows_of_run {ps : List (Traffic × Event)}
    (hrun : (system fs threadnum created).Run (start threadnum created threadId) ps t)
    (l : LoopId) : Served.Follows fs (t.served l) (servedIn l ps) := by
  have hempty : Served.Follows fs .empty [] :=
    ⟨fun id hid => absurd hid (Nat.not_lt_zero id), fun id _ => ⟨rfl, rfl, rfl⟩⟩
  exact hempty.run (.init rfl) (served_run recorded_start hrun l)

/-- What has been reported for a connection in a run. -/
theorem exists_alike {ps : List (Traffic × Event)}
    (hrun : (system fs threadnum created).Run (start threadnum created threadId) ps t)
    (hid : id < (t.served l).registry.nextId) :
    ∃ c, (Conn.solo ((t.served l).method id)).responds fs (reportsFor l id ps) = .ok c ∧
      (t.served l).Alike id c := (follows_of_run hrun l).made id hid

/-- In every run of the server, the client of a connection that by itself only goes through
    proper cycles has read the responses to the first of its requests, and all of them when
    nothing is left to send. -/
theorem gets_of_run {ps : List (Traffic × Event)}
    (hrun : (system fs threadnum created).Run (start threadnum created threadId) ps t)
    (hid : id < (t.served l).registry.nextId)
    (hattended : (Conn.solo ((t.served l).method id)).Attended fs (reportsFor l id ps))
    (hanswered : ∀ r ∈ (t.served l).analysed id, r.Answered fs) :
    ∃ k frames rest,
      readResponses ((t.served l).analysed id) ((t.served l).sent id) = (frames, rest) ∧
      List.Forall₂ (Request.Gets fs) (((t.served l).analysed id).take k) frames ∧
      ∀ fd h, (t.served l).registry.poller.httpdatas fd = some id →
        (t.served l).registry.https id = some h → h.outBuffer = [] →
        ((t.served l).analysed id).take k = (t.served l).analysed id ∧ rest = [] := by
  obtain ⟨c, hresponds, hc⟩ := exists_alike hrun hid
  have hwired := (Conn.wired_solo _).responds hattended hresponds
  rw [← hc.analysed] at hanswered ⊢
  obtain ⟨k, frames, rest, hread, hgets, hall⟩ := hwired.gets hanswered
  refine ⟨k, frames, rest, hc.sent ▸ hread, hgets, fun fd h hfd hh hout => hall ?_⟩
  obtain ⟨revents, hhttp⟩ := hc.http fd h hfd hh
  have hbuffer := congrArg HttpData.outBuffer hhttp
  exact hbuffer.symm.trans hout

/-- A connection that a client has sent well-formed requests for files on, in batches that
    have each been reported in one readable event, has sent the responses to all of them,
    and is ready for the next one. -/
theorem exists_ready {ps : List (Traffic × Event)} {rs : List RequestText}
    (hrun : (system fs threadnum created).Run (start threadnum created threadId) ps t)
    (hid : id < (t.served l).registry.nextId) (h : Conn.Converses rs (reportsFor l id ps))
    (hfile : ∀ r ∈ rs, r.Names fs) (hfits : ∀ r ∈ rs, DotFits r.url) :
    ∃ d : Conn, d.Ready ∧ (t.served l).Alike id (d.alone [] []) ∧
      (t.served l).sent id = RequestText.responses fs rs := by
  obtain ⟨c, hresponds, hc⟩ := exists_alike hrun hid
  obtain ⟨c₀, hfresh, hsolo⟩ := Conn.exists_fresh_solo ((t.served l).method id)
  obtain ⟨d, hd, hready, hsent⟩ := hfresh.ready.responds h hfile hfits
  -- The connection in the loop, by itself, is the one that has been registered.
  rw [hsolo, untimed_reportsFor, hresponds] at hd
  cases hd
  have hsent' : d.socket.sent = (t.served l).sent id := hc.sent
  exact ⟨d, hready, hc, by rw [← hsent', hsent, hfresh.eq.1, List.nil_append]⟩

/-- In every run of the server, a client that sends well-formed requests for files, in
    batches that are each reported in one readable event, has read the responses to all of
    them, and nothing else. -/
theorem converses_of_run {ps : List (Traffic × Event)} {rs : List RequestText}
    (hrun : (system fs threadnum created).Run (start threadnum created threadId) ps t)
    (hid : id < (t.served l).registry.nextId) (h : Conn.Converses rs (reportsFor l id ps))
    (hfile : ∀ r ∈ rs, r.Names fs) (hfits : ∀ r ∈ rs, DotFits r.url) :
    ∃ frames,
      readResponses (rs.map RequestText.request) ((t.served l).sent id) = (frames, []) ∧
      List.Forall₂ (Request.Gets fs) (rs.map RequestText.request) frames := by
  obtain ⟨d, -, -, hsent⟩ := exists_ready hrun hid h hfile hfits
  rw [hsent]
  exact RequestText.exists_readResponses hfile hfits

/-! ## A run -/

/-- The thread of a loop goes on. -/
theorem exists_loop {t₀ : Traffic} {ps : List (Traffic × Event)} {w w' : ServerLoop}
    {v v' : Served} {e : Option Served.Event}
    (hrun : (system fs threadnum created).Run t₀ ps t) (hw : t.server.loops l = w)
    (hv : t.served l = v) (hidle : w.task.caller w.task.threadId = .idle)
    (h : w.Serves fs v e w' v') :
    ∃ t', (system fs threadnum created).Run t₀ (ps ++ [(t, .loop l e)]) t' ∧
      t'.server.loops l = w' ∧ t'.served l = v' := by
  subst hw hv
  exact ⟨_, hrun.append (.single (.loop hidle h)), Server.act_loops_self, act_served_self⟩

/-- The loop is in some phase with nothing left to do but to go on. -/
structure Free (phase : Phase) (w : ServerLoop) : Prop where
  phase : w.task.phase = phase
  looping : w.task.looping = true
  pendingFunctors : w.task.pendingFunctors = []
  activeChannels : w.activeChannels = []
  caller : w.task.caller w.task.threadId = .idle

theorem reportsFor_append (l : LoopId) (id : HttpId) (ps ps' : List (Traffic × Event)) :
    reportsFor l id (ps ++ ps') = reportsFor l id ps ++ reportsFor l id ps' := by
  rw [reportsFor, servedIn, List.filterMap_append, Served.reportsFor_append]
  rfl

/-- A loop handles an event. -/
theorem exists_event {t₀ : Traffic} {ps : List (Traffic × Event)} {r : Report} {fd : Fd}
    {h : HttpData} {c : Conn} (hrun : (system fs threadnum created).Run t₀ ps t)
    (hfree : Free .head (t.server.loops l))
    (hregistry : (t.server.loops l).registry = (t.served l).registry)
    (hfd : (t.served l).registry.poller.channels fd = some (.http id))
    (hreported : Registry.Reported r.revents) (hh : (t.served l).registry.https id = some h)
    (hc : (((t.served l).registry.conn h ⟨[], [], [], r.now⟩).deliver r).handleEvents fs = .ok c) :
    ∃ ps' t', (system fs threadnum created).Run t₀ (ps ++ ps') t' ∧
      reportsFor l id (ps ++ ps') = reportsFor l id ps ++ [r.untimed] ∧
      Free .events (t'.server.loops l) ∧ t'.served l = (t.served l).record id c ∧
      (t'.server.loops l).registry = (t'.served l).registry := by
  have hreports : ServerLoop.Reports (t.server.loops l).registry [(id, r.revents)] :=
    ⟨List.forall_mem_singleton.2 ⟨fd, hregistry ▸ hfd⟩, List.forall_mem_singleton.2 hreported,
      List.nodup_singleton _⟩
  generalize hw : t.server.loops l = w at hfree hreports
  obtain ⟨⟨threadId, looping, phase, calling, pending, functors, caller, queued, executed, woken⟩,
    registry, active⟩ := w
  obtain ⟨rfl, rfl, rfl, rfl, hcaller⟩ := hfree
  obtain ⟨t₁, hrun, hw, hv⟩ := exists_loop hrun hw rfl hcaller (.turn trivial rfl)
  obtain ⟨t₂, hrun, hw, hv⟩ := exists_loop hrun hw hv hcaller (.poll rfl rfl hreports)
  obtain ⟨t₃, hrun, hw, hv⟩ := exists_loop hrun hw hv hcaller
    (.handleEvents (r := r) rfl rfl hh hc)
  rw [List.append_assoc, List.append_assoc] at hrun
  refine ⟨_, t₃, hrun, ?_, hw ▸ ⟨rfl, rfl, rfl, rfl, hcaller⟩, hv, by rw [hw, hv]; rfl⟩
  rw [reportsFor_append]
  simp [reportsFor, servedIn, Served.reportsFor]

/-- After the events, a loop closes the connections that have expired. -/
theorem exists_expired (id : HttpId) {t₀ : Traffic} {ps : List (Traffic × Event)}
    {registry : Registry} {top : ℕ → MinQueue.Top TimerNode.expiredTime} {clock : ℕ → Timeval}
    (hrun : (system fs threadnum created).Run t₀ ps t)
    (hfree : Free .events (t.server.loops l))
    (hexpired : (t.served l).registry.handleExpired top clock = .ok registry) :
    ∃ ps' t', (system fs threadnum created).Run t₀ (ps ++ ps') t' ∧
      reportsFor l id (ps ++ ps') = reportsFor l id ps ∧
      Free .head (t'.server.loops l) ∧ t'.served l = { t.served l with registry := registry } ∧
      (t'.server.loops l).registry = (t'.served l).registry := by
  generalize hw : t.server.loops l = w at hfree
  obtain ⟨⟨threadId, looping, phase, calling, pending, functors, caller, queued, executed, woken⟩,
    registry', active⟩ := w
  obtain ⟨rfl, rfl, rfl, rfl, hcaller⟩ := hfree
  obtain ⟨t₁, hrun, hw, hv⟩ := exists_loop hrun hw rfl hcaller (.turn rfl rfl)
  obtain ⟨t₂, hrun, hw, hv⟩ := exists_loop hrun hw hv hcaller (.turn trivial rfl)
  obtain ⟨t₃, hrun, hw, hv⟩ := exists_loop hrun hw hv hcaller (.turn rfl rfl)
  obtain ⟨t₄, hrun, hw, hv⟩ := exists_loop hrun hw hv hcaller (.handleExpired rfl rfl hexpired)
  rw [List.append_assoc, List.append_assoc, List.append_assoc] at hrun
  refine ⟨_, t₄, hrun, ?_, hw ▸ ⟨rfl, rfl, rfl, rfl, hcaller⟩, hv, by rw [hw, hv]⟩
  rw [reportsFor_append]
  simp [reportsFor, servedIn, Served.reportsFor]

/-- A connection is accepted, handed over to the first loop of the pool and registered in its
    first iteration. -/
theorem exists_registered (fs : FileSystem) {made registry : Registry}
    {top : ℕ → MinQueue.Top TimerNode.expiredTime} {clock : ℕ → Timeval}
    (hnew : Registry.empty.newEvent 7 none 0 0 ⟨0, 0⟩ = .ok made)
    (hexpired : made.handleExpired top clock = .ok registry) :
    ∃ ps t, (system fs 4 fun _ => true).Run (start 4 (fun _ => true) Server.threadIds) ps t ∧
      reportsFor (.worker 0) 0 ps = [] ∧ Free .head (t.server.loops (.worker 0)) ∧
      t.served (.worker 0) = { Served.empty.make made none with registry := registry } ∧
      (t.server.loops (.worker 0)).registry = registry := by
  have hrun₁ := System.Run.single (S := system fs 4 fun _ => true)
    (.thread (t := start 4 (fun _ => true) Server.threadIds) (fun l h => by cases h)
      (.accept (l := .worker 0) (by decide : 0 < 7) (by decide) (fun h => h) rfl
        ⟨rfl, fun h => by cases h⟩))
  have hrun₂ := hrun₁.append (.single (.thread (fun l h => by cases h)
    (.finish (l := .worker 0) (t := 0) Caller.noConfusion)))
  obtain ⟨t, hrun, hw, hv⟩ := exists_loop (l := .worker 0) hrun₂ rfl rfl rfl (.turn trivial rfl)
  obtain ⟨t, hrun, hw, hv⟩ := exists_loop hrun hw hv rfl (.turn trivial rfl)
  obtain ⟨t, hrun, hw, hv⟩ := exists_loop hrun hw hv rfl (.poll rfl rfl (ServerLoop.reports_nil _))
  obtain ⟨t, hrun, hw, hv⟩ := exists_loop hrun hw hv rfl (.turn rfl rfl)
  obtain ⟨t, hrun, hw, hv⟩ := exists_loop hrun hw hv rfl (.turn trivial rfl)
  obtain ⟨t, hrun, hw, hv⟩ := exists_loop hrun hw hv rfl (.newEvent rfl rfl rfl hnew)
  obtain ⟨t, hrun, hw, hv⟩ := exists_loop hrun hw hv rfl (.turn trivial rfl)
  obtain ⟨t, hrun, hw, hv⟩ := exists_loop hrun hw hv rfl (.turn rfl rfl)
  obtain ⟨t, hrun, hw, hv⟩ := exists_loop hrun hw hv rfl (.handleExpired rfl rfl hexpired)
  exact ⟨_, t, hrun, rfl, hw ▸ ⟨rfl, rfl, rfl, rfl, rfl⟩, hv, by rw [hw]⟩

/-- A client asks for the start page. -/
def asks : Report := Conn.arrival [Conn.getStart 1] (List.cons_ne_nil _ _) Conn.length_get_le

/-- Its connection is accepted, handed over and registered, and answers. -/
theorem exists_answered : ∃ ps t,
    (system (.logHtml (bytes "hi")) 4 fun _ => true).Run
      (start 4 (fun _ => true) Server.threadIds) ps t ∧
    0 < (t.served (.worker 0)).registry.nextId ∧ (t.served (.worker 0)).method 0 = none ∧
    reportsFor (.worker 0) 0 ps = [asks] ∧ (t.served (.worker 0)).sent 0 ≠ [] ∧
    ∀ r ∈ (t.served (.worker 0)).analysed 0, r.Answered (.logHtml (bytes "hi")) := by
  obtain ⟨made, hnew, hmade⟩ := exists_ok_of_any
    (x := Registry.empty.newEvent 7 none 0 0 ⟨0, 0⟩)
    (p := fun made => (made.handleExpired (fun _ => .first _) fun _ => ⟨0, 0⟩).toOption.any
      fun registry : Registry => decide (registry.poller.channels 7 = some (.http 0)) &&
        decide (registry.nextId = 1) && (registry.https 0).any fun h =>
          (((registry.conn h ⟨[], [], [], ⟨0, 0⟩⟩).deliver asks).handleEvents
            (.logHtml (bytes "hi"))).toOption.any fun c : Conn =>
              decide (c.socket.sent ≠ []) && c.analysed.all fun r =>
                decide (r.reply (.logHtml (bytes "hi")) =
                  .answered (r.responseOf (.logHtml (bytes "hi"))))) (by decide +kernel)
  obtain ⟨registry, hexpired, hregistry⟩ := exists_ok_of_any hmade
  rw [Bool.and_eq_true, Bool.and_eq_true, decide_eq_true_eq, decide_eq_true_eq] at hregistry
  obtain ⟨⟨hchannel, hnextId⟩, hhttp⟩ := hregistry
  obtain ⟨h, hh, hc⟩ := (Option.any_eq_true _ _).1 hhttp
  obtain ⟨c, hevents, hc⟩ := exists_ok_of_any hc
  rw [Bool.and_eq_true, decide_eq_true_eq, List.all_eq_true] at hc
  obtain ⟨hsent, hanswered⟩ := hc
  obtain ⟨ps, t, hrun, hreports, hfree, hv, hregistry⟩ := exists_registered _ hnew hexpired
  obtain ⟨ps', t', hrun, hreports', -, hv', -⟩ := exists_event (r := asks) hrun hfree
    (by rw [hregistry, hv]) (by rw [hv]; exact hchannel) (by decide) (by rw [hv]; exact hh)
    (by rw [hv]; exact hevents)
  rw [hv] at hv'
  refine ⟨_, t', hrun, ?_, ?_, hreports'.trans (by rw [hreports]; rfl), ?_, ?_⟩
  · rw [hv']
    exact hnextId ▸ Nat.zero_lt_one
  · rw [hv']
    rfl
  · rw [hv']
    exact hsent
  · rw [hv']
    exact fun r hr => Request.answered_iff.2 ⟨_, of_decide_eq_true (hanswered r hr)⟩

/-- By itself, the connection answers in one proper cycle. -/
theorem attended_asks : (Conn.solo none).Attended (.logHtml (bytes "hi")) [asks] := by
  have hproper : ((Conn.solo none).deliver asks).started.Clear (.logHtml (bytes "hi")) ∧
      ¬((Conn.solo none).deliver asks).started.Refused (.logHtml (bytes "hi")) := by
    decide +kernel
  obtain ⟨turn, hturn, hempty⟩ := exists_ok_of_any
    (x := ((Conn.solo none).deliver asks).started.turn (.logHtml (bytes "hi")))
    (p := fun turn => decide (turn.conn.http.inBuffer = [])) (by decide +kernel)
  refine ⟨fun d hd => ?_, fun d _ => trivial⟩
  cases hd with
  | read =>
    refine .last ⟨soft_nil, hproper.1, hproper.2⟩ fun d hd => ?_
    cases hturn.symm.trans hd
    exact (Conn.again_of_turn hd).1 (of_decide_eq_true hempty)
  | write _ hmask => exact absurd hmask (by decide)

theorem gets_of_run_answered : ∃ (ps : List (Traffic × Event)) (t : Traffic),
    reportsFor (.worker 0) 0 ps = [asks] ∧ (t.served (.worker 0)).sent 0 ≠ [] ∧
    ∃ k frames rest,
      readResponses ((t.served (.worker 0)).analysed 0) ((t.served (.worker 0)).sent 0) =
        (frames, rest) ∧
      List.Forall₂ (Request.Gets (.logHtml (bytes "hi")))
        (((t.served (.worker 0)).analysed 0).take k) frames ∧
      ∀ fd h, (t.served (.worker 0)).registry.poller.httpdatas fd = some 0 →
        (t.served (.worker 0)).registry.https 0 = some h → h.outBuffer = [] →
        ((t.served (.worker 0)).analysed 0).take k = (t.served (.worker 0)).analysed 0 ∧
          rest = [] := by
  obtain ⟨ps, t, hrun, hid, hmethod, hreports, hsent, hanswered⟩ := exists_answered
  refine ⟨ps, t, hreports, hsent, gets_of_run hrun hid ?_ hanswered⟩
  rw [hmethod, hreports]
  exact attended_asks

theorem converses_of_run_answered : ∃ (ps : List (Traffic × Event)) (t : Traffic)
    (frames : List (Text.Frame UInt8)),
    reportsFor (.worker 0) 0 ps = [asks] ∧ (t.served (.worker 0)).sent 0 ≠ [] ∧
    readResponses ([Conn.getStart 1].map RequestText.request) ((t.served (.worker 0)).sent 0) =
      (frames, []) ∧
    List.Forall₂ (Request.Gets (.logHtml (bytes "hi")))
      ([Conn.getStart 1].map RequestText.request) frames := by
  obtain ⟨ps, t, hrun, hid, -, hreports, hsent, -⟩ := exists_answered
  have hconverses : Conn.Converses ([Conn.getStart 1] ++ []) (reportsFor (.worker 0) 0 ps) :=
    hreports ▸ Conn.converses_arrival _ _ .nil
  obtain ⟨frames, hread, hgets⟩ := converses_of_run hrun hid hconverses
    (List.forall_mem_singleton.2 (Conn.names_of_target rfl))
    (List.forall_mem_singleton.2 (by decide +kernel))
  exact ⟨ps, t, frames, hreports, hsent, hread, hgets⟩

end Traffic

end Webserver
