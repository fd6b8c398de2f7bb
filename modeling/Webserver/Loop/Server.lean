import Webserver.Loop.AcceptLoop
import Webserver.Loop.Registration
import Webserver.Loop.TaskLoop

/-!
# The server

The acceptor accepts connections in the main thread, and hands each over to a loop
by queueing a functor there; the thread of the loop runs it, which registers the
connection, handles events reported for it, and closes it in the end. All threads
share the descriptors of the process: `accept` returns one that is not open, and
the destructor of a connection closes the one it has.

* `ServerLoop.Step`: what the thread of a loop does. Each phase of the loop acts on
  the functors handed over, or on the connections.
* `Life.system`: the life of a descriptor, which is what the server is about: it is
  handed over to one loop, registered there, and closed.
* `Server.Inv`: the invariant. Every loop is one of those that have been considered
  by themselves, and every descriptor is where its life says.

The poller hands on what `epoll_wait` reports, which is what the body of `poll` is for. As
the code stands, this body is never run (see `Loop.Dispatch`): its runs are those of the
runs considered here in which nothing is reported.
-/

namespace Webserver

open Transition

/-! ## Loops -/

/-- An `EventLoop`, with the functors handed over to it, each of which is `newEvent` on
    the connection of a descriptor; with its connections; and with the channels of those
    whose events it has yet to handle. -/
structure ServerLoop where
  task : TaskLoop Fd
  registry : Registry
  activeChannels : List (HttpId × Mask)

namespace ServerLoop

def new (threadId : ThreadId) : ServerLoop := ⟨.new threadId, .empty, []⟩

/-- The descriptors of the connections handed over that are not registered yet. -/
def waiting (w : ServerLoop) : List Fd := w.task.functors ++ w.task.pendingFunctors

/-- The phase of the loop acts on no connection. -/
def Turns (w : ServerLoop) : Prop :=
  match w.task.phase with
  | .poll | .expired => False
  | .events => w.activeChannels = []
  | .run => w.task.functors = []
  | _ => True

/-- What `epoll_wait` may report, and `poll` hand on: events of registered connections, of
    each one once, or none. -/
structure Reports (s : Registry) (active : List (HttpId × Mask)) : Prop where
  registered : ∀ a ∈ active, ∃ fd, s.poller.channels fd = some (.http a.1)
  reported : ∀ a ∈ active, Registry.Reported a.2
  nodup : (active.map Prod.fst).Nodup

theorem reports_nil (s : Registry) : Reports s [] :=
  ⟨fun _ h => absurd h List.not_mem_nil, fun _ h => absurd h List.not_mem_nil, List.nodup_nil⟩

/-- The next step of the thread of a loop. -/
inductive Step (w : ServerLoop) : ServerLoop → Prop
  | turn {task : TaskLoop Fd} : w.Turns → w.task.advance = some task →
      Step w { w with task := task }
  | poll {task : TaskLoop Fd} {active : List (HttpId × Mask)} :
      w.task.phase = .poll → w.task.advance = some task → Reports w.registry active →
      Step w { w with task := task, activeChannels := active }
  | handleEvents {id : HttpId} {revents : Mask} {active : List (HttpId × Mask)}
      {registry : Registry} (fs : FileSystem) (reads : List ReadResult)
      (writes : List WriteResult) (now : Timeval) :
      w.task.phase = .events → w.activeChannels = (id, revents) :: active →
      w.registry.handleEvents fs id revents reads writes now = .ok registry →
      Step w { w with registry := registry, activeChannels := active }
  | newEvent {fd : Fd} {functors : List Fd} {task : TaskLoop Fd} {registry : Registry}
      (method : Option HttpMethod) (events revents : Mask) (now : Timeval) :
      w.task.phase = .run → w.task.functors = fd :: functors → w.task.advance = some task →
      w.registry.newEvent fd method events revents now = .ok registry →
      Step w { w with task := task, registry := registry }
  | handleExpired {task : TaskLoop Fd} {registry : Registry}
      (top : ℕ → MinQueue.Top TimerNode.expiredTime) (clock : ℕ → Timeval) :
      w.task.phase = .expired → w.task.advance = some task →
      w.registry.handleExpired top clock = .ok registry →
      Step w { w with task := task, registry := registry }

end ServerLoop

/-! ## The server -/

/-- The loops, the pool they are taken from in turn, and the descriptors of connections
    that are open. Recorded are the connections handed over, in order, and those that
    `handleNewConn` has left open without handing them over. -/
structure Server where
  eventLoopThreadPool : EventLoopThreadPool
  loops : LoopId → ServerLoop
  fds : Set Fd
  abandoned : List Fd
  handed : List (LoopId × Fd)

namespace Server

/-- The server after `Acceptor::start`, with the threads its loops run in. -/
def start (threadnum : ℕ) (created : ℕ → Bool) (threadId : LoopId → ThreadId) : Server where
  eventLoopThreadPool := (EventLoopThreadPool.new threadnum).threadPoolInit created
  loops l := .new (threadId l)
  fds := ∅
  abandoned := []
  handed := []

/-- The thread that accepts connections. -/
def mainThread (s : Server) : ThreadId := (s.loops .owner).task.threadId

/-- A loop changes, and descriptors are closed with the connections released in it. -/
def act (s : Server) (l : LoopId) (w : ServerLoop) : Server :=
  { s with
    loops := Function.update s.loops l w
    fds := {fd | fd ∈ s.fds ∧ ¬(s.loops l).registry.Released w.registry fd} }

/-- The functors of a loop change. -/
def setTask (s : Server) (l : LoopId) (task : TaskLoop Fd) : Server :=
  { s with loops := Function.update s.loops l { s.loops l with task := task } }

/-- `accept` has returned a descriptor, and the loop `l` is the next of the pool. -/
def dispatch (s : Server) (l : LoopId) (pool : EventLoopThreadPool) (fd : Fd) : Server :=
  { s.setTask l ((s.loops l).task.push s.mainThread fd) with
    eventLoopThreadPool := pool
    fds := insert fd s.fds
    handed := s.handed ++ [(l, fd)] }

/-- `accept` has returned a descriptor that cannot be made non-blocking. -/
def abandon (s : Server) (fd : Fd) : Server :=
  { s with fds := insert fd s.fds, abandoned := s.abandoned ++ [fd] }

inductive Event
  | accept (fd : Fd)
  | abandon (fd : Fd)
  | finish (l : LoopId) (t : ThreadId)
  | quit (l : LoopId) (t : ThreadId)
  | loop (l : LoopId)

/-- The steps of the threads. A round of `handleNewConn` is one step, up to the push of
    the functor; where the descriptor is beyond the limit, it is closed at once. -/
inductive Step (s : Server) : Event → Server → Prop
  | accept {fd : Fd} {l : LoopId} {pool : EventLoopThreadPool} :
      0 < fd → (fd : ℤ) ≤ Acceptor.MAXFDS → fd ∉ s.fds →
      s.eventLoopThreadPool.getNextPool = .ok (some l, pool) →
      (s.loops l).task.MayCall s.mainThread → Step s (.accept fd) (s.dispatch l pool fd)
  | abandon {fd : Fd} : 0 < fd → (fd : ℤ) ≤ Acceptor.MAXFDS → fd ∉ s.fds →
      Step s (.abandon fd) (s.abandon fd)
  | finish {l : LoopId} {t : ThreadId} : (s.loops l).task.caller t ≠ .idle →
      Step s (.finish l t) (s.setTask l ((s.loops l).task.finish t))
  | quit {l : LoopId} {t : ThreadId} : (s.loops l).task.MayCall t →
      Step s (.quit l t) (s.setTask l ((s.loops l).task.quit t))
  | loop {l : LoopId} {w : ServerLoop} :
      (s.loops l).task.caller (s.loops l).task.threadId = .idle → (s.loops l).Step w →
      Step s (.loop l) (s.act l w)

/-- The runs of the threads, from the start of the server. -/
def system (threadnum : ℕ) (created : ℕ → Bool) : System Server Event where
  init := Set.range (start threadnum created)
  step := Step

end Server

/-! ## The life of a descriptor -/

/-- Where an open descriptor is: left over, handed over to a loop, or registered. -/
inductive Place
  | abandoned
  | waiting (l : LoopId)
  | registered (l : LoopId)

namespace Life

inductive Event
  | accept (fd : Fd) (l : LoopId)
  | abandon (fd : Fd)
  | register (fd : Fd) (l : LoopId)
  | close (l : LoopId) (fds : Set Fd)

/-- What may happen to the descriptors. -/
inductive Step (f : Fd → Option Place) : Event → (Fd → Option Place) → Prop
  | accept {fd : Fd} {l : LoopId} : f fd = none →
      Step f (.accept fd l) (Function.update f fd (some (.waiting l)))
  | abandon {fd : Fd} : f fd = none →
      Step f (.abandon fd) (Function.update f fd (some .abandoned))
  | register {fd : Fd} {l : LoopId} : f fd = some (.waiting l) →
      Step f (.register fd l) (Function.update f fd (some (.registered l)))
  | close {l : LoopId} {fds : Set Fd} {f' : Fd → Option Place} :
      (∀ fd ∈ fds, f fd = some (.registered l)) → (∀ fd ∈ fds, f' fd = none) →
      (∀ fd ∉ fds, f' fd = f fd) → Step f (.close l fds) f'

/-- The lives of all descriptors, none of which is open at first. -/
def system : System (Fd → Option Place) Event where
  init := {fun _ => none}
  step := Step

end Life

namespace Server

/-- The descriptor is found at that place. -/
def At (s : Server) (fd : Fd) : Place → Prop
  | .abandoned => fd ∈ s.abandoned
  | .waiting l => fd ∈ (s.loops l).waiting
  | .registered l => ∃ id, (s.loops l).registry.poller.httpdatas fd = some id

/-- Every descriptor is found where its life says, and nowhere else, and in the queue of
    a loop once; and the descriptors open are those found somewhere. -/
structure Lives (s : Server) (f : Fd → Option Place) : Prop where
  at_iff : ∀ fd p, s.At fd p ↔ f fd = some p
  fds_iff : ∀ fd, fd ∈ s.fds ↔ f fd ≠ none
  pos : ∀ fd ∈ s.fds, 0 < fd
  nodup : ∀ l, (s.loops l).waiting.Nodup

/-- What holds between the steps of the threads. -/
structure Inv (s : Server) : Prop where
  task : ∀ l, (TaskLoop.system Fd).Reachable (s.loops l).task
  registry : ∀ l, (Registry.calls Registry.Reported).Reachable (s.loops l).registry
  /-- The channels that are about to handle events are still registered. -/
  active : ∀ l, ServerLoop.Reports (s.loops l).registry (s.loops l).activeChannels
  handling : ∀ l, (s.loops l).activeChannels ≠ [] → (s.loops l).task.phase = .events
  lives : ∃ f, Life.system.Reachable f ∧ s.Lives f

/-! ## What the functors of a loop go through -/

end Server

namespace TaskLoop

variable {Functor : Type*} {s s' : TaskLoop Functor}

/-- The loop takes no functor out, where it is not about to run one. -/
theorem advance_held (hs : s.Awake) (hrun : s.phase = .run → s.functors = [])
    (h : s.advance = some s') :
    s'.functors ++ s'.pendingFunctors = s.functors ++ s.pendingFunctors ∧
      s'.executed = s.executed ∧ s'.queued = s.queued ∧ s'.threadId = s.threadId := by
  rcases loopStep_of_advance h with
    - | - | - | - | hphase | ⟨hphase, hcons⟩ | ⟨-, -⟩ | - | -
  any_goals exact ⟨rfl, rfl, rfl, rfl⟩
  · -- The functors of the last round have all been run.
    have hfunctors : s.functors = [] := by
      by_contra hne
      have hrun := hs.functors hne
      simp [hphase] at hrun
    exact ⟨by simp [hfunctors], rfl, rfl, rfl⟩
  · rw [hrun hphase] at hcons
    cases hcons

/-- The loop takes the functor out that it is about to run. -/
theorem advance_take (hphase : s.phase = .run) {functor : Functor} {functors : List Functor}
    (hcons : s.functors = functor :: functors) (h : s.advance = some s') :
    s' = { s with
      executed := s.executed ++ [functor]
      functors := functors
      phase := .functor } := by
  rw [advance, hphase] at h
  simp only [hcons, Option.some.injEq] at h
  exact h.symm

end TaskLoop

namespace Server

variable {s s' : Server} {l l' : LoopId} {w : ServerLoop}

@[simp] theorem act_loops_self : (s.act l w).loops l = w := Function.update_self _ _ _

theorem act_loops_of_ne (h : l' ≠ l) : (s.act l w).loops l' = s.loops l' :=
  Function.update_of_ne h _ _

@[simp] theorem setTask_loops_self {task : TaskLoop Fd} :
    (s.setTask l task).loops l = { s.loops l with task := task } := Function.update_self _ _ _

theorem setTask_loops_of_ne {task : TaskLoop Fd} (h : l' ≠ l) :
    (s.setTask l task).loops l' = s.loops l' := Function.update_of_ne h _ _

theorem mem_fds_act {fd : Fd} : fd ∈ (s.act l w).fds ↔
    fd ∈ s.fds ∧ ¬(s.loops l).registry.Released w.registry fd := .rfl

/-- Where a descriptor is found depends on the loops, and on the ones left over. -/
theorem at_congr {fd : Fd} (hwaiting : ∀ l, fd ∈ (s'.loops l).waiting ↔ fd ∈ (s.loops l).waiting)
    (hregistry : ∀ l, (∃ id, (s'.loops l).registry.poller.httpdatas fd = some id) ↔
      ∃ id, (s.loops l).registry.poller.httpdatas fd = some id)
    (habandoned : fd ∈ s'.abandoned ↔ fd ∈ s.abandoned) (p : Place) : s'.At fd p ↔ s.At fd p := by
  rcases p with - | l | l
  · exact habandoned
  · exact hwaiting l
  · exact hregistry l

/-- After a phase that registers nothing, a descriptor is found where it was, unless its
    connection has been released. -/
theorem at_act_iff (hr : (s.loops l).registry.Inv) (hr' : w.registry.Inv)
    (hwaiting : w.waiting = (s.loops l).waiting)
    (hsub : ∀ fd id, w.registry.poller.httpdatas fd = some id →
      (s.loops l).registry.poller.httpdatas fd = some id)
    (hfdOf : w.registry.fdOf = (s.loops l).registry.fdOf) {fd : Fd} {p : Place} :
    (s.act l w).At fd p ↔
      s.At fd p ∧ (p = .registered l → ¬(s.loops l).registry.Released w.registry fd) := by
  have hreleased : (s.loops l).registry.Released w.registry fd ↔ _ :=
    Registry.released_iff hr hr' hsub hfdOf
  cases p with
  | abandoned => exact (and_iff_left nofun).symm
  | waiting l' =>
    refine Iff.trans ?_ (and_iff_left nofun).symm
    by_cases heq : l' = l
    · rw [At, heq, act_loops_self, hwaiting]
      rfl
    · rw [At, act_loops_of_ne heq]
      rfl
  | registered l' =>
    by_cases heq : l' = l
    · subst heq
      rw [At, act_loops_self]
      refine ⟨fun ⟨id, hid⟩ => ⟨⟨id, hsub fd id hid⟩, fun _ h => ?_⟩, fun ⟨hp, hkept⟩ => ?_⟩
      · rw [(hreleased.1 h).2] at hid
        cases hid
      · exact Option.ne_none_iff_exists'.1 fun hnone => hkept rfl (hreleased.2 ⟨hp, hnone⟩)
    · rw [At, act_loops_of_ne heq]
      exact (and_iff_left fun h => absurd (Place.registered.inj h) heq).symm

namespace Lives

variable {f : Fd → Option Place}

/-- One descriptor gets to another place, which it is found at from then on. -/
theorem move (hs : s.Lives f) {fd : Fd} {p : Place} (hat : s'.At fd p)
    (honly : ∀ p', s'.At fd p' → p' = p)
    (hother : ∀ fd', fd' ≠ fd → ∀ p', s'.At fd' p' ↔ s.At fd' p')
    (hfds : s'.fds = insert fd s.fds) (hpos : 0 < fd) (hnodup : ∀ l, (s'.loops l).waiting.Nodup) :
    s'.Lives (Function.update f fd (some p)) := by
  refine ⟨fun fd' p' => ?_, fun fd' => ?_, fun fd' hfd' => ?_, hnodup⟩
  · by_cases heq : fd' = fd
    · subst heq
      rw [Function.update_self, Option.some.injEq]
      exact ⟨fun h => (honly p' h).symm, fun h => h ▸ hat⟩
    · rw [Function.update_of_ne heq, hother fd' heq, hs.at_iff]
  · rw [hfds, Set.mem_insert_iff]
    by_cases heq : fd' = fd
    · simp [heq]
    · simpa [heq] using hs.fds_iff fd'
  · rw [hfds] at hfd'
    rcases hfd' with rfl | hfd'
    · exact hpos
    · exact hs.pos fd' hfd'

/-- A descriptor that is not open is found nowhere. -/
theorem not_at (hs : s.Lives f) {fd : Fd} (hfd : fd ∉ s.fds) (p : Place) : ¬s.At fd p := by
  have hnone : f fd = none := not_not.1 (mt (hs.fds_iff fd).2 hfd)
  rw [hs.at_iff, hnone]
  exact (Option.some_ne_none p).symm

theorem eq_of_at (hs : s.Lives f) {fd : Fd} {p p' : Place} (h : s.At fd p) (h' : s.At fd p') :
    p' = p :=
  Option.some.inj (((hs.at_iff fd p').1 h').symm.trans ((hs.at_iff fd p).1 h))

/-- A connection is handed over. -/
theorem dispatch (hs : s.Lives f) {fd : Fd} (hpos : 0 < fd) (hfd : fd ∉ s.fds)
    (pool : EventLoopThreadPool) :
    (s.dispatch l pool fd).Lives (Function.update f fd (some (.waiting l))) := by
  have hloop : (s.dispatch l pool fd).loops l = { s.loops l with
      task := (s.loops l).task.push s.mainThread fd } := setTask_loops_self
  have hself : ((s.dispatch l pool fd).loops l).waiting = (s.loops l).waiting ++ [fd] := by
    rw [hloop]
    exact (List.append_assoc _ _ _).symm
  have hne : ∀ l', l' ≠ l → (s.dispatch l pool fd).loops l' = s.loops l' :=
    fun l' h => setTask_loops_of_ne h
  have hregistry : ∀ l', ((s.dispatch l pool fd).loops l').registry = (s.loops l').registry := by
    intro l'
    by_cases heq : l' = l
    · rw [heq, hloop]
    · rw [hne l' heq]
  refine hs.move ?_ (fun p hp => ?_) (fun fd' hfd' => at_congr (fun l' => ?_) (fun l' => ?_) .rfl)
    rfl hpos fun l' => ?_
  · rw [At, hself]
    exact List.mem_append_right _ List.mem_cons_self
  · rcases p with - | l' | l'
    · exact absurd hp (hs.not_at hfd .abandoned)
    · by_cases heq : l' = l
      · rw [heq]
      · rw [At, hne l' heq] at hp
        exact absurd hp (hs.not_at hfd (.waiting l'))
    · rw [At, hregistry] at hp
      exact absurd hp (hs.not_at hfd (.registered l'))
  · by_cases heq : l' = l
    · simp [heq, hself, hfd']
    · rw [hne l' heq]
  · rw [hregistry]
  · by_cases heq : l' = l
    · rw [heq, hself]
      exact (hs.nodup l).append (List.nodup_singleton fd)
        (List.disjoint_singleton.2 (hs.not_at hfd (.waiting l)))
    · rw [hne l' heq]
      exact hs.nodup l'

/-- A descriptor is left over. -/
theorem abandon (hs : s.Lives f) {fd : Fd} (hpos : 0 < fd) (hfd : fd ∉ s.fds) :
    (s.abandon fd).Lives (Function.update f fd (some .abandoned)) := by
  refine hs.move (List.mem_append_right _ List.mem_cons_self) (fun p hp => ?_)
    (fun fd' hfd' => at_congr (fun _ => .rfl) (fun _ => .rfl) ?_) rfl hpos hs.nodup
  · rcases p with - | l' | l'
    · rfl
    · exact absurd hp (hs.not_at hfd (.waiting l'))
    · exact absurd hp (hs.not_at hfd (.registered l'))
  · rw [Server.abandon, List.mem_append, List.mem_singleton, or_iff_left hfd']

/-- A connection is registered. -/
theorem register (hs : s.Lives f) {fd : Fd} (hwaiting : (s.loops l).waiting = fd :: w.waiting)
    {id : HttpId} (hregistry : w.registry.poller.httpdatas =
      Function.update (s.loops l).registry.poller.httpdatas fd (some id))
    (hreleased : ∀ fd', ¬(s.loops l).registry.Released w.registry fd') :
    (s.act l w).Lives (Function.update f fd (some (.registered l))) := by
  have hat : s.At fd (.waiting l) := by rw [At, hwaiting]; exact List.mem_cons_self
  have hnodup : (fd :: w.waiting).Nodup := hwaiting ▸ hs.nodup l
  have hopen : fd ∈ s.fds := by
    rw [hs.fds_iff, (hs.at_iff fd _).1 hat]
    exact Option.some_ne_none _
  refine hs.move ⟨id, ?_⟩ (fun p hp => ?_)
    (fun fd' hfd' => at_congr (fun l' => ?_) (fun l' => ?_) .rfl) ?_ (hs.pos fd hopen) fun l' => ?_
  · rw [act_loops_self, hregistry, Function.update_self]
  · rcases p with - | l' | l'
    · have hp : s.At fd .abandoned := hp
      exact absurd (hs.eq_of_at hat hp) Place.noConfusion
    · by_cases heq : l' = l
      · rw [At, heq, act_loops_self] at hp
        exact absurd hp (List.nodup_cons.1 hnodup).1
      · rw [At, act_loops_of_ne heq] at hp
        have hp : s.At fd (.waiting l') := hp
        exact absurd (Place.waiting.inj (hs.eq_of_at hat hp)) heq
    · by_cases heq : l' = l
      · rw [heq]
      · rw [At, act_loops_of_ne heq] at hp
        have hp : s.At fd (.registered l') := hp
        exact absurd (hs.eq_of_at hat hp) Place.noConfusion
  · by_cases heq : l' = l
    · simp [heq, hwaiting, hfd']
    · rw [act_loops_of_ne heq]
  · by_cases heq : l' = l
    · rw [heq, act_loops_self, hregistry, Function.update_of_ne hfd']
    · rw [act_loops_of_ne heq]
  · ext1 fd'
    rw [mem_fds_act, and_iff_left (hreleased fd'), Set.mem_insert_iff]
    exact ⟨.inr, fun h => h.elim (fun h => h ▸ hopen) fun h => h⟩
  · by_cases heq : l' = l
    · rw [heq, act_loops_self]
      exact (List.nodup_cons.1 hnodup).2
    · rw [act_loops_of_ne heq]
      exact hs.nodup l'

/-- A phase of the loop registers nothing, and may release connections, which closes
    their descriptors. -/
theorem close (hs : s.Lives f) (hr : (s.loops l).registry.Inv) (hr' : w.registry.Inv)
    (hwaiting : w.waiting = (s.loops l).waiting)
    (hsub : ∀ fd id, w.registry.poller.httpdatas fd = some id →
      (s.loops l).registry.poller.httpdatas fd = some id)
    (hfdOf : w.registry.fdOf = (s.loops l).registry.fdOf) :
    ∃ f', Life.Step f (.close l {fd | (s.loops l).registry.Released w.registry fd}) f' ∧
      (s.act l w).Lives f' := by
  classical
  have hregistered : ∀ fd, (s.loops l).registry.Released w.registry fd →
      s.At fd (.registered l) :=
    fun fd h => ((Registry.released_iff hr hr' hsub hfdOf).1 h).1
  refine ⟨fun fd => if (s.loops l).registry.Released w.registry fd then none else f fd,
    .close (fun fd hfd => ?_) (fun fd hfd => if_pos hfd) (fun fd hfd => if_neg hfd),
    fun fd p => ?_, fun fd => ?_, fun fd hfd => hs.pos fd hfd.1, fun l' => ?_⟩
  · exact (hs.at_iff fd (.registered l)).1 (hregistered fd hfd)
  · rw [at_act_iff hr hr' hwaiting hsub hfdOf]
    split
    · next h =>
      refine iff_of_false (fun hp => ?_) (Option.some_ne_none p).symm
      exact hp.2 (hs.eq_of_at (hregistered fd h) hp.1) h
    · next h => rw [and_iff_left fun _ => h, hs.at_iff]
  · rw [mem_fds_act]
    split
    · next h => exact iff_of_false (fun hfd => hfd.2 h) fun hne => hne rfl
    · next h => rw [and_iff_left h, hs.fds_iff]
  · by_cases heq : l' = l
    · rw [heq, act_loops_self, hwaiting]
      exact hs.nodup l
    · rw [act_loops_of_ne heq]
      exact hs.nodup l'

/-- The functors of a loop are the same. -/
theorem setTask (hs : s.Lives f) {task : TaskLoop Fd}
    (hfunctors : task.functors = (s.loops l).task.functors)
    (hpending : task.pendingFunctors = (s.loops l).task.pendingFunctors) :
    (s.setTask l task).Lives f := by
  have hwaiting : ∀ l', ((s.setTask l task).loops l').waiting = (s.loops l').waiting := by
    intro l'
    by_cases heq : l' = l
    · rw [heq, setTask_loops_self, ServerLoop.waiting, hfunctors, hpending]
      rfl
    · rw [setTask_loops_of_ne heq]
  have hregistry : ∀ l', ((s.setTask l task).loops l').registry = (s.loops l').registry := by
    intro l'
    by_cases heq : l' = l
    · rw [heq, setTask_loops_self]
    · rw [setTask_loops_of_ne heq]
  refine ⟨fun fd p => ?_, hs.fds_iff, hs.pos, fun l' => hwaiting l' ▸ hs.nodup l'⟩
  rw [← hs.at_iff]
  refine at_congr (fun l' => ?_) (fun l' => ?_) ?_ p
  · rw [hwaiting]
  · rw [hregistry]
  · rfl

end Lives

/-! ## The invariant -/

theorem inv_start (threadnum : ℕ) (created : ℕ → Bool) (threadId : LoopId → ThreadId) :
    (start threadnum created threadId).Inv where
  task l := .init ⟨threadId l, rfl⟩
  registry l := .init rfl
  active l := ServerLoop.reports_nil _
  handling l h := absurd rfl h
  lives := by
    refine ⟨fun _ => none, .init rfl, fun fd p => ?_, fun fd => ?_, fun fd hfd => ?_, fun l => ?_⟩
    · refine iff_of_false (fun h => ?_) (Option.some_ne_none p).symm
      rcases p with - | l | l
      · exact List.not_mem_nil h
      · exact List.not_mem_nil h
      · obtain ⟨id, h⟩ := h
        cases h
    · exact iff_of_false (fun h => h) fun h => h rfl
    · cases hfd
    · exact List.nodup_nil

/-- One of the loops changes. -/
theorem Inv.update (hs : s.Inv) (hloops : s'.loops = Function.update s.loops l w)
    (htask : (TaskLoop.system Fd).Reachable w.task)
    (hregistry : (Registry.calls Registry.Reported).Reachable w.registry)
    (hactive : ServerLoop.Reports w.registry w.activeChannels)
    (hhandling : w.activeChannels ≠ [] → w.task.phase = .events)
    (hlives : ∃ f, Life.system.Reachable f ∧ s'.Lives f) : s'.Inv := by
  have hall : ∀ P : ServerLoop → Prop, (∀ l', P (s.loops l')) → P w → ∀ l', P (s'.loops l') := by
    intro P hold hnew
    rw [hloops]
    exact (Function.forall_update_iff s.loops fun _ => P).2 ⟨hnew, fun l' _ => hold l'⟩
  exact ⟨hall (fun w => (TaskLoop.system Fd).Reachable w.task) hs.task htask,
    hall (fun w => (Registry.calls Registry.Reported).Reachable w.registry) hs.registry hregistry,
    hall (fun w => ServerLoop.Reports w.registry w.activeChannels) hs.active hactive,
    hall (fun w => w.activeChannels ≠ [] → w.task.phase = .events) hs.handling hhandling, hlives⟩

/-- The functors of a loop change, without its thread going on. -/
theorem Inv.setTask (hs : s.Inv) {task : TaskLoop Fd}
    (hloops : s'.loops = (s.setTask l task).loops) (htask : (TaskLoop.system Fd).Reachable task)
    (hphase : task.phase = (s.loops l).task.phase)
    (hlives : ∃ f, Life.system.Reachable f ∧ s'.Lives f) : s'.Inv :=
  hs.update hloops htask (hs.registry l) (hs.active l)
    (fun h => hphase.trans (hs.handling l h)) hlives

/-- The thread of a loop goes on without registering a connection. -/
theorem Inv.act (hs : s.Inv) (htask : (TaskLoop.system Fd).Reachable w.task)
    (hregistry : (Registry.calls Registry.Reported).Reachable w.registry)
    (hactive : ServerLoop.Reports w.registry w.activeChannels)
    (hhandling : w.activeChannels ≠ [] → w.task.phase = .events)
    (hwaiting : w.waiting = (s.loops l).waiting)
    (hsub : ∀ fd id, w.registry.poller.httpdatas fd = some id →
      (s.loops l).registry.poller.httpdatas fd = some id)
    (hfdOf : w.registry.fdOf = (s.loops l).registry.fdOf) : (s.act l w).Inv := by
  obtain ⟨f, hf, hlives⟩ := hs.lives
  obtain ⟨f', hstep, hlives'⟩ := hlives.close (Registry.inv_of_calls (hs.registry l))
    (Registry.inv_of_calls hregistry) hwaiting hsub hfdOf
  exact hs.update rfl htask hregistry hactive hhandling ⟨f', .step hf trivial hstep, hlives'⟩

/-- Where the thread of a loop is about to run a functor, or to see to what has expired,
    it has handled all events. -/
theorem Inv.activeChannels_eq_nil (hs : s.Inv) (hphase : (s.loops l).task.phase ≠ .events) :
    (s.loops l).activeChannels = [] := by
  by_contra hne
  exact hphase (hs.handling l hne)

/-- A connection that is about to be registered is not registered in the loop. -/
theorem Inv.unused (hs : s.Inv) {fd : Fd} (hwaiting : fd ∈ (s.loops l).waiting) :
    (s.loops l).registry.poller.httpdatas fd = none ∧ (s.loops l).registry.Unused fd := by
  obtain ⟨f, -, hlives⟩ := hs.lives
  have hat : s.At fd (.waiting l) := hwaiting
  have hnone : (s.loops l).registry.poller.httpdatas fd = none := by
    by_contra hne
    have hregistered : s.At fd (.registered l) := Option.ne_none_iff_exists'.1 hne
    exact Place.noConfusion (hlives.eq_of_at hat hregistered)
  have hopen : fd ∈ s.fds := by
    rw [hlives.fds_iff, (hlives.at_iff fd _).1 hat]
    exact Option.some_ne_none _
  refine ⟨hnone, (hlives.pos fd hopen).ne', fun id h hkept hh heq => ?_⟩
  rw [(Registry.inv_of_calls (hs.registry l)).kept_iff hh, heq, hnone] at hkept
  cases hkept

/-- The other connections whose events are to be handled stay registered. -/
theorem reports_of_handleEvents {r r' : Registry} (hr : r.Inv) (hr' : r'.Inv) {fd : Fd}
    {id : HttpId} {revents : Mask} {active : List (HttpId × Mask)}
    (hactive : ServerLoop.Reports r ((id, revents) :: active))
    (hfd : r.poller.channels fd = some (.http id))
    (h : r'.poller.httpdatas = r.poller.httpdatas ∨
      r'.poller.httpdatas = Function.update r.poller.httpdatas fd none) :
    ServerLoop.Reports r' active := by
  obtain ⟨hregistered, hreported, hnodup⟩ := hactive
  obtain ⟨hnot, hnodup⟩ := List.nodup_cons.1 hnodup
  refine ⟨fun a ha => ?_, fun a ha => hreported a (List.mem_cons_of_mem _ ha), hnodup⟩
  obtain ⟨fd', hfd'⟩ := hregistered a (List.mem_cons_of_mem _ ha)
  refine ⟨fd', ?_⟩
  rw [hr.consistent.registered] at hfd hfd'
  rw [hr'.consistent.registered]
  rcases h with h | h
  · rw [h, hfd']
  · rw [h, Function.update_of_ne, hfd']
    rintro rfl
    have heq : a.1 = id := Option.some.inj (hfd'.symm.trans hfd)
    exact hnot (List.mem_map.2 ⟨a, ha, heq⟩)

/-- What the thread of a loop does keeps the invariant. -/
theorem Inv.loop (hs : s.Inv)
    (hidle : (s.loops l).task.caller (s.loops l).task.threadId = .idle)
    (hstep : (s.loops l).Step w) : (s.act l w).Inv := by
  have hreach := hs.task l
  have hawake := TaskLoop.awake_of_reachable hreach
  have hinv := Registry.inv_of_calls (hs.registry l)
  have hadvance : ∀ {task : TaskLoop Fd}, (s.loops l).task.advance = some task →
      (TaskLoop.system Fd).Reachable task := fun h => .step hreach trivial (.loop hidle h)
  have hnil := hs.activeChannels_eq_nil (l := l)
  rcases hstep with ⟨hturns, hadv⟩ | ⟨hphase, hadv, hreports⟩ |
    ⟨fs, reads, writes, now, hphase, hcons, hevents⟩ |
    ⟨method, events, revents, now, hphase, hcons, hadv, hnew⟩ |
    ⟨top, clock, hphase, hadv, hexpired⟩
  · -- Nothing is active, now or after this step.
    have hactive : (s.loops l).activeChannels = [] := by
      by_cases hphase : (s.loops l).task.phase = .events
      · rwa [ServerLoop.Turns, hphase] at hturns
      · exact hnil hphase
    have hrun : (s.loops l).task.phase = .run → (s.loops l).task.functors = [] := fun hphase => by
      rwa [ServerLoop.Turns, hphase] at hturns
    exact hs.act (hadvance hadv) (hs.registry l) (hs.active l) (fun h => absurd hactive h)
      (TaskLoop.advance_held hawake hrun hadv).1 (fun _ _ h => h) rfl
  · have hrun : (s.loops l).task.phase = .run → (s.loops l).task.functors = [] := fun h => by
      rw [hphase] at h
      cases h
    refine hs.act (hadvance hadv) (hs.registry l) hreports (fun _ => ?_)
      (TaskLoop.advance_held hawake hrun hadv).1 (fun _ _ h => h) rfl
    rw [TaskLoop.advance, hphase] at hadv
    cases hadv
    rfl
  · have hreports := hs.active l
    rw [hcons] at hreports
    obtain ⟨fd, hfd⟩ := hreports.registered _ List.mem_cons_self
    have hreported := hreports.reported _ List.mem_cons_self
    have hcall := Registry.reachable_call (hs.registry l) (by
      rw [← hevents]
      exact .handleEvents fs reads writes now hfd hreported)
    obtain ⟨hhttpdatas, hfdOf, -⟩ := Registry.httpdatas_of_handleEvents hinv hfd hreported hevents
    refine hs.act hreach hcall (reports_of_handleEvents hinv (Registry.inv_of_calls hcall) hreports
      hfd hhttpdatas) (fun _ => hphase) rfl (fun fd' id' h => ?_) hfdOf
    rcases hhttpdatas with heq | heq
    · exact heq ▸ h
    · rw [heq] at h
      by_cases hne : fd' = fd
      · rw [hne, Function.update_self] at h
        cases h
      · rwa [Function.update_of_ne hne] at h
  · have hwaiting : (s.loops l).waiting = _ := congrArg (· ++ _) hcons
    obtain ⟨hnone, hunused⟩ := hs.unused (l := l) (by rw [hwaiting]; exact List.mem_cons_self)
    have hcall := Registry.reachable_call (hs.registry l) (by
      rw [← hnew]
      exact .newEvent method events revents now hunused)
    obtain ⟨hhttpdatas, -, -⟩ := Registry.httpdatas_of_newEvent hnew
    have hactive := hnil (by rw [hphase]; exact Phase.noConfusion)
    have htask := TaskLoop.advance_take hphase hcons hadv
    obtain ⟨f, hf, hlives⟩ := hs.lives
    refine hs.update rfl (hadvance hadv) hcall ?_ (fun h => absurd hactive h)
      ⟨_, .step hf trivial (.register ?_), hlives.register ?_ hhttpdatas
        (Registry.not_released_of_newEvent hinv hnone hhttpdatas)⟩
    · rw [hactive]
      exact ServerLoop.reports_nil _
    · rw [← hlives.at_iff, At, hwaiting]
      exact List.mem_cons_self
    · rw [hwaiting, ServerLoop.waiting, htask]
      rfl
  · have hrun : (s.loops l).task.phase = .run → (s.loops l).task.functors = [] := fun h => by
      rw [hphase] at h
      cases h
    have hactive := hnil (by rw [hphase]; exact Phase.noConfusion)
    have hcall := Registry.reachable_call (hs.registry l) (by
      rw [← hexpired]
      exact .handleExpired top clock)
    obtain ⟨hsub, hfdOf, -⟩ := Registry.httpdatas_of_handleExpired hinv hexpired
    refine hs.act (hadvance hadv) hcall ?_ (fun h => absurd hactive h)
      (TaskLoop.advance_held hawake hrun hadv).1 (fun fd id h => (hsub fd id h).1) hfdOf
    rw [hactive]
    exact ServerLoop.reports_nil _

/-- Every step of a thread keeps the invariant. -/
theorem Inv.step (hs : s.Inv) {e : Event} (hstep : Step s e s') : s'.Inv := by
  obtain ⟨f, hf, hlives⟩ := hs.lives
  rcases hstep with ⟨hpos, -, hfd, -, hcall⟩ | ⟨hpos, -, hfd⟩ | hcaller | hcall | ⟨hidle, hloop⟩
  · exact hs.setTask rfl (.step (hs.task _) trivial (.push hcall)) rfl
      ⟨_, .step hf trivial (.accept (not_not.1 (mt (hlives.fds_iff _).2 hfd))),
        hlives.dispatch hpos hfd _⟩
  · exact ⟨hs.task, hs.registry, hs.active, hs.handling, _,
      .step hf trivial (.abandon (not_not.1 (mt (hlives.fds_iff _).2 hfd))),
      hlives.abandon hpos hfd⟩
  · refine hs.setTask rfl (.step (hs.task _) trivial (.finish hcaller)) ?_
      ⟨f, hf, hlives.setTask ?_ ?_⟩
    all_goals
      rw [TaskLoop.finish_eq]
      rfl
  · exact hs.setTask rfl (.step (hs.task _) trivial (.quit hcall)) rfl
      ⟨f, hf, hlives.setTask rfl rfl⟩
  · exact hs.loop hidle hloop

section Runs

variable {threadnum : ℕ} {created : ℕ → Bool}

theorem inv_of_reachable (hs : (system threadnum created).Reachable s) : s.Inv := by
  refine hs.invariant (fun s hs => ?_) fun s e s' _ hs _ hst => hs.step hst
  obtain ⟨threadId, rfl⟩ := hs
  exact inv_start threadnum created threadId

end Runs

end Server

end Webserver
