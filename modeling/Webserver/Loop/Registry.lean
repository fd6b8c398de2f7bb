import Webserver.Http.Events
import Webserver.Lib.MinQueue

/-!
# The connections of a loop

A loop owns connections through its poller: the ones registered are kept alive
by `httpdatas`, and each is destroyed by its timer node, unless handling its
events has taken that right away in time. The phases of the loop act on them one
after the other (`Registry.system`): connections are registered, handle their
events, and expire.

A connection handles its events by itself (`Conn.handleEvents`); here it is taken
out of the registry, with the poller it shares with the others, and put back
(`conn`, `store`).
-/

namespace Webserver

open Transition

/-- The connections of a loop: its poller, all `HttpData` objects made so far,
    and the connections closed. -/
structure Registry where
  poller : EPollPoller
  https : HttpId → Option HttpData
  nextId : HttpId
  closed : List HttpId

namespace Registry

/-- A connection, taken out. -/
def conn (s : Registry) (h : HttpData) (socket : Socket) : Conn :=
  ⟨h, socket, s.poller, [], s.closed⟩

/-- A connection, put back. -/
def store (s : Registry) (c : Conn) : Registry :=
  { s with
    poller := c.poller
    https := Function.update s.https c.http.id (some c.http)
    closed := c.closed }

/-- Makes a new connection and registers it. The arguments besides the
    descriptor are what constructors leave indeterminate, and the clock. -/
def newEvent (s : Registry) (fd : Fd) (method : Option HttpMethod) (events revents : Mask)
    (now : Timeval) : Except Fault Registry :=
  match (s.conn (.new s.nextId fd method events revents) ⟨[], [], [], now⟩).newEvent with
  | .error f => .error f
  | .ok c => .ok { s.store c with nextId := s.nextId + 1 }

/-- A connection handles the events reported for it. -/
def handleEvents (fs : FileSystem) (s : Registry) (id : HttpId) (revents : Mask)
    (reads : List ReadResult) (writes : List WriteResult) (now : Timeval) :
    Except Fault Registry :=
  match s.https id with
  | none => .error .nullDereference
  | some h =>
    let h := { h with ownchannel := h.ownchannel.setRevents revents }
    match (s.conn h ⟨reads, writes, [], now⟩).handleEvents fs with
    | .error e => .error e.1
    | .ok c => .ok (s.store c)

/-- The destructor of a timer node. -/
def destroy (s : Registry) (node : TimerNode) : Except Fault Registry :=
  match node.ownHttp with
  | none => .ok s
  | some id =>
    match s.https id with
    | none => .error .nullDereference
    | some h =>
      -- `removeChannel` neither reads nor writes, and looks at no clock.
      match (s.conn h ⟨[], [], [], ⟨0, 0⟩⟩).handleClose with
      | .error f => .error f
      | .ok c => .ok (s.store c)

/-- The queue without a node. -/
def pop (s : Registry) (node : TimerNode) : Registry :=
  { s with poller.timermanager.timerNodeQueue :=
      s.poller.timermanager.timerNodeQueue.erase node }

theorem destroy_queue {s s' : Registry} {node : TimerNode} (h : s.destroy node = .ok s') :
    s'.poller.timermanager = s.poller.timermanager := by
  rw [destroy] at h
  split at h
  · cases h
    rfl
  · split at h
    · cases h
    · split at h
      · cases h
      · next hclose =>
        cases h
        rw [Conn.handleClose, EPollPoller.removeChannel] at hclose
        split at hclose
        · cases hclose
        · next hremove =>
          split at hremove <;> cases hremove
          cases hclose
          rfl

/-- Destroys the nodes that are deleted or expired, as long as there is one on
    top of the queue. The clock is read once for each node that is not deleted;
    a heap may have any node with the smallest `expiredTime` on top. -/
def handleExpired (top : ℕ → MinQueue.Top TimerNode.expiredTime) (clock : ℕ → Timeval)
    (s : Registry) : Except Fault Registry :=
  match _htop : (top 0).top s.poller.timermanager.timerNodeQueue with
  | none => .ok s
  | some node =>
    if node.deleted then
      match _hdestroy : (s.pop node).destroy node with
      | .error f => .error f
      | .ok s => s.handleExpired (fun n => top (n + 1)) clock
    else
      let (valid, expired) := node.isVaild (clock 0)
      if valid then .ok s
      -- The message about the connection reads its descriptor.
      else if node.ownHttp = none then .error .nullDereference
      else
        match _hdestroy : (s.pop node).destroy expired with
        | .error f => .error f
        | .ok s => s.handleExpired (fun n => top (n + 1)) (fun n => clock (n + 1))
termination_by s.poller.timermanager.timerNodeQueue.length
decreasing_by
  all_goals
    rw [destroy_queue _hdestroy]
    exact (top 0).length_erase_lt _htop

/-! ## Runs -/

/-- An event that the handlers of a connection know is reported. -/
def Reported (revents : Mask) : Prop :=
  revents &&& (EPOLLIN ||| EPOLLPRI ||| EPOLLRDHUP ||| EPOLLOUT ||| EPOLLHUP ||| EPOLLERR) ≠ 0

instance (revents : Mask) : Decidable (Reported revents) := inferInstanceAs (Decidable (_ ≠ _))

/-- Of the callbacks for reading and writing, one is called. -/
theorem Reported.called {revents : Mask} (h : Reported revents)
    (hdispatched : Channel.Dispatched revents) :
    revents &&& (EPOLLIN ||| EPOLLPRI ||| EPOLLRDHUP) ≠ 0 ∨ revents &&& EPOLLOUT ≠ 0 := by
  by_contra hcon
  rw [not_or, not_not, not_not] at hcon
  obtain ⟨hin, hout⟩ := hcon
  have hhup : revents &&& EPOLLHUP = 0 := by
    by_contra hne
    refine hdispatched.1 ⟨hne, ?_⟩
    have hsub : EPOLLIN = (EPOLLIN ||| EPOLLPRI ||| EPOLLRDHUP) &&& EPOLLIN := rfl
    rw [hsub, ← BitVec.and_assoc]
    exact (congrArg (· &&& EPOLLIN) hin).trans BitVec.zero_and
  exact h (and_or_eq_zero (and_or_eq_zero (and_or_eq_zero hin hout) hhup) hdispatched.2)

inductive Event
  | newEvent (fd : Fd)
  | handleEvents (id : HttpId)
  | handleExpired

/-- The phases of the loop. Events are reported for registered connections. -/
inductive Step : Registry → Event → Registry → Prop
  | newEvent {s s' : Registry} {fd : Fd} {method : Option HttpMethod} {events revents : Mask}
      {now : Timeval} : s.newEvent fd method events revents now = .ok s' →
      Step s (.newEvent fd) s'
  | handleEvents {s s' : Registry} {fs : FileSystem} {fd : Fd} {id : HttpId} {revents : Mask}
      {reads : List ReadResult} {writes : List WriteResult} {now : Timeval} :
      s.poller.channels fd = some (.http id) → Reported revents →
      s.handleEvents fs id revents reads writes now = .ok s' → Step s (.handleEvents id) s'
  | handleExpired {s s' : Registry} {top : ℕ → MinQueue.Top TimerNode.expiredTime}
      {clock : ℕ → Timeval} : s.handleExpired top clock = .ok s' → Step s .handleExpired s'

/-- A loop without connections. -/
structure Started (s : Registry) : Prop where
  channels : ∀ fd id, s.poller.channels fd ≠ some (.http id)
  httpdatas : ∀ fd, s.poller.httpdatas fd = none
  timerNodeQueue : s.poller.timermanager.timerNodeQueue = []
  https : ∀ id, s.https id = none
  closed : s.closed = []

/-- The runs of the phases of a loop. -/
def system : System Registry Event where
  init := {s | s.Started}
  step := Step

end Registry

end Webserver
