import Webserver.Lib.MinQueue

/-!
# Timers

The timer nodes of `Timer.h` and `Timer.cpp`. A node owns an `HttpData` (by a
`shared_ptr`) until it is cleared or destroyed, and an `HttpData` refers to its
node weakly. Objects are named by identities, which stand for their addresses:
a fresh one is drawn for each node, and is never drawn again.

The clock is read by every call that creates or checks a node, so those take
the reading as an argument.
-/

namespace Webserver

/-- The identity of an `HttpData` object. -/
abbrev HttpId := ℕ

/-- The identity of a `TimerNode` object. -/
abbrev NodeId := ℕ

/-- A reading of `gettimeofday`. -/
structure Timeval where
  sec : ℕ
  usec : ℕ

/-- The clock of the timer nodes, in milliseconds: it wraps every 10000 seconds. -/
def Timeval.clock (now : Timeval) : ℕ := now.sec % 10000 * 1000 + now.usec / 1000

/-- A node of the timer queue: when it expires, and the `HttpData` it stands for, if it has not
    been cleared. -/
structure TimerNode where
  id : NodeId
  expiredTime : ℕ
  ownHttp : Option HttpId
  deleted : Bool
  deriving DecidableEq

namespace TimerNode

def setDeleted (node : TimerNode) : TimerNode := { node with deleted := true }

/-- Whether the node has not expired yet; one that has is marked deleted. -/
def isVaild (node : TimerNode) (now : Timeval) : Bool × TimerNode :=
  if now.clock < node.expiredTime then (true, node) else (false, node.setDeleted)

/-- Takes the right to destroy the `HttpData` away from the node. -/
def clearHttp (node : TimerNode) : TimerNode := { node with ownHttp := none }.setDeleted

end TimerNode

/-- The queue of the timer nodes, and the identity of the next one. -/
structure Timer where
  timerNodeQueue : List TimerNode
  nextNode : NodeId

namespace Timer

/-- A new node owning `http`, and its identity. -/
def addTimer (t : Timer) (http : HttpId) (timeout : ℕ) (now : Timeval) : NodeId × Timer :=
  let node : TimerNode := ⟨t.nextNode, now.clock + timeout, some http, false⟩
  (t.nextNode, ⟨node :: t.timerNodeQueue, t.nextNode + 1⟩)

/-- The node a weak pointer refers to, as long as the queue keeps it alive. -/
def lock (t : Timer) (weak : Option NodeId) : Option NodeId :=
  weak.filter fun id => t.timerNodeQueue.any (·.id == id)

/-- `TimerNode::clearHttp` on the node `id`. -/
def clearHttp (t : Timer) (id : NodeId) : Timer :=
  { t with timerNodeQueue :=
      t.timerNodeQueue.map fun node => if node.id = id then node.clearHttp else node }

theorem lock_eq_some_iff {t : Timer} {weak : Option NodeId} {id : NodeId} :
    t.lock weak = some id ↔ weak = some id ∧ ∃ node ∈ t.timerNodeQueue, node.id = id := by
  simp [lock, Option.filter_eq_some_iff]

theorem mem_clearHttp {t : Timer} {id : NodeId} {node : TimerNode} :
    node ∈ (t.clearHttp id).timerNodeQueue ↔
      ∃ old ∈ t.timerNodeQueue, node = if old.id = id then old.clearHttp else old := by
  simp [clearHttp, eq_comm]

theorem clearHttp_ids (t : Timer) (id : NodeId) :
    (t.clearHttp id).timerNodeQueue.map TimerNode.id = t.timerNodeQueue.map TimerNode.id := by
  rw [clearHttp, List.map_map]
  refine List.map_congr_left fun node _ => ?_
  simp only [Function.comp_apply]
  split <;> rfl

end Timer

end Webserver
