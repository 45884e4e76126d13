import SliceScheduler.Engine.Cluster
/-!
# Runs of a cluster

A run lets the nodes of a cluster work in any order, between any two calls to the store, while nodes
join, jobs are submitted, commands are sent and time passes.

1. `Action` lists what can happen, and `Cluster.act?` is the cluster after it, if it can happen;
2. `Action.HasWidth` and `Action.KeepsTime` say which of it belongs to nodes of one slice width and
   to a clock that does not go back, and `Action.IsOrderly` adds that nothing fails or is shut down
   and that names and ids are not used twice;
3. `Cluster.Run` holds for the clusters that actions lead to when each of them is allowed.

A node that joins sets the pointer before anything else is asked of it: nobody talks to a node, and
it does not tick, until the task of number zero is over.
-/
namespace SliceScheduler

/-- What can happen to a cluster. Nodes are given by their place, tasks by their number. -/
inductive Action where
  /-- The clock is read at an instant from now on. -/
  | pass (now : Instant)
  /-- A node joins and sets the pointer if there is none. -/
  | join (settings : NodeSettings) (registry : Registry) (ticket : Nat)
  /-- A node gets other executors. -/
  | register (i : Nat) (registry : Registry)
  /-- A job is submitted to a node. -/
  | submit (i ticket : Nat) (job : Job)
  /-- A command is sent to a node. -/
  | send (i ticket : Nat) (command : Command)
  /-- Nobody sends commands to a node any more. -/
  | leave (i : Nat)
  /-- A node takes its next command. -/
  | receive (i : Nat)
  /-- A node ticks at a time of its own. -/
  | tickItself (i : Nat)
  /-- The store answers the call of a task, or fails. -/
  | answer (i number : Nat) (fault : Option StoreError)
  /-- A task goes on that waits for something on its node. -/
  | proceed (i number : Nat)
  /-- The executor that a task waits for comes to an end. -/
  | finish (i number : Nat) (outcome : Outcome)
  /-- The pause of a task is over. -/
  | wake (i number : Nat)

namespace Action

/-- A node that joins has the width. -/
def HasWidth (w : Duration) : Action → Prop
  | join settings _ _ => settings.width = w
  | _ => True

/-- The clock does not go back, and neither do its milliseconds. -/
def KeepsTime (now : Instant) : Action → Prop
  | pass later => now ≤ later ∧ now.millis ≤ later.millis
  | _ => True

/-- The clock does not go back, but its milliseconds may when a leap second is over. -/
def KeepsOrder (now : Instant) : Action → Prop
  | pass later => now ≤ later
  | _ => True

/-- Nothing is shut down. -/
def KeepsRunning : Action → Prop
  | send _ _ command => command ≠ .shutdown
  | leave _ => False
  | _ => True

/-- No call fails, and nothing is shut down. -/
def IsCalm : Action → Prop
  | send _ _ command => command ≠ .shutdown
  | leave _ => False
  | answer _ _ fault => fault = none
  | _ => True

theorem IsCalm.keepsRunning {a : Action} (calm : a.IsCalm) : a.KeepsRunning := by
  cases a with
  | send | leave => exact calm
  | _ => trivial

/-- A node that joins has a name of its own. -/
def HasName (c : Cluster) : Action → Prop
  | join settings _ _ => ∀ n ∈ c.nodes, n.desk.settings.node ≠ settings.node
  | _ => True

/-- The id of the job that is submitted. -/
def submitted? : Action → Option JobId
  | submit _ _ job => some job.id
  | _ => none

/-- A job that is submitted has an id of its own. -/
def HasId (past : List Action) : Action → Prop
  | submit _ _ job => ∀ a ∈ past, a.submitted? ≠ some job.id
  | _ => True

/-- What happens belongs to nodes of one slice width and of different names, to jobs of different
ids, and to a clock that does not go back. No call fails, and nothing is shut down. -/
structure IsOrderly (w : Duration) (past : List Action) (c : Cluster) (a : Action) : Prop where
  width : a.HasWidth w
  keeps : a.KeepsTime c.now
  calm : a.IsCalm
  name : a.HasName c
  id : a.HasId past

end Action

namespace Node

/-- The task of a number. -/
def task? (n : Node) (number : Nat) : Option Task := n.tasks.find? (·.number == number)

/-- The node has seen to the pointer and may be talked to. -/
def isOpen (n : Node) : Bool := decide (0 < n.nextNumber) && !n.isAtWork 0

end Node

namespace Cluster

/-- Changes the node of a place, if there is one and it can be changed. -/
def onNode? (c : Cluster) (i : Nat) (f : Node → Option Node) : Option Cluster := do
  return c.putNode i (← f (← c.nodes[i]?))

/-- Changes the node of a place, if it may be talked to. -/
def onOpen? (c : Cluster) (i : Nat) (f : Node → Option Node) : Option Cluster :=
  c.onNode? i fun n => if n.isOpen then f n else none

/-- Goes on with a task of a node. -/
def onTask? (c : Cluster) (i number : Nat) (f : Node → Task → Option Cluster) :
    Option Cluster := do
  let n ← c.nodes[i]?
  f n (← n.task? number)

/-- The cluster after something happened, if it can happen. -/
def act? (c : Cluster) : Action → Option Cluster
  | .pass now => some { c with now }
  | .join settings registry ticket =>
    (c.startNode? settings registry).map fun after =>
      after.modifyNode c.nodes.length (·.ensurePointer c.now ticket)
  | .register i registry =>
    c.onNode? i fun n => some { n with desk := { n.desk with registry } }
  | .submit i ticket job =>
    c.onOpen? i fun n => some (n.submit c.now ticket (Program.schedule job))
  | .send i ticket command => c.onOpen? i fun n => some (n.send ticket command)
  | .leave i => c.onOpen? i fun n => some { n with listening := false }
  | .receive i => c.onOpen? i (·.receive? c.now)
  | .tickItself i => c.onOpen? i (·.tickItself? c.now)
  | .answer i number fault => c.onTask? i number fun _ t => c.answerCall? i t fault
  | .proceed i number => c.onTask? i number fun n t => c.proceed? i n t
  | .finish i number outcome => c.onTask? i number fun _ t => c.endExecution? i t outcome
  | .wake i number => c.onTask? i number fun _ t => c.endPause? i t

/-- The clusters that actions lead to, each of them allowed after those before it in the cluster
that it happens to. The latest action comes first. -/
inductive Run (Allowed : List Action → Cluster → Action → Prop) (c₀ : Cluster) :
    List Action → Cluster → Prop
  | nil : Run Allowed c₀ [] c₀
  | cons {past : List Action} {c c' : Cluster} (a : Action) :
    Run Allowed c₀ past c → Allowed past c a → c.act? a = some c' → Run Allowed c₀ (a :: past) c'

/-- What may happen under one rule may happen under a wider one. -/
theorem Run.mono {Allowed Allowed' : List Action → Cluster → Action → Prop} {c₀ c : Cluster}
    {past : List Action} (run : c₀.Run Allowed past c)
    (wider : ∀ past c a, Allowed past c a → Allowed' past c a) : c₀.Run Allowed' past c := by
  induction run with
  | nil => exact .nil
  | cons a run allowed acted ih => exact .cons a ih (wider _ _ a allowed) acted

end Cluster

end SliceScheduler
