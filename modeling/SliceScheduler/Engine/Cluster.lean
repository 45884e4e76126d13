import SliceScheduler.Engine.Node
import SliceScheduler.Store.Memory
/-!
# Clusters

Nodes that share a store and a clock. One step of a cluster is one call to the store with the local
work after it, or one wait of a node that is over, so that runs of a cluster interleave the work of
its nodes between any two calls.

1. `Cluster.perform` makes a call to the store, which may be made to fail;
2. `Cluster.answerCall?`, `Cluster.endExecution?`, `Cluster.endPause?` and `Cluster.proceed?` are
   the steps of a task;
3. `Cluster.startNode?` adds a node.
-/
namespace SliceScheduler

/-- Nodes over one store and one clock. -/
structure Cluster where
  store : MemoryStore
  now : Instant
  nodes : List Node

namespace Cluster

/-- A cluster without nodes. -/
def start (now : Instant) : Cluster := ⟨.empty, now, []⟩

/-- Makes a call to the store. A call that is made to fail does not reach the store. -/
def perform (c : Cluster) (fault : Option StoreError) (op : Operation) : op.Result × Cluster :=
  match fault with
  | some e => (.error e, c)
  | none =>
    let (answer, store) := c.store.perform c.now op
    (answer, { c with store })

/-- Changes a node. -/
def modifyNode (c : Cluster) (i : Nat) (f : Node → Node) : Cluster :=
  { c with nodes := c.nodes.modify i f }

/-- Puts a node in its place. -/
def putNode (c : Cluster) (i : Nat) (n : Node) : Cluster := c.modifyNode i fun _ => n

/-- Answers the call that a task of a node makes. -/
def answerCall? (c : Cluster) (i : Nat) (t : Task) (fault : Option StoreError) : Option Cluster :=
  match t.code.call? with
  | some ⟨op, next⟩ =>
    let (answer, c) := c.perform fault op
    some (c.modifyNode i (·.goOn c.now t (next answer)))
  | none => none

/-- Ends the execution that a task of a node waits for. -/
def endExecution? (c : Cluster) (i : Nat) (t : Task) (outcome : Outcome) : Option Cluster :=
  match t.code.execution? with
  | some (_, _, next) => some (c.modifyNode i (·.goOn c.now t (next outcome)))
  | none => none

/-- Ends the pause of a task of a node. -/
def endPause? (c : Cluster) (i : Nat) (t : Task) : Option Cluster :=
  match t.code.pause? with
  | some (_, code) => some (c.modifyNode i (·.goOn c.now t code))
  | none => none

/-- Lets a task go on that waits for something on its node. -/
def proceed? (c : Cluster) (i : Nat) (n : Node) (t : Task) : Option Cluster :=
  (n.proceed? c.now t).map (c.putNode i)

/-- Adds a node at the end. -/
def startNode? (c : Cluster) (settings : NodeSettings) (registry : Registry) : Option Cluster :=
  (Node.start? settings registry).map fun n => { c with nodes := c.nodes ++ [n] }

end Cluster

end SliceScheduler
