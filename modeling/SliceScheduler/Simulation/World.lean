import SliceScheduler.Engine.Cluster
import SliceScheduler.Simulation.Executor
import SliceScheduler.Store.Fault
/-!
# Worlds

A world is a cluster with all that its tasks wait for outside of it: executors, the passing of time,
and calls that are made to fail. Time passes in whole milliseconds and only when nothing can go on
without it; it has nothing to do with the clock of the cluster.

1. `World.step?` is the step of the first task that can go on, `World.run` runs until none can;
2. `World.pass` lets time pass, from one end of a sleep to the next;
3. `World.await` runs until a node answers, and lets time pass as long as it does not;
4. `World.settle` is what comes between two things that are done to a world.
-/
namespace SliceScheduler

/-- What a task waits for outside of its node. -/
inductive Wait where
  /-- The execution of the task sleeps until a point in time, and then comes to an outcome. -/
  | asleep (due : Nat) (outcome : Outcome)
  /-- The execution of the task is held back by its executor. -/
  | held
  /-- The task itself sleeps until a point in time. -/
  | paused (due : Nat)

/-- The point in time at which a wait is over by itself. -/
def Wait.due? : Wait → Option Nat
  | asleep due _ | paused due => some due
  | held => none

/-- The maintenance of a node. -/
structure Service where
  log : WorkLog
  settings : Settings
  /-- The size of the blocks that are compressed again and again. -/
  compression : Option Duration

/-- The ticks that a node gives itself. -/
structure Metronome where
  due : Nat
  period : Nat

/-- What a world knows of a node, beside the node. -/
structure Site where
  name : String
  /-- Somebody talks to the node. -/
  present : Bool
  metronome : Option Metronome
  service : Option Service
  /-- How many events of the node have been collected. -/
  collected : Nat

/-- A cluster and its surroundings. Points in time count nanoseconds. -/
structure World where
  cluster : Cluster
  sites : List Site
  time : Nat
  faults : Faults
  executors : List Executor
  /-- Waits by node and number of the task. -/
  waits : List ((Nat × Nat) × Wait)
  /-- How many ids were given out. -/
  ids : Nat
  /-- How many tickets were given out. -/
  tickets : Nat

namespace World

/-- A world without nodes. -/
def start (now : Instant) : World := ⟨.start now, [], 0, .none, [], [], 0, 0⟩

/-- The clock of the cluster. -/
def now (w : World) : Instant := w.cluster.now

/-- The ids that a world gives out start here. -/
def firstId : Nat := 0xf0000000000040008000000000000000

/-- An id that no job has. -/
def newId (w : World) : JobId × World :=
  ((JobId.ofNat? (firstId + w.ids)).getD default, { w with ids := w.ids + 1 })

/-- The world gave the id out. -/
def gave (w : World) (id : JobId) : Bool :=
  firstId ≤ id.value && id.value < firstId + w.ids

/-- A node and what the world knows of it. -/
def node? (w : World) (i : Nat) : Option Node := w.cluster.nodes[i]?

/-- Changes a node. -/
def modifyNode (w : World) (i : Nat) (f : Node → Node) : World :=
  { w with cluster := w.cluster.modifyNode i f }

/-- Changes what the world knows of a node. -/
def modifySite (w : World) (i : Nat) (f : Site → Site) : World :=
  { w with sites := w.sites.modify i f }

/-- Changes an executor. -/
def modifyExecutor (w : World) (e : Nat) (f : Executor → Executor) : World :=
  { w with executors := w.executors.modify e f }

/-! ## Steps -/

/-- The wait of a task. -/
def wait? (w : World) (i number : Nat) : Option Wait :=
  (w.waits.find? (·.1 == (i, number))).map (·.2)

/-- Notes the wait of a task. -/
def noteWait (w : World) (i number : Nat) (wait : Wait) : World :=
  { w with waits := w.waits ++ [((i, number), wait)] }

/-- Forgets the wait of a task. -/
def forgetWait (w : World) (i number : Nat) : World :=
  { w with waits := w.waits.filter (·.1 != (i, number)) }

/-- Ends the execution that a task waits for. -/
def endExecution? (w : World) (i : Nat) (t : Task) (outcome : Outcome) : Option World :=
  (w.cluster.endExecution? i t outcome).map fun cluster =>
    { w.forgetWait i t.number with cluster }

/-- Runs a maintenance job on the service of a node. -/
def serve (w : World) (kind : Maintenance) (i : Nat) (job : Job) : Outcome × World :=
  match w.sites[i]? >>= Site.service with
  | some service =>
    let (result, log) := kind.execute service.settings job service.log
    let w := w.modifySite i fun site => { site with service := some { service with log } }
    match result with
    | .ok () => (.success, w)
    | .error e => (.failure e, w)
  | none => (.success, w)

/-- Starts the execution that a task waits for. -/
def beginExecution? (w : World) (i : Nat) (t : Task) (e : Nat) (job : Job) : Option World :=
  let (executor, stage) := (w.executors.getD e default).begin job
  let w := w.modifyExecutor e fun _ => executor
  match stage with
  | .spent outcome => w.endExecution? i t outcome
  | .asleep d outcome => some (w.noteWait i t.number (.asleep (w.time + d.nanos) outcome))
  | .held => some (w.noteWait i t.number .held)
  | .service kind service =>
    let (outcome, w) := w.serve kind service job
    w.endExecution? i t outcome

/-- Goes on with the execution that a task waits for. -/
def stepExecution? (w : World) (i : Nat) (t : Task) (e : Nat) (job : Job) : Option World :=
  match w.wait? i t.number with
  | none => w.beginExecution? i t e job
  | some (.asleep due outcome) =>
    if due ≤ w.time then (w.modifyExecutor e (·.wake job)).endExecution? i t outcome else none
  | some _ =>
    if (w.executors.getD e default).isReleased then
      (w.modifyExecutor e (·.finish)).endExecution? i t .success
    else none

/-- Goes on with the sleep of a task. -/
def stepPause? (w : World) (i : Nat) (t : Task) (d : Duration) : Option World :=
  match w.wait? i t.number with
  | some (.paused due) =>
    if due ≤ w.time then
      (w.cluster.endPause? i t).map fun cluster => { w.forgetWait i t.number with cluster }
    else none
  | _ => some (w.noteWait i t.number (.paused (w.time + d.nanos)))

/-- The step of a task, if it can go on. -/
def stepTask? (w : World) (i : Nat) (n : Node) (t : Task) : Option World :=
  match t.code.call? with
  | some ⟨op, _⟩ =>
    let (fault, faults) := w.faults.meet op.call
    (w.cluster.answerCall? i t fault).map fun cluster => { w with cluster, faults }
  | none =>
    match w.cluster.proceed? i n t with
    | some cluster => some { w with cluster }
    | none =>
      match t.code.execution? with
      | some (registration, job, _) => w.stepExecution? i t registration.executor job
      | none =>
        match t.code.pause? with
        | some (d, _) => w.stepPause? i t d
        | none => none

/-- How late a tick may be without moving those after it. -/
def slack : Nat := 5 * nanosPerMilli

/-- The ticks after one that is given now. -/
def Metronome.beat (m : Metronome) (time : Nat) : Metronome :=
  { m with due := if m.due + slack < time then time + m.period else m.due + m.period }

/-- A tick that a node gives itself, if it is time. -/
def stepMetronome? (w : World) (i : Nat) (site : Site) (n : Node) : Option World := do
  let m ← site.metronome
  if w.time < m.due then none
  let n ← n.tickItself? w.now
  let m := Metronome.beat m w.time
  return (w.modifyNode i fun _ => n).modifySite i fun site => { site with metronome := some m }

/-- The step of the first task of a node that can go on. -/
def stepNode? (w : World) (i : Nat) (site : Site) (n : Node) : Option World :=
  match n.receive? w.now with
  | some n => some (w.modifyNode i fun _ => n)
  | none =>
    match w.stepMetronome? i site n with
    | some w => some w
    | none => n.tasks.findSome? (w.stepTask? i n)

/-- The step of the first task that can go on. -/
def step? (w : World) : Option World :=
  (w.sites.zip w.cluster.nodes).zipIdx.findSome? fun ((site, n), i) => w.stepNode? i site n

/-- Steps, until none can be taken. `fuel` bounds their number. -/
def runFor : Nat → World → World
  | 0, w => w
  | fuel + 1, w =>
    match w.step? with
    | some w => runFor fuel w
    | none => w

/-- More steps than a world takes without time passing. -/
def stepLimit : Nat := 10000000

/-- Runs until no task can go on. -/
def run (w : World) : World := runFor stepLimit w

/-! ## The passing of time -/

/-- The tick that a node gives itself next, if it is up to it. -/
def tickDue? (site : Site) (n : Node) : Option Nat :=
  if n.loop = .ended then none else site.metronome.map (·.due)

/-- The points in time at which something goes on by itself. -/
def dues (w : World) : List Nat :=
  w.waits.filterMap (·.2.due?) ++
    (w.sites.zip w.cluster.nodes).filterMap fun (site, n) => tickDue? site n

/-- A point in time, moved on to a whole millisecond. -/
def wholeMillis (time : Nat) : Nat :=
  (time + nanosPerMilli - 1) / nanosPerMilli * nanosPerMilli

/-- The next point in time at which something goes on by itself. -/
def nextDue? (w : World) : Option Nat :=
  ((w.dues.map wholeMillis).filter (w.time < ·)).min?

/-- Lets time pass up to a point, running after every sleep that ends before it. -/
def passTo (target : Nat) : Nat → World → World
  | 0, w => w
  | fuel + 1, w =>
    match w.nextDue? with
    | some due =>
      if due ≤ target then passTo target fuel { w with time := due }.run
      else { w with time := target }
    | none => { w with time := target }

/-- Lets a number of milliseconds pass. -/
def pass (w : World) (millis : Nat) : World :=
  let target := w.time + millis * nanosPerMilli
  (passTo target (millis + 1) w.run).run

/-- Runs until no task can go on, and lets a millisecond pass. -/
def settle (w : World) : World := w.pass 1

/-- The answer under a ticket, taken out of the outbox of a node. -/
def take? (w : World) (i ticket : Nat) : Option (Reply × World) := do
  let n ← w.node? i
  let (_, reply) ← n.outbox.find? (·.1 == ticket)
  return (reply, w.modifyNode i fun n => { n with outbox := n.outbox.filter (·.1 != ticket) })

/-- Runs until a node answers under a ticket, and lets time pass as long as it does not. None when
it never does. -/
def awaitFor (i ticket : Nat) : Nat → World → Option Reply × World
  | 0, w => (none, w)
  | fuel + 1, w =>
    let w := w.run
    match w.take? i ticket with
    | some (reply, w) => (some reply, w)
    | none =>
      match w.nextDue? with
      | some due => awaitFor i ticket fuel { w with time := due }
      | none => (none, w)

/-- More ends of sleeps than an answer takes. -/
def waitLimit : Nat := 10000000

/-- Has a node do something under a ticket, and awaits its answer. -/
def request (w : World) (i : Nat) (f : Node → Nat → Node) : Option Reply × World :=
  let ticket := w.tickets
  awaitFor i ticket waitLimit ({ w with tickets := ticket + 1 }.modifyNode i (f · ticket))

end World

end SliceScheduler
