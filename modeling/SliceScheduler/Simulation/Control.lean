import SliceScheduler.Http.Endpoint
import SliceScheduler.Maintenance.Submission
import SliceScheduler.Simulation.World
/-!
# What is done to a world

1. `World.launch` starts a node, `World.leave` lets go of it;
2. `World.command` and `World.submit` talk to a node and await its answer;
3. `World.call` makes a call to the store, which may be made to fail, and `World.write` one that is
   not;
4. `World.http` sends a request through the management interface of a node.
-/
namespace SliceScheduler

/-- An executor that a node has for a type of job. -/
structure Enrolment where
  type : String
  executor : Executor
  check : Job → Except JobError Unit
  policy : RetryPolicy

/-- A node to be started. -/
structure NodePlan where
  name : String
  settings : NodeSettings
  executors : List Enrolment
  /-- The settings of its maintenance, and the size of the blocks that it compresses again and
  again. -/
  maintenance : Option (Settings × Option Duration)

namespace World

/-- Sets the clock of the cluster. -/
def setClock (w : World) (now : Instant) : World := { w with cluster := { w.cluster with now } }

/-! ## Calls to the store -/

/-- Makes a call to the store. -/
def call (w : World) (op : Operation) : op.Result × World :=
  let (fault, faults) := w.faults.meet op.call
  let (answer, cluster) := w.cluster.perform fault op
  (answer, { w with cluster, faults })

/-- Makes a call to the store that is not made to fail. -/
def write (w : World) (op : Operation) : op.Result × World :=
  let (answer, cluster) := w.cluster.perform none op
  (answer, { w with cluster })

/-! ## Nodes -/

/-- The node of a name. -/
def find? (w : World) (name : String) : Option Nat :=
  w.sites.zipIdx.findSome? fun (site, i) => if site.present ∧ site.name = name then some i else none

/-- Adds an executor to a registry. -/
def enrol (w : World) (registry : Registry) (e : Enrolment) : Registry × World :=
  (registry.insert e.type ⟨w.executors.length, e.check, e.policy⟩,
    { w with executors := w.executors ++ [e.executor] })

/-- Adds executors to a registry. -/
def enrolAll (w : World) (registry : Registry) : List Enrolment → Registry × World
  | [] => (registry, w)
  | e :: rest =>
    let (registry, w) := w.enrol registry e
    w.enrolAll registry rest

/-- The executor of a maintenance job on the service of a node. -/
def maintenanceOf (i : Nat) (kind : Maintenance) : Enrolment :=
  ⟨kind.jobType, .maintenance kind i, kind.check, kind.policy⟩

/-- Adds the executors of maintenance jobs that a registry does not have. -/
def enrolMaintenance (w : World) (i : Nat) (registry : Registry) : Registry × World :=
  w.enrolAll registry
    ((Maintenance.all.map (maintenanceOf i)).filter fun e => !registry.contains e.type)

/-- Adds an executor to a node that runs. -/
def register (w : World) (i : Nat) (e : Enrolment) : World :=
  match w.node? i with
  | some n =>
    let (registry, w) := w.enrol n.desk.registry e
    w.modifyNode i fun n => { n with desk := { n.desk with registry } }
  | none => w

/-- Lets go of a node. -/
def leave (w : World) (i : Nat) : World :=
  (w.modifyNode i fun n => { n with listening := false }).modifySite i fun site =>
    { site with present := false }

/-- Lets go of the nodes of a name that came before a node. -/
def leaveBefore (w : World) (name : String) (i : Nat) : World :=
  (w.sites.take i).zipIdx.foldl
    (fun w (site, j) => if site.present ∧ site.name = name then w.leave j else w) w

/-- Starts the maintenance of a node. -/
def startService (w : World) (i : Nat) : Option Reply × World :=
  match w.node? i, w.sites[i]? >>= Site.service with
  | some n, some service =>
    let (registry, w) := w.enrolMaintenance i n.desk.registry
    let w := w.modifyNode i fun n => { n with desk := { n.desk with registry } }
    match service.compression with
    | some size =>
      let (id, w) := w.newId
      w.request i fun n ticket => n.arrange w.now ticket (Maintenance.keepCompression id size)
    | none => (some .done, w)
  | _, _ => (none, w)

/-- Sets the pointer when a node starts, before the node ticks. -/
def startPointer (w : World) (i : Nat) : World :=
  (w.request i fun n ticket => n.ensurePointer w.now ticket).2

/-- Sets off the ticks that a node gives itself. A node cannot tick at every moment: without time
between two ticks it takes no commands. -/
def startTicks (w : World) (i : Nat) (settings : NodeSettings) : World :=
  match settings.ownInterval? with
  | none => w
  | some d =>
    if d.nanos = 0 then w.modifyNode i (·.endLoop)
    else w.modifySite i fun site => { site with metronome := some ⟨w.time, d.nanos⟩ }

/-- Starts a node, and then its maintenance. A node takes the place of the one of its name. -/
def launch (w : World) (plan : NodePlan) : Option Reply × World :=
  let i := w.sites.length
  let (registry, w) := w.enrolAll ∅ plan.executors
  let (registry, w) :=
    if plan.maintenance.isSome then w.enrolMaintenance i registry else (registry, w)
  match w.cluster.startNode? plan.settings registry with
  | none => (none, w)
  | some cluster =>
    let service := plan.maintenance.map fun (settings, compression) =>
      Service.mk .empty settings compression
    let site : Site := ⟨plan.name, true, none, service, 0⟩
    let w := { w with cluster, sites := w.sites ++ [site] }
    let w := (w.startPointer i).startTicks i plan.settings
    let (reply, w) := if service.isSome then w.startService i else (some .done, w)
    (reply, w.leaveBefore plan.name i)

/-- The executor that a node has for a type of job. -/
def executorOf? (w : World) (i : Nat) (type : String) : Option Nat := do
  let registration ← (← w.node? i).desk.registry[type]?
  return registration.executor

/-- The events of a node that have not been collected. -/
def collect (w : World) (i : Nat) : List Event × World :=
  match w.node? i, w.sites[i]? with
  | some n, some site =>
    (n.desk.log.toList.drop site.collected,
      w.modifySite i fun site => { site with collected := n.desk.log.size })
  | _, _ => ([], w)

/-! ## Talking to a node -/

/-- What is made of a node that never answers. -/
def silence : SchedulerError := .channel "no answer"

/-- Tells a node a command. -/
def command (w : World) (i : Nat) (c : Command) : Reply × World :=
  let (reply, w) := w.request i fun n ticket => n.send ticket c
  (reply.getD (.refused silence), w)

/-- Has a node carry out a submission. -/
def submit (w : World) (i : Nat) (p : Program.Submission Job) : Except SchedulerError Job × World :=
  match w.request i fun n ticket => n.submit w.now ticket p with
  | (some (.submitted result), w) => (result, w)
  | (_, w) => (.error silence, w)

/-- Submits a maintenance job. -/
def submitMaintenance (w : World) (i : Nat)
    (request : Except SubmissionError Maintenance.JobRequest) :
    Except SchedulerError Job × World :=
  let (id, w) := w.newId
  w.submit i (Maintenance.submit id request)

/-! ## The management interface -/

/-- The answer to a call of which the value is written. -/
def answerCall {α : Type} (result : Except StoreError α) (write : α → Json) : HttpAnswer :=
  match result with
  | .ok a => .ok (write a)
  | .error e => (HttpFault.ofStore e).answer

/-- The answer to a command that only has to succeed. -/
def answerReply (reply : Reply) (text : String) : HttpAnswer :=
  match reply with
  | .refused e => (HttpFault.ofScheduler e).answer
  | _ => .ok (messageToJson text)

/-- The answer to a submission. -/
def answerJob (width : Duration) : Except SchedulerError Job → HttpAnswer
  | .ok job => .created (job.describe width)
  | .error e => (HttpFault.ofScheduler e).answer

/-- Does what is asked for on a node. -/
def visit (w : World) (i : Nat) (n : Node) : Endpoint → HttpAnswer × World
  | .health => (.ok healthToJson, w)
  | .state => (.ok (modeToJson n.desk.mode n.name), w)
  | .pause =>
    let (reply, w) := w.command i .pause
    (answerReply reply "scheduler paused", w)
  | .resume =>
    let (reply, w) := w.command i .resume
    (answerReply reply "scheduler resumed", w)
  | .pointer =>
    let (result, w) := w.call .getPointer
    let current := Slice.containing w.now n.desk.width
    (answerCall result fun p => pointerToJson p current n.desk.width, w)
  | .slice ms =>
    match Slice.ofMillis? ms n.desk.width with
    | none =>
      ((HttpFault.badRequest ("timestamp out of range: " ++ Text.integerText ms)).answer, w)
    | some slice =>
      let (result, w) := w.call (.sliceSets slice)
      (answerCall result fun sets => SliceSets.toJson sets slice, w)
  | .jobs =>
    let (result, w) := w.call .listJobs
    (answerCall result fun jobs => jobsToJson jobs n.desk.width, w)
  | .job text =>
    match JobId.ofText? text with
    | none => ((HttpFault.notFound ("invalid job id: " ++ text)).answer, w)
    | some id =>
      match w.call (.getJob id) with
      | (.ok job, w) => (.ok (Job.describe job n.desk.width), w)
      | (.error e, w) => ((HttpFault.ofScheduler (.ofLookup id e)).answer, w)
  | .deleteTenant tenant =>
    let (result, w) := w.submitMaintenance i (Maintenance.requestDeleteTenant tenant)
    (answerJob n.desk.width result, w)
  | .deleteMetric tenant type name =>
    let (result, w) := w.submitMaintenance i (Maintenance.requestDeleteMetric tenant type name)
    (answerJob n.desk.width result, w)
  | .compress target size =>
    let (result, w) := w.submitMaintenance i (Maintenance.requestCompress target size)
    (answerJob n.desk.width result, w)

/-- Sends a request through the management interface of a node. -/
def http (w : World) (i : Nat) (r : HttpRequest) : HttpAnswer × World :=
  match w.node? i with
  | none => (.bare 404, w)
  | some n =>
    let (answer, w) := match Endpoint.ofRequest r with
      | .error answer => (answer, w)
      | .ok endpoint => w.visit i n endpoint
    (if r.method = "HEAD" then answer.withoutBody else answer, w)

end World

end SliceScheduler
