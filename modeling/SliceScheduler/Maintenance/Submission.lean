import SliceScheduler.Engine.Submit
import SliceScheduler.Maintenance.Executor
/-!
# Submitting maintenance jobs

1. `Maintenance.requestDeleteTenant`, `requestDeleteMetric` and `requestCompress` check the
   arguments of a maintenance job and give it a name and parameters;
2. `Maintenance.submit` submits such a job, to run a minute later;
3. `Maintenance.keepCompression` submits a compression that comes back, unless there is one.
-/
namespace SliceScheduler.Maintenance

open Program

/-- A job before it has an id and a trigger. -/
structure JobRequest where
  kind : Maintenance
  name : String
  parameters : Parameters

/-- The job under an id and a trigger. -/
def JobRequest.job (r : JobRequest) (id : JobId) (trigger : Trigger) : Job :=
  ⟨id, r.kind.jobType, r.name, r.parameters, trigger, Count.zero⟩

/-- An argument without the blanks around it, which has to have something left. -/
def required (name value : String) : Except SubmissionError String :=
  let value := Text.strip value
  if value.isEmpty then .error (.missingField name) else .ok value

/-- The deletion of the data of a tenant. -/
def requestDeleteTenant (tenant : String) : Except SubmissionError JobRequest := do
  let tenant ← required tenantParameter tenant
  return {
    kind := deleteTenant
    name := deleteTenant.jobType ++ "_" ++ tenant
    parameters := .ofList [(tenantParameter, tenant)] }

/-- The deletion of a metric. -/
def requestDeleteMetric (tenant type name : String) : Except SubmissionError JobRequest := do
  let tenant ← required tenantParameter tenant
  let name ← required metricNameParameter name
  let type ← (MetricType.parse type).mapError (.invalidParameter metricTypeParameter)
  return {
    kind := deleteMetric
    name := deleteMetric.jobType ++ "_" ++ tenant ++ "_" ++ type.code ++ "_" ++ name
    parameters := .ofList [(tenantParameter, tenant), (metricTypeParameter, type.code),
      (metricNameParameter, name)] }

/-- The compression of the block before a target time in milliseconds since 1970. -/
def requestCompress (target : Int) (size : Option String) : Except SubmissionError JobRequest := do
  let target := Text.integerText target
  discard ((Block.parseTarget target).mapError fun e =>
    SubmissionError.invalidParameter Block.targetParameter e.message)
  discard (size.mapM fun size => (Block.parseSize size).mapError fun e =>
    SubmissionError.invalidParameter Block.sizeParameter e.message)
  return {
    kind := compress
    name := compress.jobType ++ "_single_" ++ target
    parameters := .ofList ((Block.targetParameter, target) ::
      (size.map fun size => (Block.sizeParameter, Text.strip size)).toList) }

/-- The delay before a submitted maintenance job runs. -/
def submissionDelay : Duration := Duration.ofSeconds 60

/-- Submits a maintenance job under an id, to run a minute later. -/
def submit (id : JobId) (request : Except SubmissionError JobRequest) : Submission Job := do
  match request with
  | .error e => refuse e
  | .ok request =>
    let width := (← (look : Program _)).width
    schedule (request.job id (Trigger.singleAfter (← (now : Program _)) submissionDelay width))

/-- A compression that comes back with every block. -/
def repeatingCompression (size : Duration) : JobRequest where
  kind := compress
  name := compress.jobType
  parameters := .ofList [(Block.sizeParameter, Text.naturalText size.seconds ++ "s")]

/-- Submits a compression that comes back with every block, under an id, unless there is a
compression that comes back. -/
def keepCompression (id : JobId) (size : Duration) : Submission Unit := do
  let jobs ← callStore .listJobs
  if jobs.any fun job => job.type == compress.jobType && job.trigger.isRepeating then return
  let width := (← (look : Program _)).width
  let first := (Slice.ceil (← (now : Program _)) size).start
  match Trigger.repeating? first size width with
  | .error e => refuse (.invalidTrigger e)
  | .ok trigger => discard (schedule ((repeatingCompression size).job id trigger))

end SliceScheduler.Maintenance
