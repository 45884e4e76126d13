import SliceScheduler.Job.Basic
import SliceScheduler.Job.Retry
import SliceScheduler.Maintenance.Block
import SliceScheduler.Maintenance.Metric
/-!
# Maintenance jobs

Three types of job delete the data of a tenant, delete one metric, and compress a block of data.

1. `Maintenance.check` says what each of them asks of the parameters of a job;
2. `Maintenance.plan` is the request that a job comes down to;
3. `Maintenance.policy` is how failures are retried: the deletion of a tenant until it succeeds, the
   others not at all.
-/
namespace SliceScheduler

/-- A type of maintenance job. -/
inductive Maintenance where
  | deleteTenant
  | deleteMetric
  | compress
deriving DecidableEq, Repr

/-- Settings that are looked up while a job runs, by group and key. -/
inductive Settings where
  | table (entries : Std.ExtTreeMap String (Std.ExtTreeMap String String))
  /-- Every look-up fails. -/
  | unavailable

/-- The value of a setting. A look-up that fails counts as one that finds nothing. -/
def Settings.get? : Settings → String → String → Option String
  | table entries, group, key => entries[group]? >>= (·[key]?)
  | unavailable, _, _ => none

namespace Maintenance

/-- The type of the jobs. -/
def jobType : Maintenance → String
  | deleteTenant => "DELETE_TENANT"
  | deleteMetric => "DELETE_METRIC"
  | compress => "COMPRESS_DATA"

/-- All types. -/
def all : List Maintenance := [deleteTenant, deleteMetric, compress]

/-- The maintenance job of a type. -/
def ofJobType? (type : String) : Option Maintenance := all.find? (·.jobType == type)

/-- The parameter with the tenant. -/
def tenantParameter : String := "tenantId"

/-- The parameter with the type of a metric. -/
def metricTypeParameter : String := "metricType"

/-- The parameter with the name of a metric. -/
def metricNameParameter : String := "metricName"

/-- The group of settings about compression. -/
def settingsGroup : String := "compression"

/-- The key of the size of a block. -/
def sizeKey : String := "blockSize"

/-- Reads the type of a metric from a parameter. -/
def parseMetricType (code : String) : Except JobError MetricType :=
  (MetricType.parse code).mapError (.invalidParameter metricTypeParameter)

/-- What a job has to have to be submitted. -/
def check : Maintenance → Job → Except JobError Unit
  | deleteTenant, job => discard (job.requireParameter tenantParameter)
  | deleteMetric, job => do
    discard (job.requireParameter tenantParameter)
    discard (parseMetricType (← job.requireParameter metricTypeParameter))
    discard (job.requireParameter metricNameParameter)
  | compress, job => do
    discard ((job.parameter? Block.targetParameter).mapM Block.parseTarget)
    discard ((job.parameter? Block.sizeParameter).mapM Block.parseSize)

/-- The size of the block of a job: of its own, of the settings, or the standard one. -/
def blockSize (settings : Settings) (job : Job) : Except JobError Duration :=
  match job.parameter? Block.sizeParameter with
  | some size => Block.parseSize size
  | none =>
    match settings.get? settingsGroup sizeKey with
    | some size => Block.parseSize size
    | none => .ok Block.standardSize

/-- The target time of a job: its own, or the time it is due at. -/
def targetTime (job : Job) : Except JobError Instant :=
  match job.parameter? Block.targetParameter with
  | some target => Block.parseTarget target
  | none => .ok job.trigger.time

/-- The request that a job comes down to. -/
def plan (settings : Settings) : Maintenance → Job → Except JobError Work
  | deleteTenant, job => return .deleteTenant (← job.requireParameter tenantParameter)
  | deleteMetric, job => do
    let tenant ← job.requireParameter tenantParameter
    let type ← parseMetricType (← job.requireParameter metricTypeParameter)
    return .deleteMetric tenant type (← job.requireParameter metricNameParameter)
  | compress, job => do
    let target ← targetTime job
    let size ← blockSize settings job
    match Block.bounds? target size with
    | some (start, stop) => return .compressBlock start stop
    | none => .error (Block.noBlock target size)

/-- Runs a job. -/
def execute (settings : Settings) (kind : Maintenance) (job : Job) (log : WorkLog) :
    Except JobError Unit × WorkLog :=
  match kind.plan settings job with
  | .ok work => log.perform work
  | .error e => (.error e, log)

/-- The deletion of a tenant is retried every five minutes until it succeeds. -/
def policy : Maintenance → RetryPolicy
  | deleteTenant => .fixed (Duration.ofSeconds 300)
  | _ => .none

end Maintenance

end SliceScheduler
