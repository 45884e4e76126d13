import SliceScheduler.Job.Failure
import SliceScheduler.Time.Instant
/-!
# What maintenance asks of the metrics

Maintenance jobs delete and compress data that is kept elsewhere.

1. `MetricType` are the types of metrics and their codes;
2. `Work` is one request to the service that keeps the data;
3. `WorkLog` stands in for that service: it notes the requests, and refuses the next one on demand.
-/
namespace SliceScheduler

/-- The type of a metric. -/
inductive MetricType where
  | gauge
  | counter
  | availability
  | string
deriving DecidableEq, Repr

namespace MetricType

/-- The code of a type in the parameters of a job. -/
def code : MetricType → String
  | gauge => "gauge"
  | counter => "counter"
  | availability => "availability"
  | string => "string"

/-- All types. -/
def all : List MetricType := [gauge, counter, availability, string]

/-- The type of a code. -/
def ofCode? (code : String) : Option MetricType := all.find? (·.code == code)

/-- The refusal of a code that no type has. -/
def unknown (code : String) : String :=
  "unknown metric type '" ++ code ++ "', expected gauge, counter, availability or string"

/-- Reads a code, or says why it is refused. -/
def parse (code : String) : Except String MetricType :=
  match ofCode? code with
  | some t => .ok t
  | none => .error (unknown code)

end MetricType

/-- A request to the service that keeps the data. -/
inductive Work where
  | deleteTenant (tenant : String)
  | deleteMetric (tenant : String) (type : MetricType) (name : String)
  /-- Compression of the data from `start` up to `stop`. -/
  | compressBlock (start stop : Instant)
deriving DecidableEq, Repr

/-- The requests that were met, and the reason for which the next one is refused. -/
structure WorkLog where
  done : List Work
  refusal : Option String
deriving DecidableEq, Repr

namespace WorkLog

/-- No request so far. -/
def empty : WorkLog := ⟨[], none⟩

instance : Inhabited WorkLog := ⟨empty⟩

/-- Refuses the next request. -/
def refuseNext (log : WorkLog) (reason : String) : WorkLog := { log with refusal := some reason }

/-- Meets a request, or refuses it and meets the next one again. -/
def perform (log : WorkLog) (work : Work) : Except JobError Unit × WorkLog :=
  match log.refusal with
  | some reason => (.error (.other reason), { log with refusal := none })
  | none => (.ok (), { log with done := log.done ++ [work] })

/-- The tenants deleted. -/
def tenants (log : WorkLog) : List String :=
  log.done.filterMap fun
    | .deleteTenant tenant => some tenant
    | _ => none

/-- The metrics deleted, by tenant, type and name. -/
def metrics (log : WorkLog) : List (String × MetricType × String) :=
  log.done.filterMap fun
    | .deleteMetric tenant type name => some (tenant, type, name)
    | _ => none

/-- The blocks compressed, by their ends. -/
def blocks (log : WorkLog) : List (Instant × Instant) :=
  log.done.filterMap fun
    | .compressBlock start stop => some (start, stop)
    | _ => none

end WorkLog

end SliceScheduler
