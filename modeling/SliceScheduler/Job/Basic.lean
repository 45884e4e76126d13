import Std.Data.ExtTreeMap
import SliceScheduler.Job.Failure
import SliceScheduler.Job.Id
import SliceScheduler.Job.Trigger
/-!
# Jobs

A job is a type, a name, parameters and a trigger under an id, with the number of retries so far.

1. `Job.check` accepts the jobs that may be submitted, up to what their executor asks for;
2. `Job.requireParameter` looks up a parameter that has to be there and not blank;
3. `SubmissionError` has the causes for which a submission is refused, and their wording.
-/
namespace SliceScheduler

/-- The parameters of a job, by name. -/
abbrev Parameters := Std.ExtTreeMap String String

/-- A job. -/
structure Job where
  id : JobId
  type : String
  name : String
  parameters : Parameters
  trigger : Trigger
  retries : Count
deriving DecidableEq

/-- Why a submission is refused. -/
inductive SubmissionError where
  | missingField (name : String)
  | unknownJobType (type : String)
  | invalidParameter (name reason : String)
  | invalidTrigger (error : TriggerError)
  | sliceAlreadyProcessed (slice active : Slice)
  | duplicateJobName (type name : String) (slice : Slice)
  | rejected (reason : String)
deriving DecidableEq, Repr

namespace SubmissionError

def message : SubmissionError → String
  | missingField name => "missing required field: " ++ name
  | unknownJobType type => "unknown job type: " ++ type
  | invalidParameter name reason => "invalid parameter '" ++ name ++ "': " ++ reason
  | invalidTrigger error => "invalid trigger: " ++ error.message
  | sliceAlreadyProcessed slice active =>
    "trigger slice " ++ slice.display ++ " precedes active time slice " ++ active.display
  | duplicateJobName type name slice =>
    "job '" ++ name ++ "' of type '" ++ type ++ "' is already scheduled for " ++ slice.display
  | rejected reason => "rejected by executor: " ++ reason

/-- The refusal of an executor. -/
def ofJobError : JobError → SubmissionError
  | .invalidParameter name reason => invalidParameter name reason
  | e => rejected e.message

end SubmissionError

namespace Job

instance : Inhabited Job := ⟨⟨default, "", "", ∅, default, default⟩⟩

/-- The slice that the job is due in. -/
def slice (job : Job) (width : Duration) : Slice := job.trigger.slice width

/-- The value of a parameter. -/
def parameter? (job : Job) (name : String) : Option String := job.parameters[name]?

/-- The value of a parameter that has to be there and not blank. -/
def requireParameter (job : Job) (name : String) : Except JobError String :=
  match job.parameter? name with
  | some value =>
    if Text.isBlankText value then .error (.missingParameter name) else .ok value
  | none => .error (.missingParameter name)

/-- The first parameter, by name, that has a blank name. -/
def blankParameter? (job : Job) : Option String :=
  job.parameters.keys.find? Text.isBlankText

/-- A job has a type, a name, parameters with names, and a trigger at the start of a slice. -/
def check (job : Job) (width : Duration) : Except SubmissionError Unit :=
  if Text.isBlankText job.type then .error (.missingField "job_type")
  else if Text.isBlankText job.name then .error (.missingField "job_name")
  else
    match job.blankParameter? with
    | some name => .error (.invalidParameter name "parameter names must not be blank")
    | none => (job.trigger.check width).mapError .invalidTrigger

/-- The job with its next trigger. -/
def rescheduled (job : Job) (trigger : Trigger) (retries : Count) : Job :=
  { job with trigger, retries }

/-- The form that messages show. -/
def display (job : Job) : String :=
  "JobDetails[id=" ++ job.id.text ++ ", type=" ++ job.type ++ ", name=" ++ job.name ++
    ", trigger=" ++ job.trigger.time.display ++ ", retries=" ++ Text.naturalText job.retries.val ++
    "]"

end Job

end SliceScheduler
