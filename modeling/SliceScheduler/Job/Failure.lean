import SliceScheduler.Time.Duration
/-!
# How an execution fails

The causes for which an executor gives up on a job, their wording, and which of them may pass.
-/
namespace SliceScheduler

/-- Why an execution of a job failed. -/
inductive JobError where
  | executionFailed (reason : String)
  | invalidParameter (name reason : String)
  | timeout (after : Duration)
  | transient (reason : String)
  | panicked (reason : String)
  | other (reason : String)
deriving DecidableEq, Repr

namespace JobError

def message : JobError → String
  | executionFailed reason => "execution failed: " ++ reason
  | invalidParameter name reason => "invalid parameter '" ++ name ++ "': " ++ reason
  | timeout after => "job timed out after " ++ after.display
  | transient reason => "transient error: " ++ reason
  | panicked reason => "executor panicked: " ++ reason
  | other reason => reason

/-- The fault is likely to pass: a timeout, or one that says so. -/
def isTransient : JobError → Bool
  | timeout _ | transient _ => true
  | _ => false

/-- A parameter that is not there. -/
def missingParameter (name : String) : JobError := invalidParameter name "missing"

end JobError

/-- How the run of an executor ended. -/
inductive Outcome where
  | success
  | failure (error : JobError)
  /-- The executor broke down, with a text if it gave one. -/
  | panic (reason : Option String)
deriving DecidableEq, Repr

/-- The error of an outcome: a breakdown counts as one. -/
def Outcome.error? : Outcome → Option JobError
  | success => none
  | failure e => some e
  | panic reason => some (.panicked (reason.getD "unknown panic payload"))

end SliceScheduler
