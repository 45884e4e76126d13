import SliceScheduler.Job.Basic
import SliceScheduler.Json.Decode
import SliceScheduler.Json.Reader
/-!
# The JSON forms of triggers and jobs

1. `Trigger.toJson` and `Trigger.ofJson` write and read a trigger: an object that names its kind,
   with the interval in milliseconds;
2. `Job.toJson` and `Job.ofJson` write and read a job;
3. `parametersToJson` and `parametersOfJson` do so for the parameters alone.

Reading does not check that a trigger is acceptable.
-/
namespace SliceScheduler

open Json

/-- Reads an instant. -/
def Instant.ofJson : Json → Decoded Instant := asParsed Instant.ofTimestamp?

/-- Reads a count. -/
def Count.ofJson (v : Json) : Decoded Count := do
  match Count.ofNat? (← asNatBelow Word.size32 v) with
  | some c => .ok c
  | none => .error .mismatch

/-- Reads an interval of whole milliseconds. -/
def Duration.ofJsonMillis (v : Json) : Decoded Duration :=
  return Duration.ofMillis (← asNatBelow Word.size64 v)

namespace Trigger

/-- The members of the JSON form. A limit that is not there has no member. -/
def toJson : Trigger → Json
  | single time => obj [("type", str "single_execution"), ("trigger_time", str time.timestamp)]
  | repeating time interval limit count =>
    obj ([("type", str "repeating"), ("trigger_time", str time.timestamp),
        ("interval_ms", nat interval.unsignedMillis)] ++
      (limit.map fun l => ("repeat_limit", nat l.val)).toList ++
      [("execution_count", nat count.val)])

/-- Reads the fields of a single trigger. -/
def singleOfJson (v : Json) : Decoded Trigger := do
  let found ← fields ["trigger_time"] (fun _ v => discard (Instant.ofJson v)) v
  return single (← required found "trigger_time" Instant.ofJson)

/-- Reads the fields of a repeating trigger. -/
def repeatingOfJson (v : Json) : Decoded Trigger := do
  let check (name : String) (v : Json) : Decoded Unit :=
    match name with
    | "trigger_time" => discard (Instant.ofJson v)
    | "interval_ms" => discard (Duration.ofJsonMillis v)
    | "repeat_limit" => discard (asOption Count.ofJson v)
    | _ => discard (Count.ofJson v)
  let found ← fields ["trigger_time", "interval_ms", "repeat_limit", "execution_count"] check v
  return repeating (← required found "trigger_time" Instant.ofJson)
    (← required found "interval_ms" Duration.ofJsonMillis)
    (← withDefault found "repeat_limit" none (asOption Count.ofJson))
    (← withDefault found "execution_count" Count.zero Count.ofJson)

/-- Reads the fields of the kind of trigger that a value names. -/
def kindOfJson (kind fields : Json) : Decoded Trigger := do
  match ← kind.asString with
  | "single_execution" => singleOfJson fields
  | "repeating" => repeatingOfJson fields
  | _ => .error .mismatch

/-- Reads a trigger: an object with exactly one member for its kind, or an array that starts with
its kind. -/
def ofJson (v : Json) : Decoded Trigger := do
  if !v.isWhole then .error .unreadable
  match v with
  | obj members =>
    let (kinds, others) := members.partition (·.1 == "type")
    match kinds with
    | [(_, kind)] => kindOfJson kind (obj others)
    | _ => .error .mismatch
  | arr (kind :: others) => kindOfJson kind (arr others)
  | _ => .error .mismatch

/-- The trigger of a text. Since its shape hangs on its kind, all of the text is read. -/
def ofText? (text : String) : Option Trigger := do
  (ofJson (← Json.ofText? text)).toOption

end Trigger

/-- Reads parameters. Of two values for a name the later one counts. -/
def parametersOfJson : Json → Decoded Parameters
  | obj members =>
    members.foldlM (fun parameters (name, v) => return parameters.insert name (← v.asString)) ∅
  | v => refuse v

/-- Writes parameters in the order of their names. -/
def parametersToJson (parameters : Parameters) : Json :=
  obj (parameters.toList.map fun (name, value) => (name, str value))

/-- The parameters of a text. -/
def parametersOfText? (text : String) : Option Parameters := do
  (parametersOfJson (← Json.ofText? text)).toOption

/-- Reads a job id. -/
def JobId.ofJson : Json → Decoded JobId := asParsed JobId.ofText?

namespace Job

def toJson (job : Job) : Json :=
  obj [("job_id", str job.id.text), ("job_type", str job.type), ("job_name", str job.name),
    ("parameters", parametersToJson job.parameters), ("trigger", job.trigger.toJson),
    ("retry_count", nat job.retries.val)]

/-- The names of the fields. -/
def fieldNames : List String :=
  ["job_id", "job_type", "job_name", "parameters", "trigger", "retry_count"]

/-- Reads a job. Every field has to be there. -/
def ofJson (v : Json) : Decoded Job := do
  let check (name : String) (v : Json) : Decoded Unit :=
    match name with
    | "job_id" => discard (JobId.ofJson v)
    | "job_type" | "job_name" => discard v.asString
    | "parameters" => discard (parametersOfJson v)
    | "trigger" => discard (Trigger.ofJson v)
    | _ => discard (Count.ofJson v)
  let found ← fields fieldNames check v
  return {
    id := ← required found "job_id" JobId.ofJson
    type := ← required found "job_type" asString
    name := ← required found "job_name" asString
    parameters := ← required found "parameters" parametersOfJson
    trigger := ← required found "trigger" Trigger.ofJson
    retries := ← required found "retry_count" Count.ofJson }

/-- The job of a text. -/
def ofText? (text : String) : Option Job := do
  (ofJson (← Json.recordOfText? fieldNames text)).toOption

end Job

end SliceScheduler
