import SliceScheduler.Job.Record
/-!
# Retry policies

A policy decides what becomes of a job whose execution failed: another run after a delay, or none.

1. `RetryPolicy.decide` is the decision; it looks at the retries so far and at the error;
2. `BoundedRetry` has a limit on the retries and a condition on the error, and a JSON form with the
   delay in whole seconds.
-/
namespace SliceScheduler

/-- Which errors lead to a retry. -/
inductive RetryCondition where
  | always
  | transientOnly
  | never
deriving DecidableEq, Repr

/-- Retries at a fixed delay, `maxAttempts` of them besides the first run. -/
structure BoundedRetry where
  maxAttempts : Count
  delay : Duration
  retryOn : RetryCondition
deriving DecidableEq, Repr

/-- What becomes of a job whose execution failed. -/
inductive RetryDecision where
  | retryAfter (delay : Duration)
  | terminal
deriving DecidableEq, Repr

/-- How failures of a type of job are retried. -/
inductive RetryPolicy where
  | none
  | fixed (delay : Duration)
  | bounded (policy : BoundedRetry)
  /-- By a rule of its own. -/
  | custom (rule : Job → JobError → RetryDecision)

namespace BoundedRetry

/-- The policy may lead to a retry at all. -/
def isEnabled (p : BoundedRetry) : Bool :=
  p.maxAttempts.val != 0 && p.retryOn != .never

/-- A job with so many retries so far is retried after an error. -/
def shouldRetry (p : BoundedRetry) (retries : Count) (error : JobError) : Bool :=
  match p.retryOn with
  | .never => false
  | .transientOnly => error.isTransient && decide (retries.val < p.maxAttempts.val)
  | .always => decide (retries.val < p.maxAttempts.val)

end BoundedRetry

/-- The decision of a policy. -/
def RetryPolicy.decide (policy : RetryPolicy) (job : Job) (error : JobError) : RetryDecision :=
  match policy with
  | none => .terminal
  | fixed delay => .retryAfter delay
  | bounded p => if p.shouldRetry job.retries error then .retryAfter p.delay else .terminal
  | custom rule => rule job error

/-! ## JSON form -/

open Json

def RetryCondition.name : RetryCondition → String
  | always => "Always"
  | transientOnly => "TransientOnly"
  | never => "Never"

/-- The condition of a name. -/
def RetryCondition.ofName? (name : String) : Option RetryCondition :=
  [always, transientOnly, never].find? (·.name == name)

/-- Reads a condition: its name, alone or as the only member of an object, with null. -/
def RetryCondition.ofJson : Json → Decoded RetryCondition
  | obj [(name, null)] =>
    match ofName? name with
    | some c => .ok c
    | none => .error .mismatch
  | v => asParsed ofName? v

namespace BoundedRetry

def toJson (p : BoundedRetry) : Json :=
  obj [("max_attempts", nat p.maxAttempts.val), ("delay", nat p.delay.seconds),
    ("retry_on", str p.retryOn.name)]

/-- The names of the fields. -/
def fieldNames : List String := ["max_attempts", "delay", "retry_on"]

/-- Reads a policy. Every field has to be there. -/
def ofJson (v : Json) : Decoded BoundedRetry := do
  let check (name : String) (v : Json) : Decoded Unit :=
    match name with
    | "max_attempts" => discard (Count.ofJson v)
    | "delay" => discard (asNatBelow Word.size64 v)
    | _ => discard (RetryCondition.ofJson v)
  let found ← fields fieldNames check v
  return {
    maxAttempts := ← required found "max_attempts" Count.ofJson
    delay := Duration.ofSeconds (← required found "delay" (asNatBelow Word.size64))
    retryOn := ← required found "retry_on" RetryCondition.ofJson }

/-- The policy of a text. -/
def ofText? (text : String) : Option BoundedRetry := do
  (ofJson (← Json.recordOfText? fieldNames text)).toOption

end BoundedRetry

end SliceScheduler
