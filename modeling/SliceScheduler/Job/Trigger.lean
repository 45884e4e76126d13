import SliceScheduler.Time.Slice
import SliceScheduler.Job.Count
/-!
# Triggers

A trigger says when a job becomes due and whether it comes back.

1. `Trigger.singleAt`, `singleAfter` and `repeating?` build triggers at the start of a slice;
2. `Trigger.check` accepts a trigger that a job may be submitted with;
3. `Trigger.next?` is the trigger of the next occurrence, or none when the series is over;
4. `TriggerError.message` has the wording of the refusals.
-/
namespace SliceScheduler

/-- When a job becomes due. -/
inductive Trigger where
  /-- Once. -/
  | single (time : Instant)
  /-- At a time and then after each interval, `limit` times in all if there is a limit, of which
  `count` are over. -/
  | repeating (time : Instant) (interval : Duration) (limit : Option Count) (count : Count)
deriving DecidableEq, Repr

/-- Why an interval is refused. -/
inductive IntervalFault where
  | notPositive
  | notMultiple (interval width : Duration)
  | beyondRange (interval : Duration) (time : Instant)
deriving DecidableEq, Repr

/-- Why a trigger is refused. -/
inductive TriggerError where
  | misaligned (time : Instant)
  | invalidInterval (fault : IntervalFault)
  | invalidRepeatLimit
  | invalidDuration (expression : String)
deriving DecidableEq, Repr

def IntervalFault.message : IntervalFault → String
  | notPositive => "interval must be positive"
  | notMultiple interval width =>
    interval.display ++ " is not a multiple of the slice width " ++ width.display
  | beyondRange interval time => interval.display ++ " after " ++ time.display ++ " is out of range"

def TriggerError.message : TriggerError → String
  | misaligned time => "trigger time " ++ time.display ++ " is not aligned to the slice width"
  | invalidInterval fault => "invalid interval: " ++ fault.message
  | invalidRepeatLimit => "repeat limit must be greater than zero"
  | invalidDuration expression => "invalid duration expression: " ++ expression

/-- Reads a duration expression, or refuses it without the blanks around it. -/
def Duration.parse (s : String) : Except TriggerError Duration :=
  match Duration.ofExpression? s with
  | some d => .ok d
  | none => .error (.invalidDuration (Text.strip s))

namespace Trigger

instance : Inhabited Trigger := ⟨single default⟩

/-- The instant that the job becomes due at. -/
def time : Trigger → Instant
  | single t => t
  | repeating t _ _ _ => t

/-- The slice that the job is due in. -/
def slice (t : Trigger) (width : Duration) : Slice :=
  Slice.containing t.time width

/-- The trigger may fire more than once. -/
def isRepeating : Trigger → Bool
  | single _ => false
  | repeating _ _ _ _ => true

/-! ## Acceptance -/

/-- An interval has to be positive and a multiple of the width, both in whole milliseconds. -/
def checkInterval (interval width : Duration) : Except TriggerError Unit :=
  if interval.nanos = 0 then .error (.invalidInterval .notPositive)
  else if interval.millis % max width.millis 1 ≠ 0 then
    .error (.invalidInterval (.notMultiple interval width))
  else .ok ()

/-- The occurrence after the one at `time` has to be in range. -/
def checkRearm (time : Instant) (interval : Duration) : Except TriggerError Unit :=
  if (time.add? interval).isSome then .ok ()
  else .error (.invalidInterval (.beyondRange interval time))

/-- A trigger has to be at the start of a slice, and the occurrences of a series at the start of
further slices. -/
def check (t : Trigger) (width : Duration) : Except TriggerError Unit := do
  if !Slice.isAligned t.time width then .error (.misaligned t.time)
  match t with
  | single _ => .ok ()
  | repeating time interval limit _ =>
    checkInterval interval width
    checkRearm time interval
    if limit.map Count.val = some 0 then .error .invalidRepeatLimit

/-! ## Building -/

/-- Once, in the first slice that does not start before an instant. -/
def singleAt (t : Instant) (width : Duration) : Trigger :=
  single (Slice.ceil t width).start

/-- Once, in the first slice that does not start before a delay has passed. -/
def singleAfter (now : Instant) (delay width : Duration) : Trigger :=
  singleAt (now.later delay) width

/-- Again and again from the first slice that does not start before an instant. -/
def repeating? (start : Instant) (interval width : Duration) : Except TriggerError Trigger := do
  checkInterval interval width
  let time := (Slice.ceil start width).start
  checkRearm time interval
  return repeating time interval none Count.zero

/-- Sets how often a series fires in all. A single trigger stays as it is. -/
def withRepeatLimit (t : Trigger) (limit : Count) : Except TriggerError Trigger :=
  if limit.val = 0 then .error .invalidRepeatLimit
  else
    match t with
    | single time => .ok (single time)
    | repeating time interval _ count => .ok (repeating time interval (some limit) count)

/-! ## The next occurrence -/

/-- Steps on from `next` until it is after `current`, `steps` times at most. -/
def stepPast (current : Instant) (interval : Duration) : Nat → Instant → Option Instant
  | 0, next => some next
  | steps + 1, next =>
    if next ≤ current then next.add? interval >>= stepPast current interval steps else some next

/-- The first occurrence after both `time` and the slice start `current`. When the one after `time`
has passed already, those that were missed are jumped over. The jump falls short only when `time`
lies in a leap second, and then by less than two thousand steps of a millisecond. -/
def nextTime? (time current : Instant) (interval : Duration) : Option Instant := do
  let first ← time.add? interval
  if first ≤ current then
    let step : Int := (Instant.stepNanos interval / nanosPerMilli : Nat)
    let jump := ((current.millisSince time).tdiv step + 1) * step
    if Text.maxInt64 < jump then none
    let landed ← time.addNanos? (jump * nanosPerMilli)
    stepPast current interval 2000 landed
  else some first

/-- The trigger of the next occurrence, seen from `now`. The series is over when its limit is
reached, when its interval is shorter than a millisecond, or when time runs out. -/
def next? (t : Trigger) (now : Instant) (width : Duration) : Option Trigger :=
  match t with
  | single _ => none
  | repeating time interval limit count =>
    let executions := count.succ
    if (limit.map fun l => decide (l.val ≤ executions.val)).getD false then none
    else if Instant.stepNanos interval < nanosPerMilli then none
    else
      (nextTime? time (Slice.containing now width).start interval).map
        (repeating · interval limit executions)

end Trigger

end SliceScheduler
