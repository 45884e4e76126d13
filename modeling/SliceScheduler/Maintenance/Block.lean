import SliceScheduler.Job.Failure
import SliceScheduler.Job.Trigger
/-!
# Blocks of data

Data is compressed in blocks of one size, counted from 1970. A compression covers the full block
that ended at or before its target time.

1. `Block.bounds?` are the ends of that block;
2. `Block.parseSize` and `Block.parseTarget` read the size and the target time from parameters.
-/
namespace SliceScheduler.Block

/-- The parameter with the target time, in milliseconds since 1970. -/
def targetParameter : String := "targetTime"

/-- The parameter with the size of a block, a duration expression. -/
def sizeParameter : String := "blockSize"

/-- The size of a block unless told otherwise: two hours. -/
def standardSize : Duration := Duration.ofSeconds 7200

/-- Reads the size of a block. -/
def parseSize (s : String) : Except JobError Duration :=
  (Duration.parse s).mapError fun e => .invalidParameter sizeParameter e.message

/-- Reads a target time. -/
def parseTarget (s : String) : Except JobError Instant :=
  match Text.int64? (Text.stripChars s.toList) with
  | none => .error (.invalidParameter targetParameter "expected epoch milliseconds")
  | some ms =>
    match Instant.ofMillis? ms with
    | none => .error (.invalidParameter targetParameter "timestamp out of range")
    | some t => .ok t

/-- The ends of the last full block before a target time. There is none for a size of less than a
millisecond, for one out of range, and when an end is out of range. -/
def bounds? (target : Instant) (size : Duration) : Option (Instant × Instant) :=
  if size.millis = 0 ∨ Text.maxInt64 < size.millis then none
  else do
    let stop := target.millis / size.millis * size.millis
    return (← Instant.ofMillis? (stop - size.millis), ← Instant.ofMillis? stop)

/-- The refusal of a block that is out of range. -/
def noBlock (target : Instant) (size : Duration) : JobError :=
  .invalidParameter sizeParameter ("no block of " ++ size.display ++ " around " ++ target.display)

end SliceScheduler.Block
