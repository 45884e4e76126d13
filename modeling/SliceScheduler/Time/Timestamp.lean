import SliceScheduler.Time.Calendar
import SliceScheduler.Time.Instant
import SliceScheduler.Text.Reader
/-!
# Time stamps

Instants as text, always in universal time when written.

1. `Instant.timestamp` writes `2024-06-01T12:00:00Z`, the form that is stored and exchanged;
2. `Instant.display` writes `2024-06-01 12:00:00 UTC`, the form of messages;
3. `Instant.ofTimestamp?` reads time stamps, with any offset from universal time, and accepts
   blanks between the parts.

The fraction of a second has no digits, or the fewest of three, six and nine that are exact. A leap
second is written as second 60. Years above 9999 carry a plus sign and years below 0 a minus sign.
-/
namespace SliceScheduler

namespace Instant

/-! ## Writing -/

/-- The date, `year-month-day`. -/
def dateChars (t : Instant) : List Char :=
  let date := Date.ofDay (t.second / 86400)
  let year := Text.padded 4 date.year.natAbs
  let signed :=
    if date.year < 0 then '-' :: year else if 9999 < date.year then '+' :: year else year
  signed ++ '-' :: Text.padded 2 date.month ++ '-' :: Text.padded 2 date.day

/-- The time of day to the second, `hour:minute:second`. -/
def clockChars (t : Instant) : List Char :=
  let second := t.secondOfDay.toNat
  Text.padded 2 (second / 3600) ++ ':' :: Text.padded 2 (second / 60 % 60) ++
    ':' :: Text.padded 2 (second % 60 + t.nano / nanosPerSecond)

/-- The fraction of the second. -/
def fractionChars (t : Instant) : List Char :=
  let nano := t.nano % nanosPerSecond
  if nano = 0 then []
  else if nano % 1000000 = 0 then '.' :: Text.padded 3 (nano / 1000000)
  else if nano % 1000 = 0 then '.' :: Text.padded 6 (nano / 1000)
  else '.' :: Text.padded 9 nano

/-- A time stamp, to be read back by `ofTimestamp?`. -/
def timestampChars (t : Instant) : List Char :=
  t.dateChars ++ 'T' :: t.clockChars ++ t.fractionChars ++ ['Z']

/-- A time stamp, to be read back by `ofTimestamp?`. -/
def timestamp (t : Instant) : String := String.ofList t.timestampChars

/-- The form that messages show. -/
def display (t : Instant) : String :=
  String.ofList (t.dateChars ++ ' ' :: t.clockChars ++ t.fractionChars) ++ " UTC"

/-! ## Reading -/

open Text Text.Reader

/-- Reads a year: four digits at most without a sign, any number of them after one. -/
def readYear : Reader Int := do
  blanks
  match ← rest with
  | '-' :: _ => do char '-'; return -((← longNumber : Nat) : Int)
  | '+' :: _ => do char '+'; return ((← longNumber : Nat) : Int)
  | _ => return ((← number 4 : Nat) : Int)

/-- Reads a part of two digits at most, between blanks. -/
def readPart : Reader Nat := do
  blanks
  number 2

/-- Reads a mark between blanks. -/
def readMark (c : Char) : Reader Unit := do
  blanks
  char c

/-- Reads the fraction of a second in nanoseconds; digits past the ninth are dropped. -/
def readFraction : Reader Nat := do
  match ← rest with
  | '.' :: _ => do
    char '.'
    let taken ← digits 9
    modify (·.dropWhile Char.isDigit)
    return digitsValue taken * Nat.pow 10 (9 - taken.length)
  | _ => return 0

/-- Reads exactly two digits. -/
def readTwoDigits : Reader Nat := do
  let tens ← satisfy Char.isDigit
  let ones ← satisfy Char.isDigit
  return 10 * digitValue tens + digitValue ones

/-- Reads the hours and minutes of an offset, colons and blanks between them, in seconds. -/
def readOffsetTime : Reader Int := do
  let hours ← readTwoDigits
  modify (·.dropWhile fun c => c == ':' || isBlank c)
  let minutes ← readTwoDigits
  if minutes < 60 then return ((hours * 3600 + minutes * 60 : Nat) : Int) else refuse

/-- Reads the seconds that the local time is ahead of universal time. -/
def readOffset : Reader Int := do
  blanks
  let cs ← rest
  if cs.take 3 |>.map Char.toUpper |> (· == ['U', 'T', 'C']) then
    modify (·.drop 3)
    return 0
  else
    match cs with
    | 'Z' :: _ | 'z' :: _ => do modify (·.drop 1); return 0
    | '+' :: _ => do modify (·.drop 1); readOffsetTime
    | '-' :: _ | '−' :: _ => do modify (·.drop 1); return -(← readOffsetTime)
    | _ => refuse

/-- The instant of a date, a time of day and an offset. -/
def ofLocal? (date : Date) (hour minute second nano : Nat) (offset : Int) : Option Instant := do
  let day ← date.toDay?
  if ¬ (hour < 24 ∧ minute < 60 ∧ second ≤ 60 ∧ offset.natAbs < 86400) then none
  let local' := day * 86400 + (hour * 3600 + minute * 60 + min second 59 : Nat)
  if local' < minSecond ∨ maxSecond < local' then none
  ofParts? (local' - offset) (if second = 60 then nanosPerSecond + nano else nano)

/-- Reads the parts of a time stamp off the front of a text. -/
def readTimestamp : Reader (Option Instant) := do
  let year ← readYear
  readMark '-'
  let month ← readPart
  readMark '-'
  let day ← readPart
  discard (satisfy fun c => c == 'T' || c == 't' || c == ' ')
  let hour ← readPart
  readMark ':'
  let minute ← readPart
  readMark ':'
  let second ← readPart
  let nano ← readFraction
  let offset ← readOffset
  blanks
  return ofLocal? ⟨year, month, day⟩ hour minute second nano offset

/-- The instant that a time stamp denotes. -/
def ofTimestamp? (s : String) : Option Instant :=
  (readTimestamp.run? s.toList).join

end Instant

end SliceScheduler
