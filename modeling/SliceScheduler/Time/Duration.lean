import SliceScheduler.Text.Blank
import SliceScheduler.Text.Decimal
import SliceScheduler.Text.Word
/-!
# Lengths of time

A length of time counts nanoseconds and is shorter than `2 ^ 64` seconds. This module holds

1. the type and its views in whole seconds and whole milliseconds;
2. the way a length is shown in messages: the largest unit that is not zero, with the fewest
   decimals that are exact;
3. the duration expressions of configurations and job parameters, such as `2h30m`.
-/
namespace SliceScheduler

/-- Nanoseconds in a second. -/
abbrev nanosPerSecond : Nat := 1000000000

/-- Nanoseconds in a millisecond. -/
abbrev nanosPerMilli : Nat := 1000000

/-- A length of time with nanosecond precision. -/
structure Duration where
  nanos : Nat
  nanos_lt : nanos < Word.size64 * nanosPerSecond
deriving DecidableEq, Repr

namespace Duration

def zero : Duration := ⟨0, by decide⟩

instance : Inhabited Duration := ⟨zero⟩

/-- The length of `n` nanoseconds, if it is in range. -/
def ofNanos? (n : Nat) : Option Duration :=
  if h : n < Word.size64 * nanosPerSecond then some ⟨n, h⟩ else none

/-- The longest length. -/
def longest : Duration := ⟨Word.size64 * nanosPerSecond - 1, by decide⟩

/-- The length of `n` seconds, or the longest length. -/
def ofSeconds (n : Nat) : Duration :=
  (ofNanos? (n * nanosPerSecond)).getD longest

/-- The length of `n` milliseconds, or the longest length. -/
def ofMillis (n : Nat) : Duration :=
  (ofNanos? (n * nanosPerMilli)).getD longest

/-- The whole seconds in a length. -/
def seconds (d : Duration) : Nat := d.nanos / nanosPerSecond

/-- The whole milliseconds in a length. -/
def millis (d : Duration) : Nat := d.nanos / nanosPerMilli

/-- The nanoseconds past the last whole second. -/
def subsecNanos (d : Duration) : Nat := d.nanos % nanosPerSecond

/-- Milliseconds as a signed 64-bit word: the count modulo `2 ^ 64`, around zero. -/
def wordMillis (d : Duration) : Int := (d.millis : Int).bmod Word.size64

/-- Milliseconds as an unsigned 64-bit word: the count modulo `2 ^ 64`. -/
def unsignedMillis (d : Duration) : Nat := d.millis % Word.size64

instance : LE Duration := ⟨fun a b => a.nanos ≤ b.nanos⟩
instance : LT Duration := ⟨fun a b => a.nanos < b.nanos⟩
instance (a b : Duration) : Decidable (a ≤ b) := inferInstanceAs (Decidable (a.nanos ≤ b.nanos))
instance (a b : Duration) : Decidable (a < b) := inferInstanceAs (Decidable (a.nanos < b.nanos))

/-! ## Display -/

/-- The decimals of `n` parts of `10 ^ places`, without the zeros at the end. -/
def decimals (places n : Nat) : List Char :=
  let kept := ((Text.padded places n).reverse.dropWhile (· == '0')).reverse
  if kept = [] then [] else '.' :: kept

/-- A length in the largest of seconds, milliseconds, microseconds and nanoseconds that is not
zero. -/
def display (d : Duration) : String :=
  let whole (unit places : Nat) (name : String) : String :=
    String.ofList (Text.naturalChars (d.nanos / unit) ++ decimals places (d.nanos % unit)) ++ name
  if nanosPerSecond ≤ d.nanos then whole nanosPerSecond 9 "s"
  else if nanosPerMilli ≤ d.nanos then whole nanosPerMilli 6 "ms"
  else if 1000 ≤ d.nanos then whole 1000 3 "µs"
  else whole 1 0 "ns"

/-! ## Duration expressions -/

/-- Seconds in each unit of a duration expression. -/
def unitSeconds? : Char → Option Nat
  | 's' => some 1
  | 'm' => some 60
  | 'h' => some 3600
  | 'd' => some 86400
  | _ => none

/-- The seconds that a run of items adds up to, each item a number and its unit. The number of the
item at hand is `pending`, absent before its first digit; `total` is the sum of the items before
it. Every number, product and sum has to fit 64 bits. -/
def sumItems (pending : Option Nat) (total : Nat) : List Char → Option Nat
  | [] => if pending.isNone then some total else none
  | c :: cs =>
    if c.isDigit then sumItems (some (10 * pending.getD 0 + Text.digitValue c)) total cs
    else
      match pending, unitSeconds? c with
      | some n, some unit =>
        if n < Word.size64 ∧ n * unit < Word.size64 ∧ total + n * unit < Word.size64 then
          sumItems none (total + n * unit) cs
        else none
      | _, _ => none

/-- Reads a duration expression: items such as `90s` or `2h30m` between optional blanks, with a
positive sum. -/
def ofExpression? (s : String) : Option Duration :=
  match sumItems none 0 (Text.stripChars s.toList) with
  | some total => if total = 0 then none else some (ofSeconds total)
  | none => none

end Duration

end SliceScheduler
