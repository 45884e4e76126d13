import SliceScheduler.Time.Duration
/-!
# Instants

An instant of universal time with nanosecond precision: a whole second since 1970-01-01T00:00:00Z
and the nanoseconds into it. The last second of a minute may last two seconds, for a leap second:
its nanoseconds then go on past one thousand million. The range is that of the calendar years
-262143 to 262142.

1. `Instant.millis` and `Instant.ofMillis?` convert to and from whole milliseconds;
2. `Instant.add?` adds a length of time, `Instant.later` stops at the end of the range;
3. `Instant.millisSince` measures the time between two instants.
-/
namespace SliceScheduler

/-- The first second in range, -262143-01-01T00:00:00Z. -/
abbrev minSecond : Int := -8334601228800

/-- The last second in range, +262142-12-31T23:59:59Z. -/
abbrev maxSecond : Int := 8210266876799

/-- An instant of universal time. -/
structure Instant where
  second : Int
  nano : Nat
  second_ge : minSecond ≤ second
  second_le : second ≤ maxSecond
  nano_lt : nano < 2 * nanosPerSecond
  leap_ends_minute : nanosPerSecond ≤ nano → second % 60 = 59
deriving DecidableEq, Repr

namespace Instant

-- one instance, whether or not a linear order of instants is in scope
instance : LawfulBEq Instant := inferInstance

/-- The nanoseconds at the beginning of a second are in range. -/
theorem zero_nano_lt : 0 < 2 * nanosPerSecond := by decide

/-- The instant `nano` nanoseconds into a second, if there is one. -/
def ofParts? (second : Int) (nano : Nat) : Option Instant :=
  if h : minSecond ≤ second ∧ second ≤ maxSecond ∧ nano < 2 * nanosPerSecond ∧
      (nanosPerSecond ≤ nano → second % 60 = 59) then
    some ⟨second, nano, h.1, h.2.1, h.2.2.1, h.2.2.2⟩
  else none

/-- The first instant. -/
def earliest : Instant :=
  ⟨minSecond, 0, by decide, by decide, by decide, by decide⟩

/-- The last instant outside a leap second. -/
def latest : Instant :=
  ⟨maxSecond, nanosPerSecond - 1, by decide, by decide, by decide, by decide⟩

instance : Inhabited Instant := ⟨earliest⟩

/-- The instant lies in a leap second. -/
def IsLeap (t : Instant) : Prop := nanosPerSecond ≤ t.nano

instance (t : Instant) : Decidable t.IsLeap := inferInstanceAs (Decidable (_ ≤ _))

/-! ## Order -/

instance : Ord Instant := ⟨compareLex (compareOn Instant.second) (compareOn Instant.nano)⟩

instance : LT Instant := ⟨fun a b => compare a b = .lt⟩
instance : LE Instant := ⟨fun a b => compare a b ≠ .gt⟩
instance (a b : Instant) : Decidable (a < b) := inferInstanceAs (Decidable (_ = _))
instance (a b : Instant) : Decidable (a ≤ b) := inferInstanceAs (Decidable (_ ≠ _))

instance : Std.TransOrd Instant :=
  inferInstanceAs (Std.TransCmp (compareLex (compareOn Instant.second) (compareOn Instant.nano)))

instance : Std.LawfulEqOrd Instant where
  eq_of_compare := by
    intro a b h
    have h' : (compare a.second b.second).then (compare a.nano b.nano) = .eq := h
    rw [Ordering.then_eq_eq, Std.LawfulEqOrd.compare_eq_iff_eq,
      Std.LawfulEqOrd.compare_eq_iff_eq] at h'
    cases a; cases b; simp_all

theorem compare_eq (a b : Instant) :
    compare a b = (compare a.second b.second).then (compare a.nano b.nano) := rfl

/-! ## Milliseconds -/

/-- Whole milliseconds since 1970, those of a leap second going on into the next minute. -/
def millis (t : Instant) : Int := t.second * 1000 + (t.nano / nanosPerMilli : Nat)

/-- The instant of a number of milliseconds. -/
def ofMillis? (ms : Int) : Option Instant :=
  ofParts? (ms / 1000) ((ms % 1000).toNat * nanosPerMilli)

/-! ## Adding lengths of time -/

/-- The longest step between instants: the greatest signed 64-bit number of milliseconds. -/
abbrev maxStepNanos : Nat := 9223372036854775807 * nanosPerMilli

/-- A length of time as a step between instants, at most the longest step. -/
def stepNanos (d : Duration) : Nat := min d.nanos maxStepNanos

/-- The instant `n` nanoseconds after a place in a second, which may lie outside the second. -/
def ofOffset? (second : Int) (nano : Int) : Option Instant :=
  ofParts? (second + nano / nanosPerSecond) (nano % nanosPerSecond).toNat

/-- The instant `n` nanoseconds later, or earlier if `n` is negative. A step within a leap second
counts on in it. One that leaves it forward starts from the same place in the second before, and
one of a second or more backward from the same place in the second after. -/
def addNanos? (t : Instant) (n : Int) : Option Instant :=
  if nanosPerSecond ≤ t.nano then
    if 2 * nanosPerSecond ≤ t.nano + n then ofOffset? t.second (t.nano - nanosPerSecond + n)
    else if n ≤ -nanosPerSecond then ofOffset? (t.second + 1) (t.nano - nanosPerSecond + n)
    else ofParts? t.second (t.nano + n).toNat
  else ofOffset? t.second (t.nano + n)

/-- The instant a length of time later, if it is in range. -/
def add? (t : Instant) (d : Duration) : Option Instant :=
  t.addNanos? (stepNanos d)

/-- The instant a length of time later, or the last instant. -/
def later (t : Instant) (d : Duration) : Instant :=
  (t.add? d).getD latest

/-! ## Differences -/

/-- The second of the day, from 0 to 86399. -/
def secondOfDay (t : Instant) : Int := t.second % 86400

/-- Nanoseconds from `b` to `a`. A leap second counts when the other instant is at a later second
of the day than the instant in it. -/
def nanosSince (a b : Instant) : Int :=
  let leaps : Int :=
    if b.secondOfDay < a.secondOfDay then if b.IsLeap then 1 else 0
    else if a.secondOfDay < b.secondOfDay then if a.IsLeap then -1 else 0
    else 0
  (a.second - b.second + leaps) * nanosPerSecond + (a.nano - b.nano)

/-- Whole milliseconds from `b` to `a`, rounded toward zero. -/
def millisSince (a b : Instant) : Int :=
  (a.nanosSince b).tdiv nanosPerMilli

end Instant

end SliceScheduler
