/-!
# The calendar

Days since 1970-01-01 and dates of the Gregorian calendar, carried on before its introduction and
with a year zero. A date is held by the day that it denotes: `Date.toDay?` accepts exactly the
dates that `Date.ofDay` produces.
-/
namespace SliceScheduler

/-- A year, a month from 1 and a day of the month from 1. -/
structure Date where
  year : Int
  month : Nat
  day : Nat
deriving DecidableEq, Repr

namespace Date

/-- Days in the 400 years after which the calendar repeats itself. -/
def daysPerEra : Int := 146097

/-- Days from 0000-03-01 to 1970-01-01. -/
def epochShift : Int := 719468

/-- The date of a day. Years are counted from March, so that a leap day ends its year: `era` and
`ofEra` place the day in the calendar's cycle, `yearOfEra` and `ofYear` in its year. -/
def ofDay (n : Int) : Date :=
  let z := n + epochShift
  let era := z / daysPerEra
  let ofEra := (z % daysPerEra).toNat
  let yearOfEra := (ofEra - ofEra / 1460 + ofEra / 36524 - ofEra / 146096) / 365
  let ofYear := ofEra - (365 * yearOfEra + yearOfEra / 4 - yearOfEra / 100)
  let marchMonth := (5 * ofYear + 2) / 153
  let day := ofYear - (153 * marchMonth + 2) / 5 + 1
  let month := if marchMonth < 10 then marchMonth + 3 else marchMonth - 9
  let year := yearOfEra + era * 400
  ⟨if month ≤ 2 then year + 1 else year, month, day⟩

/-- The day that a year, a month and a day of the month count up to, in the calendar or not. -/
def count (d : Date) : Int :=
  let year := if d.month ≤ 2 then d.year - 1 else d.year
  let era := year / 400
  let yearOfEra := (year % 400).toNat
  let marchMonth := if d.month ≤ 2 then d.month + 9 else d.month - 3
  let ofYear := (153 * marchMonth + 2) / 5 + d.day - 1
  let ofEra := yearOfEra * 365 + yearOfEra / 4 - yearOfEra / 100 + ofYear
  era * daysPerEra + ofEra - epochShift

/-- The day of a date that the calendar has. -/
def toDay? (d : Date) : Option Int :=
  if ofDay d.count = d then some d.count else none

end Date

end SliceScheduler
