import SliceScheduler.Text.Decimal
import SliceScheduler.Text.Word
/-!
# Decimal fractions

A decimal fraction is `mantissa * 10 ^ exponent`. Formats that keep such numbers in double precision
refuse one that turns out infinite.

1. `overflowsDouble` is exact: the number nearest to the fraction is infinite.
2. `scalesPastDouble` is what a format does that rounds twice: the digits and the power of ten are
   each rounded before they are multiplied.
3. `leadingWord` takes as many digits as fit a word of 64 bits, for formats that pass over the
   others.
-/
namespace SliceScheduler.Text

/-- The least number that double precision rounds to infinity: half a unit past the greatest finite
number. -/
def doubleLimit : Nat := Nat.pow 2 1024 - Nat.pow 2 970

/-- The fraction is too great for double precision. The number of digits settles all but the
fractions of nearly the size of the limit, which has 309 digits. -/
def overflowsDouble (mantissa : Nat) (exponent : Int) : Bool :=
  if mantissa = 0 then false
  else
    let magnitude : Int := (Nat.toDigits 10 mantissa).length + exponent
    if magnitude < 300 then false
    else if 320 < magnitude then true
    else if 0 ≤ exponent then doubleLimit ≤ mantissa * Nat.pow 10 exponent.toNat
    else doubleLimit * Nat.pow 10 (-exponent).toNat ≤ mantissa

/-- How many binary digits a number has in double precision. -/
def doubleDigits : Nat := 53

/-- The number nearest to `n` in double precision, and of two the one that is an even number of
units. -/
def nearestDouble (n : Nat) : Nat :=
  let unit := Nat.pow 2 (n.log2 + 1 - doubleDigits)
  let units := n / unit
  let rest := 2 * (n % unit)
  if unit < rest ∨ (rest = unit ∧ units % 2 = 1) then (units + 1) * unit else units * unit

/-- The greatest power of ten in double precision. -/
def greatestPower : Int := 308

/-- The product of the nearest numbers to `mantissa` and to `10 ^ exponent` is infinite. A power of
ten past the greatest one is infinite itself, and dividing by one makes nothing infinite. -/
def scalesPastDouble (mantissa : Nat) (exponent : Int) : Bool :=
  if mantissa = 0 ∨ exponent < 0 then false
  else if greatestPower < exponent then true
  else doubleLimit ≤ nearestDouble mantissa * nearestDouble (Nat.pow 10 exponent.toNat)

/-- Puts digits behind a number as long as it fits a word of 64 bits, and tells the digits that are
left. -/
def leadingWord : Nat → List Char → Nat × List Char
  | n, [] => (n, [])
  | n, c :: cs =>
    let more := 10 * n + digitValue c
    if more < Word.size64 then leadingWord more cs else (n, c :: cs)

end SliceScheduler.Text
