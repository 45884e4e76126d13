/-!
# Decimal numbers

Whole numbers as decimal text: reading them within the range of a machine word, and writing them
padded to a width. Only the ten ASCII digits are digits.
-/
namespace SliceScheduler.Text

/-- The value of a digit. -/
def digitValue (c : Char) : Nat :=
  c.toNat - '0'.toNat

/-- The number that a run of digits stands for, the most significant digit first. -/
def digitsValue (cs : List Char) : Nat :=
  cs.foldl (fun n c => 10 * n + digitValue c) 0

/-- A non-empty run of digits and nothing else. -/
def natural? (cs : List Char) : Option Nat :=
  if cs ≠ [] ∧ cs.all Char.isDigit then some (digitsValue cs) else none

/-- A whole number with an optional sign. -/
def integer? : List Char → Option Int
  | '-' :: cs => (natural? cs).map fun n => -(n : Int)
  | '+' :: cs => (natural? cs).map fun n => (n : Int)
  | cs => (natural? cs).map fun n => (n : Int)

/-- The least number of a signed 64-bit word. -/
def minInt64 : Int := -9223372036854775808

/-- The greatest number of a signed 64-bit word. -/
def maxInt64 : Int := 9223372036854775807

/-- A whole number with an optional sign that fits a signed 64-bit word. -/
def int64? (cs : List Char) : Option Int := do
  let n ← integer? cs
  if minInt64 ≤ n ∧ n ≤ maxInt64 then some n else none

/-- The digits of `n`. -/
def naturalChars (n : Nat) : List Char :=
  Nat.toDigits 10 n

/-- The digits of `n`, with zeros in front up to `width` characters. -/
def padded (width n : Nat) : List Char :=
  List.replicate (width - (naturalChars n).length) '0' ++ naturalChars n

/-- A sign for negative numbers, then the digits. -/
def integerChars (n : Int) : List Char :=
  if n < 0 then '-' :: naturalChars n.natAbs else naturalChars n.natAbs

/-- A whole number as text. -/
def integerText (n : Int) : String :=
  String.ofList (integerChars n)

/-- A natural number as text. -/
def naturalText (n : Nat) : String :=
  String.ofList (naturalChars n)

end SliceScheduler.Text
