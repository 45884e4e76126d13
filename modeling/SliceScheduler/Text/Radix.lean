/-!
# Numbers in other bases

Digits and whole numbers in a base of at most sixteen. The digits past nine are the letters from `a`
to `f` in either case.
-/
namespace SliceScheduler.Text

/-- The value of a hexadecimal digit. -/
def hexValue? (c : Char) : Option Nat :=
  if c.isDigit then some (c.toNat - '0'.toNat)
  else if 'a' ≤ c ∧ c ≤ 'f' then some (c.toNat - 'a'.toNat + 10)
  else if 'A' ≤ c ∧ c ≤ 'F' then some (c.toNat - 'A'.toNat + 10)
  else none

/-- The value of a digit in a base. -/
def digitIn? (base : Nat) (c : Char) : Option Nat :=
  (hexValue? c).filter (· < base)

/-- Puts a run of digits behind a number. -/
def appendDigits? (base : Nat) (n : Nat) (cs : List Char) : Option Nat :=
  cs.foldlM (fun n c => (digitIn? base c).map (base * n + ·)) n

/-- The number of a non-empty run of digits. -/
def numberIn? (base : Nat) (cs : List Char) : Option Nat :=
  if cs.isEmpty then none else appendDigits? base 0 cs

end SliceScheduler.Text
