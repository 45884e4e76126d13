import SliceScheduler.Text.Blank
import SliceScheduler.Text.Decimal
/-!
# Reading from the front of a text

A reader takes what it reads off the front of the characters, or fails. The readers here are the
pieces of the time stamp and duration formats: a given character, a bounded run of digits, blanks.
-/
namespace SliceScheduler.Text

/-- Reads a value off the front of the characters, or fails. -/
abbrev Reader := StateT (List Char) Option

namespace Reader

/-- Fails whatever comes. -/
def refuse {α : Type} : Reader α := fun _ => none

/-- The characters that are left, which stay. -/
def rest : Reader (List Char) := fun cs => some (cs, cs)

/-- Reads one character that satisfies `p`. -/
def satisfy (p : Char → Bool) : Reader Char
  | c :: cs => if p c then some (c, cs) else none
  | [] => none

/-- Reads the character `c`. -/
def char (c : Char) : Reader Unit
  | d :: cs => if d = c then some ((), cs) else none
  | [] => none

/-- Passes over blanks. -/
def blanks : Reader Unit := fun cs => some ((), dropBlanks cs)

/-- The first characters that satisfy `p`, at most `limit` of them, and what follows them. -/
def spanUpTo (p : Char → Bool) : Nat → List Char → List Char × List Char
  | 0, cs => ([], cs)
  | _ + 1, [] => ([], [])
  | limit + 1, c :: cs =>
    if p c then
      let (taken, left) := spanUpTo p limit cs
      (c :: taken, left)
    else ([], c :: cs)

/-- Reads digits, at least one and at most `limit`. -/
def digits (limit : Nat) : Reader (List Char) := fun cs =>
  match spanUpTo Char.isDigit limit cs with
  | ([], _) => none
  | taken => some taken

/-- Reads a number of at most `limit` digits. -/
def number (limit : Nat) : Reader Nat := do
  return digitsValue (← digits limit)

/-- Reads a number of any length. -/
def longNumber : Reader Nat := fun cs =>
  match cs.span Char.isDigit with
  | ([], _) => none
  | (taken, left) => some (digitsValue taken, left)

/-- The value that a reader makes of a whole text. -/
def run? {α : Type} (r : Reader α) (cs : List Char) : Option α :=
  match r cs with
  | some (a, []) => some a
  | _ => none

end Reader

end SliceScheduler.Text
