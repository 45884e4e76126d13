import SliceScheduler.Text.Radix
import SliceScheduler.Text.Reader
import SliceScheduler.Text.Word
/-!
# Addresses of the management interface

1. `Host.ofText?` reads a host: four numbers with points between them, or eight groups of hexadecimal
   digits with colons between them, in brackets and perhaps with a scope. Two colons stand for groups
   of zeros, and the last two groups may be written as four numbers;
2. `Host.text` writes a host in its shortest form.
-/
namespace SliceScheduler

/-- A host on the network. -/
inductive Host where
  /-- Four bytes. -/
  | short (bytes : List Nat)
  /-- Eight groups of 16 bits, and a scope, which may be zero. -/
  | long (groups : List Nat) (scope : Nat)
deriving DecidableEq, Repr

namespace Host

open Text

/-- Reads a value, or nothing at all. -/
def maybe {α : Type} (r : Reader α) : Reader (Option α) := fun cs =>
  match r cs with
  | some (a, rest) => some (some a, rest)
  | none => some (none, cs)

/-- Reads a colon, except in front of the first group. -/
def colonUnless (first : Bool) : Reader Unit := if first then pure () else Reader.char ':'

/-- Reads a byte, without zeros in front. -/
def byte : Reader Nat := fun cs =>
  let (digits, rest) := cs.span Char.isDigit
  let n := digitsValue digits
  if digits.isEmpty ∨ 3 < digits.length ∨ 255 < n then none
  else if 1 < digits.length ∧ digits.head? = some '0' then none
  else some (n, rest)

/-- Reads four bytes. -/
def bytes : Reader (List Nat) := do
  let a ← byte
  Reader.char '.'
  let b ← byte
  Reader.char '.'
  let c ← byte
  Reader.char '.'
  return [a, b, c, ← byte]

/-- Reads a group of at most four hexadecimal digits. -/
def group : Reader Nat := fun cs =>
  let (digits, rest) := cs.span fun c => (hexValue? c).isSome
  if 4 < digits.length then none else (numberIn? 16 digits).map fun n => (n, rest)

/-- The two groups of four bytes. -/
def groupsOfBytes : List Nat → List Nat
  | [a, b, c, d] => [256 * a + b, 256 * c + d]
  | _ => []

/-- Reads groups, at most `limit`, and tells whether the last two were written as four bytes. -/
def groups : (limit : Nat) → (first : Bool) → Reader (List Nat × Bool)
  | 0, _ => return ([], false)
  | limit + 1, first => do
    if limit ≠ 0 then
      if let some found ← maybe (do colonUnless first; bytes) then
        return (groupsOfBytes found, true)
    match ← maybe (do colonUnless first; group) with
    | none => return ([], false)
    | some g =>
      let (rest, embedded) ← groups limit false
      return (g :: rest, embedded)

/-- Reads eight groups. Two colons stand for one zero group at least, and no four bytes stand in front
of them. -/
def allGroups : Reader (List Nat) := do
  let (front, embedded) ← groups 8 true
  if front.length = 8 then return front
  if embedded then Reader.refuse
  Reader.char ':'
  Reader.char ':'
  let (back, _) ← groups (7 - front.length) true
  return front ++ List.replicate (8 - front.length - back.length) 0 ++ back

/-- Reads a scope of 32 bits. -/
def scope : Reader Nat := do
  Reader.char '%'
  let n ← Reader.longNumber
  if n < Word.size32 then return n else Reader.refuse

/-- Reads a host. -/
def reader : Reader Host := do
  match ← maybe bytes with
  | some found => return short found
  | none =>
    Reader.char '['
    let found ← allGroups
    let scope := (← maybe scope).getD 0
    Reader.char ']'
    return long found scope

/-- The host of a text. -/
def ofText? (s : String) : Option Host := reader.run? s.toList

/-! ## Writing -/

/-- Texts with a separator between them. -/
def joined (separator : String) (parts : List String) : String := separator.intercalate parts

/-- Four bytes as text. -/
def bytesText (found : List Nat) : String := joined "." (found.map naturalText)

/-- Groups as text. -/
def groupsText (found : List Nat) : String :=
  joined ":" (found.map fun g => String.ofList (Nat.toDigits 16 g))

/-- The longest run of zeros, the first of them if there are several: where it starts and how long it
is. `here` is how many zeros there are in front of the rest, which starts at `i`. -/
def longestZeros (best : Nat × Nat) (here i : Nat) : List Nat → Nat × Nat
  | [] => best
  | g :: rest =>
    if g = 0 then
      let here := here + 1
      longestZeros (if best.2 < here then (i + 1 - here, here) else best) here (i + 1) rest
    else longestZeros best 0 (i + 1) rest

/-- Eight groups in their shortest form. A run of two zeros or more is left out. -/
def longText (found : List Nat) : String :=
  match found with
  | [0, 0, 0, 0, 0, 0xffff, g, h] =>
    "::ffff:" ++ bytesText [g / 256, g % 256, h / 256, h % 256]
  | _ =>
    let (start, length) := longestZeros (0, 0) 0 0 found
    if 1 < length then
      groupsText (found.take start) ++ "::" ++ groupsText (found.drop (start + length))
    else groupsText found

/-- A host as text. -/
def text : Host → String
  | short found => bytesText found
  | long found scope =>
    "[" ++ longText found ++ (if scope = 0 then "" else "%" ++ naturalText scope) ++ "]"

end Host

end SliceScheduler
