import SliceScheduler.Text.Radix
import SliceScheduler.Text.Word
/-!
# Job ids

A job is known by a number of 128 bits, written as thirty-two hexadecimal digits.

1. `JobId.text` writes the digits in five groups, in lower case;
2. `JobId.ofText?` reads the digits in one run or in their groups, the groups also in braces or
   after `urn:uuid:`, in either case.

The order of ids is the order of their texts.
-/
namespace SliceScheduler

/-- The id of a job. -/
structure JobId where
  value : Nat
  value_lt : value < Word.size128
deriving DecidableEq, Repr

namespace JobId

instance : Inhabited JobId := ⟨⟨0, by decide⟩⟩

instance : Ord JobId := ⟨compareOn JobId.value⟩

instance : Std.TransOrd JobId := inferInstanceAs (Std.TransCmp (compareOn JobId.value))

instance : Std.LawfulEqOrd JobId where
  eq_of_compare := by
    intro a b h
    have h' : compare a.value b.value = .eq := h
    cases a; cases b; simp_all

/-- A number that is in range. -/
def ofNat? (n : Nat) : Option JobId :=
  if h : n < Word.size128 then some ⟨n, h⟩ else none

/-- The `count` last hexadecimal digits of `n`, in lower case. -/
def hexDigits : Nat → Nat → List Char
  | 0, _ => []
  | count + 1, n => hexDigits count (n / 16) ++ [Nat.digitChar (n % 16)]

/-- The lengths of the groups of digits. -/
def groups : List Nat := [8, 4, 4, 4, 12]

/-- Cuts the digits into groups with a hyphen between them. -/
def hyphenate : List Nat → List Char → List Char
  | [], cs => cs
  | [n], cs => cs.take n
  | n :: ns, cs => cs.take n ++ '-' :: hyphenate ns (cs.drop n)

/-- The characters of an id. -/
def chars (id : JobId) : List Char := hyphenate groups (hexDigits 32 id.value)

/-- An id as text. -/
def text (id : JobId) : String := String.ofList id.chars

/-- Takes the hyphens out from between groups of the given lengths. -/
def unhyphenate? : List Nat → List Char → Option (List Char)
  | [], cs => some cs
  | [n], cs => if cs.length = n then some cs else none
  | n :: ns, cs =>
    match cs.drop n with
    | '-' :: rest => (unhyphenate? ns rest).map (cs.take n ++ ·)
    | _ => none

/-- The number that digits in groups stand for. -/
def ofGroups? (cs : List Char) : Option JobId := do
  ofNat? (← Text.numberIn? 16 (← unhyphenate? groups cs))

/-- Takes the braces off. -/
def unbrace? : List Char → Option (List Char)
  | '{' :: cs => if cs.getLast? = some '}' then some cs.dropLast else none
  | _ => none

/-- Takes `urn:uuid:` off the front, in either case. -/
def urnPath? (cs : List Char) : Option (List Char) :=
  if (cs.take 9).map Char.toLower = "urn:uuid:".toList then some (cs.drop 9) else none

/-- The id that a text stands for. -/
def ofText? (s : String) : Option JobId :=
  let cs := s.toList
  if cs.length = 32 then Text.numberIn? 16 cs >>= ofNat?
  else if cs.length = 36 then ofGroups? cs
  else if cs.length = 38 then unbrace? cs >>= ofGroups?
  else if cs.length = 45 then urnPath? cs >>= ofGroups?
  else none

end JobId

end SliceScheduler
