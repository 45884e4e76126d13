import SliceScheduler.Json.Basic
import SliceScheduler.Text.Radix
import SliceScheduler.Text.Real
import SliceScheduler.Text.Word
/-!
# Reading JSON

1. `Json.read` reads a text as far as it is JSON, with `Json.broken` at the place where it stops
   being so, and says whether the text ends with the value.
2. `Json.readRecord` does so for a record, of which the members that are no fields are passed over.
3. `Json.ofText?` and `Json.recordOfText?` read a text that is one value from end to end.

Values nest at most 127 deep. A whole number that fits neither a signed nor an unsigned 64-bit word
is a number like any with a fraction, and so is minus zero. A number that is infinite in double
precision is refused, and so is half of a pair of surrogates. What is passed over only has to follow
the grammar: it may nest deeper, its numbers may be of any size, and its texts may have halves of
pairs.
-/
namespace SliceScheduler.Json

/-- A value and the text after it, or no text where it broke off. -/
abbrev Reading (α : Type) := α × Option (List Char)

/-- The characters between the tokens. -/
def isSpace (c : Char) : Bool := c == ' ' || c == '\n' || c == '\t' || c == '\r'

/-- The text from its first token. -/
def skip (cs : List Char) : List Char := cs.dropWhile isSpace

/-- The number of four hexadecimal digits. -/
def hexWord? (a b c d : Char) : Option Nat := Text.numberIn? 16 [a, b, c, d]

/-- The character that a letter after a backslash stands for. -/
def unescape? : Char → Option Char
  | '"' => some '"'
  | '\\' => some '\\'
  | '/' => some '/'
  | 'b' => some (Char.ofNat 8)
  | 'f' => some (Char.ofNat 12)
  | 'n' => some '\n'
  | 'r' => some '\r'
  | 't' => some '\t'
  | _ => none

/-- Reads a quoted text from after its opening quote. A character outside the basic plane is
escaped as its two surrogates; a surrogate on its own is refused. -/
def readQuoted : List Char → Option (List Char × List Char)
  | '"' :: cs => some ([], cs)
  | '\\' :: 'u' :: a :: b :: c :: d :: cs => do
    let n ← hexWord? a b c d
    if 0xD800 ≤ n ∧ n < 0xDC00 then
      match cs with
      | '\\' :: 'u' :: e :: f :: g :: h :: cs =>
        let m ← hexWord? e f g h
        if 0xDC00 ≤ m ∧ m < 0xE000 then
          let (s, rest) ← readQuoted cs
          return (Char.ofNat (0x10000 + (n - 0xD800) * 0x400 + (m - 0xDC00)) :: s, rest)
        else none
      | _ => none
    else if 0xDC00 ≤ n ∧ n < 0xE000 then none
    else
      let (s, rest) ← readQuoted cs
      return (Char.ofNat n :: s, rest)
  | '\\' :: c :: cs => do
    let d ← unescape? c
    let (s, rest) ← readQuoted cs
    return (d :: s, rest)
  | c :: cs => do
    if c.toNat < 32 then none
    let (s, rest) ← readQuoted cs
    return (c :: s, rest)
  | [] => none

/-- Passes over a quoted text from after its opening quote. What it would mean is not asked: any
number of a character will do, also half of a pair. -/
def passQuoted : List Char → Option (List Char)
  | '"' :: cs => some cs
  | '\\' :: 'u' :: a :: b :: c :: d :: cs => do
    let _ ← hexWord? a b c d
    passQuoted cs
  | '\\' :: c :: cs => do
    let _ ← unescape? c
    passQuoted cs
  | c :: cs => if c.toNat < 32 then none else passQuoted cs
  | [] => none

/-! ## Numbers -/

/-- A number as it is written. -/
structure Numeral where
  negative : Bool
  whole : List Char
  /-- The digits after the point, if there is one. -/
  fraction : Option (List Char)
  /-- The power of ten, if there is one. -/
  exponent : Option Int

/-- Reads a point and the digits after it, if there is a point. -/
def readFraction : List Char → Option (Option (List Char) × List Char)
  | '.' :: cs =>
    match cs.span Char.isDigit with
    | ([], _) => none
    | (ds, cs) => some (some ds, cs)
  | cs => some (none, cs)

/-- Reads a power of ten, if there is one. -/
def readExponent : List Char → Option (Option Int × List Char)
  | 'e' :: cs | 'E' :: cs =>
    let (negative, cs) := match cs with
      | '+' :: cs => (false, cs)
      | '-' :: cs => (true, cs)
      | cs => (false, cs)
    match cs.span Char.isDigit with
    | ([], _) => none
    | (ds, cs) =>
      let n : Int := Text.digitsValue ds
      some (some (if negative then -n else n), cs)
  | cs => some (none, cs)

/-- Reads a number as it is written. Its whole part does not start with a zero that another digit
follows. -/
def readNumeral (cs : List Char) : Option (Numeral × List Char) := do
  let (negative, cs) := match cs with
    | '-' :: cs => (true, cs)
    | cs => (false, cs)
  let (whole, cs) := cs.span Char.isDigit
  if whole = [] ∨ (1 < whole.length ∧ whole.head? = some '0') then none
  let (fraction, cs) ← readFraction cs
  let (exponent, cs) ← readExponent cs
  return (⟨negative, whole, fraction, exponent⟩, cs)

namespace Numeral

/-- The whole number that is written, if it is one and fits a word. -/
def word? (n : Numeral) : Option Int :=
  if n.fraction.isSome ∨ n.exponent.isSome then none
  else
    let value := Text.digitsValue n.whole
    if n.negative then if 0 < value ∧ value ≤ Word.size63 then some (-value) else none
    else if value < Word.size64 then some value else none

/-- The number is infinite in double precision. It is taken from as many digits as fit a word of 64
bits; a digit of the whole part that is left out scales it up. -/
def isInfinite (n : Numeral) : Bool :=
  let (mantissa, wholeLeft) := Text.leadingWord 0 n.whole
  let fraction := n.fraction.getD []
  let (mantissa, fractionLeft) := Text.leadingWord mantissa fraction
  let places : Int := fraction.length - fractionLeft.length
  Text.scalesPastDouble mantissa (wholeLeft.length - places + n.exponent.getD 0)

/-- The value of a number, which is not infinite. -/
def value? (n : Numeral) : Option Json :=
  match n.word? with
  | some i => some (int i)
  | none => if n.isInfinite then none else some real

end Numeral

/-- Reads a number. -/
def readNumber (cs : List Char) : Option (Json × List Char) := do
  let (n, rest) ← readNumeral cs
  return (← n.value?, rest)

/-! ## Values that are passed over -/

/-- A bracket that is open. -/
inductive Bracket where
  | square
  | curly

/-- What comes next while values are passed over. -/
inductive Awaited where
  | value
  | name
  /-- The end of a value: a comma, a closing bracket, or nothing outside of all brackets. -/
  | done

/-- Passes over the rest of a value inside the given open brackets, the innermost first. Values that
are passed over may nest to any depth. -/
def passFrom : Nat → Awaited → List Bracket → List Char → Option (List Char)
  | 0, _, _, _ => none
  | _ + 1, .done, [], cs => some cs
  | fuel + 1, .done, b :: open_, cs =>
    match b, skip cs with
    | .square, ',' :: rest => passFrom fuel .value (b :: open_) rest
    | .square, ']' :: rest => passFrom fuel .done open_ rest
    | .curly, ',' :: rest => passFrom fuel .name (b :: open_) rest
    | .curly, '}' :: rest => passFrom fuel .done open_ rest
    | _, _ => none
  | fuel + 1, .name, open_, cs =>
    match skip cs with
    | '"' :: rest => do
      match skip (← passQuoted rest) with
      | ':' :: rest => passFrom fuel .value open_ rest
      | _ => none
    | _ => none
  | fuel + 1, .value, open_, cs =>
    match skip cs with
    | 'n' :: 'u' :: 'l' :: 'l' :: rest => passFrom fuel .done open_ rest
    | 't' :: 'r' :: 'u' :: 'e' :: rest => passFrom fuel .done open_ rest
    | 'f' :: 'a' :: 'l' :: 's' :: 'e' :: rest => passFrom fuel .done open_ rest
    | '"' :: rest => do passFrom fuel .done open_ (← passQuoted rest)
    | '[' :: rest =>
      match skip rest with
      | ']' :: rest => passFrom fuel .done open_ rest
      | rest => passFrom fuel .value (.square :: open_) rest
    | '{' :: rest =>
      match skip rest with
      | '}' :: rest => passFrom fuel .done open_ rest
      | rest => passFrom fuel .name (.curly :: open_) rest
    | rest => do passFrom fuel .done open_ (← readNumeral rest).2

/-- Passes over a value, of which nothing is kept. -/
def passValue (cs : List Char) : Option (Json × List Char) := do
  return (null, ← passFrom (2 * cs.length + 2) .value [] cs)

/-! ## Values -/

/-- The reading of a value that may have broken off at once. -/
def orBroken : Option (Json × List Char) → Reading Json
  | some (v, rest) => (v, some rest)
  | none => (broken, none)

/-- No member is passed over. -/
def keepAll (_ : String) : Bool := false

mutual

/-- Reads a value. `depth` bounds the nesting and `fuel` the length of the text. If it is an object,
its members with names for which `passed` holds are passed over. -/
def readValue (passed : String → Bool) (fuel depth : Nat) (cs : List Char) : Reading Json :=
  match fuel with
  | 0 => (broken, none)
  | fuel + 1 =>
    match skip cs with
    | 'n' :: 'u' :: 'l' :: 'l' :: rest => (null, some rest)
    | 't' :: 'r' :: 'u' :: 'e' :: rest => (bool true, some rest)
    | 'f' :: 'a' :: 'l' :: 's' :: 'e' :: rest => (bool false, some rest)
    | '"' :: rest => orBroken ((readQuoted rest).map fun (s, rest) => (str (String.ofList s), rest))
    | '[' :: rest =>
      if depth = 0 then (broken, none)
      else
        match skip rest with
        | ']' :: rest => (arr [], some rest)
        | rest =>
          let (items, rest) := readItems fuel (depth - 1) rest
          (arr items, rest)
    | '{' :: rest =>
      if depth = 0 then (broken, none)
      else
        match skip rest with
        | '}' :: rest => (obj [], some rest)
        | rest =>
          let (members, rest) := readMembers passed fuel (depth - 1) rest
          (obj members, rest)
    | rest => orBroken (readNumber rest)

/-- Reads the items of an array, at least one, to its closing bracket. -/
def readItems (fuel depth : Nat) (cs : List Char) : Reading (List Json) :=
  match fuel with
  | 0 => ([broken], none)
  | fuel + 1 =>
    match readValue keepAll fuel depth cs with
    | (v, none) => ([v], none)
    | (v, some rest) =>
      match skip rest with
      | ']' :: rest => ([v], some rest)
      | ',' :: rest =>
        let (vs, rest) := readItems fuel depth rest
        (v :: vs, rest)
      | _ => ([v, broken], none)

/-- Reads the members of an object, at least one, to its closing brace. A member that is passed over
has null for its value. -/
def readMembers (passed : String → Bool) (fuel depth : Nat) (cs : List Char) :
    Reading (List (String × Json)) :=
  match fuel with
  | 0 => ([("", broken)], none)
  | fuel + 1 =>
    match skip cs with
    | '"' :: rest =>
      match readQuoted rest with
      | none => ([("", broken)], none)
      | some (k, rest) =>
        let name := String.ofList k
        match skip rest with
        | ':' :: rest =>
          match if passed name then orBroken (passValue rest) else readValue keepAll fuel depth rest with
          | (v, none) => ([(name, v)], none)
          | (v, some rest) =>
            match skip rest with
            | '}' :: rest => ([(name, v)], some rest)
            | ',' :: rest =>
              let (members, rest) := readMembers passed fuel depth rest
              ((name, v) :: members, rest)
            | _ => ([(name, v), ("", broken)], none)
        | _ => ([(name, broken)], none)
    | _ => ([("", broken)], none)

end

/-- How deep values nest. -/
def deepest : Nat := 127

/-- The value at the front of a text as far as it is JSON, without the members that are passed over,
and whether only blanks follow it. -/
def readPassing (passed : String → Bool) (s : String) : Json × Bool :=
  let cs := s.toList
  match readValue passed (2 * cs.length + 2) deepest cs with
  | (v, some rest) => (v, skip rest == [])
  | (v, none) => (v, false)

/-- The value at the front of a text as far as it is JSON, and whether only blanks follow it. -/
def read (s : String) : Json × Bool := readPassing keepAll s

/-- The record at the front of a text as far as it is JSON, and whether only blanks follow it. The
members that are none of its fields are passed over. -/
def readRecord (names : List String) (s : String) : Json × Bool :=
  readPassing (fun name => !names.contains name) s

/-- The value that a text is from end to end, as it was read. -/
def whole? : Json × Bool → Option Json
  | (v, true) => if v.isWhole then some v else none
  | (_, false) => none

/-- The value that a text is from end to end. -/
def ofText? (s : String) : Option Json := whole? (read s)

/-- The record that a text is from end to end. -/
def recordOfText? (names : List String) (s : String) : Option Json := whole? (readRecord names s)

end SliceScheduler.Json
