import SliceScheduler.Text.Decimal
import SliceScheduler.Text.Radix
import SliceScheduler.Text.Real
import SliceScheduler.Text.Word
import SliceScheduler.Yaml.Tree
/-!
# What YAML scalars mean

1. `isNullText`, `boolOfText?`, `naturalOfText?` and `isFloatText` tell which plain texts stand for
   something other than themselves;
2. `Meaning.ofScalar?` is what a scalar stands for where nothing is known of its type.

A whole number may be written in base two, eight or sixteen. Digits behind a zero are no number.
-/
namespace SliceScheduler.Yaml

/-- The texts of nothing. -/
def isNullText (s : String) : Bool := ["null", "Null", "NULL", "~"].contains s

/-- The texts of truth values. -/
def boolOfText? (s : String) : Option Bool :=
  if ["true", "True", "TRUE"].contains s then some true
  else if ["false", "False", "FALSE"].contains s then some false
  else none

/-- The characters without a plus sign in front. -/
def dropPlus : List Char → List Char
  | '+' :: cs => cs
  | cs => cs

/-- The characters start with a sign. -/
def isSigned (cs : List Char) : Bool := cs.head?.any fun c => c == '+' || c == '-'

/-- Digits behind a zero, with a sign or without. -/
def isPaddedText (cs : List Char) : Bool :=
  let cs := if isSigned cs then cs.tail else cs
  1 < cs.length && cs.head? == some '0' && cs.all Char.isDigit

/-- A number in the base that is written in front of it. -/
def basedNumber? : List Char → Option Nat
  | '0' :: 'x' :: cs => Text.numberIn? 16 cs
  | '0' :: 'o' :: cs => Text.numberIn? 8 cs
  | '0' :: 'b' :: cs => Text.numberIn? 2 cs
  | _ => none

/-- The number of a text, which may have a plus sign. -/
def naturalOfText? (cs : List Char) : Option Nat :=
  let digits := dropPlus cs
  (basedNumber? digits).orElse fun _ => if isPaddedText cs then none else Text.natural? digits

/-- The number of a text behind a minus sign. -/
def negativeOfText? : List Char → Option Nat
  | '-' :: cs => (basedNumber? cs).orElse fun _ => if isPaddedText cs then none else Text.natural? cs
  | _ => none

/-- The digits after a point, if there is one. -/
def fractionDigits : List Char → List Char × List Char
  | '.' :: cs => cs.span Char.isDigit
  | cs => ([], cs)

/-- The exponent that a text is, which may be missing. -/
def exponent? : List Char → Option Int
  | [] => some 0
  | c :: cs => if c = 'e' ∨ c = 'E' then Text.integer? cs else none

/-- A decimal fraction in double precision. -/
def isDecimal (cs : List Char) : Bool :=
  let (whole, cs) := cs.span Char.isDigit
  let (fraction, cs) := fractionDigits cs
  if whole.isEmpty ∧ fraction.isEmpty then false
  else (exponent? cs).any fun e =>
    !Text.overflowsDouble (Text.digitsValue (whole ++ fraction)) (e - fraction.length)

/-- The texts of numbers that need not be whole. -/
def isFloatText (s : String) : Bool :=
  let cs := s.toList
  if cs.head? = some '+' ∧ isSigned cs.tail then false
  else
    let digits := if isSigned cs then cs.tail else cs
    [".inf", ".Inf", ".INF"].contains (String.ofList digits) || [".nan", ".NaN", ".NAN"].contains s ||
      isDecimal digits

/-- What a scalar stands for. -/
inductive Meaning where
  | null
  | bool (b : Bool)
  /-- A whole number without a minus sign, of 64 bits. -/
  | natural (n : Nat)
  /-- A whole number with a minus sign, of 64 bits. -/
  | negative (n : Nat)
  | float
  | text (s : String)
deriving DecidableEq, Repr

namespace Meaning

/-- The whole number of a text. One that is wider than 64 bits but not than 128 is refused, which is
told beside the number. -/
def ofIntText (s : String) : Option Meaning × Bool :=
  match naturalOfText? s.toList, negativeOfText? s.toList with
  | some n, _ =>
    if n < Word.size64 then (some (natural n), false) else (none, n < Word.size128)
  | none, some n =>
    if n ≤ Word.size63 then (some (negative n), false) else (none, n ≤ Word.size127)
  | none, none => (none, false)

/-- What a plain text stands for. -/
def ofPlain? (s : String) : Option Meaning :=
  if s.isEmpty || isNullText s then some null
  else
    match boolOfText? s, ofIntText s with
    | some b, _ => some (bool b)
    | none, (some m, _) => some m
    | none, (none, true) => none
    | none, (none, false) =>
      if !isPaddedText s.toList && isFloatText s then some float else some (text s)

/-- What a scalar stands for. A text has to fit its tag, and a type of the application has no
meaning; if its name is no text, it is as if it were not there. -/
def ofScalar? (tag : Option Tag) (style : Style) (s : String) : Option Meaning :=
  match tag with
  | none | some .illegible => if style = .plain then ofPlain? s else some (text s)
  | some .null => if isNullText s then some null else none
  | some .bool => (boolOfText? s).map bool
  | some .int => (ofIntText s).1
  | some .float => if isFloatText s then some float else none
  | some (.named _) => none
  | some .other => some (text s)

end Meaning

end SliceScheduler.Yaml
