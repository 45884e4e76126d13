import SliceScheduler.Text.Radix
import SliceScheduler.Yaml.Cursor
import SliceScheduler.Yaml.Token
/-!
# Scalars of YAML texts

1. `Gap` is the space between two words of a scalar: blanks, or line breaks that fold;
2. `Scan.quoted` reads a scalar in single or double quotes;
3. `Scan.plain` reads a scalar without quotes, which ends at an indicator, at less indentation or at
   a comment;
4. `Scan.block` reads a scalar of whole lines, kept as they are or folded.

Each loop takes at least one character a turn, so that the length of the text bounds it.
-/
namespace SliceScheduler.Yaml

/-! ## Folding -/

/-- The space between two words of a scalar that is not a block. -/
structure Gap where
  /-- Blanks of a line that goes on. -/
  blanks : List Char
  /-- The line has ended. -/
  broken : Bool
  firstBreak : List Char
  moreBreaks : List Char

namespace Gap

/-- No space. -/
def none : Gap := ⟨[], false, [], []⟩

/-- A line that ends without a break to fold. -/
def escaped : Gap := ⟨[], true, [], []⟩

/-- What line breaks fold to: one line feed to a space, and more of them to all but the first. -/
def fold (firstBreak moreBreaks : List Char) : List Char :=
  if firstBreak.head? = some '\n' then
    if moreBreaks.isEmpty then [' '] else moreBreaks
  else firstBreak ++ moreBreaks

/-- The text of a gap. -/
def text (g : Gap) : List Char :=
  if g.broken then fold g.firstBreak g.moreBreaks else g.blanks

/-- A gap with one more blank. Blanks at the start of a line do not count. -/
def addBlank (g : Gap) (c : Char) : Gap :=
  if g.broken then g else { g with blanks := g.blanks ++ [c] }

/-- A gap with one more line break. -/
def addBreak (g : Gap) (lineBreak : List Char) : Gap :=
  if g.broken then { g with moreBreaks := g.moreBreaks ++ lineBreak }
  else { g with blanks := [], broken := true, firstBreak := lineBreak }

end Gap

namespace Scan

/-- Reads on in a gap. A line is not indented to `indent` by tabs. -/
def gapFrom (indent : Nat) : Nat → Gap → Scan Gap
  | 0, g => return g
  | fuel + 1, g => do
    match ← peek with
    | none => return g
    | some c =>
      if isSpace c then
        require !(g.broken && (← column) < indent && c == '\t')
        skip 1
        gapFrom indent fuel (g.addBlank c)
      else if isBreak c then
        gapFrom indent fuel (g.addBreak (← lineBreak))
      else return g

/-- Reads a gap. -/
def gap (indent : Nat) (g : Gap) : Scan Gap := do gapFrom indent (← steps) g

/-! ## Quoted scalars -/

/-- The characters that a letter stands for behind a backslash. -/
def escape? : Char → Option Char
  | '0' => some '\x00'
  | 'a' => some '\x07'
  | 'b' => some '\x08'
  | 't' | '\t' => some '\t'
  | 'n' => some '\n'
  | 'v' => some '\x0B'
  | 'f' => some '\x0C'
  | 'r' => some '\r'
  | 'e' => some '\x1B'
  | ' ' => some ' '
  | '"' => some '"'
  | '/' => some '/'
  | '\\' => some '\\'
  | 'N' => some '\u0085'
  | '_' => some '\u00A0'
  | 'L' => some '\u2028'
  | 'P' => some '\u2029'
  | _ => none

/-- How many hexadecimal digits follow a letter behind a backslash. -/
def escapeDigits? : Char → Option Nat
  | 'x' => some 2
  | 'u' => some 4
  | 'U' => some 8
  | _ => none

/-- Reads the number of a character, which is not half of a pair. -/
def numberedChar (digits : Nat) : Scan Char := do
  let written := (← get).rest.take digits
  require (written.length == digits)
  match Text.numberIn? 16 written with
  | some n =>
    require (n < 0xD800 || (0xDFFF < n && n < 0x110000))
    skip digits
    return Char.ofNat n
  | none => refuse

/-- Reads what stands behind a backslash. -/
def escape : Scan Char := do
  let some c ← peek | refuse
  skip 1
  match escape? c, escapeDigits? c with
  | some d, _ => return d
  | none, some digits => numberedChar digits
  | none, none => refuse

/-- Reads a run of words of a quoted scalar, up to a gap or the closing quote. A backslash at the end
of a line joins it to the next, which is told beside the text. -/
def quotedRun (quote : Char) : Nat → List Char → Scan (List Char × Bool)
  | 0, text => return (text, false)
  | fuel + 1, text => do
    let next ← peekAt 1
    match ← peek with
    | none => return (text, false)
    | some c =>
      if isGap c then return (text, false)
      else if quote == '\'' && c == '\'' && next == some '\'' then
        skip 2
        quotedRun quote fuel ('\'' :: text)
      else if c == quote then return (text, false)
      else if quote == '"' && c == '\\' then
        skip 1
        if next.any isBreak then
          discard lineBreak
          return (text, true)
        quotedRun quote fuel ((← escape) :: text)
      else
        skip 1
        quotedRun quote fuel (c :: text)

/-- Reads on in a quoted scalar, up to the closing quote. The text is kept in reverse. -/
def quotedFrom (quote : Char) : Nat → List Char → Scan (List Char)
  | 0, _ => refuse
  | fuel + 1, text => do
    require (!(← atDocumentMark))
    let (text, escaped) ← quotedRun quote (← steps) text
    match ← peek with
    | none => refuse
    | some c =>
      if c == quote then
        skip 1
        return text
      let g ← gap 0 (if escaped then Gap.escaped else Gap.none)
      quotedFrom quote fuel (g.text.reverse ++ text)

/-- Reads a scalar in quotes. -/
def quoted (quote : Char) : Scan String := do
  char quote
  return String.ofList (← quotedFrom quote (← steps) []).reverse

/-! ## Plain scalars -/

/-- A plain scalar goes on with a character. In a flow collection it does not go on with a mark of
the collection, and fails at a colon before one. -/
def plainGoesOn (inFlow : Bool) (c : Char) (next : Option Char) : Scan Bool := do
  if inFlow && c == ':' then
    require !(next.any fun d => d == '?' || isFlowMark d)
  return !((c == ':' && endsWord next) || (inFlow && isFlowMark c))

/-- Reads a run of words of a plain scalar, up to a gap or to its end. The gap before the run is put
in front of it once the run has a character. -/
def plainRun (inFlow : Bool) : Nat → List Char → Gap → Scan (List Char × Gap)
  | 0, text, g => return (text, g)
  | fuel + 1, text, g => do
    let next ← peekAt 1
    match ← peek with
    | none => return (text, g)
    | some c =>
      if isGap c then return (text, g)
      if !(← plainGoesOn inFlow c next) then return (text, g)
      skip 1
      plainRun inFlow fuel (c :: (g.text.reverse ++ text)) .none

/-- Reads on in a plain scalar. Its lines are indented to `indent`, except in a flow collection. -/
def plainFrom (inFlow : Bool) (indent : Nat) : Nat → List Char → Gap → Scan (List Char × Gap)
  | 0, text, g => return (text, g)
  | fuel + 1, text, g => do
    if (← atDocumentMark) || (← peek) == some '#' then return (text, g)
    let (text, g) ← plainRun inFlow (← steps) text g
    if !(← peek).any isGap then return (text, g)
    let g ← gap indent g
    if !inFlow && (← column) < indent then return (text, g)
    plainFrom inFlow indent fuel text g

/-- Reads a plain scalar, and tells whether it ended after a line break. -/
def plain (inFlow : Bool) (indent : Nat) : Scan (String × Bool) := do
  let (text, g) ← plainFrom inFlow indent (← steps) [] .none
  return (String.ofList text.reverse, g.broken)

/-! ## Block scalars -/

/-- What happens to the line breaks at the end of a block scalar. -/
inductive Chomping where
  | strip
  | clip
  | keep
deriving DecidableEq, Repr

/-- The chomping of an indicator. -/
def chomping? : Option Char → Option Chomping
  | some '+' => some .keep
  | some '-' => some .strip
  | _ => none

/-- Reads an indicator of chomping, if there is one. -/
def chompingMark : Scan (Option Chomping) := do
  let found := chomping? (← peek)
  if found.isSome then skip 1
  return found

/-- Reads an indicator of indentation, if there is one. It is not zero. -/
def indentMark : Scan (Option Nat) := do
  match ← peek with
  | some c =>
    if !c.isDigit then return none
    require (c != '0')
    skip 1
    return some (c.toNat - '0'.toNat)
  | none => return none

/-- Reads the indicators of a block scalar in either order. -/
def blockHeader : Scan (Chomping × Option Nat) := do
  match ← chompingMark with
  | some c => return (c, ← indentMark)
  | none =>
    match ← indentMark with
    | none => return (.clip, none)
    | some n => return ((← chompingMark).getD .clip, some n)

/-- Reads line breaks up to a line that is not empty, and tells how deep spaces went. Only spaces
indent, up to `indent` if that is known. -/
def emptyLines (indent : Option Nat) : Nat → Nat → List Char → Scan (Nat × List Char)
  | 0, deepest, breaks => return (deepest, breaks)
  | fuel + 1, deepest, breaks => do
    let spaces := ((← get).rest.takeWhile (· == ' ')).length
    let start ← column
    skip (match indent with
      | some n => min spaces (n - start)
      | none => spaces)
    let here ← column
    require !(indent.all (here < ·) && (← peek) == some '\t')
    let deepest := max deepest here
    if (← peek).any isBreak then
      emptyLines indent fuel deepest (breaks ++ (← lineBreak))
    else return (deepest, breaks)

/-- What has been read of a block scalar, in reverse, and what comes between it and the next line. -/
structure Block where
  text : List Char
  firstBreak : List Char
  moreBreaks : List Char
  /-- The last line started with a blank. -/
  blank : Bool

/-- What joins the next line of a block scalar to the last. Breaks beside a line that starts with a
blank do not fold. -/
def Block.joint (b : Block) (literal blank : Bool) : List Char :=
  if !literal && b.firstBreak.head? == some '\n' && !b.blank && !blank then
    Gap.fold b.firstBreak b.moreBreaks
  else b.firstBreak ++ b.moreBreaks

/-- Reads the lines of a block scalar, which are indented to `indent`. -/
def blockLines (literal : Bool) (indent : Nat) : Nat → Block → Scan Block
  | 0, b => return b
  | fuel + 1, b => do
    let some c ← peek | return b
    if (← column) != indent then return b
    let blank := isSpace c
    let line ← takeWhile (!isBreak ·)
    let firstBreak ← lineBreak
    let (_, moreBreaks) ← emptyLines (some indent) (← steps) 0 []
    let text := line.reverse ++ ((b.joint literal blank).reverse ++ b.text)
    blockLines literal indent fuel ⟨text, firstBreak, moreBreaks, blank⟩

/-- The text of a block scalar. -/
def Block.chomp (b : Block) (c : Chomping) : List Char :=
  b.text.reverse ++ (if c = .strip then [] else b.firstBreak) ++
    (if c = .keep then b.moreBreaks else [])

/-- Reads a block scalar inside a collection whose entries are indented to `least - 1`. The header may
tell how far beyond it the scalar is indented; otherwise it is indented as its first line that is
not empty, and at least to `least`. -/
def block (literal : Bool) (least : Nat) : Scan String := do
  skip 1
  let (chomping, increment) ← blockHeader
  restOfLine
  let known := increment.map (least - 1 + ·)
  let (deepest, breaks) ← emptyLines known (← steps) 0 []
  let indent := known.getD (max (max deepest least) 1)
  let b ← blockLines literal indent (← steps) ⟨[], [], breaks, false⟩
  return String.ofList (b.chomp chomping)

end Scan

end SliceScheduler.Yaml
