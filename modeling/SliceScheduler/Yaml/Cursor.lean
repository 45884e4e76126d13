import SliceScheduler.Yaml.Character
/-!
# Where a YAML text is being read

1. `Cursor` is the rest of the text and the place of its first character: how many bytes came before
   it, in which line, and in which column of the line, which counts characters;
2. `Scan` reads off the front of the text, or fails;
3. a line break may be two characters, counts as one line, and reads as a line feed unless it is one
   of the separators of Unicode, which read as they are.
-/
namespace SliceScheduler.Yaml

/-- How many bytes characters have. -/
def byteCount (cs : List Char) : Nat := cs.foldl (fun bytes c => bytes + c.utf8Size) 0

/-- The rest of a text and its place in the whole. -/
structure Cursor where
  rest : List Char
  /-- How many bytes came before. -/
  index : Nat
  line : Nat
  column : Nat
deriving Repr

/-- The place before a text. -/
def Cursor.start (text : List Char) : Cursor := ⟨text, 0, 0, 0⟩

/-- Reads a value off the front of a text, or fails. -/
abbrev Scan := StateT Cursor Option

namespace Scan

/-- Fails whatever comes. -/
def refuse {α : Type} : Scan α := fun _ => none

/-- Fails unless a condition holds. -/
def require (b : Bool) : Scan Unit := fun place => if b then some ((), place) else none

/-- The character `n` places ahead, which stays. -/
def peekAt (n : Nat) : Scan (Option Char) := return (← get).rest[n]?

/-- The next character, which stays. -/
def peek : Scan (Option Char) := peekAt 0

/-- The column of the next character. -/
def column : Scan Nat := return (← get).column

/-- How many steps are enough to read the rest of the text, one character at a step. -/
def steps : Scan Nat := return (← get).rest.length + 1

/-- Passes over `n` characters of a line. -/
def skip (n : Nat) : Scan Unit :=
  modify fun place => {
    place with
    rest := place.rest.drop n
    index := place.index + byteCount (place.rest.take n)
    column := place.column + n }

/-- Reads the characters in front that satisfy `p`, none of which ends a line. -/
def takeWhile (p : Char → Bool) : Scan (List Char) := do
  let taken := (← get).rest.takeWhile p
  skip taken.length
  return taken

/-- Passes over the characters in front that satisfy `p`, none of which ends a line. -/
def skipWhile (p : Char → Bool) : Scan Unit := discard (takeWhile p)

/-- Passes over the character `c`. -/
def char (c : Char) : Scan Unit := do
  require ((← peek) == some c)
  skip 1

/-- Goes to the start of the next line, past `n` characters. -/
def nextLine (n : Nat) : Scan Unit :=
  modify fun place =>
    ⟨place.rest.drop n, place.index + byteCount (place.rest.take n), place.line + 1, 0⟩

/-- Reads one line break, if there is one. -/
def lineBreak : Scan (List Char) := do
  match (← get).rest with
  | '\r' :: '\n' :: _ =>
    nextLine 2
    return ['\n']
  | c :: _ =>
    if !isBreak c then return []
    nextLine 1
    return if c == '\u2028' || c == '\u2029' then [c] else ['\n']
  | [] => return []

/-- Passes over a comment, if there is one. -/
def comment : Scan Unit := do
  if (← peek) == some '#' then skipWhile (!isBreak ·)

/-- Passes over the rest of a line, which has only blanks and a comment. -/
def restOfLine : Scan Unit := do
  skipWhile isSpace
  comment
  require (endsLine (← peek))
  discard lineBreak

/-- The line starts with the three characters of a mark, set apart from what follows. -/
def startsWith (mark : List Char) : Scan Bool := do
  let place ← get
  return place.column == 0 && place.rest.take 3 == mark && endsWord place.rest[3]?

/-- The line marks the start or the end of a document. -/
def atDocumentMark : Scan Bool :=
  return (← startsWith ['-', '-', '-']) || (← startsWith ['.', '.', '.'])

end Scan

end SliceScheduler.Yaml
