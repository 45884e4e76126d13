import SliceScheduler.Yaml.Property
import SliceScheduler.Yaml.Scalar
/-!
# From YAML texts to tokens

1. `Lexer` is the state of reading: the tokens so far, the columns of the open block collections,
   and the scalars that may turn out to be keys;
2. `Lexer.fetch` reads one token, with the tokens that the change of indentation brings;
3. `Token.ofText?` reads a text.

A key is known only once its colon is met, on the same line and not much later. Its token, and that
of a mapping that it opens, then go in front of the tokens of the key.
-/
namespace SliceScheduler.Yaml

/-- The place of something that may turn out to be a key. -/
structure PossibleKey where
  /-- The number of tokens before it. -/
  token : Nat
  /-- The number of bytes before it. -/
  index : Nat
  line : Nat
  column : Nat
  /-- It has to be a key, since a block mapping goes on with it. -/
  required : Bool
deriving Repr

/-- How many bytes a key has at most. -/
def keyLimit : Nat := 1024

/-- The state of reading. -/
structure Lexer where
  cursor : Cursor
  /-- The tokens in reverse. -/
  tokens : List Token
  count : Nat
  /-- The least column of what belongs to the innermost block collection: one more than the column
  of its entries. -/
  least : Nat
  /-- The same of the block collections around it. -/
  outerLeast : List Nat
  /-- What may turn out to be a key. -/
  key : Option PossibleKey
  /-- The same outside of each open flow collection. -/
  outerKeys : List (Option PossibleKey)
  /-- A key may start here. -/
  keyAllowed : Bool

namespace Lexer

/-- The state before a text. -/
def start (text : List Char) : Lexer where
  cursor := .start text
  tokens := []
  count := 0
  least := 0
  outerLeast := []
  key := none
  outerKeys := []
  keyAllowed := true

/-- The text is inside a flow collection. -/
def inFlow (l : Lexer) : Bool := !l.outerKeys.isEmpty

/-- The next character. -/
def next (l : Lexer) : Option Char := l.cursor.rest.head?

/-- The character after the next. -/
def afterNext (l : Lexer) : Option Char := l.cursor.rest[1]?

/-- One more token. -/
def emit (l : Lexer) (t : Token) : Lexer :=
  { l with tokens := t :: l.tokens, count := l.count + 1 }

/-- One more token in front of all but the first `n`. -/
def emitAt (l : Lexer) (n : Nat) (t : Token) : Lexer :=
  { l with tokens := l.tokens.insertIdx (l.count - n) t, count := l.count + 1 }

/-- Reads something at the cursor. -/
def scan {α : Type} (l : Lexer) (s : Scan α) : Option (α × Lexer) := do
  let (a, cursor) ← s l.cursor
  return (a, { l with cursor })

/-- Passes over `n` characters and emits the token that they are. -/
def take (l : Lexer) (n : Nat) (t : Token) : Option Lexer := do
  let ((), l) ← l.scan (Scan.skip n)
  return l.emit t

/-- A key may start at the next token, or not. -/
def allowKey (l : Lexer) (b : Bool) : Lexer := { l with keyAllowed := b }

/-! ## Indentation -/

/-- Closes the block collections whose entries are not in a column below `limit`. -/
def closeBlocks (l : Lexer) (limit : Nat) : Lexer :=
  if l.inFlow then l
  else
    let rec close (l : Lexer) : List Nat → Lexer
      | [] => l
      | around :: rest =>
        if limit < l.least then close { l.emit .blockEnd with least := around, outerLeast := rest } rest
        else l
    close l l.outerLeast

/-- Opens a block collection whose entries are in a column, unless it is open. Its token goes in front
of all but the first `n`. -/
def openBlock (l : Lexer) (column n : Nat) (t : Token) : Lexer :=
  if l.inFlow ∨ column < l.least then l
  else { l.emitAt n t with least := column + 1, outerLeast := l.least :: l.outerLeast }

/-! ## Keys -/

/-- What may be a key, unless the text has gone on too far. -/
def freshKey (l : Lexer) (k : PossibleKey) : Option (Option PossibleKey) :=
  if k.line < l.cursor.line ∨ k.index + keyLimit < l.cursor.index then
    if k.required then none else some none
  else some (some k)

/-- Gives up what can no longer be a key. Fails if it has to be one. -/
def dropStaleKeys (l : Lexer) : Option Lexer := do
  let fresh : Option PossibleKey → Option (Option PossibleKey)
    | none => some none
    | some k => l.freshKey k
  return { l with key := ← fresh l.key, outerKeys := ← l.outerKeys.mapM fresh }

/-- Gives up what may be a key. Fails if it has to be one. -/
def dropKey (l : Lexer) : Option Lexer :=
  if l.key.any PossibleKey.required then none else some { l with key := none }

/-- What comes next may turn out to be a key, if a key may start here. -/
def noteKey (l : Lexer) : Option Lexer := do
  if !l.keyAllowed then return l
  let c := l.cursor
  let required := !l.inFlow && l.least == c.column + 1
  return { ← l.dropKey with key := some ⟨l.count, c.index, c.line, c.column, required⟩ }

/-! ## Tokens -/

/-- Passes over what stands between tokens. A tab does not stand where a key may start in a block. -/
def skipGapsFrom : Nat → Lexer → Option Lexer
  | 0, l => some l
  | fuel + 1, l => do
    let tabs := l.inFlow || !l.keyAllowed
    let ((), l) ← l.scan do
      if (← Scan.column) == 0 && (← Scan.peek) == some byteOrderMark then Scan.skip 1
      Scan.skipWhile fun c => c == ' ' || (tabs && c == '\t')
      Scan.comment
    if !l.next.any isBreak then return l
    let (_, l) ← l.scan Scan.lineBreak
    skipGapsFrom fuel (if l.inFlow then l else l.allowKey true)

/-- Passes over what stands between tokens. -/
def skipGaps (l : Lexer) : Option Lexer := skipGapsFrom (l.cursor.rest.length + 1) l

/-- Closes all block collections, at the border of a document. -/
def border (l : Lexer) : Option Lexer := do
  return (← (l.closeBlocks 0).dropKey).allowKey false

/-- Reads the start of a flow collection. -/
def openFlow (l : Lexer) (t : Token) : Option Lexer := do
  let l ← l.noteKey
  { l with key := none, outerKeys := l.key :: l.outerKeys, keyAllowed := true }.take 1 t

/-- Reads the end of a flow collection. -/
def closeFlow (l : Lexer) (t : Token) : Option Lexer := do
  let l ← l.dropKey
  let l := match l.outerKeys with
    | [] => l
    | key :: outerKeys => { l with key, outerKeys }
  (l.allowKey false).take 1 t

/-- Reads the mark of an entry of a flow collection. -/
def flowEntry (l : Lexer) : Option Lexer := do
  ((← l.dropKey).allowKey true).take 1 .flowEntry

/-- Opens a block collection at the next character, where a key may start. -/
def openHere (l : Lexer) (t : Token) : Option Lexer :=
  if l.inFlow then some l
  else if l.keyAllowed then some (l.openBlock l.cursor.column l.count t)
  else none

/-- Reads the mark of an entry of a block sequence. -/
def blockEntry (l : Lexer) : Option Lexer := do
  ((← (← l.openHere .blockSequence).dropKey).allowKey true).take 1 .blockEntry

/-- Reads the mark of a key. -/
def keyMark (l : Lexer) : Option Lexer := do
  let l ← (← l.openHere .blockMapping).dropKey
  (l.allowKey !l.inFlow).take 1 .key

/-- Reads the mark of a value, which makes a key of what may be one. -/
def valueMark (l : Lexer) : Option Lexer := do
  match l.key with
  | some k =>
    let l := (l.emitAt k.token .key).openBlock k.column k.token .blockMapping
    ({ l with key := none }.allowKey false).take 1 .value
  | none =>
    let l ← l.openHere .blockMapping
    (l.allowKey !l.inFlow).take 1 .value

/-- Reads a token that may be, or start, a key. -/
def word (l : Lexer) (s : Scan Token) : Option Lexer := do
  let (t, l) ← ((← l.noteKey).allowKey false).scan s
  return l.emit t

/-- Reads a plain scalar. After the end of a line a key may start. -/
def plain (l : Lexer) : Option Lexer := do
  let l ← l.noteKey
  let ((text, broken), l) ← l.scan (Scan.plain l.inFlow l.least)
  return (l.allowKey broken).emit (.scalar .plain text)

/-- Reads a block scalar. -/
def block (l : Lexer) (literal : Bool) : Option Lexer := do
  let l := (← l.dropKey).allowKey true
  let (text, l) ← l.scan (Scan.block literal l.least)
  return l.emit (.scalar (if literal then .literal else .folded) text)

/-- Reads a scalar in quotes. -/
def quoted (l : Lexer) (style : Style) (quote : Char) : Option Lexer :=
  l.word do return .scalar style (← Scan.quoted quote)

/-- A plain scalar starts with a character. -/
def startsPlain (l : Lexer) (c : Char) : Bool :=
  !(isGap c || isIndicator c) || (c == '-' && !l.afterNext.any isSpace) ||
    (!l.inFlow && (c == '?' || c == ':') && !endsWord l.afterNext)

/-- Reads the token that a character starts. -/
def wordAt (l : Lexer) (c : Char) : Option Lexer :=
  let apart := endsWord l.afterNext
  match c with
  | '[' => l.openFlow .flowSequence
  | '{' => l.openFlow .flowMapping
  | ']' => l.closeFlow .flowSequenceEnd
  | '}' => l.closeFlow .flowMappingEnd
  | ',' => l.flowEntry
  | '*' => l.word do return .alias (← Scan.anchorName)
  | '&' => l.word do return .anchor (← Scan.anchorName)
  | '!' => l.word (Scan.tag l.inFlow)
  | '\'' => l.quoted .singleQuoted c
  | '"' => l.quoted .doubleQuoted c
  | _ =>
    if c = '-' ∧ apart then l.blockEntry
    else if c = '?' ∧ (l.inFlow ∨ apart) then l.keyMark
    else if c = ':' ∧ (l.inFlow ∨ apart) then l.valueMark
    else if c = '|' ∧ !l.inFlow then l.block true
    else if c = '>' ∧ !l.inFlow then l.block false
    else if l.startsPlain c then l.plain
    else none

/-- Reads the token in front, which starts with a character. -/
def tokenAt (l : Lexer) (c : Char) : Option Lexer := do
  if c = '%' ∧ l.cursor.column = 0 then
    let (t, l) ← (← l.border).scan Scan.directive
    return l.emit t
  else if (Scan.startsWith ['-', '-', '-'] l.cursor).any (·.1) then
    (← l.border).take 3 .documentStart
  else if (Scan.startsWith ['.', '.', '.'] l.cursor).any (·.1) then
    (← l.border).take 3 .documentEnd
  else l.wordAt c

/-- Reads one token. Tells whether there was one. -/
def fetch (l : Lexer) : Option (Bool × Lexer) := do
  let l ← (← l.skipGaps).dropStaleKeys
  let l := l.closeBlocks (l.cursor.column + 1)
  match l.next with
  | none => return (false, ← l.border)
  | some c => return (true, ← l.tokenAt c)

/-- Reads tokens to the end of the text. -/
def run : Nat → Lexer → Option Lexer
  | 0, _ => none
  | fuel + 1, l => do
    let (more, l) ← l.fetch
    if more then run fuel l else return l

end Lexer

/-- The tokens of a text. -/
def Token.ofText? (text : String) : Option (List Token) := do
  let cs := text.toList
  if !cs.all isAllowed then none
  return (← Lexer.run (cs.length + 1) (.start cs)).tokens.reverse

end SliceScheduler.Yaml
