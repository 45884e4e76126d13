import SliceScheduler.Text.Radix
import SliceScheduler.Yaml.Cursor
import SliceScheduler.Yaml.Token
/-!
# Anchors, tags and directives of YAML texts

1. `Scan.anchorName` reads the name of an anchor or of an alias;
2. `Scan.tag` reads a tag: in angle brackets, behind a handle, or local to the document;
3. `Scan.directive` reads the version of a document or what a handle stands for.
-/
namespace SliceScheduler.Yaml

/-- The bytes of characters. -/
def octets (cs : List Char) : Octets := cs.flatMap String.utf8EncodeChar

/-- The bytes in front of the first zero, at which a tag ends. -/
def upToZero (bytes : Octets) : Octets := bytes.takeWhile (· ≠ 0)

/-- How many bytes a character has that starts with a byte. -/
def octetCount? (first : Nat) : Option Nat :=
  if first < 0x80 then some 1
  else if first / 0x20 = 0x06 then some 2
  else if first / 0x10 = 0x0E then some 3
  else if first / 0x08 = 0x1E then some 4
  else none

namespace Scan

/-! ## Anchors -/

/-- Reads the name of an anchor or of an alias. -/
def anchorName : Scan String := do
  skip 1
  let name ← takeWhile isNameChar
  let next ← peek
  require (!name.isEmpty && (endsWord next || next.any isAnchorStop))
  return String.ofList name

/-! ## Tags -/

/-- Reads a byte written as a percent sign and two hexadecimal digits. -/
def octet : Scan Nat := do
  char '%'
  let digits := (← get).rest.take 2
  require (digits.length == 2)
  match Text.numberIn? 16 digits with
  | some n =>
    skip 2
    return n
  | none => refuse

/-- Reads `n` bytes that go on with a character. -/
def moreOctets : Nat → Scan Octets
  | 0 => return []
  | n + 1 => do
    let b ← octet
    require (b / 0x40 == 2)
    return b.toUInt8 :: (← moreOctets n)

/-- Reads a character of which the bytes are written by their numbers. -/
def writtenOctets : Scan Octets := do
  let first ← octet
  match octetCount? first with
  | some n => return first.toUInt8 :: (← moreOctets (n - 1))
  | none => refuse

/-- Reads the characters of a tag. -/
def tagText (enclosed : Bool) : Nat → Octets → Scan Octets
  | 0, text => return text
  | fuel + 1, text => do
    let some c ← peek | return text
    if c == '%' then tagText enclosed fuel (text ++ (← writtenOctets))
    else if isTagChar enclosed c then
      skip 1
      tagText enclosed fuel (text ++ octets [c])
    else return text

/-- Reads the characters of a tag, at least one. -/
def someTagText (enclosed : Bool) : Scan Octets := do
  let text ← tagText enclosed (← steps) []
  require !text.isEmpty
  return text

/-- Reads an exclamation mark, a name, and perhaps another exclamation mark, and tells whether that
is a handle. -/
def handle : Scan (List Char × Bool) := do
  char '!'
  let name ← takeWhile isNameChar
  if (← peek) == some '!' then
    skip 1
    return ('!' :: name ++ ['!'], true)
  else return ('!' :: name, false)

/-- Reads a tag that is local to the document, of which the first characters were read. -/
def localTag (first : List Char) : Scan Token := do
  let text ← tagText false (← steps) (octets first.tail)
  return if (upToZero text).isEmpty then .tag none (octets ['!']) else .tag (some "!") text

/-- Reads a tag. -/
def tag (inFlow : Bool) : Scan Token := do
  let found ←
    if (← peekAt 1) == some '<' then do
      skip 2
      let text ← someTagText true
      char '>'
      pure (Token.tag none text)
    else
      match ← handle with
      | (h, true) => pure (.tag (some (String.ofList h)) (← someTagText false))
      | (first, false) => localTag first
  let next ← peek
  require ((inFlow && next == some ',') || endsWord next)
  return found

/-! ## Directives -/

/-- Reads a number of a version, of at most nine digits. -/
def versionNumber : Scan Nat := do
  let digits ← takeWhile Char.isDigit
  require (!digits.isEmpty && digits.length ≤ 9)
  return digits.foldl (fun n c => 10 * n + (c.toNat - '0'.toNat)) 0

/-- Reads a version. -/
def version : Scan Token := do
  skipWhile isSpace
  let major ← versionNumber
  char '.'
  return .version major (← versionNumber)

/-- Reads a handle and what it stands for. -/
def handleMeaning : Scan Token := do
  skipWhile isSpace
  let (h, complete) ← handle
  require (complete || h == ['!'])
  require ((← peek).any isSpace)
  skipWhile isSpace
  let meaning ← someTagText true
  require (endsWord (← peek))
  return .handle (String.ofList h) meaning

/-- Reads a directive, which takes a line. -/
def directive : Scan Token := do
  skip 1
  let name ← takeWhile isNameChar
  require (endsWord (← peek))
  let found ←
    match String.ofList name with
    | "YAML" => version
    | "TAG" => handleMeaning
    | _ => refuse
  restOfLine
  return found

end Scan

end SliceScheduler.Yaml
