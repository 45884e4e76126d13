/-!
# Media types

The type of a body is written as `type/kind`, in either case, perhaps with a suffix behind a plus
sign, and with parameters behind semicolons.

1. `MediaType.ofText?` reads a media type; its parameters have to be well formed and are not kept;
2. `MediaType.isJson` tells the media types of JSON and of formats that are based on it.

A parameter is a name, an equals sign and a value, which may be empty or in quotes. Blanks stand only
in front of a name and behind a closing quote.
-/
namespace SliceScheduler

/-- The characters of names, and of values that are not in quotes. -/
def isTokenChar (c : Char) : Bool := c.isAlphanum || "!#$%&'*+-.^_\x60|~".contains c

/-- The characters inside of quotes. A backslash has no meaning of its own. -/
def isQuotedChar (c : Char) : Bool := ' ' ≤ c && c ≤ '~'

/-! ## Parameters -/

/-- What has been read of the parameters. -/
inductive ParameterStage where
  /-- Nothing of the next parameter. -/
  | start
  /-- A part of its name, which is not empty. -/
  | name
  /-- Its name and the equals sign. -/
  | equals
  /-- A part of its value, which is not empty. -/
  | value
  /-- The opening quote of its value. -/
  | opened
  /-- A part of its value in quotes. A quote that follows the opening one is such a part. -/
  | quoted
  /-- The closing quote of its value. -/
  | closed

namespace ParameterStage

/-- What has been read after one more character, unless it does not belong there. -/
def next? : ParameterStage → Char → Option ParameterStage
  | start, ' ' => some start
  | start, c => if isTokenChar c then some name else none
  | name, '=' => some equals
  | name, c => if isTokenChar c then some name else none
  | equals, '"' => some opened
  | equals, c => if isTokenChar c then some value else none
  | value, ';' => some start
  | value, c => if isTokenChar c then some value else none
  | opened, c => if isQuotedChar c then some quoted else none
  | quoted, '"' => some closed
  | quoted, c => if isQuotedChar c then some quoted else none
  | closed, ';' => some start
  | closed, ' ' => some closed
  | closed, _ => none

/-- The parameters may end. -/
def mayEnd : ParameterStage → Bool
  | start | equals | value | closed => true
  | name | opened | quoted => false

end ParameterStage

/-- The characters after a semicolon are parameters. -/
def areParameters (cs : List Char) : Bool :=
  (cs.foldlM ParameterStage.next? .start).any ParameterStage.mayEnd

/-! ## Types -/

/-- A media type without its parameters. -/
structure MediaType where
  type : String
  kind : String
  suffix : Option String
deriving DecidableEq, Repr

namespace MediaType

/-- Cuts a kind at its last plus sign, which does not stand at its front. -/
def cutSuffix (cs : List Char) : List Char × Option (List Char) :=
  let suffix := (cs.reverse.takeWhile (· ≠ '+')).reverse
  let kind := cs.take (cs.length - suffix.length - 1)
  if kind.isEmpty then (cs, none) else (kind, some suffix)

/-- The media type of a type and a kind, in lower case. -/
def ofParts (type kind : List Char) : MediaType :=
  let text (cs : List Char) : String := (String.ofList cs).toLower
  let (kind, suffix) := cutSuffix kind
  ⟨text type, text kind, suffix.map text⟩

/-- The media type of a text. -/
def ofText? (s : String) : Option MediaType :=
  let (type, rest) := s.toList.span isTokenChar
  match rest with
  | '/' :: rest =>
    let (kind, rest) := rest.span isTokenChar
    if type.isEmpty || kind.isEmpty then none
    else
      match rest with
      | [] => some (ofParts type kind)
      | ';' :: parameters => if areParameters parameters then some (ofParts type kind) else none
      | _ => none
  | _ => none

/-- The media type is JSON, or a format that is based on it. -/
def isJson (m : MediaType) : Bool :=
  m.type == "application" && (m.kind == "json" || m.suffix == some "json")

end MediaType

end SliceScheduler
