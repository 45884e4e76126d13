import SliceScheduler.Text.Decimal
/-!
# JSON values

The values of the JSON format, as stored with a job and as exchanged over the management interface.

1. `Json` is the type of values. Whole numbers of one machine word keep their value; all other
   numbers are only known to be there. The members of an object keep their order and may repeat a
   name.
2. `Json.broken` stands where a text stops being JSON, so that a reader of a larger form can tell
   which of two faults comes first.
3. `Json.render` writes a value without blanks.
-/
namespace SliceScheduler

/-- A JSON value, or the place where a text stops being one. -/
inductive Json where
  | null
  | bool (b : Bool)
  | int (n : Int)
  | real
  | str (s : String)
  | arr (items : List Json)
  | obj (members : List (String × Json))
  | broken

namespace Json

instance : Inhabited Json := ⟨null⟩

/-- A natural number. -/
def nat (n : Nat) : Json := int n

/-- The value, or null. -/
def orNull : Option Json → Json
  | some v => v
  | none => null

mutual

/-- The text is JSON to the end of the value. -/
def isWhole : Json → Bool
  | broken => false
  | arr items => areWhole items
  | obj members => haveWhole members
  | _ => true

/-- All the items of an array are whole. -/
def areWhole : List Json → Bool
  | [] => true
  | v :: vs => v.isWhole && areWhole vs

/-- All the members of an object are whole. -/
def haveWhole : List (String × Json) → Bool
  | [] => true
  | (_, v) :: vs => v.isWhole && haveWhole vs

end

/-- The value of the first member of a name. -/
def member? (members : List (String × Json)) (name : String) : Option Json :=
  (members.find? (·.1 == name)).map (·.2)

/-- The value of the first member of a name, of an object. -/
def get? : Json → String → Option Json
  | obj members, name => member? members name
  | _, _ => none

/-! ## Writing -/

/-- A character inside quotes: quotes, backslashes and control characters are escaped. -/
def escapeChar (c : Char) : List Char :=
  match c with
  | '"' => ['\\', '"']
  | '\\' => ['\\', '\\']
  | '\n' => ['\\', 'n']
  | '\r' => ['\\', 'r']
  | '\t' => ['\\', 't']
  | c =>
    if c.toNat = 8 then ['\\', 'b']
    else if c.toNat = 12 then ['\\', 'f']
    else if c.toNat < 32 then
      ['\\', 'u', '0', '0', Nat.digitChar (c.toNat / 16), Nat.digitChar (c.toNat % 16)]
    else [c]

/-- A text in quotes. -/
def quote (s : String) : List Char :=
  '"' :: s.toList.flatMap escapeChar ++ ['"']

mutual

/-- The characters of a value. A number that is not a whole word and a broken place have no
characters of their own and are written as null. -/
def renderChars : Json → List Char
  | null => ['n', 'u', 'l', 'l']
  | bool true => ['t', 'r', 'u', 'e']
  | bool false => ['f', 'a', 'l', 's', 'e']
  | int n => Text.integerChars n
  | real => ['n', 'u', 'l', 'l']
  | str s => quote s
  | arr items => '[' :: renderItems items
  | obj members => '{' :: renderMembers members
  | broken => ['n', 'u', 'l', 'l']

/-- The items of an array, to its closing bracket. -/
def renderItems : List Json → List Char
  | [] => [']']
  | [v] => v.renderChars ++ [']']
  | v :: vs => v.renderChars ++ ',' :: renderItems vs

/-- The members of an object, to its closing brace. -/
def renderMembers : List (String × Json) → List Char
  | [] => ['}']
  | [(k, v)] => quote k ++ ':' :: v.renderChars ++ ['}']
  | (k, v) :: vs => quote k ++ ':' :: v.renderChars ++ ',' :: renderMembers vs

end

/-- A value as text. -/
def render (v : Json) : String := String.ofList v.renderChars

end Json

end SliceScheduler
