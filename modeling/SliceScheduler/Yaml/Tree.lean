import SliceScheduler.Yaml.Token
/-!
# YAML documents as trees

1. `Tag` is what the tag of a node says about its type;
2. `Tree` is a scalar, a sequence, a mapping, or an alias of another node;
3. `Document` is a tree with the nodes that its aliases stand for. An alias may stand for a node that
   it is part of, so that a document is not unfolded.
-/
namespace SliceScheduler.Yaml

/-- What a tag says about the type of a node. -/
inductive Tag where
  | null
  | bool
  | int
  | float
  /-- A type of the application. -/
  | named (name : String)
  /-- A type of the application of which the name is no text. -/
  | illegible
  | other
deriving DecidableEq, Repr

/-- What the tags of the core types start with. -/
def coreTags : String := "tag:yaml.org,2002:"

/-- The meaning of a tag. -/
def Tag.ofText (text : String) : Tag :=
  if text = coreTags ++ "null" then null
  else if text = coreTags ++ "bool" then bool
  else if text = coreTags ++ "int" then int
  else if text = coreTags ++ "float" then float
  else match text.toList with
    | '!' :: name => named (String.ofList name)
    | _ => other

/-- The meaning of a tag in bytes. -/
def Tag.ofOctets (bytes : Octets) : Tag :=
  match String.fromUTF8? bytes.toByteArray with
  | some text => ofText text
  | none => if bytes.head? = some '!'.toUInt8 then illegible else other

/-- A node of a document. -/
inductive Tree where
  | scalar (tag : Option Tag) (style : Style) (text : String)
  | sequence (tag : Option Tag) (items : List Tree)
  | mapping (tag : Option Tag) (entries : List (Tree × Tree))
  /-- The node that has the anchor of a number. -/
  | alias (anchor : Nat)
deriving Repr

namespace Tree

/-- A scalar that is not written. -/
def empty : Tree := scalar none .plain ""

instance : Inhabited Tree := ⟨empty⟩

end Tree

/-- A document, which may have nothing in it. -/
structure Document where
  root : Option Tree
  /-- The nodes that aliases stand for, by the numbers of their anchors. -/
  anchored : List (Nat × Tree)
  /-- How many nodes there are, where collections count twice. -/
  size : Nat
deriving Repr

/-- The node that an alias stands for. -/
def Document.target? (d : Document) (anchor : Nat) : Option Tree :=
  d.anchored.lookup anchor

end SliceScheduler.Yaml
