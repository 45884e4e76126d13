/-!
# Tokens of YAML texts

A text is read as a list of tokens. The tokens of block collections stand for changes of
indentation, and those of mappings for keys that are known only once their colon is met.
-/
namespace SliceScheduler.Yaml

/-- How a scalar is written. -/
inductive Style where
  | plain
  | singleQuoted
  | doubleQuoted
  | literal
  | folded
deriving DecidableEq, Repr

/-- Bytes of a tag, some of which may have been written by their numbers. -/
abbrev Octets := List UInt8

/-- A token. -/
inductive Token where
  /-- The version of the language that a document is written in. -/
  | version (major minor : Nat)
  /-- What a handle of tags stands for. -/
  | handle (name : String) (meaning : Octets)
  | documentStart
  | documentEnd
  | blockSequence
  | blockMapping
  | blockEnd
  | flowSequence
  | flowSequenceEnd
  | flowMapping
  | flowMappingEnd
  | blockEntry
  | flowEntry
  | key
  | value
  | alias (name : String)
  | anchor (name : String)
  /-- A tag behind a handle. Without a handle the tag is complete. -/
  | tag (handle : Option String) (rest : Octets)
  | scalar (style : Style) (text : String)
deriving DecidableEq, Repr

end SliceScheduler.Yaml
