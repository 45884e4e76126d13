import SliceScheduler.Yaml.Lexer
import SliceScheduler.Yaml.Tree
/-!
# From tokens to YAML documents

1. `Assembly` is the state of putting a document together: the tokens that are left, the handles of
   the document, and its anchors;
2. `Build.node` and what it calls put the nodes together;
3. `Document.ofTokens?` reads the tokens of a text, which has one document at most;
4. `Document.ofText?` reads a text.

Each step takes a token or hands over to a step that does, so that the number of tokens bounds the
steps.
-/
namespace SliceScheduler.Yaml

/-- The state of putting a document together. -/
structure Assembly where
  tokens : List Token
  /-- What the handles of the document stand for. -/
  handles : List (String × Octets)
  /-- The numbers of the anchors by name, the last first. -/
  names : List (String × Nat)
  /-- The places of the nodes that have anchors, by the numbers of the anchors, the last first. -/
  places : List (Nat × Nat)
  /-- The nodes that have anchors, by their places. -/
  nodes : List (Nat × Tree)
  /-- How many nodes have anchors. -/
  count : Nat
  /-- How many nodes there are, where collections count twice. -/
  size : Nat

/-- The state before the tokens of a text. -/
def Assembly.start (tokens : List Token) : Assembly := ⟨tokens, [], [], [], [], 0, 0⟩

/-- Puts a part of a document together, or fails. -/
abbrev Build := StateT Assembly Option

namespace Build

/-- Fails whatever comes. -/
def refuse {α : Type} : Build α := fun _ => none

/-- Fails unless a condition holds. -/
def require (b : Bool) : Build Unit := fun s => if b then some ((), s) else none

/-- The next token, which stays. -/
def peek : Build (Option Token) := return (← get).tokens.head?

/-- Passes over the next token. -/
def skip : Build Unit := modify fun s => { s with tokens := s.tokens.tail }

/-- Passes over the next token if it is `t`, and tells whether it was. -/
def skipIf (t : Token) : Build Bool := do
  let found := (← peek) == some t
  if found then skip
  return found

/-- Passes over the token `t`. -/
def expect (t : Token) : Build Unit := do require (← skipIf t)

/-- The next token is one of the given ones. -/
def atOneOf (ts : List Token) : Build Bool := return (← peek).any ts.contains

/-- Counts a node. -/
def tally (n : Nat) : Build Unit := modify fun s => { s with size := s.size + n }

/-! ## Anchors -/

/-- How many anchors of different names there are. -/
def countNames (names : List (String × Nat)) : Nat :=
  (names.map (·.1)).eraseDups.length

/-- Gives the next node an anchor, and tells its place. The number of an anchor is how many names
there were before it, so that a name that comes back leaves its number to the next name. -/
def openAnchor : Option String → Build (Option Nat)
  | none => return none
  | some name => do
    let s ← get
    let number := countNames s.names
    set { s with
      names := (name, number) :: s.names
      places := (number, s.count) :: s.places
      count := s.count + 1 }
    return some s.count

/-- Notes the node at a place that has an anchor. -/
def closeAnchor (place : Option Nat) (node : Tree) : Build Tree := do
  if let some i := place then modify fun s => { s with nodes := (i, node) :: s.nodes }
  return node

/-- The alias of a name, which has to be known. -/
def aliasOf (name : String) : Build Tree := do
  match (← get).names.lookup name with
  | some number =>
    tally 1
    return .alias number
  | none => refuse

/-! ## Properties -/

/-- What is written in front of a node. -/
structure Properties where
  anchor : Option String
  tag : Option Octets

/-- The bytes of a tag, of which the handle has to be known. What the handle stands for and what is
behind it each end at a zero. -/
def resolve (handle : Option String) (rest : Octets) : Build Octets := do
  match handle with
  | none => return upToZero rest
  | some h =>
    match (← get).handles.lookup h with
    | some meaning => return upToZero meaning ++ upToZero rest
    | none => refuse

/-- Reads an anchor, if there is one. -/
def anchor? : Build (Option String) := do
  let some (.anchor name) ← peek | return none
  skip
  return some name

/-- Reads a tag, if there is one. -/
def tag? : Build (Option Octets) := do
  let some (.tag handle rest) ← peek | return none
  skip
  return some (← resolve handle rest)

/-- Reads what is written in front of a node, in either order. -/
def properties : Build Properties := do
  match ← anchor? with
  | some name => return ⟨some name, ← tag?⟩
  | none =>
    let tag ← tag?
    return ⟨← if tag.isSome then anchor? else pure none, tag⟩

/-! ## Nodes -/

/-- A scalar that is not written. -/
def missing : Build Tree := do
  tally 1
  return .empty

/-- Puts a collection together. -/
def collection {α : Type} (p : Properties) (make : Option Tag → List α → Tree)
    (items : Build (List α)) : Build Tree := do
  let place ← openAnchor p.anchor
  tally 2
  closeAnchor place (make (p.tag.map .ofOctets) (← items))

/-- Puts a scalar together. -/
def scalar (p : Properties) (style : Style) (text : String) : Build Tree := do
  let place ← openAnchor p.anchor
  tally 1
  closeAnchor place (.scalar (p.tag.map .ofOctets) style text)

/-- What ends the key or the value of a block mapping that is not written. -/
def mappingStops : List Token := [.key, .value, .blockEnd]

/-- What ends an entry of a sequence inside a block mapping that is not written. -/
def entryStops : List Token := [.blockEntry, .key, .value, .blockEnd]

mutual

/-- Puts a node together. Block collections stand in a block, and a sequence that is not indented
only in a block mapping. -/
def node : Nat → (inBlock unindented : Bool) → Build Tree
  | 0, _, _ => refuse
  | fuel + 1, inBlock, unindented => do
    if let some (.alias name) ← peek then
      skip
      return ← aliasOf name
    let p ← properties
    match ← peek with
    | some .blockEntry =>
      if unindented then collection p .sequence (unindentedEntries fuel)
      else bare p
    | some (.scalar style text) =>
      skip
      scalar p style text
    | some .flowSequence =>
      skip
      collection p .sequence (flowItems fuel true)
    | some .flowMapping =>
      skip
      collection p .mapping (flowEntries fuel true)
    | some .blockSequence =>
      if !inBlock then return ← bare p
      skip
      collection p .sequence (blockItems fuel)
    | some .blockMapping =>
      if !inBlock then return ← bare p
      skip
      collection p .mapping (blockEntries fuel)
    | _ => bare p

/-- A scalar that is not written, except for what is in front of it. -/
def bare (p : Properties) : Build Tree := do
  require (p.anchor.isSome || p.tag.isSome)
  scalar p .plain ""

/-- Puts a node together, unless one of the given tokens is next. -/
def nodeUnless : Nat → (stops : List Token) → (inBlock unindented : Bool) → Build Tree
  | 0, _, _, _ => refuse
  | fuel + 1, stops, inBlock, unindented => do
    if ← atOneOf stops then missing else node fuel inBlock unindented

/-- The items of a block sequence. -/
def blockItems : Nat → Build (List Tree)
  | 0 => refuse
  | fuel + 1 => do
    if ← skipIf .blockEnd then return []
    expect .blockEntry
    let item ← nodeUnless fuel [.blockEntry, .blockEnd] true false
    return item :: (← blockItems fuel)

/-- The items of a sequence that is not indented. -/
def unindentedEntries : Nat → Build (List Tree)
  | 0 => refuse
  | fuel + 1 => do
    if !(← skipIf .blockEntry) then return []
    let item ← nodeUnless fuel entryStops true false
    return item :: (← unindentedEntries fuel)

/-- The entries of a block mapping. -/
def blockEntries : Nat → Build (List (Tree × Tree))
  | 0 => refuse
  | fuel + 1 => do
    if ← skipIf .blockEnd then return []
    expect .key
    let key ← nodeUnless fuel mappingStops true true
    let value ← if ← skipIf .value then nodeUnless fuel mappingStops true true else missing
    return (key, value) :: (← blockEntries fuel)

/-- The items of a flow sequence, after the first or from it on. -/
def flowItems : Nat → (first : Bool) → Build (List Tree)
  | 0, _ => refuse
  | fuel + 1, first => do
    if ← skipIf .flowSequenceEnd then return []
    if !first then
      expect .flowEntry
      if ← skipIf .flowSequenceEnd then return []
    let item ←
      if ← skipIf .key then collection ⟨none, none⟩ .mapping (do return [← pair fuel])
      else node fuel false false
    return item :: (← flowItems fuel false)

/-- A mapping of one entry in a flow sequence. What stands in place of a key that is not written is
passed over. -/
def pair : Nat → Build (Tree × Tree)
  | 0 => refuse
  | fuel + 1 => do
    let key ←
      if ← atOneOf [.value, .flowEntry, .flowSequenceEnd] then do
        skip
        missing
      else node fuel false false
    let value ←
      if ← skipIf .value then nodeUnless fuel [.flowEntry, .flowSequenceEnd] false false
      else missing
    return (key, value)

/-- The entries of a flow mapping, after the first or from it on. -/
def flowEntries : Nat → (first : Bool) → Build (List (Tree × Tree))
  | 0, _ => refuse
  | fuel + 1, first => do
    if ← skipIf .flowMappingEnd then return []
    if !first then
      expect .flowEntry
      if ← skipIf .flowMappingEnd then return []
    let entry ← flowPair fuel
    return entry :: (← flowEntries fuel false)

/-- An entry of a flow mapping. A key that is not marked has no value. -/
def flowPair : Nat → Build (Tree × Tree)
  | 0 => refuse
  | fuel + 1 => do
    if ← skipIf .key then
      let key ← nodeUnless fuel [.value, .flowEntry, .flowMappingEnd] false false
      let value ←
        if ← skipIf .value then nodeUnless fuel [.flowEntry, .flowMappingEnd] false false
        else missing
      return (key, value)
    else
      let key ← node fuel false false
      return (key, ← missing)

end

/-! ## Documents -/

/-- Reads the directives of a document: one version at most, and one meaning of a handle. -/
def directives : Nat → (versioned : Bool) → Build Unit
  | 0, _ => refuse
  | fuel + 1, versioned => do
    match ← peek with
    | some (.version major minor) =>
      require (!versioned && major == 1 && (minor == 1 || minor == 2))
      skip
      directives fuel true
    | some (.handle name meaning) =>
      let s ← get
      require (s.handles.lookup name).isNone
      set { s with tokens := s.tokens.tail, handles := s.handles ++ [(name, meaning)] }
      directives fuel versioned
    | _ => return

/-- The handles that have a meaning in every document. -/
def standardHandles : List (String × Octets) :=
  [("!", octets ['!']), ("!!", octets coreTags.toList)]

/-- The token stands at the border of a document, or there is none. -/
def isBorder : Option Token → Bool
  | none | some (.version _ _) | some (.handle _ _) | some .documentStart | some .documentEnd => true
  | _ => false

/-- The content of a document, which may be marked by its start. -/
def content (fuel : Nat) : Build Tree := do
  let marked := match ← peek with
    | some (.version _ _) | some (.handle _ _) | some .documentStart => true
    | _ => false
  directives fuel false
  modify fun s => { s with handles := s.handles ++ standardHandles }
  if marked then
    expect .documentStart
    if isBorder (← peek) then return ← missing
  node fuel true false

/-- Passes over the marks of the end of a document. -/
def ends : Nat → Build Unit
  | 0 => refuse
  | fuel + 1 => do if ← skipIf .documentEnd then ends fuel

/-- The document, which is followed by none. -/
def document (fuel : Nat) : Build Document := do
  if (← peek).isNone then return ⟨none, [], 1⟩
  let root ← content fuel
  ends fuel
  require (← peek).isNone
  let s ← get
  let anchored := s.places.filterMap fun (number, place) =>
    (s.nodes.lookup place).map fun node => (number, node)
  return ⟨some root, anchored, s.size⟩

end Build

/-- The document of tokens. -/
def Document.ofTokens? (tokens : List Token) : Option Document :=
  let fuel := 4 * tokens.length + 4
  (Build.document fuel).run' (.start tokens)

/-- The document of a text. -/
def Document.ofText? (text : String) : Option Document := do
  Document.ofTokens? (← Token.ofText? text)

end SliceScheduler.Yaml
