import SliceScheduler.Config.Basic
import SliceScheduler.Text.Word
import SliceScheduler.Yaml.Document
import SliceScheduler.Yaml.Meaning
/-!
# Reading configurations

A configuration is a YAML document with a mapping, or with nothing in it.

1. `Decode` reads nodes of a document and follows its aliases, a bounded number of times;
2. `Decode.record` reads a mapping with known names: others are passed over, and none of the known
   ones repeats;
3. `Decode.storage` reads where the jobs are kept. Since its shape hangs on its type, all of its nodes
   have to have a meaning, also those that are passed over;
4. `Config.parse` and `Config.ofFile` read and check a configuration.
-/
namespace SliceScheduler

open Yaml

/-- Reads a part of a document, or fails. The state is how many aliases may still be followed. -/
abbrev Decode := ReaderT Document (StateT Nat Option)

namespace Decode

/-- Fails whatever comes. -/
def refuse {α : Type} : Decode α := fun _ _ => none

/-- A value, or a failure. -/
def ofOption {α : Type} : Option α → Decode α
  | some a => return a
  | none => refuse

/-- Fails unless a condition holds. -/
def require (b : Bool) : Decode Unit := if b then pure () else refuse

/-- The node that a node stands for. -/
def follow : Tree → Decode Tree
  | .alias anchor => do
    let left ← get
    require (left ≠ 0)
    set (left - 1)
    ofOption ((← read).target? anchor)
  | n => return n

/-! ## Scalars -/

/-- The text of a scalar. -/
def text (n : Tree) : Decode String := do
  let .scalar _ _ s ← follow n | refuse
  return s

/-- The text of a scalar that may have a meaning of a type: it is plain, or kept in whole lines under
the tag of the type. -/
def typed (type : Tag) (n : Tree) : Decode String := do
  let .scalar tag style s ← follow n | refuse
  require (style = .plain || (style = .literal && tag = some type))
  return s

/-- A truth value. -/
def flag (n : Tree) : Decode Bool := do ofOption (boolOfText? (← typed .bool n))

/-- A number that fits a word of so many values. -/
def number (size : Nat) (n : Tree) : Decode Nat := do
  let value ← ofOption (naturalOfText? (← typed .int n).toList)
  require (value < size)
  return value

/-- A scalar is nothing, which is never the case in quotes or in whole lines. -/
def isNothing (tag : Option Tag) (style : Style) (s : String) : Decode Bool :=
  if style ≠ .plain then return false
  else
    match tag with
    | none => return s.isEmpty || isNullText s
    | some .null => do
      require (isNullText s)
      return true
    | some _ => return false

/-- A value, or nothing. -/
def option {α : Type} (value : Tree → Decode α) (n : Tree) : Decode (Option α) := do
  let n ← follow n
  if let .scalar tag style s := n then
    if ← isNothing tag style s then return none
  return some (← value n)

/-- A level of consistency: its name, or a tag with its name before nothing. -/
def consistency (n : Tree) : Decode Consistency := do
  let .scalar tag style s ← follow n | refuse
  match tag with
  | some (.named name) =>
    require (style = .plain && (s.isEmpty || isNullText s))
    ofOption (Consistency.ofName? name)
  | _ => ofOption (Consistency.ofName? s)

/-! ## Mappings -/

/-- The entries of a mapping. Nothing is written for a mapping without entries. -/
def entries (n : Tree) : Decode (List (Tree × Tree)) := do
  match ← follow n with
  | .mapping _ found => return found
  | .scalar _ .plain "" => return []
  | _ => refuse

/-- The fields of a record by their names. -/
abbrev Fields := List (String × Tree)

/-- The fields of a record. -/
def record (n : Tree) : Decode Fields := do
  (← entries n).mapM fun (key, value) => return (← text key, value)

/-- The field of a name, which does not repeat. -/
def field {α : Type} (fields : Fields) (name : String) (value : Tree → Decode α) (standard : α) :
    Decode α :=
  match fields.filter (·.1 == name) with
  | [] => return standard
  | [(_, n)] => value n
  | _ => refuse

/-- A table of which the keys are texts. The last of several entries of a key counts. -/
def table {α : Type} (value : Tree → Decode α) (n : Tree) : Decode (Std.ExtTreeMap String α) := do
  let found ← (← entries n).mapM fun (key, v) => return (← text key, ← value v)
  return .ofList found

/-! ## Storage -/

/-- A tag names a type of the application. -/
def isNamed : Option Tag → Bool
  | some (.named _) => true
  | _ => false

/-- Reads a node of which nothing is known: the meaning of a scalar, and none of a collection. The
number is how deep collections may nest. -/
def whatever : Nat → Tree → Decode (Option Meaning)
  | 0, n => do
    let .scalar tag style s ← follow n | refuse
    return some (← ofOption (Meaning.ofScalar? tag style s))
  | depth + 1, n => do
    match ← follow n with
    | .scalar tag style s => return some (← ofOption (Meaning.ofScalar? tag style s))
    | .sequence tag items =>
      require !(isNamed tag)
      items.forM fun item => discard (whatever depth item)
      return none
    | .mapping tag found =>
      require !(isNamed tag)
      found.forM fun (key, value) => do
        discard (whatever depth key)
        discard (whatever depth value)
      return none
    | .alias _ => refuse

/-- How deep the parts of the storage may nest: collections nest 128 deep, and the parts are in two of
them. -/
def storageDepth : Nat := 126

/-- The name of the field with the type of the storage. -/
def typeField : String := "type"

/-- The name of the field with the path of the storage. -/
def pathField : String := "path"

/-- The storage of a type, with the texts that are given as its path. -/
def storageOf (type : String) (paths : Decode (List (Option Meaning))) : Decode Storage := do
  match type with
  | "memory" => return .memory
  | "sqlite" =>
    let [some (.text path)] ← paths | refuse
    return .file path
  | _ => refuse

/-- The key of a field with the path: its name, or its number. Other keys are texts or numbers. -/
def isPathKey : Option Meaning → Decode Bool
  | some (.text s) => return s == pathField
  | some (.natural n) => return n == 0
  | _ => refuse

/-- The storage that a mapping tells. -/
def storageOfEntries (found : List (Tree × Tree)) : Decode Storage := do
  let keyed ← found.mapM fun (key, value) => return (← whatever storageDepth key, value)
  let (types, others) := keyed.partition (·.1 == some (.text typeField))
  let [(_, type)] := types | refuse
  let type ← text type
  let others ← others.mapM fun (key, value) => return (key, ← whatever storageDepth value)
  storageOf type do
    let paths ← others.filterM fun (key, _) => isPathKey key
    return paths.map (·.2)

/-- The storage that a sequence tells: its type, and then its path. -/
def storageOfItems (items : List Tree) : Decode Storage := do
  let type :: rest := items | refuse
  let type ← text type
  let rest ← rest.mapM (whatever storageDepth)
  match ← storageOf type (return rest) with
  | .memory =>
    require rest.isEmpty
    return .memory
  | s => return s

/-- Where the jobs are kept. -/
def storage (n : Tree) : Decode Storage := do
  match ← follow n with
  | .mapping tag found =>
    require !(isNamed tag)
    storageOfEntries found
  | .sequence tag items =>
    require !(isNamed tag)
    storageOfItems items
  | _ => refuse

/-! ## The configuration -/

/-- What is said about compression. -/
def compression (n : Tree) : Decode CompressionConfig := do
  let fields ← record n
  let standard := CompressionConfig.standard
  return {
    enabled := ← field fields "enabled" flag standard.enabled
    blockSize := ← field fields "block_size" text standard.blockSize }

/-- What is said about the management interface. -/
def api (n : Tree) : Decode ApiConfig := do
  let fields ← record n
  let standard := ApiConfig.standard
  return {
    enabled := ← field fields "enabled" flag standard.enabled
    host := ← field fields "host" text standard.host
    portNumber := ← field fields "port" (number Word.size16) standard.portNumber }

/-- A configuration. -/
def config (n : Tree) : Decode Config := do
  let fields ← record n
  let standard := Config.standard
  return {
    nodeId := ← field fields "node_id" (option text) standard.nodeId
    sliceWidthSecs := ← field fields "slice_width_secs" (number Word.size64) standard.sliceWidthSecs
    tickIntervalSecs :=
      ← field fields "tick_interval_secs" (option (number Word.size64)) standard.tickIntervalSecs
    maxConcurrentJobs := ← field fields "max_concurrent_jobs" (number Word.size64) standard.maxConcurrentJobs
    maxCatchUpSlices := ← field fields "max_catch_up_slices" (number Word.size64) standard.maxCatchUpSlices
    shutdownTimeoutSecs :=
      ← field fields "shutdown_timeout_secs" (number Word.size64) standard.shutdownTimeoutSecs
    consistency := ← field fields "consistency" consistency standard.consistency
    storage := ← field fields "storage" storage standard.storage
    compression := ← field fields "compression" compression standard.compression
    api := ← field fields "api" api standard.api
    settings := ← field fields "settings" (table (table text)) standard.settings }

end Decode

namespace Config

/-- How often aliases are followed, for each node of a document. -/
def aliasLimit : Nat := 100

/-- The configuration of a document. -/
def ofDocument? (d : Document) : Option Config :=
  match d.root with
  | none => some standard
  | some root => (Decode.config root d).run' (aliasLimit * d.size)

/-- The configuration of a text, which is not checked. -/
def ofText? (text : String) : Option Config := do ofDocument? (← Document.ofText? text)

/-- Reads and checks a configuration. -/
def parse (text : String) : Except ConfigError Config :=
  match ofText? text with
  | none => .error .malformed
  | some c => do
    c.check
    return c

/-- Reads and checks the configuration in a file. There are no bytes if there is no file. -/
def ofFile (content : Option ByteArray) : Except ConfigError Config :=
  match content >>= String.fromUTF8? with
  | none => .error .unreadable
  | some text =>
    match parse text with
    | .error .malformed => .error .malformedFile
    | result => result

end Config

end SliceScheduler
