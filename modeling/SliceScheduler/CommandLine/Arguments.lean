import SliceScheduler.Text.Decimal
/-!
# Arguments of the command line

1. `Invocation` is what the arguments ask for: a command and the file of the configuration;
2. `Stage` is what may stand at a stage of the command line: options, the names of commands, and
   values. `Stage.read` reads the arguments of a stage one by one, up to the name of a command;
3. `Invocation.ofArguments` reads all arguments. The file may be given at every stage; the last
   stage that gives it counts.

What comes after `--` is a value even if it starts with a hyphen. The first argument that asks for
help, or that cannot be understood, decides.
-/
namespace SliceScheduler.CommandLine

/-- A maintenance job to submit. -/
inductive Submission where
  | deleteTenant (tenant : String)
  | deleteMetric (tenant type name : String)
  | compress (target : Int) (size : Option String)
deriving DecidableEq, Repr

/-- A command. -/
inductive Command where
  /-- Run a node until it is interrupted. -/
  | run
  /-- Check the configuration. -/
  | validate
  /-- Submit a maintenance job. -/
  | submit (job : Submission)
  /-- Show the pointer and the jobs. -/
  | status
deriving DecidableEq, Repr

/-- What the arguments ask for. -/
structure Invocation where
  command : Command
  /-- The file of the configuration. -/
  config : Option String
deriving DecidableEq, Repr

/-- Why there is nothing to do. -/
inductive Halt where
  /-- Help was asked for. -/
  | help
  /-- The version was asked for. -/
  | version
  /-- The arguments cannot be understood. -/
  | usage
deriving DecidableEq, Repr

/-- An option that takes a value. -/
structure Flag where
  name : String
  /-- A letter in place of the name. -/
  letter : Option Char
  /-- The value may be empty. -/
  allowsEmpty : Bool
deriving DecidableEq, Repr

/-- What may stand at a stage of the command line. -/
structure Stage where
  flags : List Flag
  /-- The names of the commands of the next stage. -/
  commands : List String
  /-- How many values there are at most. -/
  values : Nat
  /-- What a value has to be. -/
  accepts : String → Bool
  /-- The version may be asked for. -/
  versioned : Bool

/-- What was read of a stage. -/
structure Found where
  /-- Values by the names of options. -/
  flags : List (String × String)
  values : List String
  /-- Only values follow. -/
  escaped : Bool

/-- Nothing. -/
def Found.none : Found := ⟨[], [], false⟩

/-- The value of an option. -/
def Found.flag? (f : Found) (name : String) : Option String := f.flags.lookup name

/-- A name of a command with the arguments behind it. -/
abbrev Next := Option (String × List String)

namespace Stage

/-- What a word with hyphens in front asks for. -/
inductive Wish where
  | help
  | version
  /-- An option, with its value if that is part of the word. -/
  | flag (f : Flag) (value : Option String)
  | unknown

/-- The word starts with a hyphen and is more than one. -/
def isFlag (word : String) : Bool :=
  match word.toList with
  | '-' :: _ :: _ => true
  | _ => false

/-- Cuts a word at its first equals sign. -/
def cut (cs : List Char) : String × Option String :=
  match cs.span (· ≠ '=') with
  | (name, '=' :: value) => (String.ofList name, some (String.ofList value))
  | (name, _) => (String.ofList name, none)

/-- The option of a name. -/
def long (s : Stage) (cs : List Char) : Wish :=
  match cut cs with
  | ("help", none) => .help
  | ("version", none) => if s.versioned then .version else .unknown
  | (name, value) =>
    match s.flags.find? (·.name == name) with
    | some f => .flag f value
    | none => .unknown

/-- The value that stands right behind a letter, after an equals sign or not. -/
def attached : List Char → Option String
  | [] => none
  | '=' :: cs => some (String.ofList cs)
  | cs => some (String.ofList cs)

/-- The option of a letter. -/
def short (s : Stage) (letter : Char) (rest : List Char) : Wish :=
  if letter = 'h' then .help
  else if letter = 'V' ∧ s.versioned then .version
  else match s.flags.find? (·.letter == some letter) with
    | some f => .flag f (attached rest)
    | none => .unknown

/-- What a word with hyphens in front asks for. -/
def wish (s : Stage) (word : String) : Wish :=
  match word.toList with
  | '-' :: '-' :: cs => s.long cs
  | '-' :: c :: cs => s.short c cs
  | _ => .unknown

/-- One more value. -/
def put (s : Stage) (found : Found) (word : String) : Except Halt Found :=
  if found.values.length < s.values ∧ s.accepts word then .ok { found with values := found.values ++ [word] }
  else .error .usage

/-- One more option, which is given once. -/
def putFlag (found : Found) (f : Flag) (value : String) : Except Halt Found :=
  if (found.flag? f.name).isSome ∨ (value.isEmpty ∧ !f.allowsEmpty) then .error .usage
  else .ok { found with flags := (f.name, value) :: found.flags }

/-- Reads the arguments of a stage. -/
def read (s : Stage) (found : Found) : List String → Except Halt (Found × Next)
  | [] => .ok (found, none)
  | word :: rest =>
    if found.escaped then do s.read (← s.put found word) rest
    else if word = "--" then s.read { found with escaped := true } rest
    else if s.commands.contains word then .ok (found, some (word, rest))
    else if isFlag word then
      match s.wish word with
      | .help => .error .help
      | .version => .error .version
      | .unknown => .error .usage
      | .flag f (some value) => do s.read (← putFlag found f value) rest
      | .flag f none =>
        match rest with
        | [] => .error .usage
        | value :: rest =>
          if isFlag value then .error .usage else do s.read (← putFlag found f value) rest
    else do s.read (← s.put found word) rest

end Stage

/-! ## The stages -/

/-- The option with the file of the configuration. -/
def configFlag : Flag := ⟨"config", some 'c', false⟩

/-- The option with the size of blocks. -/
def sizeFlag : Flag := ⟨"block-size", none, true⟩

/-- The name of the command that gives help. -/
def helpName : String := "help"

/-- The names of the commands. -/
def commandNames : List String := ["run", "validate", "submit", "status"]

/-- The names of the maintenance jobs. -/
def jobNames : List String := ["delete-tenant", "delete-metric", "compress"]

/-- Every value will do. -/
def anyText (_ : String) : Bool := true

/-- The stage with the name of a command. -/
def commandStage : Stage :=
  ⟨[configFlag], helpName :: commandNames, 0, anyText, true⟩

/-- The stage with the name of a maintenance job. -/
def jobStage : Stage :=
  ⟨[configFlag], helpName :: jobNames, 0, anyText, false⟩

/-- A last stage. -/
def lastStage (flags : List Flag) (values : Nat) (accepts : String → Bool) : Stage :=
  ⟨configFlag :: flags, [], values, accepts, false⟩

/-- Reads a last stage, which has to have all its values. -/
def readLast (flags : List Flag) (values : Nat) (accepts : String → Bool) (words : List String) :
    Except Halt Found := do
  let (found, _) ← (lastStage flags values accepts).read .none words
  if found.values.length = values then .ok found else .error .usage

/-- The whole number of a word. -/
def wholeNumber? (word : String) : Option Int := Text.int64? word.toList

/-- The last of two files that was given. -/
def lastOf (earlier later : Option String) : Option String := later.orElse fun _ => earlier

/-- Help about commands, which have to be there. -/
def helpAbout : List String → Halt
  | [] => .help
  | [name] => if (helpName :: commandNames).contains name then .help else .usage
  | ["submit", name] => if (helpName :: jobNames).contains name then .help else .usage
  | _ => .usage

/-- Help about maintenance jobs, which have to be there. -/
def helpAboutJobs : List String → Halt
  | [] => .help
  | [name] => if (helpName :: jobNames).contains name then .help else .usage
  | _ => .usage

/-- Reads a maintenance job behind its name. -/
def readJob (name : String) (words : List String) : Except Halt (Submission × Found) := do
  match name with
  | "delete-tenant" =>
    let found ← readLast [] 1 anyText words
    let [tenant] := found.values | .error .usage
    return (.deleteTenant tenant, found)
  | "delete-metric" =>
    let found ← readLast [] 3 anyText words
    let [tenant, type, name] := found.values | .error .usage
    return (.deleteMetric tenant type name, found)
  | "compress" =>
    let found ← readLast [sizeFlag] 1 (fun word => (wholeNumber? word).isSome) words
    let [some target] := found.values.map wholeNumber? | .error .usage
    return (.compress target (found.flag? sizeFlag.name), found)
  | _ => .error .usage

/-- Reads the submission of a maintenance job. -/
def readSubmit (words : List String) : Except Halt Invocation := do
  let (found, next) ← jobStage.read .none words
  match next with
  | none => .error .usage
  | some (name, rest) =>
    if name = helpName then .error (helpAboutJobs rest)
    let (job, last) ← readJob name rest
    return ⟨.submit job, lastOf (found.flag? configFlag.name) (last.flag? configFlag.name)⟩

/-- Reads a command without values. -/
def readPlain (command : Command) (words : List String) : Except Halt Invocation := do
  return ⟨command, (← readLast [] 0 anyText words).flag? configFlag.name⟩

/-- Reads a command behind its name. -/
def readCommand (name : String) (words : List String) : Except Halt Invocation :=
  match name with
  | "run" => readPlain .run words
  | "validate" => readPlain .validate words
  | "status" => readPlain .status words
  | "submit" => readSubmit words
  | _ => .error .usage

/-- Reads all arguments. -/
def Invocation.ofArguments (words : List String) : Except Halt Invocation := do
  let (found, next) ← commandStage.read .none words
  match next with
  | none => .error .usage
  | some (name, rest) =>
    if name = helpName then .error (helpAbout rest)
    let i ← readCommand name rest
    return { i with config := lastOf (found.flag? configFlag.name) i.config }

end SliceScheduler.CommandLine
