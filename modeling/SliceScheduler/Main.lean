import SliceScheduler.CommandLine.Run
import SliceScheduler.Config.Decode
import SliceScheduler.Store.Snapshot
import Std.Time.DateTime.Timestamp
/-!
# The program

Reads the arguments, the configuration and the store, carries out the command, and shows what came of
it. A store in a file is a snapshot of its tables.
-/
namespace SliceScheduler.CommandLine

/-- The text of the help. -/
def helpLines : List String := [
  "Distributed, time-sliced background job scheduler for a metrics platform",
  "",
  "Usage: slicer [OPTIONS] <COMMAND>",
  "",
  "Commands:",
  "  run       Run a scheduler node until Ctrl+C",
  "  validate  Validate the configuration without running",
  "  submit    Submit a maintenance job, due one minute from now",
  "  status    Show the active queue pointer and persisted jobs",
  "  help      Print this message or the help of the given subcommand(s)",
  "",
  "Options:",
  "  -c, --config <FILE>  Path to the node configuration file",
  "  -h, --help           Print help",
  "  -V, --version        Print version"]

/-- Shows a report, and gives its code. -/
def showReport (r : Report) : IO UInt32 := do
  r.lines.forM IO.println
  return r.code.toUInt32

/-- Complains, and gives the code of a refusal. -/
def complain (reason : String) : IO UInt32 := do
  IO.eprintln ("Error: " ++ reason)
  return 1

/-- The bytes of a file, if it can be read. -/
def readFile? (path : String) : IO (Option ByteArray) := do
  try
    return some (← IO.FS.readBinFile path)
  catch _ =>
    return none

/-- The clock. -/
def readClock : IO Instant := do
  let now ← Std.Time.Timestamp.now
  return (Instant.ofMillis? now.toMillisecondsSinceUnixEpoch.val).getD Instant.latest

/-- An id that no job has. -/
def randomId : IO JobId := do
  let high ← IO.rand 0 (Word.size64 - 1)
  let low ← IO.rand 0 (Word.size64 - 1)
  return (JobId.ofNat? (high * Word.size64 + low)).getD default

/-- The store of a configuration, if it can be read. -/
def openStore? : Storage → IO (Option Backend)
  | .memory => return some (.memory .empty)
  | .file path => do
    let bytes := (← readFile? path).getD .empty
    return (String.fromUTF8? bytes >>= TableStore.ofSnapshot?).map .tables

/-- Keeps a store in the file of a configuration. -/
def keepStore : Storage → Backend → IO Unit
  | .file path, .tables s => IO.FS.writeFile path s.snapshot
  | _, _ => return

/-- Carries out a command under a configuration. -/
def runCommand (c : Config) (command : Command) : IO UInt32 := do
  match command with
  | .validate => return 0
  | .run => complain "a node is run by the program that the library is part of"
  | command =>
    match ← openStore? c.storage with
    | none => complain "storage: the file is not a store"
    | some store =>
      let (report, store) := command.carryOut c (← readClock) (← randomId) store
      keepStore c.storage store
      showReport report

/-- The configuration in a file, or the standard one. -/
def readConfig (path : Option String) : IO (Except ConfigError Config) := do
  match path with
  | none => return .ok .standard
  | some path => return Config.ofFile (← readFile? path)

end SliceScheduler.CommandLine

open SliceScheduler CommandLine in
/-- Does what the arguments ask for. -/
def main (args : List String) : IO UInt32 := do
  match Invocation.ofArguments args with
  | .error .help =>
    helpLines.forM IO.println
    return 0
  | .error halt => showReport halt.report
  | .ok i =>
    match ← readConfig i.config with
    | .error e => complain (e.message?.getD "the configuration cannot be read")
    | .ok c => runCommand c i.command
