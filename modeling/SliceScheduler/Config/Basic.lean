import SliceScheduler.Config.Address
import SliceScheduler.Engine.Desk
import SliceScheduler.Maintenance.Executor
import SliceScheduler.Store.Operation
/-!
# The configuration of a node

1. `Config` is what a configuration says, and `Config.standard` what an empty one says;
2. `Config.check` refuses a configuration that no node can run with;
3. `Config.apply` sets up a node.
-/
namespace SliceScheduler

/-- Why there is no configuration. -/
inductive ConfigError where
  /-- The file cannot be read as text. -/
  | unreadable
  /-- The text is no configuration. -/
  | malformed
  /-- The text of the file is no configuration. -/
  | malformedFile
  /-- A value is out of range. -/
  | invalid (reason : String)
  /-- A value is blank. -/
  | missing (name : String)
deriving DecidableEq, Repr

/-- The wording of a refusal. A text that is no configuration is told in the words of its format, of
which there are none here. -/
def ConfigError.message? : ConfigError → Option String
  | unreadable | malformed | malformedFile => none
  | invalid reason => some ("invalid configuration: " ++ reason)
  | missing name => some ("missing required field: " ++ name)

/-- Where the jobs are kept. -/
inductive Storage where
  | memory
  | file (path : String)
deriving DecidableEq, Repr

/-- The path of a store in a file. -/
def Storage.path? : Storage → Option String
  | memory => none
  | file path => some path

/-- What is said about compression. -/
structure CompressionConfig where
  enabled : Bool
  blockSize : String
deriving DecidableEq, Repr

/-- What is said about the management interface. -/
structure ApiConfig where
  enabled : Bool
  host : String
  portNumber : Nat
deriving DecidableEq, Repr

/-- Texts by group and key. -/
abbrev TextTable := Std.ExtTreeMap String (Std.ExtTreeMap String String)

/-- What a configuration says. -/
structure Config where
  nodeId : Option String
  sliceWidthSecs : Nat
  tickIntervalSecs : Option Nat
  maxConcurrentJobs : Nat
  maxCatchUpSlices : Nat
  shutdownTimeoutSecs : Nat
  consistency : Consistency
  storage : Storage
  compression : CompressionConfig
  api : ApiConfig
  settings : TextTable

/-- What is said about compression unless told otherwise. -/
def CompressionConfig.standard : CompressionConfig := ⟨false, "2h"⟩

namespace ApiConfig

/-- What is said about the management interface unless told otherwise. -/
def standard : ApiConfig := ⟨true, "127.0.0.1", 8080⟩

/-- The address of the management interface. -/
def address (c : ApiConfig) : Except ConfigError String :=
  match Host.ofText? c.host with
  | some host => .ok (host.text ++ ":" ++ Text.naturalText c.portNumber)
  | none => .error (.invalid ("invalid api address: " ++ c.host))

end ApiConfig

namespace Config

/-- What an empty configuration says. -/
def standard : Config where
  nodeId := none
  sliceWidthSecs := 60
  tickIntervalSecs := none
  maxConcurrentJobs := 16
  maxCatchUpSlices := 60
  shutdownTimeoutSecs := 30
  consistency := .quorum
  storage := .memory
  compression := .standard
  api := .standard
  settings := ∅

/-- The width of a slice. -/
def sliceWidth (c : Config) : Duration := Duration.ofSeconds c.sliceWidthSecs

/-- The seconds between two ticks. -/
def tickSecs (c : Config) : Nat := c.tickIntervalSecs.getD c.sliceWidthSecs

/-- The time between two ticks. -/
def tickInterval (c : Config) : Duration := Duration.ofSeconds c.tickSecs

/-- How long a shutdown waits. -/
def shutdownTimeout (c : Config) : Duration := Duration.ofSeconds c.shutdownTimeoutSecs

/-- The size of the blocks that are compressed again and again, if compression is enabled. -/
def blockSize? (c : Config) : Except ConfigError (Option Duration) :=
  if c.compression.enabled then
    match Duration.parse c.compression.blockSize with
    | .ok d => .ok (some d)
    | .error e => .error (.invalid ("compression.block_size: " ++ e.message))
  else .ok none

/-- Fails with a reason if a condition holds. -/
def refuseIf (b : Bool) (e : ConfigError) : Except ConfigError Unit :=
  if b then .error e else .ok ()

/-- The size of blocks has to be a multiple of the width of a slice. -/
def checkBlockSize (c : Config) : Except ConfigError Unit := do
  if let some block ← c.blockSize? then
    refuseIf (block.seconds % c.sliceWidthSecs ≠ 0)
      (.invalid "compression.block_size must be a multiple of the slice width")

/-- Refuses a configuration that no node can run with. Of several faults the first one counts. -/
def check (c : Config) : Except ConfigError Unit := do
  refuseIf (c.sliceWidthSecs = 0) (.invalid "slice_width_secs cannot be zero")
  refuseIf (c.tickIntervalSecs = some 0) (.invalid "tick_interval_secs cannot be zero")
  refuseIf (c.sliceWidthSecs < c.tickSecs)
    (.invalid "tick_interval_secs cannot exceed slice_width_secs")
  refuseIf (c.maxConcurrentJobs = 0) (.invalid "max_concurrent_jobs cannot be zero")
  refuseIf (c.maxCatchUpSlices = 0) (.invalid "max_catch_up_slices cannot be zero")
  refuseIf (c.nodeId.any Text.isBlankText) (.missing "node_id")
  refuseIf (c.storage.path?.any Text.isBlankText) (.missing "storage.path")
  if c.api.enabled then discard c.api.address
  c.checkBlockSize

/-- Sets up a node. -/
def apply (c : Config) (s : NodeSettings) : NodeSettings :=
  ({ s with
    node := c.nodeId.getD s.node
    width := c.sliceWidth
    tickInterval := some c.tickInterval
    shutdownTimeout := c.shutdownTimeout }.withMaxConcurrent c.maxConcurrentJobs).withMaxCatchUp
      c.maxCatchUpSlices

/-- The value of a setting. -/
def setting? (c : Config) (group key : String) : Option String := c.settings[group]? >>= (·[key]?)

end Config

end SliceScheduler
