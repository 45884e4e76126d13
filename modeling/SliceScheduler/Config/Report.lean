import SliceScheduler.Config.Basic
import SliceScheduler.Json.Refusal
/-!
# Configurations as JSON

`Config.toJson` shows what a configuration says, and `ConfigError.report` why there is none.
-/
namespace SliceScheduler

open Json

namespace ConfigError

def kind : ConfigError → String
  | unreadable => "FileReadError"
  | malformed => "YamlError"
  | malformedFile => "YamlFileError"
  | invalid _ => "InvalidConfig"
  | missing _ => "MissingField"

/-- A refusal by its kind and its wording. -/
def report (e : ConfigError) : Json :=
  match e.message? with
  | some message => refusal e.kind message
  | none => refusalOf e.kind

end ConfigError

def Storage.toJson : Storage → Json
  | memory => obj [("type", str "memory")]
  | file path => obj [("type", str "sqlite"), ("path", str path)]

def CompressionConfig.toJson (c : CompressionConfig) : Json :=
  obj [("enabled", bool c.enabled), ("block_size", str c.blockSize)]

def ApiConfig.toJson (c : ApiConfig) : Json :=
  obj [("enabled", bool c.enabled), ("host", str c.host), ("port", nat c.portNumber)]

/-- Texts by group and key. -/
def TextTable.toJson (t : TextTable) : Json :=
  obj (t.toList.map fun (group, texts) =>
    (group, obj (texts.toList.map fun (key, text) => (key, str text))))

/-- What a configuration says. -/
def Config.toJson (c : Config) : Json :=
  obj [("node_id", orNull (c.nodeId.map str)), ("slice_width_secs", nat c.sliceWidthSecs),
    ("tick_interval_secs", orNull (c.tickIntervalSecs.map nat)),
    ("max_concurrent_jobs", nat c.maxConcurrentJobs),
    ("max_catch_up_slices", nat c.maxCatchUpSlices),
    ("shutdown_timeout_secs", nat c.shutdownTimeoutSecs), ("consistency", str c.consistency.name),
    ("storage", c.storage.toJson), ("compression", c.compression.toJson), ("api", c.api.toJson),
    ("settings", TextTable.toJson c.settings)]

end SliceScheduler
