import SliceScheduler.CommandLine.Arguments
import SliceScheduler.Config.Basic
import SliceScheduler.Engine.Alone
import SliceScheduler.Engine.Node
import SliceScheduler.Maintenance.Submission
import SliceScheduler.Store.Backend
/-!
# Carrying out commands

1. `submitJob` and `showStatus` are the programs of the commands that talk to a node;
2. `Command.carryOut` starts a node by itself over a store and runs the program of a command. The node
   sets the pointer if there is none, as every node does when it starts.
-/
namespace SliceScheduler.CommandLine

open Program

/-- What a command shows, and the code that it ends with. -/
structure Report where
  lines : List String
  code : Nat
deriving DecidableEq, Repr

namespace Report

/-- All went well. -/
def well (lines : List String) : Report := ⟨lines, 0⟩

/-- Something was refused after some lines were shown. -/
def refused (lines : List String) : Report := ⟨lines, 1⟩

/-- The arguments cannot be understood. -/
def misused : Report := ⟨[], 2⟩

/-- The node broke down. -/
def brokeDown : Report := ⟨[], 101⟩

end Report

/-- The name and the version of the program. -/
def versionLine : String := "slicer 0.1.0"

/-- The maintenance job that is asked for. -/
def Submission.request : Submission → Except SubmissionError Maintenance.JobRequest
  | deleteTenant tenant => Maintenance.requestDeleteTenant tenant
  | deleteMetric tenant type name => Maintenance.requestDeleteMetric tenant type name
  | compress target size => Maintenance.requestCompress target size

/-- What is shown of a job that was submitted. -/
def submittedLine (job : Job) : String :=
  "Scheduled " ++ job.name ++ " (" ++ job.id.text ++ ") at " ++ job.trigger.time.display

/-- Submits a maintenance job under an id. -/
def submitJob (id : JobId) (s : Submission) : Program Report := do
  match ← (Maintenance.submit id s.request).run with
  | .ok job => return .well [submittedLine job]
  | .error _ => return .refused []

/-- What is shown of the pointer. -/
def pointerLine (pointer : Option Slice) : String :=
  "Active queue: " ++ (pointer.map Slice.display).getD "not initialised"

/-- What is shown of a job. -/
def jobLine (job : Job) : String :=
  "  " ++ job.id.text ++ " " ++ job.name ++ " (" ++ job.type ++ ") due " ++
    job.trigger.time.display ++ " retries " ++ Text.naturalText job.retries.val

/-- Shows the pointer, the current slice and the jobs. -/
def showStatus : Program Report := do
  let .ok pointer ← call .getPointer | return .refused []
  let current ← currentSlice
  let lines := [pointerLine pointer, "Current slice: " ++ current.display]
  let .ok jobs ← call .listJobs | return .refused lines
  return .well (lines ++ ("Jobs: " ++ Text.naturalText jobs.length) :: jobs.map jobLine)

/-- The executors of maintenance jobs. -/
def maintenanceRegistry : Registry :=
  .ofList (Maintenance.all.zipIdx.map fun (kind, i) =>
    (kind.jobType, Registration.mk i kind.check kind.policy))

namespace Command

/-- The program of a command that talks to a node, if it ends by itself. -/
def program? (id : JobId) : Command → Option (Program Report)
  | submit job => some (submitJob id job)
  | status => some showStatus
  | run | validate => none

/-- Carries out a command over a store. A job that is submitted gets the id. -/
def carryOut (c : Config) (now : Instant) (id : JobId) (store : Backend) (command : Command) :
    Report × Backend :=
  match command.program? id with
  | none => (.well [], store)
  | some program =>
    match Node.start? (c.apply (.standard "")) maintenanceRegistry with
    | none => (.brokeDown, store)
    | some node =>
      let whole : Program Report := do
        discard ensurePointer
        program
      match whole.runAlone? Backend.perform ⟨node.desk, store, now⟩ with
      | some (report, s) => (report, s.store)
      | none => (.brokeDown, store)

end Command

/-- What comes of arguments that lead to no command, beside the text of the help. -/
def Halt.report : Halt → Report
  | help => .well []
  | version => .well [versionLine]
  | usage => .misused

end SliceScheduler.CommandLine
