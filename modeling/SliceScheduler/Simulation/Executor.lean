import SliceScheduler.Maintenance.Executor
/-!
# Executors of a simulation

Executors that behave in a known way and note what they were given.

1. `Executor.begin` starts a run of a job: it is over at once, or it sleeps, or it is held back;
2. `Executor.wake` is the end of a sleep, `Executor.release` lets go of what is held back;
3. `Executor.ran` are the jobs that were noted.
-/
namespace SliceScheduler

/-- What one run of a script comes to, after a sleep if there is one. -/
structure ScriptLine where
  sleep : Option Duration
  outcome : Outcome
deriving DecidableEq, Repr

/-- An executor of a simulation. -/
inductive Executor where
  /-- Succeeds, after a delay if there is one, and notes the job at the end. -/
  | recording (delay : Option Duration) (ran : List Job)
  /-- Fails so many times and then succeeds. -/
  | failing (error : JobError) (left : Nat) (ran : List Job)
  /-- Holds every run back until it is released. -/
  | blocking (started finished : Nat) (released : Bool)
  /-- Follows a script for each job: the runs of a job go through its lines and stay at the last. -/
  | script (lines : List ScriptLine) (ran : List Job)
  /-- Runs a maintenance job on the service of a number. -/
  | maintenance (kind : Maintenance) (service : Nat)

/-- How far a run is after its start. -/
inductive Stage where
  | spent (outcome : Outcome)
  | asleep (d : Duration) (outcome : Outcome)
  | held
  /-- The rest is up to a maintenance service. -/
  | service (kind : Maintenance) (service : Nat)

namespace Executor

instance : Inhabited Executor := ⟨recording none []⟩

/-- The line for the next run of a job. Without lines every run succeeds. -/
def nextLine (lines : List ScriptLine) (ran : List Job) (job : Job) : ScriptLine :=
  let runs := (ran.filter (·.id == job.id)).length
  (lines[runs]? <|> lines.getLast?).getD ⟨none, .success⟩

/-- Starts a run of a job. -/
def begin (job : Job) : Executor → Executor × Stage
  | recording none ran => (recording none (ran ++ [job]), .spent .success)
  | recording (some d) ran => (recording (some d) ran, .asleep d .success)
  | failing error left ran =>
    (failing error (left - 1) (ran ++ [job]),
      .spent (if left = 0 then .success else .failure error))
  | blocking started finished true => (blocking (started + 1) (finished + 1) true, .spent .success)
  | blocking started finished false => (blocking (started + 1) finished false, .held)
  | script lines ran =>
    let line := nextLine lines ran job
    let stage := match line.sleep with
      | some d => .asleep d line.outcome
      | none => .spent line.outcome
    (script lines (ran ++ [job]), stage)
  | maintenance kind service => (maintenance kind service, .service kind service)

/-- Ends the sleep of a run of a job. -/
def wake (job : Job) : Executor → Executor
  | recording delay ran => recording delay (ran ++ [job])
  | e => e

/-- Lets go of the runs that are held back, and of those to come. -/
def release : Executor → Executor
  | blocking started finished _ => blocking started finished true
  | e => e

/-- Nothing is held back. -/
def isReleased : Executor → Bool
  | blocking _ _ released => released
  | _ => true

/-- Ends a run that was held back. -/
def finish : Executor → Executor
  | blocking started finished released => blocking started (finished + 1) released
  | e => e

/-- The jobs that were noted. -/
def ran : Executor → List Job
  | recording _ ran | failing _ _ ran | script _ ran => ran
  | _ => []

end Executor

end SliceScheduler
