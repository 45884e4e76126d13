import SliceScheduler.Engine.Submit
import SliceScheduler.Engine.Tick
/-!
# Tasks of a node

The programs that run on a node at the same time are its tasks: the draining of each slice at work,
each job that has been set off, each submission at hand, and the command that the node carries out.

1. `Role` says what a task is for, and `Role.Result` what it comes to;
2. `Code` is what is left of a task: a program, or a turn of moving the pointer inside one;
3. `Code.call?`, `Code.execution?` and `Code.pause?` say what a task waits for from outside.
-/
namespace SliceScheduler

/-- What is left of a task that comes to an `α`. -/
inductive Code (α : Type) where
  | run (p : Program α)
  /-- Turns of moving the pointer: the slices announced so far, the turn at hand, and the program
  after the last turn. -/
  | advance (fromTick : Bool) (announced : List Slice) (turn : Program Program.Turn)
      (rest : List Slice → Program α)

/-- What a node can be told. -/
inductive Command where
  | tick
  | pause
  | resume
  | shutdown
deriving DecidableEq, Repr

def Command.name : Command → String
  | tick => "tick"
  | pause => "pause"
  | resume => "resume"
  | shutdown => "shutdown"

/-- The answer of a node. -/
inductive Reply where
  | ticked (report : Except SchedulerError TickReport)
  | submitted (result : Except SchedulerError Job)
  | done
  | refused (error : SchedulerError)

/-- What a task is for. -/
inductive Role where
  | drain (slice : Slice)
  /-- A job, set off by the draining task of a number. -/
  | job (parent : Nat)
  /-- A request that is no command, to be answered under a ticket. -/
  | request (ticket : Nat)
  /-- A command, to be answered under a ticket unless the node gave it to itself. -/
  | command (ticket : Option Nat) (command : Command)
deriving DecidableEq, Repr

/-- What a task comes to. -/
abbrev Role.Result : Role → Type
  | drain _ | job _ => Unit
  | request _ | command _ _ => Reply

/-- A task under its number. -/
structure Task where
  number : Nat
  role : Role
  code : Code role.Result

namespace Code

variable {α : Type}

/-- The call that a task makes next, and the task after its answer. -/
def call? : Code α → Option ((op : Operation) × (op.Result → Code α))
  | run (.ask (.call op) next) => some ⟨op, fun a => run (next a)⟩
  | advance fromTick announced (.ask (.call op) next) rest =>
    some ⟨op, fun a => advance fromTick announced (next a) rest⟩
  | _ => none

/-- The execution that a task waits for, and the task after it. -/
def execution? : Code α → Option (Registration × Job × (Outcome → Code α))
  | run (.ask (.execute registration job) next) => some (registration, job, fun a => run (next a))
  | _ => none

/-- The length of time that a task waits, and the task after it. -/
def pause? : Code α → Option (Duration × Code α)
  | run (.ask (.pause d) next) => some (d, run (next ()))
  | _ => none

end Code

end SliceScheduler
