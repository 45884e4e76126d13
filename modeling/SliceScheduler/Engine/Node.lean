import SliceScheduler.Engine.Task
/-!
# Nodes

A node is a desk and the tasks at work on it.

1. `Node.settle` does the local work of a program up to its next call or wait;
2. `Node.goOn` puts what is left of a task behind the others, or takes the task off when it is done;
3. `Node.proceed?` lets a task go on that waits for something on the node itself: for a permit, for
   its jobs, or for the guard of the pointer;
4. `Node.send`, `Node.receive?` and `Node.tickItself?` are the commands of a node, one at a time.

Tasks are kept in the order in which they came to wait, so that whoever has waited longest for a
permit or the guard goes on first.
-/
namespace SliceScheduler

/-- What the part of a node that carries out commands is up to. -/
inductive LoopState where
  | idle
  | busy
  | ended
deriving DecidableEq, Repr

/-- A node. -/
structure Node where
  desk : Desk
  tasks : List Task
  /-- The number of the next task. -/
  nextNumber : Nat
  /-- Somebody moves the pointer. -/
  advancing : Bool
  /-- Permits that are left. -/
  permits : Nat
  /-- The latest draining task of each slice. -/
  drains : Std.ExtTreeMap Slice Nat
  loop : LoopState
  /-- Somebody may still send commands. -/
  listening : Bool
  inbox : List (Nat × Command)
  outbox : List (Nat × Reply)

namespace Node

/-- The greatest number of permits. -/
def maxPermits : Nat := 2305843009213693951

/-- A node with its settings and executors, before its first request. A node with too many permits
breaks down when it starts. -/
def start? (settings : NodeSettings) (registry : Registry) : Option Node :=
  if settings.maxConcurrent ≤ maxPermits then
    some {
      desk := .ofSettings settings registry
      tasks := []
      nextNumber := 0
      advancing := false
      permits := settings.maxConcurrent
      drains := ∅
      loop := .idle
      listening := true
      inbox := []
      outbox := [] }
  else none

/-- The name under which the node takes locks. -/
def name (n : Node) : String := n.desk.settings.node

/-- Adds a task at the end. -/
def spawn (n : Node) (role : Role) (p : Program role.Result) : Node :=
  { n with
    tasks := n.tasks ++ [⟨n.nextNumber, role, .run p⟩]
    nextNumber := n.nextNumber + 1 }

/-- The task is at work. -/
def isAtWork (n : Node) (number : Nat) : Bool :=
  n.tasks.any (·.number == number)

/-- The slices whose latest draining is not over. -/
def openDrains (n : Node) : Nat :=
  (n.drains.values.filter n.isAtWork).length

/-- Sets off the draining of a slice. -/
def startDrain (n : Node) (slice : Slice) : Node :=
  { n.spawn (.drain slice) (Program.drain slice) with
    drains := n.drains.insert slice n.nextNumber }

/-- Does the local work of a program of a task, up to its next call or wait. -/
def settle {α : Type} (now : Instant) (number : Nat) : Node → Program α → Node × Program α
  | n, .done a => (n, .done a)
  | n, .ask .look next => settle now number n (next n.desk)
  | n, .ask (.change f) next => settle now number { n with desk := f n.desk } (next ())
  | n, .ask .now next => settle now number n (next now)
  | n, .ask (.startDrain slice) next => settle now number (n.startDrain slice) (next ())
  | n, .ask (.startJob slice id) next =>
    settle now number (n.spawn (.job number) (Program.runJob slice id)) (next ())
  | n, .ask .openDrains next => settle now number n (next n.openDrains)
  | n, .ask .leavePointer next => settle now number { n with advancing := false } (next ())
  | n, .ask r next => (n, .ask r next)

/-! ## The end of a task -/

/-- Answers under a ticket. -/
def deliver (n : Node) (ticket : Nat) (reply : Reply) : Node :=
  { n with outbox := n.outbox ++ [(ticket, reply)] }

/-- The refusal of a command that was taken and is not going to be answered. -/
def dropped (command : Command) : Reply :=
  .refused (.channel ("failed to receive " ++ command.name ++ " response"))

/-- The refusal of a command that cannot be taken. -/
def unheard (command : Command) : Reply :=
  .refused (.channel ("failed to send " ++ command.name ++ " command"))

/-- Takes no more commands. -/
def endLoop (n : Node) : Node :=
  n.inbox.foldl (fun n (ticket, command) => n.deliver ticket (dropped command))
    { n with loop := .ended, inbox := [] }

/-- Acts on what a task came to. The permit of a job is free again; an answer is delivered; after a
command the node takes the next one, unless it was told to shut down. -/
def conclude (n : Node) : (role : Role) → role.Result → Node
  | .drain _, _ => n
  | .job _, _ => { n with permits := n.permits + 1 }
  | .request ticket, reply => n.deliver ticket reply
  | .command ticket command, reply =>
    let n := match ticket with
      | some ticket => n.deliver ticket reply
      | none => n
    match command with
    | .shutdown => n.endLoop
    | _ => { n with loop := .idle }

/-! ## Going on with a task -/

/-- Takes a task off. -/
def remove (n : Node) (t : Task) : Node :=
  { n with tasks := n.tasks.filter (·.number != t.number) }

/-- Moves a task behind the others, with what is left of it. -/
def requeue (n : Node) (t : Task) (code : Code t.role.Result) : Node :=
  let n := n.remove t
  { n with tasks := n.tasks ++ [{ t with code }] }

/-- Does the local work of a task and puts what is left of it behind the others. -/
def goOn (n : Node) (now : Instant) (t : Task) : Code t.role.Result → Node
  | .run p =>
    match n.settle now t.number p with
    | (n, .done result) => (n.remove t).conclude t.role result
    | (n, p) => n.requeue t (.run p)
  | .advance fromTick announced turn rest =>
    let (n, turn) := n.settle now t.number turn
    n.requeue t (.advance fromTick announced turn rest)

/-- Lets a task go on that waits for something on the node, if it is there. -/
def proceed? (n : Node) (now : Instant) (t : Task) : Option Node :=
  match t.code with
  | .run (.ask (.advance fromTick) next) =>
    if n.advancing then none
    else
      some ({ n with advancing := true }.goOn now t
        (.advance fromTick [] (Program.advanceTurn fromTick) next))
  | .advance fromTick announced (.done (.moved slice)) rest =>
    some (n.goOn now t
      (.advance fromTick (announced ++ slice.toList) (Program.advanceTurn fromTick) rest))
  | .advance _ announced (.done .stay) rest =>
    some ({ n with advancing := false }.goOn now t (.run (rest announced)))
  | .run (.ask .holdPointer next) =>
    if n.advancing then none else some ({ n with advancing := true }.goOn now t (.run (next ())))
  | .run (.ask .takePermit next) =>
    if n.permits = 0 then none
    else some ({ n with permits := n.permits - 1 }.goOn now t (.run (next ())))
  | .run (.ask .awaitJobs next) =>
    if n.tasks.any (·.role == .job t.number) then none else some (n.goOn now t (.run (next ())))
  | _ => none

/-! ## Submissions and commands -/

/-- Begins a task with its local work. -/
def begin (n : Node) (now : Instant) (role : Role) (p : Program role.Result) : Node :=
  { n with nextNumber := n.nextNumber + 1 }.goOn now ⟨n.nextNumber, role, .run p⟩ (.run p)

/-- Sets the pointer if there is none, as a node does when it starts. -/
def ensurePointer (n : Node) (now : Instant) (ticket : Nat) : Node :=
  n.begin now (.request ticket) do
    discard Program.ensurePointer
    return .done

/-- Carries out a submission, to be answered under a ticket. -/
def submit (n : Node) (now : Instant) (ticket : Nat) (p : Program.Submission Job) : Node :=
  n.begin now (.request ticket) do return .submitted (← p.run)

/-- Carries out a submission of which only a refusal is of interest. -/
def arrange (n : Node) (now : Instant) (ticket : Nat) (p : Program.Submission Unit) : Node :=
  n.begin now (.request ticket) do
    match ← p.run with
    | .ok () => return .done
    | .error e => return .refused e

/-- How a node carries out a command. -/
def carryOut : Command → Program Reply
  | .tick => do
    let desk ← Program.look
    return .ticked (← Program.tick (desk.mode = .running))
  | .pause => do
    Program.change fun desk => { desk with mode := .paused }
    return .done
  | .resume => do
    Program.change fun desk => { desk with mode := .running }
    return .done
  | .shutdown => do
    Program.change fun desk => { desk with mode := .stopped }
    if ← Program.stop then return .done else return dropped .shutdown

/-- Sends a command, to be answered under a ticket. -/
def send (n : Node) (ticket : Nat) (command : Command) : Node :=
  if n.loop = .ended then n.deliver ticket (unheard command)
  else { n with inbox := n.inbox ++ [(ticket, command)] }

/-- Begins to carry out a command. -/
def obey (n : Node) (now : Instant) (ticket : Option Nat) (command : Command) : Node :=
  { n with loop := .busy }.begin now (.command ticket command) (carryOut command)

/-- Takes the next command, if the node has nothing else to carry out. When nobody may send commands
any more, the node shuts down. -/
def receive? (n : Node) (now : Instant) : Option Node :=
  if n.loop = .idle then
    match n.inbox with
    | (ticket, command) :: rest => some ({ n with inbox := rest }.obey now (some ticket) command)
    | [] => if n.listening then none else some (n.obey now none .shutdown)
  else none

/-- Ticks at a time of the node's own, if the node has nothing else to carry out. -/
def tickItself? (n : Node) (now : Instant) : Option Node :=
  if n.loop = .idle then some (n.obey now none .tick) else none

end Node

end SliceScheduler
