import SliceScheduler.Engine.Node
/-!
# Stages of tasks

What is left of a task at one of its calls or waits is a program, and programs are functions that
cannot be looked into. A stage says which program it is.

1. `SeekStage`, `SubmitStage`, `TurnStage`, `WalkStage` and `JobStage` are the calls of setting the
   pointer, of a submission, of a turn of moving the pointer, of a tick after its turns, and of a
   job. Each has the call that it makes, the program that is left at it, and what the answer leads
   to: `op`, `program` and `react`;
2. `TaskStage` puts them together with the waits, and `TaskStage.task` is the task at a stage.
-/
namespace SliceScheduler

open Program

/-! ## Setting the pointer -/

/-- The calls of setting the pointer. -/
inductive SeekStage where
  | read
  | init (current : Slice)
  | reread

namespace SeekStage

def op : SeekStage → Operation
  | read => .getPointer
  | init current => .initPointer current
  | reread => .getPointer

/-- The pointer that was set by another node. -/
def rereadPointer : Program (Option Slice) := do
  return (← call .getPointer).toOption.join

def program : SeekStage → Program (Option Slice)
  | read => Program.ensurePointer
  | init current => Program.initPointer current
  | reread => rereadPointer

/-- The next call, or the pointer. -/
def react (now : Instant) (w : Duration) : (s : SeekStage) → s.op.Result → SeekStage ⊕ Option Slice
  | read, .error _ => .inr none
  | read, .ok (some pointer) => .inr (some pointer)
  | read, .ok none => .inl (init (Slice.containing now w))
  | init current, .ok true => .inr (some current)
  | init _, .ok false => .inl reread
  | init _, .error _ => .inr none
  | reread, answer => .inr answer.toOption.join

end SeekStage

/-! ## Submitting a job -/

/-- What a submission asks of a desk before any call to the store. -/
def Desk.screen (desk : Desk) (job : Job) : Except SchedulerError Unit :=
  if desk.mode = .stopped ∨ desk.stopped then .error .stopped
  else
    match job.check desk.width with
    | .error e => .error (.invalidSubmission e)
    | .ok () =>
      match desk.registry[job.type]? with
      | none => .error (.invalidSubmission (.unknownJobType job.type))
      | some registration =>
        (registration.check job).mapError fun e => .invalidSubmission (.ofJobError e)

/-- The calls of the submission of a job. -/
inductive SubmitStage where
  | pointer
  | sets
  | name (id : JobId) (rest : List JobId)
  | insert
  | enter

namespace SubmitStage

/-- Goes on with the jobs whose names are to be compared. -/
def names : List JobId → SubmitStage
  | [] => insert
  | id :: rest => name id rest

def op (job : Job) (slice : Slice) : SubmitStage → Operation
  | pointer => .getPointer
  | sets => .sliceSets slice
  | name id _ => .getJob id
  | insert => .insertJob job
  | enter => .addScheduled slice job.id

def program (job : Job) (slice : Slice) : SubmitStage → Submission Job
  | pointer => placeJob job slice
  | sets => fileJob job slice
  | name id rest => nameJob job slice (id :: rest)
  | insert => storeJob job slice
  | enter => enterJob job slice

/-- The next call, or the answer to the submission. -/
def react (now : Instant) (w : Duration) (job : Job) (slice : Slice) :
    (s : SubmitStage) → (s.op job slice).Result → SubmitStage ⊕ Except SchedulerError Job
  | pointer, .error e => .inr (.error (.storage e))
  | pointer, .ok found =>
    let active := found.getD (Slice.containing now w)
    if slice < active then
      .inr (.error (.invalidSubmission (.sliceAlreadyProcessed slice active)))
    else .inl sets
  | sets, .error e => .inr (.error (.storage e))
  | sets, .ok index => .inl (names index.scheduled.toList)
  | name _ rest, .error (.notFound _) => .inl (names rest)
  | name _ _, .error e => .inr (.error (.storage e))
  | name _ rest, .ok existing =>
    if existing.type = job.type ∧ existing.name = job.name then
      .inr (.error (.invalidSubmission (.duplicateJobName job.type job.name slice)))
    else .inl (names rest)
  | insert, .error e => .inr (.error (.storage e))
  | insert, .ok _ => .inl enter
  | enter, .error e => .inr (.error (.storage e))
  | enter, .ok _ => .inr (.ok job)

end SubmitStage

/-! ## Moving the pointer -/

/-- The calls of a turn of moving the pointer. -/
inductive TurnStage where
  | seek
  | recheck (pointer : Slice)
  | clear (pointer : Slice)
  | move (pointer : Slice)
  /-- The lock goes back; the node moved the pointer or another one did. -/
  | back (pointer : Slice) (moved : Bool)

/-- What the answer to a call of a turn leads to: the desk, the slice that is drained once more, and
the next call or the end of the turn. -/
structure TurnReaction where
  desk : Desk
  drained : Option Slice
  next : TurnStage ⊕ Turn

namespace TurnStage

def op (set : NodeSettings) : TurnStage → Operation
  | seek => .getPointer
  | recheck pointer => .sliceSets pointer
  | clear pointer => .deleteSlice pointer
  | move pointer => .movePointer pointer (pointer.next set.width)
  | back pointer _ => .unlockExclusive pointer.advanceLock set.node

/-- The lock that a node takes to work on a slice. -/
def lock (set : NodeSettings) (slice : Slice) : HeldLock :=
  ⟨slice.advanceLock, set.node, .exclusive⟩

def program (fromTick : Bool) (set : NodeSettings) : TurnStage → Program Turn
  | seek => seekDrained fromTick
  | recheck pointer => Program.recheck fromTick pointer
  | clear pointer => Program.clear pointer
  | move pointer => movePast pointer (pointer.next set.width)
  | back pointer moved => (returnLock (lock set pointer) pointer).andThen fun _ =>
      concludeTurn pointer moved

/-- The desk after the lock of a slice was given back. -/
def returned (desk : Desk) (slice : Slice) (answer : Except StoreError Bool) : Desk :=
  { desk with held := desk.held.afterRelease (lock desk.settings slice) answer }.forget slice

def react (fromTick : Bool) (set : NodeSettings) (desk : Desk) :
    (s : TurnStage) → (s.op set).Result → TurnReaction
  | seek, .error _ | seek, .ok none => ⟨desk, none, .inr .stay⟩
  | seek, .ok (some pointer) =>
    if desk.progress[pointer]? ≠ some .drained then ⟨desk, none, .inr .stay⟩
    else ⟨desk, none, .inl (recheck pointer)⟩
  | recheck _, .error _ => ⟨desk, none, .inr .stay⟩
  | recheck pointer, .ok index =>
    if index.pending ≠ [] then
      if fromTick then ⟨desk.setProgress pointer .draining, some pointer, .inr .stay⟩
      else ⟨desk, none, .inr .stay⟩
    else ⟨desk, none, .inl (clear pointer)⟩
  | clear _, .error _ => ⟨desk, none, .inr .stay⟩
  | clear pointer, .ok _ => ⟨desk, none, .inl (move pointer)⟩
  | move _, .error _ => ⟨desk, none, .inr .stay⟩
  | move pointer, .ok moved => ⟨desk, none, .inl (back pointer moved)⟩
  | back pointer true, answer =>
    ⟨(returned desk pointer answer).announce (.sliceFinished pointer), none,
      .inr (.moved (some pointer))⟩
  | back pointer false, answer => ⟨returned desk pointer answer, none, .inr (.moved none)⟩

theorem settings_react (fromTick : Bool) (set : NodeSettings) (desk : Desk) (s : TurnStage)
    (answer : (s.op set).Result) :
    (s.react fromTick set desk answer).desk.settings = desk.settings := by
  cases s with
  | seek =>
    rcases answer with e | _ | pointer
    · rfl
    · rfl
    · simp only [react]
      split <;> rfl
  | recheck pointer =>
    rcases answer with e | index
    · rfl
    · simp only [react]
      split
      · split <;> rfl
      · rfl
  | clear pointer => rcases answer with e | _ <;> rfl
  | move pointer => rcases answer with e | _ <;> rfl
  | back pointer moved => cases moved <;> rfl

/-- A turn announces nothing but that a slice is finished. -/
theorem log_react (fromTick : Bool) (set : NodeSettings) (desk : Desk) (s : TurnStage)
    (answer : (s.op set).Result) :
    (s.react fromTick set desk answer).desk.log = desk.log ∨
      ∃ slice, (s.react fromTick set desk answer).desk.log =
        (desk.announce (.sliceFinished slice)).log := by
  cases s with
  | seek =>
    rcases answer with e | _ | pointer
    · exact .inl rfl
    · exact .inl rfl
    · simp only [react]
      split <;> exact .inl rfl
  | recheck pointer =>
    rcases answer with e | index
    · exact .inl rfl
    · simp only [react]
      split
      · split <;> exact .inl rfl
      · exact .inl rfl
  | clear pointer => rcases answer with e | _ <;> exact .inl rfl
  | move pointer => rcases answer with e | _ <;> exact .inl rfl
  | back pointer moved =>
    cases moved with
    | true => exact .inr ⟨pointer, rfl⟩
    | false => exact .inl rfl

/-- The call that a turn begins with, unless the node moves the pointer no more. -/
def first (desk : Desk) : TurnStage ⊕ Turn :=
  if desk.stopped then .inr .stay else .inl seek

end TurnStage

/-! ## A tick after its turns -/

/-- The calls of a tick after its turns of moving the pointer. -/
inductive WalkStage where
  | read
  | ensure (s : SeekStage)
  /-- A stale slice is given back, then the rest of them. -/
  | release (pointer slice : Slice) (rest : List Slice)
  /-- The lock of a slice is taken; so many slices may be visited after it. -/
  | take (pointer current : Slice) (limit : Nat) (slice : Slice) (before : List (Slice × Visit))

/-- What the answer to a call of a tick leads to: the desk, the slice that is to be drained, and the
next call or what came of the tick. -/
structure WalkReaction where
  desk : Desk
  drained : Option Slice
  next : WalkStage ⊕ TickResult

namespace WalkStage

def op (set : NodeSettings) : WalkStage → Operation
  | read => .getPointer
  | ensure s => s.op
  | release _ slice _ => .unlockExclusive slice.advanceLock set.node
  | take _ _ _ slice _ => .lockExclusive slice.advanceLock set.node

def program (dispatch : Bool) (advanced : List Slice) (set : NodeSettings) :
    WalkStage → Program TickResult
  | read => tickOn dispatch advanced
  | ensure s => s.program.andThen fun found => tickFrom dispatch advanced (ensuredPointer found)
  | release pointer slice rest =>
    (returnLock (TurnStage.lock set slice) slice).andThen fun _ =>
      (giveBackAll rest).andThen fun _ => walkFrom dispatch advanced pointer
  | take pointer current limit slice before =>
    (takeSlice (TurnStage.lock set slice) slice).andThen fun outcome => look.andThen fun desk =>
      (walk current limit (slice.next desk.width) (before ++ [(slice, outcome)])).andThen
        fun walked => done (reportWalk advanced pointer walked)

/-- Goes on to the first slice that the node does not have yet. -/
def walkOn (desk : Desk) (advanced : List Slice) (pointer current : Slice) :
    Nat → Slice → List (Slice × Visit) → WalkStage ⊕ TickResult
  | 0, _, before => .inr (reportWalk advanced pointer before)
  | limit + 1, slice, before =>
    if current < slice then .inr (reportWalk advanced pointer before)
    else if desk.progress.contains slice then
      walkOn desk advanced pointer current limit (slice.next desk.width)
        (before ++ [(slice, .atWork)])
    else .inl (take pointer current limit slice before)

/-- Begins the walk from the pointer, if the tick dispatches at all. -/
def setOut (now : Instant) (dispatch : Bool) (desk : Desk) (advanced : List Slice)
    (pointer : Slice) : WalkStage ⊕ TickResult :=
  if dispatch then
    walkOn desk advanced pointer (Slice.containing now desk.width) desk.settings.maxCatchUp
      pointer []
  else .inr (reportWalk advanced pointer [])

/-- Gives back what is left of the stale slices before the walk. -/
def releaseOn (now : Instant) (dispatch : Bool) (desk : Desk) (advanced : List Slice)
    (pointer : Slice) : List Slice → WalkStage ⊕ TickResult
  | [] => setOut now dispatch desk advanced pointer
  | slice :: rest => .inl (release pointer slice rest)

/-- Goes on from the pointer, if there is one. -/
def fromPointer (now : Instant) (dispatch : Bool) (desk : Desk) (advanced : List Slice) :
    Except SchedulerError Slice → WalkStage ⊕ TickResult
  | .error e => .inr (.error e)
  | .ok pointer => releaseOn now dispatch desk advanced pointer (desk.staleSlices pointer)

/-- The desk after an attempt to take the lock of a slice, without what it says about the slice. -/
def noted (desk : Desk) (slice : Slice) (answer : Except StoreError Bool) : Desk :=
  { desk with held := (desk.held.afterAcquire (TurnStage.lock desk.settings slice) answer).2 }

def react (now : Instant) (dispatch : Bool) (advanced : List Slice) (set : NodeSettings)
    (desk : Desk) : (s : WalkStage) → (s.op set).Result → WalkReaction
  | read, .error e => ⟨desk, none, .inr (.error (.storage e))⟩
  | read, .ok (some pointer) => ⟨desk, none, fromPointer now dispatch desk advanced (.ok pointer)⟩
  | read, .ok none => ⟨desk, none, .inl (ensure .read)⟩
  | ensure s, answer =>
    match s.react now desk.width answer with
    | .inl s => ⟨desk, none, .inl (ensure s)⟩
    | .inr found => ⟨desk, none, fromPointer now dispatch desk advanced (ensuredPointer found)⟩
  | release pointer slice rest, answer =>
    let desk := TurnStage.returned desk slice answer
    ⟨desk, none, releaseOn now dispatch desk advanced pointer rest⟩
  | take pointer current limit slice before, answer =>
    let noted := noted desk slice answer
    match (answer : Except StoreError Bool) with
    | .ok true =>
      let desk := noted.setProgress slice .draining
      ⟨desk, some slice, walkOn desk advanced pointer current limit (slice.next desk.width)
        (before ++ [(slice, .dispatched)])⟩
    | .ok false =>
      let desk := noted.announce (.tickDeferred slice)
      ⟨desk, none, walkOn desk advanced pointer current limit (slice.next desk.width)
        (before ++ [(slice, .deferred)])⟩
    | .error _ =>
      ⟨noted, none, walkOn noted advanced pointer current limit (slice.next noted.width)
        (before ++ [(slice, .deferred)])⟩

theorem settings_react (now : Instant) (dispatch : Bool) (advanced : List Slice)
    (set : NodeSettings) (desk : Desk) (s : WalkStage) (answer : (s.op set).Result) :
    (s.react now dispatch advanced set desk answer).desk.settings = desk.settings := by
  cases s with
  | read => rcases answer with e | _ | pointer <;> rfl
  | ensure s =>
    simp only [react]
    split <;> rfl
  | release pointer slice rest => rfl
  | take pointer current limit slice before => rcases answer with e | _ | _ <;> rfl

/-- A tick announces after its turns nothing but that another node has a slice. -/
theorem log_react (now : Instant) (dispatch : Bool) (advanced : List Slice) (set : NodeSettings)
    (desk : Desk) (s : WalkStage) (answer : (s.op set).Result) :
    (s.react now dispatch advanced set desk answer).desk.log = desk.log ∨
      ∃ slice, (s.react now dispatch advanced set desk answer).desk.log =
        (desk.announce (.tickDeferred slice)).log := by
  cases s with
  | read => rcases answer with e | _ | pointer <;> exact .inl rfl
  | ensure s =>
    simp only [react]
    split <;> exact .inl rfl
  | release pointer slice rest => exact .inl rfl
  | take pointer current limit slice before =>
    rcases answer with e | _ | _
    · exact .inl rfl
    · exact .inr ⟨slice, rfl⟩
    · exact .inl rfl

end WalkStage

/-! ## Running a job -/

/-- Announces events in their order. -/
def Desk.announceAll (desk : Desk) (events : List Event) : Desk :=
  events.foldl announce desk

@[simp] theorem Desk.settings_announceAll (desk : Desk) (events : List Event) :
    (desk.announceAll events).settings = desk.settings := by
  induction events generalizing desk with
  | nil => rfl
  | cons e events ih => exact ih (desk.announce e)

@[simp] theorem Desk.progress_announceAll (desk : Desk) (events : List Event) :
    (desk.announceAll events).progress = desk.progress := by
  induction events generalizing desk with
  | nil => rfl
  | cons e events ih => exact ih (desk.announce e)

/-- The calls of a job that was set off. -/
inductive JobStage where
  | load
  | pass
  | deadLetter (type : String)
  | activate (job : Job) (registration : Registration)
  /-- The four writes that put a job on its new trigger. -/
  | update (job : Job)
  | enter (job : Job)
  | finish (job : Job)
  | leave (job : Job)
  /-- The two writes that end a job. -/
  | retire (id : JobId)
  | delete (id : JobId)

/-- What a job comes to between its calls. -/
inductive JobNext where
  | call (s : JobStage)
  | execute (job : Job) (registration : Registration)
  | spent

namespace JobStage

def op (w : Duration) (slice : Slice) (id : JobId) : JobStage → Operation
  | load => .getJob id
  | pass => .addFinished slice id
  | deadLetter _ => .addFinished slice id
  | activate _ _ => .addActive slice id
  | update job => .updateJob job
  | enter job => .addScheduled (job.slice w) job.id
  | finish job => .addFinished slice job.id
  | leave job => .removeScheduled slice job.id
  | retire id => .addFinished slice id
  | delete id => .deleteJob id

/-- Announces the move of a job after the writes that are left of it. -/
def moving (w : Duration) (slice : Slice) (job : Job) (writes : Writing Unit) : Program Unit :=
  writes.run.andThen (announceMove slice (job.slice w) job)

def program (w : Duration) (slice : Slice) (id : JobId) : JobStage → Program Unit
  | load => runJob slice id
  | pass => passOver slice id
  | deadLetter type => Program.deadLetter slice id type
  | activate job registration => Program.execute slice id job registration
  | update job => moving w slice job (moveJob slice (job.slice w) job)
  | enter job => moving w slice job (indexTarget slice (job.slice w) job.id)
  | finish job => moving w slice job (finishSource slice job.id)
  | leave job => moving w slice job (leaveSlice slice job.id)
  | retire id => Program.retire slice id
  | delete id => deleteJob id

/-- What becomes of a job that was loaded. -/
def loaded (desk : Desk) (slice : Slice) (job : Job) : JobStage :=
  if job.slice desk.width ≠ slice then pass
  else
    match desk.registry[job.type]? with
    | none => deadLetter job.type
    | some registration => activate job registration

/-- The events and what comes next after the answer to a call. -/
def react (w : Duration) (desk : Desk) (slice : Slice) (id : JobId) :
    (s : JobStage) → (s.op w slice id).Result → List Event × JobNext
  | load, .error (.notFound _) => ([], .call pass)
  | load, .error _ => ([], .spent)
  | load, .ok job => ([], .call (loaded desk slice job))
  | pass, _ => ([], .spent)
  | deadLetter type, _ => ([.jobDeadLettered id type slice], .spent)
  | activate _ _, .error _ => ([], .spent)
  | activate job registration, .ok _ =>
    ([.jobStarted id job.type slice], .execute job registration)
  | update _, .error _ | enter _, .error _ | finish _, .error _ | leave _, .error _ => ([], .spent)
  | update job, .ok _ => ([], .call (enter job))
  | enter job, .ok _ => ([], .call (finish job))
  | finish job, .ok _ => ([], .call (leave job))
  | leave job, .ok _ => ([.jobRescheduled job.id slice (job.slice w) job.retries], .spent)
  | retire _, .error _ => ([], .spent)
  | retire id, .ok _ => ([], .call (delete id))
  | delete _, _ => ([], .spent)

/-- The call that puts a job on its next occurrence, or ends it. -/
def completing (now : Instant) (desk : Desk) (job : Job) : JobStage :=
  match job.trigger.next? now desk.width with
  | some next => update (job.rescheduled next Count.zero)
  | none => retire job.id

/-- The events and the call after the run of an executor. -/
def outcome (now : Instant) (desk : Desk) (slice : Slice) (id : JobId) (job : Job)
    (policy : RetryPolicy) (outcome : Outcome) : List Event × JobStage :=
  match outcome.error? with
  | none => ([.jobCompleted id job.type slice], completing now desk job)
  | some error =>
    match policy.decide job error with
    | .retryAfter delay =>
      let trigger := retryTrigger now delay desk.width
      ([.jobFailed job.id job.type slice error.message (some trigger.time)],
        update (job.rescheduled trigger job.retries.succ))
    | .terminal =>
      ([.jobFailed job.id job.type slice error.message none], completing now desk job)

end JobStage

/-! ## Tasks -/

/-- The call that gives up a lock. -/
def HeldLock.giveUpOp (lock : HeldLock) : Operation :=
  match lock.mode with
  | .exclusive => .unlockExclusive lock.name lock.owner
  | .shared => .unlockShared lock.name lock.owner

/-- Whose turns of moving the pointer they are. -/
inductive Mover where
  | tick (ticket : Option Nat) (dispatch : Bool)
  | drain (slice : Slice)

namespace Mover

def role : Mover → Role
  | tick ticket _ => .command ticket .tick
  | drain slice => .drain slice

def fromTick : Mover → Bool
  | tick _ _ => true
  | drain _ => false

/-- What is left after the last turn. -/
def rest : (mover : Mover) → List Slice → Program mover.role.Result
  | tick _ dispatch, announced => (tickOn dispatch announced).andThen fun r => done (.ticked r)
  | drain _, _ => done ()

end Mover

/-- A task at one of its calls or waits. -/
inductive TaskStage where
  /-- A node that starts. -/
  | start (ticket : Nat) (s : SeekStage)
  | submission (ticket : Nat) (submitted : Job) (s : SubmitStage)
  /-- A wait for the guard of the pointer, and the turns under it with what they came to. -/
  | guard (mover : Mover)
  | turn (mover : Mover) (announced : List Slice) (s : TurnStage)
  | turned (mover : Mover) (announced : List Slice) (t : Turn)
  | walk (ticket : Option Nat) (dispatch : Bool) (announced : List Slice) (s : WalkStage)
  /-- A shutdown that waits for the slices at work, for the guard, and that gives up the locks. -/
  | rest (ticket : Option Nat) (looks : Nat)
  | hold (ticket : Option Nat)
  | giveUp (ticket : Option Nat) (lock : HeldLock) (others : List HeldLock) (live : Nat)
  /-- The draining of a slice: its jobs are looked up, set off under a permit each, and awaited. -/
  | sets (slice : Slice)
  | permit (slice : Slice) (id : JobId) (others : List JobId)
  | jobs (slice : Slice)
  | job (parent : Nat) (slice : Slice) (id : JobId) (s : JobStage)
  | running (parent : Nat) (slice : Slice) (id : JobId) (loaded : Job)
    (registration : Registration)

namespace TaskStage

def role : TaskStage → Role
  | start ticket _ => .request ticket
  | submission ticket _ _ => .request ticket
  | guard mover => mover.role
  | turn mover _ _ => mover.role
  | turned mover _ _ => mover.role
  | walk ticket _ _ _ => .command ticket .tick
  | rest ticket _ => .command ticket .shutdown
  | hold ticket => .command ticket .shutdown
  | giveUp ticket _ _ _ => .command ticket .shutdown
  | sets slice => .drain slice
  | permit slice _ _ => .drain slice
  | jobs slice => .drain slice
  | job parent _ _ _ => .job parent
  | running parent _ _ _ _ => .job parent

/-- The answer to a shutdown that came to an end or was broken off. -/
def stopReply (ended : Bool) : Program Reply :=
  if ended then done .done else done (Node.dropped .shutdown)

/-- What is left of a shutdown that looks at the slices at work. -/
def looking (looks : Nat) : Program Reply :=
  (do
    awaitDrains looks
    halt : Program Bool).andThen stopReply

/-- What is left of a shutdown while it gives up locks. -/
def givingUp (live : Nat) (locks : List HeldLock) : Program Reply :=
  (do
    discard (Holder.giveUpFrom call live locks)
    request .leavePointer
    return true : Program Bool).andThen stopReply

/-- What is left of a shutdown that has the guard of the pointer. -/
def lettingGo : Program Reply :=
  look.andThen fun desk =>
    (change fun desk => { desk with held := .empty }).andThen fun _ =>
      givingUp 0 desk.held.held

def code (set : NodeSettings) : (s : TaskStage) → Code s.role.Result
  | start _ s => .run (s.program.andThen fun _ => done .done)
  | submission _ submitted s =>
    .run ((s.program submitted (submitted.slice set.width)).run.andThen fun r =>
      done (.submitted r))
  | guard (.tick ticket dispatch) =>
    .run (ask (.advance true) (Mover.tick ticket dispatch).rest)
  | guard (.drain slice) => .run (ask (.advance false) (Mover.drain slice).rest)
  | turn mover announced s =>
    .advance mover.fromTick announced (s.program mover.fromTick set) mover.rest
  | turned mover announced t => .advance mover.fromTick announced (done t) mover.rest
  | walk _ dispatch announced s =>
    .run ((s.program dispatch announced set).andThen fun r => done (.ticked r))
  | rest _ looks =>
    .run (ask (.pause (Duration.ofMillis pollMillis)) fun _ => looking looks)
  | hold _ => .run (giveUpLocks.andThen stopReply)
  | giveUp _ lock others live => .run (givingUp live (lock :: others))
  | sets slice => .run (drain slice)
  | permit slice id others =>
    .run ((startJobs slice (id :: others)).andThen fun _ => awaitDrain slice)
  | jobs slice => .run (awaitDrain slice)
  | job _ slice id s => .run (s.program set.width slice id)
  | running _ slice id loaded registration =>
    .run (awaitOutcome slice id loaded registration)

/-- The task waits for the store. -/
def isCall : TaskStage → Bool
  | start .. | submission .. | turn .. | walk .. | giveUp .. | sets .. | job .. => true
  | _ => false

/-- The task of a number at a stage, on a node of some settings. -/
def task (set : NodeSettings) (number : Nat) (s : TaskStage) : Task := ⟨number, s.role, s.code set⟩

end TaskStage

end SliceScheduler
