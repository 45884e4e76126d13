import Mathlib.Logic.Function.Basic
import SliceScheduler.Proofs.Run
import SliceScheduler.Proofs.Stage
import SliceScheduler.Proofs.StoreEffect
/-!
# Clusters by the stages of their tasks

1. `Post` is a node whose tasks are given by their stages, under their numbers, and `Fleet` is a
   cluster of posts;
2. `Effect` is what one step of a task does to its post, and `Post.apply` does it;
3. `Post.Works` lists the steps of a task, `Post.Obeys` those with which a command begins, and
   `Fleet.Step` the steps of a fleet;
4. `TaskStage.op?` is the call that a task waits for, `TaskStage.makes` says which tasks make the
   calls that change something, and `Post.Works.store` that a step changes the store by the call of
   its task at most;
5. `Fleet.Uniform` says that all posts have one slice width, and `Fleet.Uniform.step` that they
   keep it;
6. `Post.Begins` says what a step from outside does to a post, and `Fleet.Step.kinds` sorts the
   steps.

A post leaves out the permits and the record of latest drainings. A task of a post may go on at any
time where a node counts permits, and a shutdown may stop waiting at any time.
-/
namespace SliceScheduler

open Program (Turn TickResult)

/-- A node by the stages of its tasks. -/
structure Post where
  desk : Desk
  stages : Nat → Option TaskStage
  nextNumber : Nat
  advancing : Bool
  loop : LoopState
  listening : Bool
  inbox : List (Nat × Command)
  outbox : List (Nat × Reply)

/-- What a step of a task does to its post. -/
structure Effect where
  desk : Desk
  /-- The stage that the task comes to, unless it is over. -/
  next : Option TaskStage
  /-- A task that is set off. -/
  spawned : Option TaskStage
  advancing : Bool
  loop : LoopState
  inbox : List (Nat × Command)
  replies : List (Nat × Reply)

/-- Why a task goes on. -/
inductive Prompt where
  | answer (fault : Option StoreError)
  | proceed
  | finish (outcome : Outcome)
  | wake

namespace Post

/-- The post has seen to the pointer and may be talked to. -/
def isOpen (p : Post) : Prop := 0 < p.nextNumber ∧ p.stages 0 = none

/-- Adds a task, if there is one to add. -/
def spawn (p : Post) : Option TaskStage → Post
  | some s =>
    { p with
      stages := Function.update p.stages p.nextNumber (some s)
      nextNumber := p.nextNumber + 1 }
  | none => p

/-- Lets the task of a number take effect. -/
def apply (p : Post) (number : Nat) (e : Effect) : Post where
  desk := e.desk
  stages := Function.update (p.spawn e.spawned).stages number e.next
  nextNumber := (p.spawn e.spawned).nextNumber
  advancing := e.advancing
  loop := e.loop
  listening := p.listening
  inbox := e.inbox
  outbox := p.outbox ++ e.replies

/-- Lets a new task take effect. -/
def begin (p : Post) (e : Effect) : Post :=
  { p with nextNumber := p.nextNumber + 1 }.apply p.nextNumber e

/-! ## Effects -/

/-- The task comes to a stage, or to its end, and does nothing else. -/
def onto (p : Post) (s : Option TaskStage) : Effect where
  desk := p.desk
  next := s
  spawned := none
  advancing := p.advancing
  loop := p.loop
  inbox := p.inbox
  replies := []

/-- A command is answered, and the node takes the next one. -/
def answered (p : Post) (ticket : Option Nat) (reply : Reply) : Effect :=
  { p.onto none with loop := .idle, replies := ticket.toList.map (·, reply) }

/-- A shutdown is answered, and the node takes no more commands. -/
def ended (p : Post) (ticket : Option Nat) (reply : Reply) : Effect :=
  { p.onto none with
    loop := .ended
    inbox := []
    replies := ticket.toList.map (·, reply) ++
      p.inbox.map fun (ticket, command) => (ticket, Node.dropped command) }

def afterSeek (p : Post) (ticket : Nat) : SeekStage ⊕ Option Slice → Effect
  | .inl s => p.onto (some (.start ticket s))
  | .inr _ => { p.onto none with replies := [(ticket, .done)] }

def afterSubmit (p : Post) (ticket : Nat) (job : Job) :
    SubmitStage ⊕ Except SchedulerError Job → Effect
  | .inl s => p.onto (some (.submission ticket job s))
  | .inr result => { p.onto none with replies := [(ticket, .submitted result)] }

/-- The stage of a turn, or after it. -/
def turnPlace (mover : Mover) (announced : List Slice) : TurnStage ⊕ Turn → TaskStage
  | .inl s => .turn mover announced s
  | .inr t => .turned mover announced t

def afterTurn (p : Post) (mover : Mover) (announced : List Slice) (r : TurnReaction) : Effect :=
  { p.onto (some (turnPlace mover announced r.next)) with
    desk := r.desk, spawned := r.drained.map .sets }

/-- The last turn is over, and others may move the pointer. -/
def afterTurns (p : Post) (announced : List Slice) : Mover → Effect
  | .tick ticket dispatch =>
    { p.onto (some (.walk ticket dispatch announced .read)) with advancing := false }
  | .drain _ => { p.onto none with advancing := false }

def afterWalk (p : Post) (ticket : Option Nat) (dispatch : Bool) (announced : List Slice)
    (r : WalkReaction) : Effect :=
  match r.next with
  | .inl s =>
    { p.onto (some (.walk ticket dispatch announced s)) with
      desk := r.desk, spawned := r.drained.map .sets }
  | .inr result =>
    { p.answered ticket (.ticked result) with desk := r.desk, spawned := r.drained.map .sets }

/-- The jobs of a slice are set off one by one, and then awaited. -/
def permits (slice : Slice) : List JobId → TaskStage
  | [] => .jobs slice
  | id :: others => .permit slice id others

/-- The jobs of a slice have come to an end. -/
def drained (p : Post) (slice : Slice) : Effect :=
  { p.onto (some (.guard (.drain slice))) with desk := p.desk.setProgress slice .drained }

def afterSets (p : Post) (slice : Slice) : Except StoreError SliceSets → Effect
  | .ok index => p.onto (some (permits slice index.pending))
  | .error _ => p.drained slice

/-- The stage that a job comes to, unless it is over. -/
def jobPlace (parent : Nat) (slice : Slice) (id : JobId) : JobNext → Option TaskStage
  | .call s => some (.job parent slice id s)
  | .execute job registration => some (.running parent slice id job registration)
  | .spent => none

def afterJob (p : Post) (parent : Nat) (slice : Slice) (id : JobId)
    (r : List Event × JobNext) : Effect :=
  { p.onto (jobPlace parent slice id r.2) with desk := p.desk.announceAll r.1 }

/-- The executor of a job has come to an end. -/
def afterOutcome (p : Post) (parent : Nat) (slice : Slice) (id : JobId)
    (r : List Event × JobStage) : Effect :=
  p.afterJob parent slice id (r.1, .call r.2)

/-- What is left of the locks that are given up during a shutdown. -/
def givingUp (p : Post) (ticket : Option Nat) (live : Nat) : List HeldLock → Effect
  | [] => { p.ended ticket .done with advancing := false }
  | lock :: others => p.onto (some (.giveUp ticket lock others live))

/-- A shutdown stops moving the pointer and waits for the guard. -/
def halting (p : Post) (ticket : Option Nat) : Effect :=
  { p.onto (some (.hold ticket)) with desk := { p.desk with stopped := true } }

end Post

/-! ## Steps -/

namespace Post

/-- Steps of the task of a number at a stage: what they do to the post, and the store after them. -/
inductive Works (now : Instant) (store : MemoryStore) (p : Post) (number : Nat) :
    TaskStage → Prompt → Effect → MemoryStore → Prop
  | start {ticket s fault answer store'} :
    store.attempt now fault s.op = (answer, store') →
    Works now store p number (.start ticket s) (.answer fault)
      (p.afterSeek ticket (s.react now p.desk.width answer)) store'
  | submission {ticket job s fault answer store'} :
    store.attempt now fault (s.op job (job.slice p.desk.width)) = (answer, store') →
    Works now store p number (.submission ticket job s) (.answer fault)
      (p.afterSubmit ticket job (s.react now p.desk.width job (job.slice p.desk.width) answer))
      store'
  | guard {mover} :
    p.advancing = false →
    Works now store p number (.guard mover) .proceed
      { p.onto (some (turnPlace mover [] (TurnStage.first p.desk))) with advancing := true } store
  | turn {mover announced s fault answer store'} :
    store.attempt now fault (s.op p.desk.settings) = (answer, store') →
    Works now store p number (.turn mover announced s) (.answer fault)
      (p.afterTurn mover announced (s.react mover.fromTick p.desk.settings p.desk answer)) store'
  | moved {mover announced slice} :
    Works now store p number (.turned mover announced (.moved slice)) .proceed
      (p.onto (some (turnPlace mover (announced ++ slice.toList) (TurnStage.first p.desk)))) store
  | stay {mover announced} :
    Works now store p number (.turned mover announced .stay) .proceed
      (p.afterTurns announced mover) store
  | walk {ticket dispatch announced s fault answer store'} :
    store.attempt now fault (s.op p.desk.settings) = (answer, store') →
    Works now store p number (.walk ticket dispatch announced s) (.answer fault)
      (p.afterWalk ticket dispatch announced
        (s.react now dispatch announced p.desk.settings p.desk answer)) store'
  | look {ticket looks} :
    Works now store p number (.rest ticket (looks + 1)) .wake
      (p.onto (some (.rest ticket looks))) store
  | halt {ticket looks} :
    Works now store p number (.rest ticket looks) .wake (p.halting ticket) store
  | hold {ticket} :
    p.advancing = false →
    Works now store p number (.hold ticket) .proceed
      { { p with advancing := true }.givingUp ticket 0 p.desk.held.held with
        desk := { p.desk with held := .empty } }
      store
  | giveUp {ticket lock others live fault answer store'} :
    store.attempt now fault lock.giveUpOp = (answer, store') →
    ∀ live', Works now store p number (.giveUp ticket lock others live) (.answer fault)
      (p.givingUp ticket live' others) store'
  | sets {slice fault answer store'} :
    store.attempt now fault (.sliceSets slice) = (answer, store') →
    Works now store p number (.sets slice) (.answer fault) (p.afterSets slice answer) store'
  | permit {slice id others} :
    Works now store p number (.permit slice id others) .proceed
      { p.onto (some (permits slice others)) with spawned := some (.job number slice id .load) }
      store
  | jobs {slice} :
    (∀ k s, p.stages k = some s → s.role ≠ .job number) →
    Works now store p number (.jobs slice) .proceed (p.drained slice) store
  | job {parent slice id s fault answer store'} :
    store.attempt now fault (s.op p.desk.settings.width slice id) = (answer, store') →
    Works now store p number (.job parent slice id s) (.answer fault)
      (p.afterJob parent slice id (s.react p.desk.settings.width p.desk slice id answer)) store'
  | running {parent slice id job registration outcome} :
    Works now store p number (.running parent slice id job registration) (.finish outcome)
      (p.afterOutcome parent slice id
        (JobStage.outcome now p.desk slice id job registration.policy outcome)) store

/-- The beginning of a command. -/
inductive Obeys (p : Post) (ticket : Option Nat) : Command → Effect → Prop
  | tick : Obeys p ticket .tick
    { p.onto (some (.guard (.tick ticket (p.desk.mode = .running)))) with loop := .busy }
  | pause : Obeys p ticket .pause
    { p.answered ticket .done with desk := { p.desk with mode := .paused } }
  | resume : Obeys p ticket .resume
    { p.answered ticket .done with desk := { p.desk with mode := .running } }
  | breakOff : Obeys p ticket .shutdown
    { p.ended ticket (Node.dropped .shutdown) with desk := { p.desk with mode := .stopped } }
  | rest (looks : Nat) : Obeys p ticket .shutdown
    { p.onto (some (.rest ticket looks)) with
      desk := { p.desk with mode := .stopped }, loop := .busy }
  | hold : Obeys p ticket .shutdown
    { p.onto (some (.hold ticket)) with
      desk := { p.desk with mode := .stopped, stopped := true }, loop := .busy }

/-- A node before its first task. -/
def fresh (settings : NodeSettings) (registry : Registry) : Post where
  desk := .ofSettings settings registry
  stages := fun _ => none
  nextNumber := 0
  advancing := false
  loop := .idle
  listening := true
  inbox := []
  outbox := []

/-- A node that has just begun to set the pointer. -/
def joining (settings : NodeSettings) (registry : Registry) (ticket : Nat) : Post :=
  (fresh settings registry).begin ((fresh settings registry).onto (some (.start ticket .read)))

/-- The effect of a submission up to its first call. -/
def submitting (p : Post) (ticket : Nat) (job : Job) : Effect :=
  match p.desk.screen job with
  | .error e => { p.onto none with replies := [(ticket, .submitted (.error e))] }
  | .ok () => p.onto (some (.submission ticket job .pointer))

/-- Keeps a command for later, or refuses it. -/
def send (p : Post) (ticket : Nat) (command : Command) : Post :=
  if p.loop = .ended then { p with outbox := p.outbox ++ [(ticket, Node.unheard command)] }
  else { p with inbox := p.inbox ++ [(ticket, command)] }

end Post

/-- A cluster by the stages of the tasks of its nodes. -/
structure Fleet where
  store : MemoryStore
  now : Instant
  posts : Nat → Option Post

namespace Fleet

/-- The fleet of a cluster without nodes. -/
def bare (c : Cluster) : Fleet := ⟨c.store, c.now, fun _ => none⟩

/-- Puts a post in its place. -/
def put (f : Fleet) (i : Nat) (p : Post) : Fleet :=
  { f with posts := Function.update f.posts i (some p) }

/-- The steps of a fleet. -/
inductive Step (f : Fleet) : Action → Fleet → Prop
  | pass (now : Instant) : Step f (.pass now) { f with now }
  | join {i settings registry ticket} :
    f.posts i = none →
    Step f (.join settings registry ticket) (f.put i (.joining settings registry ticket))
  | register {i p} (registry : Registry) :
    f.posts i = some p →
    Step f (.register i registry) (f.put i { p with desk := { p.desk with registry } })
  | submit {i p} (ticket : Nat) (job : Job) :
    f.posts i = some p → p.isOpen →
    Step f (.submit i ticket job) (f.put i (p.begin (p.submitting ticket job)))
  | send {i p} (ticket : Nat) (command : Command) :
    f.posts i = some p → p.isOpen →
    Step f (.send i ticket command) (f.put i (p.send ticket command))
  | leave {i p} :
    f.posts i = some p → p.isOpen →
    Step f (.leave i) (f.put i { p with listening := false })
  | receive {i p ticket command inbox e} :
    f.posts i = some p → p.isOpen → p.loop = .idle → p.inbox = (ticket, command) :: inbox →
    { p with inbox }.Obeys (some ticket) command e →
    Step f (.receive i) (f.put i ({ p with inbox }.begin e))
  | abandon {i p e} :
    f.posts i = some p → p.isOpen → p.loop = .idle → p.listening = false →
    p.Obeys none .shutdown e →
    Step f (.receive i) (f.put i (p.begin e))
  | tickItself {i p e} :
    f.posts i = some p → p.isOpen → p.loop = .idle → p.Obeys none .tick e →
    Step f (.tickItself i) (f.put i (p.begin e))
  | work {i p number s prompt e store a} :
    f.posts i = some p → p.stages number = some s →
    p.Works f.now f.store number s prompt e store →
    a = (match prompt with
      | .answer fault => .answer i number fault
      | .proceed => .proceed i number
      | .finish outcome => .finish i number outcome
      | .wake => .wake i number) →
    Step f a ({ f with store }.put i (p.apply number e))

theorem posts_put {f : Fleet} {i j : Nat} {p q : Post} (placed : (f.put i p).posts j = some q) :
    (j = i ∧ q = p) ∨ j ≠ i ∧ f.posts j = some q := by
  simp only [put] at placed
  by_cases same : j = i
  · subst same
    rw [Function.update_self, Option.some.injEq] at placed
    exact .inl ⟨rfl, placed.symm⟩
  · rw [Function.update_of_ne same] at placed
    exact .inr ⟨same, placed⟩

end Fleet

/-! ## Stages after a step -/

namespace Post

/-- The stage of a task after an effect. -/
theorem stages_apply {p : Post} {k : Nat} {e : Effect} {j : Nat} {s : TaskStage}
    (stage : (p.apply k e).stages j = some s) :
    (j = k ∧ e.next = some s) ∨ (j ≠ k ∧ j = p.nextNumber ∧ e.spawned = some s) ∨
      j ≠ k ∧ p.stages j = some s := by
  simp only [apply] at stage
  by_cases same : j = k
  · subst same
    rw [Function.update_self] at stage
    exact .inl ⟨rfl, stage⟩
  · rw [Function.update_of_ne same] at stage
    cases spawned : e.spawned with
    | none =>
      rw [spawned] at stage
      exact .inr (.inr ⟨same, stage⟩)
    | some s' =>
      rw [spawned] at stage
      by_cases new : j = p.nextNumber
      · subst new
        simp only [spawn, Function.update_self] at stage
        exact .inr (.inl ⟨same, rfl, stage⟩)
      · simp only [spawn, Function.update_of_ne new] at stage
        exact .inr (.inr ⟨same, stage⟩)

/-- The only task of a node that joins. -/
theorem stages_joining {settings : NodeSettings} {registry : Registry} {ticket k : Nat}
    {s : TaskStage} (stage : (joining settings registry ticket).stages k = some s) :
    k = 0 ∧ s = .start ticket .read := by
  rcases stages_apply stage with ⟨rfl, same⟩ | ⟨-, -, spawned⟩ | ⟨-, before⟩
  · exact ⟨rfl, (Option.some.inj same).symm⟩
  · cases spawned
  · cases before

end Post

/-! ## Calls -/

/-- The call that a task waits for at a stage. -/
def TaskStage.op? (set : NodeSettings) : TaskStage → Option Operation
  | .start _ s => s.op
  | .submission _ submitted s => s.op submitted (submitted.slice set.width)
  | .turn _ _ s => s.op set
  | .walk _ _ _ s => s.op set
  | .giveUp _ lock _ _ => lock.giveUpOp
  | .sets slice => Operation.sliceSets slice
  | .job _ slice id s => s.op set.width slice id
  | _ => none

/-- A step changes the store by the call of its task at most. -/
theorem Post.Works.store {now : Instant} {store store' : MemoryStore} {p : Post} {k : Nat}
    {s : TaskStage} {prompt : Prompt} {e : Effect}
    (works : p.Works now store k s prompt e store') :
    store' = store ∨ ∃ op fault answer, s.op? p.desk.settings = some op ∧
      prompt = .answer fault ∧ store.attempt now fault op = (answer, store') := by
  cases works with
  | start made => exact .inr ⟨_, _, _, rfl, rfl, made⟩
  | submission made => exact .inr ⟨_, _, _, rfl, rfl, made⟩
  | turn made => exact .inr ⟨_, _, _, rfl, rfl, made⟩
  | walk made => exact .inr ⟨_, _, _, rfl, rfl, made⟩
  | giveUp made live' => exact .inr ⟨_, _, _, rfl, rfl, made⟩
  | sets made => exact .inr ⟨_, _, _, rfl, rfl, made⟩
  | job made => exact .inr ⟨_, _, _, rfl, rfl, made⟩
  | _ => exact .inl rfl

/-- A task that waits for a call goes on with its answer. -/
theorem Post.Works.called {now : Instant} {store store' : MemoryStore} {p : Post} {k : Nat}
    {s : TaskStage} {prompt : Prompt} {e : Effect} {op : Operation}
    (works : p.Works now store k s prompt e store') (calls : s.op? p.desk.settings = some op) :
    ∃ fault answer, prompt = .answer fault ∧ store.attempt now fault op = (answer, store') := by
  cases works with
  | start made | submission made | turn made | walk made | giveUp made | sets made | job made =>
    obtain rfl := Option.some.inj calls
    exact ⟨_, _, rfl, made⟩
  | _ => cases calls

namespace TaskStage

/-- The task is one of those that make the call, which changes something. -/
def Makes (set : NodeSettings) (s : TaskStage) : Operation → Prop
  | .insertJob submitted => ∃ ticket, s = submission ticket submitted .insert
  | .updateJob moved => ∃ parent x id, s = job parent x id (.update moved)
  | .addScheduled y id =>
    (∃ ticket submitted, s = submission ticket submitted .enter ∧
      y = submitted.slice set.width ∧ id = submitted.id) ∨
    ∃ parent x other moved, s = job parent x other (.enter moved) ∧
      y = moved.slice set.width ∧ id = moved.id
  | .deleteSlice x => ∃ mover announced, s = turn mover announced (.clear x)
  | .initPointer x => (∃ ticket, s = start ticket (.init x)) ∨
    ∃ ticket dispatch announced, s = walk ticket dispatch announced (.ensure (.init x))
  | .movePointer x y =>
    ∃ mover announced, s = turn mover announced (.move x) ∧ y = x.next set.width
  | .lockExclusive name owner => ∃ ticket dispatch announced q current limit x before,
    s = walk ticket dispatch announced (.take q current limit x before) ∧
      name = x.advanceLock ∧ owner = set.node
  | .lockShared .. => False
  | .unlockExclusive name owner =>
    (∃ mover announced x moved, s = turn mover announced (.back x moved) ∧
      name = x.advanceLock ∧ owner = set.node) ∨
    (∃ ticket dispatch announced q x others,
      s = walk ticket dispatch announced (.release q x others) ∧
        name = x.advanceLock ∧ owner = set.node) ∨
    ∃ ticket lock others live, s = giveUp ticket lock others live
  | _ => True

theorem makes {set : NodeSettings} {s : TaskStage} {op : Operation}
    (calls : s.op? set = some op) : s.Makes set op := by
  cases s with
  | start ticket s =>
    obtain rfl := Option.some.inj calls
    cases s with
    | init current => exact .inl ⟨ticket, rfl⟩
    | _ => trivial
  | submission ticket submitted s =>
    obtain rfl := Option.some.inj calls
    cases s with
    | insert => exact ⟨ticket, rfl⟩
    | enter => exact .inl ⟨ticket, submitted, rfl, rfl, rfl⟩
    | _ => trivial
  | turn mover announced s =>
    obtain rfl := Option.some.inj calls
    cases s with
    | clear x => exact ⟨mover, announced, rfl⟩
    | move x => exact ⟨mover, announced, rfl, rfl⟩
    | back x moved => exact .inl ⟨mover, announced, x, moved, rfl, rfl, rfl⟩
    | _ => trivial
  | walk ticket dispatch announced s =>
    obtain rfl := Option.some.inj calls
    cases s with
    | read => trivial
    | ensure s =>
      cases s with
      | init current => exact .inr ⟨ticket, dispatch, announced, rfl⟩
      | _ => trivial
    | release q x others =>
      exact .inr (.inl ⟨ticket, dispatch, announced, q, x, others, rfl, rfl, rfl⟩)
    | take q current limit x before =>
      exact ⟨ticket, dispatch, announced, q, current, limit, x, before, rfl, rfl, rfl⟩
  | giveUp ticket lock others live =>
    obtain ⟨name, owner, mode⟩ := lock
    obtain rfl := Option.some.inj calls
    cases mode with
    | exclusive => exact .inr (.inr ⟨ticket, _, others, live, rfl⟩)
    | shared => trivial
  | sets slice =>
    obtain rfl := Option.some.inj calls
    trivial
  | job parent x id s =>
    obtain rfl := Option.some.inj calls
    cases s with
    | update moved => exact ⟨parent, x, id, rfl⟩
    | enter moved => exact .inr ⟨parent, x, id, moved, rfl, rfl, rfl⟩
    | _ => trivial
  | _ => cases calls

end TaskStage

/-- A step leaves a pointer where it is, or is that of a turn that moves it to the next slice. -/
theorem Post.Works.pointer {now : Instant} {store store' : MemoryStore} {p : Post} {k : Nat}
    {s : TaskStage} {prompt : Prompt} {e : Effect}
    (works : p.Works now store k s prompt e store') :
    (store'.pointer = store.pointer ∨ store.pointer = none) ∨
      ∃ mover announced x, s = .turn mover announced (.move x) ∧ store.pointer = some x ∧
        store'.pointer = some (x.next p.desk.width) := by
  rcases works.store with rfl | ⟨op, fault, answer, calls, -, made⟩
  · exact .inl (.inl rfl)
  · rcases MemoryStore.pointer_cases made with same | ⟨x, y, rfl, there, moved⟩ |
      ⟨slice, rfl, unset, -⟩
    · exact .inl (.inl same)
    · obtain ⟨mover, announced, rfl, rfl⟩ := TaskStage.makes calls
      exact .inr ⟨mover, announced, x, rfl, there, moved⟩
    · exact .inl (.inr unset)

/-! ## Settings -/

namespace Post

theorem Works.settings {now : Instant} {store store' : MemoryStore} {p : Post} {k : Nat}
    {s : TaskStage} {prompt : Prompt} {e : Effect}
    (works : p.Works now store k s prompt e store') : e.desk.settings = p.desk.settings := by
  cases works with
  | start made =>
    unfold afterSeek
    split <;> rfl
  | submission made =>
    unfold afterSubmit
    split <;> rfl
  | turn made => exact TurnStage.settings_react ..
  | @stay mover announced => cases mover <;> rfl
  | walk made =>
    unfold afterWalk
    split <;> exact WalkStage.settings_react ..
  | giveUp made live' =>
    unfold givingUp
    split <;> rfl
  | sets made =>
    unfold afterSets
    split <;> rfl
  | job made => exact Desk.settings_announceAll ..
  | running => exact Desk.settings_announceAll ..
  | _ => rfl

theorem Obeys.settings {p : Post} {ticket : Option Nat} {command : Command} {e : Effect}
    (obeys : p.Obeys ticket command e) : e.desk.settings = p.desk.settings := by
  cases obeys <;> rfl

theorem settings_submitting (p : Post) (ticket : Nat) (job : Job) :
    (p.submitting ticket job).desk.settings = p.desk.settings := by
  unfold submitting
  split <;> rfl

end Post

/-- All posts have the width. -/
def Fleet.Uniform (w : Duration) (f : Fleet) : Prop :=
  ∀ i p, f.posts i = some p → p.desk.width = w

namespace Fleet

theorem Uniform.put {w : Duration} {f : Fleet} {i : Nat} {p q : Post} {store : MemoryStore}
    (uniform : f.Uniform w) (post : f.posts i = some p)
    (same : q.desk.settings = p.desk.settings) : ({ f with store }.put i q).Uniform w := by
  intro j r placed
  rcases posts_put placed with ⟨rfl, rfl⟩ | ⟨-, before⟩
  · rw [Desk.width, same]
    exact uniform j p post
  · exact uniform j r before

theorem Uniform.step {w : Duration} {f f' : Fleet} {a : Action} (uniform : f.Uniform w)
    (width : a.HasWidth w) (step : f.Step a f') : f'.Uniform w := by
  cases step with
  | pass now => exact uniform
  | join free =>
    intro j r placed
    rcases posts_put placed with ⟨rfl, rfl⟩ | ⟨-, before⟩
    · exact width
    · exact uniform j r before
  | register registry post => exact uniform.put post rfl
  | submit ticket job post opened => exact uniform.put post (Post.settings_submitting ..)
  | @send i p ticket command post opened =>
    refine uniform.put post ?_
    unfold Post.send
    split <;> rfl
  | leave post opened => exact uniform.put post rfl
  | receive post opened idle waits obeys => exact uniform.put post obeys.settings
  | abandon post opened idle alone obeys => exact uniform.put post obeys.settings
  | tickItself post opened idle obeys => exact uniform.put post obeys.settings
  | work post stage works same => exact uniform.put post works.settings

theorem Uniform.bare (w : Duration) (c : Cluster) : (bare c).Uniform w := by
  intro i p post
  cases post

end Fleet

/-! ## Steps from outside -/

/-- The task of the stage begins with an action. -/
def TaskStage.Opens (a : Action) : TaskStage → Prop
  | .submission ticket submitted .pointer => ∃ i, a = .submit i ticket submitted
  | .guard (.tick _ _) | .rest _ _ | .hold _ => True
  | _ => False

/-- The job that a reply says to be scheduled. -/
def Reply.accepted? : Reply → Option Job
  | .submitted (.ok job) => some job
  | _ => none

/-- What an action from outside does to a post: it may add one task at its beginning. -/
structure Post.Begins (a : Action) (p q : Post) : Prop where
  settings : q.desk.settings = p.desk.settings
  progress : q.desk.progress = p.desk.progress
  held : q.desk.held = p.desk.held
  log : q.desk.log = p.desk.log
  advancing : q.advancing = p.advancing
  later : p.nextNumber ≤ q.nextNumber
  kept : ∀ k s, k < p.nextNumber → p.stages k = some s → q.stages k = some s
  stages : ∀ k s, q.stages k = some s →
    p.stages k = some s ∨ k = p.nextNumber ∧ k < q.nextNumber ∧ s.Opens a
  replies : ∀ ticket reply, (ticket, reply) ∈ q.outbox →
    (ticket, reply) ∈ p.outbox ∨ reply.accepted? = none

namespace Post

variable {a : Action} {p q : Post}

/-- An action that adds no task. -/
theorem Begins.of_same (settings : q.desk.settings = p.desk.settings)
    (progress : q.desk.progress = p.desk.progress) (held : q.desk.held = p.desk.held)
    (log : q.desk.log = p.desk.log) (advancing : q.advancing = p.advancing)
    (nextNumber : q.nextNumber = p.nextNumber) (stages : q.stages = p.stages)
    (replies : ∀ ticket reply, (ticket, reply) ∈ q.outbox →
      (ticket, reply) ∈ p.outbox ∨ reply.accepted? = none) : p.Begins a q :=
  ⟨settings, progress, held, log, advancing, Nat.le_of_eq nextNumber.symm,
    fun _ _ _ stage => stages ▸ stage, fun _ _ stage => .inl (stages ▸ stage), replies⟩

/-- An action that adds a task. -/
theorem Begins.of_effect (inbox : List (Nat × Command)) {e : Effect}
    (settings : e.desk.settings = p.desk.settings) (progress : e.desk.progress = p.desk.progress)
    (held : e.desk.held = p.desk.held) (log : e.desk.log = p.desk.log)
    (advancing : e.advancing = p.advancing) (spawned : e.spawned = none)
    (opens : e.next = none ∨ ∃ s, e.next = some s ∧ s.Opens a)
    (replies : ∀ ticket reply, (ticket, reply) ∈ e.replies → reply.accepted? = none) :
    p.Begins a ({ p with inbox }.begin e) := by
  have stages : ({ p with inbox }.begin e).stages =
      Function.update p.stages p.nextNumber e.next := by
    simp only [begin, apply, spawned]
    rfl
  have next : ({ p with inbox }.begin e).nextNumber = p.nextNumber + 1 := by
    simp only [begin, apply, spawned]
    rfl
  refine ⟨settings, progress, held, log, advancing, ?_, ?_, ?_, ?_⟩
  · omega
  · intro k s begun stage
    rw [stages, Function.update_of_ne (Nat.ne_of_lt begun)]
    exact stage
  · intro k s stage
    rw [stages] at stage
    by_cases new : k = p.nextNumber
    · subst new
      rw [Function.update_self] at stage
      rcases opens with none | ⟨s', same, opens⟩
      · rw [none] at stage
        cases stage
      · rw [same, Option.some.injEq] at stage
        exact .inr ⟨rfl, by omega, stage ▸ opens⟩
    · rw [Function.update_of_ne new] at stage
      exact .inl stage
  · intro ticket reply mem
    rcases List.mem_append.mp mem with mem | mem
    · exact .inl mem
    · exact .inr (replies ticket reply mem)

theorem Obeys.begins (inbox : List (Nat × Command)) {ticket : Option Nat} {command : Command}
    {e : Effect} (obeys : { p with inbox }.Obeys ticket command e) :
    p.Begins a ({ p with inbox }.begin e) := by
  have silent (ticket : Option Nat) (reply : Reply) (other : reply.accepted? = none) :
      ∀ t r, (t, r) ∈ ticket.toList.map (·, reply) → r.accepted? = none := by
    intro t r mem
    simp only [List.mem_map, Prod.mk.injEq] at mem
    obtain ⟨-, -, -, rfl⟩ := mem
    exact other
  cases obeys with
  | tick =>
    exact .of_effect inbox rfl rfl rfl rfl rfl rfl (.inr ⟨_, rfl, trivial⟩)
      (fun _ _ mem => absurd mem List.not_mem_nil)
  | pause => exact .of_effect inbox rfl rfl rfl rfl rfl rfl (.inl rfl) (silent ticket .done rfl)
  | resume => exact .of_effect inbox rfl rfl rfl rfl rfl rfl (.inl rfl) (silent ticket .done rfl)
  | breakOff =>
    refine .of_effect inbox rfl rfl rfl rfl rfl rfl (.inl rfl) ?_
    intro t r mem
    rcases List.mem_append.mp mem with mem | mem
    · exact silent ticket _ rfl t r mem
    · simp only [List.mem_map, Prod.mk.injEq] at mem
      obtain ⟨-, -, -, rfl⟩ := mem
      exact rfl
  | rest looks =>
    exact .of_effect inbox rfl rfl rfl rfl rfl rfl (.inr ⟨_, rfl, trivial⟩)
      (fun _ _ mem => absurd mem List.not_mem_nil)
  | hold =>
    exact .of_effect inbox rfl rfl rfl rfl rfl rfl (.inr ⟨_, rfl, trivial⟩)
      (fun _ _ mem => absurd mem List.not_mem_nil)

/-- A submission begins with its first call, or is refused. -/
theorem begins_submitting (p : Post) (i ticket : Nat) (job : Job) :
    p.Begins (.submit i ticket job) (p.begin (p.submitting ticket job)) := by
  unfold submitting
  split
  · refine .of_effect p.inbox rfl rfl rfl rfl rfl rfl (.inl rfl) ?_
    intro t r mem
    obtain ⟨rfl, rfl⟩ := Prod.mk.inj (List.mem_singleton.mp mem)
    exact rfl
  · exact .of_effect p.inbox rfl rfl rfl rfl rfl rfl (.inr ⟨_, rfl, i, rfl⟩)
      (fun _ _ mem => absurd mem List.not_mem_nil)

end Post

/-- A step lets time pass, adds a node, does something from outside to one, or is one of a task. -/
theorem Fleet.Step.kinds {f f' : Fleet} {a : Action} (step : f.Step a f') :
    (∃ now, a = .pass now ∧ f' = { f with now }) ∨
      (∃ i settings registry ticket, a = .join settings registry ticket ∧ f.posts i = none ∧
        f' = f.put i (.joining settings registry ticket)) ∨
      (∃ i p q, f.posts i = some p ∧ p.Begins a q ∧ f' = f.put i q) ∨
      ∃ i p k s prompt e store, f.posts i = some p ∧ p.stages k = some s ∧
        p.Works f.now f.store k s prompt e store ∧
        a = (match prompt with
          | .answer fault => .answer i k fault
          | .proceed => .proceed i k
          | .finish outcome => .finish i k outcome
          | .wake => .wake i k) ∧
        f' = { f with store }.put i (p.apply k e) := by
  cases step with
  | pass now => exact .inl ⟨now, rfl, rfl⟩
  | join free => exact .inr (.inl ⟨_, _, _, _, rfl, free, rfl⟩)
  | @register i p registry post =>
    refine .inr (.inr (.inl ⟨i, p, _, post, ?_, rfl⟩))
    exact .of_same rfl rfl rfl rfl rfl rfl rfl (fun _ _ => .inl)
  | @submit i p ticket job post opened =>
    exact .inr (.inr (.inl ⟨i, p, _, post, p.begins_submitting i ticket job, rfl⟩))
  | @send i p ticket command post opened =>
    refine .inr (.inr (.inl ⟨i, p, _, post, ?_, rfl⟩))
    unfold Post.send
    split
    · refine .of_same rfl rfl rfl rfl rfl rfl rfl ?_
      intro t r mem
      rcases List.mem_append.mp mem with mem | mem
      · exact .inl mem
      · obtain ⟨rfl, rfl⟩ := Prod.mk.inj (List.mem_singleton.mp mem)
        exact .inr rfl
    · exact .of_same rfl rfl rfl rfl rfl rfl rfl (fun _ _ => .inl)
  | @leave i p post opened =>
    refine .inr (.inr (.inl ⟨i, p, _, post, ?_, rfl⟩))
    exact .of_same rfl rfl rfl rfl rfl rfl rfl (fun _ _ => .inl)
  | @receive i p ticket command inbox e post opened idle waits obeys =>
    exact .inr (.inr (.inl ⟨_, _, _, post, obeys.begins inbox, rfl⟩))
  | @abandon i p e post opened idle alone obeys =>
    exact .inr (.inr (.inl ⟨_, p, _, post, Post.Obeys.begins p.inbox obeys, rfl⟩))
  | @tickItself i p e post opened idle obeys =>
    exact .inr (.inr (.inl ⟨_, p, _, post, Post.Obeys.begins p.inbox obeys, rfl⟩))
  | work post stage works same =>
    exact .inr (.inr (.inr ⟨_, _, _, _, _, _, _, post, stage, works, same, rfl⟩))

/-- What holds of the stages of all tasks is kept by a step if it holds of the stages that tasks begin
with, and if a task keeps it to itself and to the task that it sets off. -/
theorem Fleet.Step.stages_all {f f' : Fleet} {a : Action} {P : TaskStage → Prop}
    (step : f.Step a f') (joins : ∀ ticket, P (.start ticket .read)) (opens : ∀ s, s.Opens a → P s)
    (works : ∀ i p k s prompt e store, f.posts i = some p → p.stages k = some s →
      p.Works f.now f.store k s prompt e store →
      a = (match prompt with
        | .answer fault => .answer i k fault
        | .proceed => .proceed i k
        | .finish outcome => .finish i k outcome
        | .wake => .wake i k) → e.next.elim True P ∧ e.spawned.elim True P)
    (all : ∀ i p k s, f.posts i = some p → p.stages k = some s → P s) :
    ∀ i p k s, f'.posts i = some p → p.stages k = some s → P s := by
  rcases step.kinds with ⟨now, -, rfl⟩ | ⟨i, settings, registry, ticket, -, free, rfl⟩ |
    ⟨i, p, q, post, begins, rfl⟩ | ⟨i, p, k, s, prompt, e, store, post, stage, work, same, rfl⟩
  · exact all
  all_goals
    intro j r k' s' placed stage'
    rcases posts_put placed with ⟨-, rfl⟩ | ⟨-, before⟩
    rotate_left
    · exact all j r k' s' before stage'
  · obtain ⟨-, rfl⟩ := Post.stages_joining stage'
    exact joins ticket
  · rcases begins.stages k' s' stage' with before | ⟨-, -, begun⟩
    · exact all i p k' s' post before
    · exact opens s' begun
  · obtain ⟨next, spawned⟩ := works i p k s prompt e store post stage work same
    rcases Post.stages_apply stage' with ⟨-, goes⟩ | ⟨-, -, goes⟩ | ⟨-, before⟩
    · rwa [goes] at next
    · rwa [goes] at spawned
    · exact all i p k' s' post before

end SliceScheduler
