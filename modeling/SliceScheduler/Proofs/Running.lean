import SliceScheduler.Proofs.Closing
/-!
# Nodes that keep running

While nothing is shut down, no node stops and none lets go of its locks.

1. `Post.Runs` says that a node has not been told to shut down;
2. `Fleet.Runs.step` says that nodes keep running while nothing is shut down, and
   `Fleet.Runs.hasLetGo` that they keep their locks.
-/
namespace SliceScheduler

/-- The task is a shutdown. -/
def TaskStage.stops : TaskStage → Bool
  | rest .. | hold .. | giveUp .. => true
  | _ => false

/-- The node runs, and nobody has told it to shut down. -/
structure Post.Runs (p : Post) : Prop where
  stopped : p.desk.stopped = false
  stages : ∀ k s, p.stages k = some s → s.stops = false
  listening : p.listening = true
  inbox : ∀ ticket, (ticket, .shutdown) ∉ p.inbox

/-- All nodes run. -/
def Fleet.Runs (f : Fleet) : Prop := ∀ i p, f.posts i = some p → p.Runs

namespace RunningLemmas

open Post TidyLemmas

variable {p q : Post} {e : Effect} {k : Nat} {s : TaskStage} {now : Instant}
  {store store' : MemoryStore} {prompt : Prompt}

theorem stops_turnPlace (mover : Mover) (announced : List Slice)
    (next : TurnStage ⊕ Program.Turn) : (turnPlace mover announced next).stops = false := by
  cases next <;> rfl

theorem stops_jobPlace (parent : Nat) (slice : Slice) (id : JobId) (next : JobNext) :
    (jobPlace parent slice id next).any TaskStage.stops = false := by
  cases next <;> rfl

theorem stops_permits (slice : Slice) (ids : List JobId) : (permits slice ids).stops = false := by
  cases ids <;> rfl

theorem stops_walkPlace (ticket : Option Nat) (dispatch : Bool) (announced : List Slice)
    (next : WalkStage ⊕ Program.TickResult) :
    (walkPlace ticket dispatch announced next).any TaskStage.stops = false := by
  cases next <;> rfl

/-- A task that is not a shutdown does not become one, and leaves the commands that wait alone. -/
theorem runs_work (works : p.Works now store k s prompt e store') (runs : s.stops = false) :
    e.next.any TaskStage.stops = false ∧ e.inbox = p.inbox := by
  cases works with
  | start made =>
    unfold afterSeek
    split <;> exact ⟨rfl, rfl⟩
  | submission made =>
    unfold afterSubmit
    split <;> exact ⟨rfl, rfl⟩
  | guard free => exact ⟨stops_turnPlace .., rfl⟩
  | turn made => exact ⟨stops_turnPlace .., rfl⟩
  | moved => exact ⟨stops_turnPlace .., rfl⟩
  | @stay mover announced => cases mover <;> exact ⟨rfl, rfl⟩
  | walk made =>
    rw [next_afterWalk]
    refine ⟨stops_walkPlace .., ?_⟩
    unfold afterWalk
    split <;> rfl
  | sets made =>
    unfold afterSets
    split
    · exact ⟨stops_permits .., rfl⟩
    · exact ⟨rfl, rfl⟩
  | permit => exact ⟨stops_permits .., rfl⟩
  | jobs spent => exact ⟨rfl, rfl⟩
  | job made => exact ⟨stops_jobPlace .., rfl⟩
  | running => exact ⟨rfl, rfl⟩
  | _ => cases runs

/-- The steps of its tasks keep a node running. -/
theorem runs_apply {pointer pointer' : Option Slice} (runs : p.Runs) (stage : p.stages k = some s)
    (works : p.Works now store k s prompt e store') (shift : p.Shift pointer pointer' s e) :
    (p.apply k e).Runs := by
  obtain ⟨next, inbox⟩ := runs_work works (runs.stages k s stage)
  refine ⟨?_, fun j t stage' => ?_, runs.listening, fun ticket => ?_⟩
  · show e.desk.stopped = false
    cases works.letting with
    | work mine spent same => exact same.trans runs.stopped
    | halt halts =>
      rw [halts] at next
      cases next
    | shut locks shuts =>
      cases s with
      | hold | giveUp => cases runs.stages k _ stage
      | _ => cases shuts
  · rcases stages_apply stage' with ⟨-, goes⟩ | ⟨-, -, spawned⟩ | ⟨-, before⟩
    · rwa [goes] at next
    · have plain := shift.spawned
      rw [spawned] at plain
      cases t with
      | rest | hold | giveUp => cases plain.1
      | _ => rfl
    · exact runs.stages j t before
  · show (ticket, Command.shutdown) ∉ e.inbox
    rw [inbox]
    exact runs.inbox ticket

/-- A node begins with something that is no shutdown. -/
theorem runs_begin (runs : p.Runs) {inbox : List (Nat × Command)} (sub : inbox ⊆ p.inbox)
    (stopped : e.desk.stopped = p.desk.stopped) (next : e.next.any TaskStage.stops = false)
    (spawned : e.spawned = none) (waits : e.inbox = inbox) : ({ p with inbox }.begin e).Runs := by
  refine ⟨stopped.trans runs.stopped, fun j t stage => ?_, runs.listening, fun ticket mem => ?_⟩
  · rcases stages_apply stage with ⟨-, goes⟩ | ⟨-, -, new⟩ | ⟨-, before⟩
    · rwa [goes] at next
    · cases spawned.symm.trans new
    · exact runs.stages j t before
  · have mem : (ticket, Command.shutdown) ∈ e.inbox := mem
    rw [waits] at mem
    exact runs.inbox ticket (sub mem)

/-- A node begins to carry out a command that is no shutdown. -/
theorem runs_obey (runs : p.Runs) {ticket : Option Nat} {command : Command}
    {inbox : List (Nat × Command)} (sub : inbox ⊆ p.inbox) (other : command ≠ .shutdown)
    (obeys : { p with inbox }.Obeys ticket command e) : ({ p with inbox }.begin e).Runs := by
  cases obeys with
  | breakOff | rest | hold => exact absurd rfl other
  | _ => exact runs_begin runs sub rfl rfl rfl rfl

theorem runs_joining (settings : NodeSettings) (registry : Registry) (ticket : Nat) :
    (joining settings registry ticket).Runs := by
  refine ⟨rfl, fun k s stage => ?_, rfl, fun _ => List.not_mem_nil⟩
  obtain ⟨-, rfl⟩ := stages_joining stage
  rfl

end RunningLemmas

open RunningLemmas

namespace Fleet

variable {f f' : Fleet} {i : Nat} {p q : Post}

/-- Nodes that run keep their locks. -/
theorem Runs.hasLetGo (runs : f.Runs) (post : f.posts i = some p) : ¬ p.desk.HasLetGo :=
  fun gone => (by cases gone.1.symm.trans (runs i p post).stopped)

theorem Runs.bare (c : Cluster) : (bare c).Runs := nofun

theorem Runs.put {store : MemoryStore} (runs : f.Runs) (here : q.Runs) :
    ({ f with store }.put i q).Runs := by
  intro j r placed
  rcases posts_put placed with ⟨-, rfl⟩ | ⟨-, before⟩
  · exact here
  · exact runs j r before

/-- Nodes keep running while nothing is shut down. -/
theorem Runs.step {a : Action} (runs : f.Runs) (tidy : ∀ i p, f.posts i = some p →
    p.Tidy f.store.pointer) (keeps : a.KeepsRunning) (step : f.Step a f') : f'.Runs := by
  cases step with
  | pass now => exact runs
  | join free => exact runs.put (runs_joining ..)
  | @register i p registry post => exact runs.put { runs i p post with }
  | @submit i p ticket job post opened =>
    refine runs.put ?_
    unfold Post.submitting
    split <;>
      exact runs_begin (runs i p post) (List.Subset.refl p.inbox) rfl rfl rfl rfl
  | @send i p ticket command post opened =>
    have here := runs i p post
    refine runs.put ?_
    unfold Post.send
    split
    · exact { here with }
    · refine { here with inbox := fun t mem => ?_ }
      rcases List.mem_append.mp mem with mem | mem
      · exact here.inbox t mem
      · exact keeps (Prod.mk.inj (List.mem_singleton.mp mem)).2.symm
  | leave post opened => exact keeps.elim
  | @receive i p ticket command inbox e post opened idle waits obeys =>
    have here := runs i p post
    refine runs.put (runs_obey here ?_ ?_ obeys)
    · rw [waits]
      exact List.subset_cons_self ..
    · rintro rfl
      refine here.inbox ticket ?_
      rw [waits]
      exact List.mem_cons_self
  | @abandon i p e post opened idle alone obeys =>
    cases alone.symm.trans (runs i p post).listening
  | @tickItself i p e post opened idle obeys =>
    exact runs.put (runs_obey (runs i p post) (List.Subset.refl p.inbox)
      (fun same => (by cases same)) obeys)
  | @work i p k s prompt e store a post stage works same =>
    exact runs.put (runs_apply (runs i p post) stage works
      (works.shift ((tidy i p post).fits k s stage)))

end Fleet

end SliceScheduler
