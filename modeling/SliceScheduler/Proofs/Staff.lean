import SliceScheduler.Proofs.Exclusion
import SliceScheduler.Proofs.Occurrence
import SliceScheduler.Proofs.Running
import SliceScheduler.Proofs.StoreEntry
/-!
# The jobs of a draining

A job is set off by the draining of its slice, which waits for it. While the draining looks up the
jobs of a slice no job of the slice is at work on any node.

1. `TaskStage.Keeps` says that a task is about the job that it was set off for, and that what it
   moves the job to is not before its own slice;
2. `Post.Staffed` says that every job of a node belongs to a draining that has set it off;
3. `Fleet.Staffed` says both of all nodes, and `Fleet.Staffed.step` that every step keeps it up;
4. `Fleet.Staffed.unclaimed` is the result: while all nodes run, who is about to look up the jobs of
   a slice is alone with the slice.
-/
namespace SliceScheduler

/-- The stage is about the job of an id, which is not moved to a slice before its own. -/
def JobStage.Keeps (w : Duration) (slice : Slice) (id : JobId) : JobStage → Prop
  | activate job _ | enter job | finish job | leave job => job.id = id
  | update job => job.id = id ∧ slice ≤ job.slice w
  | retire other | delete other => other = id
  | _ => True

namespace TaskStage

/-- The task is about the jobs that it was set off for. -/
def Keeps (w : Duration) : TaskStage → Prop
  | permit _ id others => (id :: others).Nodup
  | job _ slice id s => s.Keeps w slice id
  | running _ _ id loaded _ => loaded.id = id
  | _ => True

/-- The slice whose jobs the task sets off or awaits. -/
def hires? : TaskStage → Option Slice
  | permit slice _ _ | jobs slice => some slice
  | _ => none

/-- The draining that the job belongs to, and its slice. -/
def serves? : TaskStage → Option (Nat × Slice)
  | job parent slice _ _ | running parent slice _ _ _ => some (parent, slice)
  | _ => none

/-- The task neither submits a job, nor looks up or sets off the jobs of a slice, nor runs one. -/
def isPlain : TaskStage → Bool
  | submission .. | sets _ | permit .. | job .. | running .. => false
  | _ => true

/-- The task has no job at hand. -/
def isJobless : TaskStage → Bool
  | submission .. | permit .. | job .. | running .. => false
  | _ => true

end TaskStage

/-- Every job belongs to a draining of its slice that has set off jobs. -/
def Post.Staffed (p : Post) : Prop :=
  ∀ k s parent x, p.stages k = some s → s.serves? = some (parent, x) →
    ∃ t, p.stages parent = some t ∧ t.hires? = some x

/-- What a step of the task of a number does about jobs. -/
structure Post.Staffs (p : Post) (k : Nat) (s : TaskStage) (e : Effect) : Prop where
  serves : ∀ q, e.next.bind TaskStage.serves? = some q → s.serves? = some q
  hires : ∀ x, s.hires? = some x → e.next.bind TaskStage.hires? = some x ∨
    ∀ j t, p.stages j = some t → t.role ≠ .job k
  spawned : ∀ q, e.spawned.bind TaskStage.serves? = some q →
    ∃ x, q = (k, x) ∧ e.next.bind TaskStage.hires? = some x

/-- The jobs of all nodes belong to drainings, and rows are kept under the ids of their jobs. -/
structure Fleet.Staffed (w : Duration) (f : Fleet) : Prop where
  keyed : f.store.Keyed
  keeps : ∀ i p k s, f.posts i = some p → p.stages k = some s → s.Keeps w
  posts : ∀ i p, f.posts i = some p → p.Staffed

namespace StaffLemmas

open Post TidyLemmas

variable {w : Duration} {now : Instant} {store store' : MemoryStore} {p : Post} {k : Nat}
  {s : TaskStage} {prompt : Prompt} {e : Effect} {a : Action}

/-! ## Tasks and their jobs -/

theorem elim_of_jobless {P : TaskStage → Prop} {o : Option TaskStage}
    (all : o.all TaskStage.isJobless = true) (imp : ∀ s, s.isJobless = true → P s) :
    o.elim True P := by
  cases o with
  | none => trivial
  | some s => exact imp s all

theorem bind_of_jobless {α : Type} {view : TaskStage → Option α} {o : Option TaskStage}
    (all : o.all TaskStage.isJobless = true) (blind : ∀ s, s.isJobless = true → view s = none) :
    o.bind view = none := by
  cases o with
  | none => rfl
  | some s => exact blind s all

theorem jobless_turnPlace (mover : Mover) (announced : List Slice)
    (next : TurnStage ⊕ Program.Turn) : (turnPlace mover announced next).isJobless = true := by
  cases next <;> rfl

theorem jobless_drained (drained : Option Slice) :
    (drained.map TaskStage.sets).all TaskStage.isJobless = true := by
  cases drained <;> rfl

/-- A task without jobs comes to have none, and sets off none, unless it looks up the jobs of a
slice. -/
theorem jobless_work (works : p.Works now store k s prompt e store') (plain : s.isPlain = true) :
    e.next.all TaskStage.isJobless = true ∧ e.spawned.all TaskStage.isJobless = true := by
  cases works with
  | start made =>
    unfold afterSeek
    split <;> exact ⟨rfl, rfl⟩
  | guard free => exact ⟨jobless_turnPlace .., rfl⟩
  | turn made => exact ⟨jobless_turnPlace .., jobless_drained _⟩
  | moved => exact ⟨jobless_turnPlace .., rfl⟩
  | @stay mover announced => cases mover <;> exact ⟨rfl, rfl⟩
  | @walk ticket dispatch announced s fault answer store' made =>
    rw [next_afterWalk, spawned_afterWalk]
    refine ⟨?_, jobless_drained _⟩
    cases (s.react now dispatch announced p.desk.settings p.desk answer).next <;> rfl
  | hold free =>
    unfold givingUp
    split <;> exact ⟨rfl, rfl⟩
  | giveUp made live' =>
    unfold givingUp
    split <;> exact ⟨rfl, rfl⟩
  | look | halt | jobs => exact ⟨rfl, rfl⟩
  | submission | sets | permit | job | running => cases plain

theorem serves_of_jobless (s : TaskStage) (jobless : s.isJobless = true) : s.serves? = none := by
  cases s with
  | job | running => cases jobless
  | _ => rfl

theorem keeps_of_jobless (s : TaskStage) (jobless : s.isJobless = true) : s.Keeps w := by
  cases s with
  | permit | job | running => cases jobless
  | _ => trivial

/-- Who sets off or awaits the jobs of a slice drains it. -/
theorem drains_of_hires {x : Slice} (hires : s.hires? = some x) : s.drains? = some x := by
  cases s with
  | permit | jobs => exact hires
  | _ => cases hires

theorem hires_permits (slice : Slice) (ids : List JobId) :
    (permits slice ids).hires? = some slice := by
  cases ids <;> rfl

theorem serves_permits (slice : Slice) (ids : List JobId) :
    (permits slice ids).serves? = none := by
  cases ids <;> rfl

theorem serves_jobPlace {parent : Nat} {slice : Slice} {id : JobId} {next : JobNext}
    {q : Nat × Slice} (serves : (jobPlace parent slice id next).bind TaskStage.serves? = some q) :
    q = (parent, slice) := by
  cases next with
  | call s => exact (Option.some.inj serves).symm
  | execute job registration => exact (Option.some.inj serves).symm
  | spent => cases serves

/-- A step of a task that neither is a job nor has set off jobs. -/
theorem staffs_of_plain (hires : s.hires? = none) (next : e.next.bind TaskStage.serves? = none)
    (spawned : e.spawned.bind TaskStage.serves? = none) : p.Staffs k s e :=
  ⟨fun q same => (by cases next.symm.trans same), fun x same => (by cases hires.symm.trans same),
    fun q same => (by cases spawned.symm.trans same)⟩

theorem keeps_permits {slice : Slice} {ids : List JobId} (nodup : ids.Nodup) :
    (permits slice ids).Keeps w := by
  cases ids with
  | nil => trivial
  | cons id others => exact nodup

/-- What a job comes to is about the same job. -/
theorem keeps_react {w w' : Duration} {desk : Desk} {slice : Slice} {id : JobId} {parent : Nat}
    {s : JobStage} {fault : Option StoreError} {answer : (s.op w' slice id).Result}
    (keyed : store.Keyed) (made : store.attempt now fault (s.op w' slice id) = (answer, store'))
    (keeps : s.Keeps w slice id) :
    (jobPlace parent slice id (s.react w' desk slice id answer).2).elim True (·.Keeps w) := by
  cases s with
  | load =>
    rcases answer with e | job
    · cases e <;> trivial
    · have same : job.id = id := by
        rcases MemoryStore.attempt_cases made with ⟨e, -, error, -⟩ | ⟨-, made⟩
        · cases error
        · rcases MemoryStore.getJob_cases made with ⟨-, ⟨⟨what, error⟩, -⟩ | ⟨found, ok, row⟩⟩
          · cases error
          · rw [Except.ok.inj ok]
            exact keyed id found row
      simp only [JobStage.react, JobStage.loaded]
      split
      · trivial
      · split
        · trivial
        · exact same
  | pass | deadLetter | delete => trivial
  | update job =>
    rcases answer with e | _
    · trivial
    · exact keeps.1
  | activate | enter | finish | retire =>
    rcases answer with e | _
    · trivial
    · exact keeps
  | leave job => rcases answer with e | _ <;> trivial

/-- What a job comes to after its executor is about the same job. -/
theorem keeps_outcome {desk : Desk} {slice : Slice} {id : JobId} {job : Job} {policy : RetryPolicy}
    {outcome : Outcome} (width : desk.width = w) (begun : slice ≤ Slice.containing now w)
    (same : job.id = id) :
    (JobStage.outcome now desk slice id job policy outcome).2.Keeps w slice id := by
  have completes : (JobStage.completing now desk job).Keeps w slice id := by
    unfold JobStage.completing
    split
    · rename_i next found
      rw [width] at found
      exact ⟨same, le_trans begun (Trigger.le_slice_next found)⟩
    · exact same
  unfold JobStage.outcome
  split
  · exact completes
  · split
    · rw [width]
      exact ⟨same, le_trans begun (Program.le_slice_retryTrigger now _ w)⟩
    · exact completes

end StaffLemmas

open StaffLemmas

/-- Jobs are set off by drainings, which wait for them. -/
theorem Post.Works.staffs {now : Instant} {store store' : MemoryStore} {p : Post} {k : Nat}
    {s : TaskStage} {prompt : Prompt} {e : Effect}
    (works : p.Works now store k s prompt e store') : p.Staffs k s e := by
  have works' := works
  cases works with
  | submission made =>
    unfold afterSubmit
    split <;> exact staffs_of_plain rfl rfl rfl
  | sets made =>
    unfold afterSets
    split
    · exact staffs_of_plain rfl (serves_permits ..) rfl
    · exact staffs_of_plain rfl rfl rfl
  | @permit slice id others =>
    refine ⟨fun q same => ?_, fun x hires => .inl ?_, fun q same => ?_⟩
    · cases (serves_permits slice others).symm.trans same
    · exact (hires_permits slice others).trans hires
    · exact ⟨slice, (Option.some.inj same).symm, hires_permits slice others⟩
  | jobs spent =>
    exact ⟨fun q same => (by cases same), fun x hires => .inr spent, fun q same => (by cases same)⟩
  | job made =>
    refine ⟨fun q same => ?_, fun x hires => (by cases hires), fun q same => (by cases same)⟩
    exact congrArg some (serves_jobPlace same).symm
  | running =>
    exact ⟨fun q same => same, fun x hires => (by cases hires), fun q same => (by cases same)⟩
  | _ =>
    obtain ⟨next, spawned⟩ := jobless_work works' rfl
    exact staffs_of_plain rfl (bind_of_jobless next serves_of_jobless)
      (bind_of_jobless spawned serves_of_jobless)

/-- Tasks stay about the jobs that they were set off for. -/
theorem Post.Works.keeps {w : Duration} {first : Option Slice} {now : Instant}
    {store store' : MemoryStore} {p : Post} {k : Nat} {s : TaskStage} {prompt : Prompt} {e : Effect}
    (works : p.Works now store k s prompt e store') (keyed : store.Keyed) (width : p.desk.width = w)
    (due : s.Due w first (Slice.containing now w)) (keeps : s.Keeps w) :
    e.next.elim True (·.Keeps w) ∧ e.spawned.elim True (·.Keeps w) := by
  have works' := works
  cases works with
  | submission made =>
    unfold afterSubmit
    split <;> exact ⟨trivial, trivial⟩
  | sets made =>
    unfold afterSets
    split
    · exact ⟨keeps_permits (MemoryStore.nodup_pending _), trivial⟩
    · exact ⟨trivial, trivial⟩
  | permit => exact ⟨keeps_permits keeps.of_cons, trivial⟩
  | job made => exact ⟨keeps_react keyed made keeps, trivial⟩
  | running => exact ⟨keeps_outcome width due.begun.le keeps, trivial⟩
  | _ =>
    obtain ⟨next, spawned⟩ := jobless_work works' rfl
    exact ⟨elim_of_jobless next keeps_of_jobless, elim_of_jobless spawned keeps_of_jobless⟩

/-- Rows stay under the ids of their jobs. -/
theorem Post.Works.keyed {now : Instant} {store store' : MemoryStore} {p : Post} {k : Nat}
    {s : TaskStage} {prompt : Prompt} {e : Effect}
    (works : p.Works now store k s prompt e store') (keyed : store.Keyed) : store'.Keyed := by
  rcases works.store with rfl | ⟨op, fault, answer, -, -, made⟩
  · exact keyed
  · rcases MemoryStore.attempt_cases made with ⟨-, -, -, rfl⟩ | ⟨-, made⟩
    · exact keyed
    · have keyed : (store.perform now op).2.Keyed := keyed.perform
      rwa [made] at keyed

namespace Post

variable {p : Post} {k : Nat} {s : TaskStage} {e : Effect}

/-- A step keeps every job with its draining. -/
theorem Staffed.apply (staffed : p.Staffed) (fresh : p.Fresh) (stage : p.stages k = some s)
    (staffs : p.Staffs k s e) : (p.apply k e).Staffed := by
  -- a draining is still there after the step, or it has no jobs
  have kept {parent j : Nat} {t u : TaskStage} {x : Slice} (there : p.stages parent = some t)
      (hires : t.hires? = some x) (child : p.stages j = some u)
      (serves : u.serves? = some (parent, x)) :
      ∃ t', (p.apply k e).stages parent = some t' ∧ t'.hires? = some x := by
    by_cases same : parent = k
    · subst same
      obtain rfl := Option.some.inj (stage.symm.trans there)
      rcases staffs.hires x hires with goes | none
      · obtain ⟨t', next, hires'⟩ := Option.bind_eq_some_iff.mp goes
        exact ⟨t', (Function.update_self ..).trans next, hires'⟩
      · refine absurd ?_ (none j u child)
        cases u with
        | job | running =>
          obtain ⟨rfl, -⟩ := Prod.mk.inj (Option.some.inj serves)
          rfl
        | _ => cases serves
    · exact ⟨t, fresh.stages_apply there same e, hires⟩
  intro j t parent x stage' serves
  rcases stages_apply stage' with ⟨rfl, next⟩ | ⟨-, rfl, spawned⟩ | ⟨other, before⟩
  · have mine := staffs.serves (parent, x) (by rw [next]; exact serves)
    obtain ⟨t', there, hires⟩ := staffed j s parent x stage mine
    exact kept there hires stage mine
  · obtain ⟨y, same, goes⟩ := staffs.spawned (parent, x) (by rw [spawned]; exact serves)
    obtain ⟨rfl, rfl⟩ := Prod.mk.inj same
    obtain ⟨t', next, hires⟩ := Option.bind_eq_some_iff.mp goes
    exact ⟨t', (Function.update_self ..).trans next, hires⟩
  · obtain ⟨t', there, hires⟩ := staffed j t parent x before serves
    exact kept there hires before serves

/-- A step from outside keeps every job with its draining. -/
theorem Staffed.begins {a : Action} {q : Post} (staffed : p.Staffed) (fresh : p.Fresh)
    (begins : p.Begins a q) : q.Staffed := by
  intro j t parent x stage serves
  rcases begins.stages j t stage with before | ⟨-, -, opens⟩
  · obtain ⟨t', there, hires⟩ := staffed j t parent x before serves
    exact ⟨t', begins.kept parent t' (fresh parent t' there) there, hires⟩
  · cases t with
    | job | running => cases opens
    | _ => cases serves

end Post

namespace Fleet

variable {f f' : Fleet} {i j : Nat} {p q : Post} {w : Duration} {first : Option Slice}

/-- While all nodes run, who is about to look up the jobs of a slice is alone with the slice. -/
theorem Staffed.unclaimed (staffed : f.Staffed w) (tidy : f.Tidy) (runs : f.Runs) {k k' : Nat}
    {x : Slice} {t : TaskStage} (post : f.posts i = some p) (stage : p.stages k = some (.sets x))
    (post' : f.posts j = some q) (stage' : q.stages k' = some t) :
    t.hires? ≠ some x ∧ ∀ parent, t.serves? ≠ some (parent, x) := by
  have alone {k' : Nat} {t : TaskStage} (stage' : q.stages k' = some t) : t.hires? ≠ some x := by
    intro hires
    have drains := drains_of_hires hires
    have at_work : p.desk.progressOf x ≠ none := by
      rw [TidyLemmas.fits_of_drains ((tidy.posts i p post).fits k _ stage) rfl]
      nofun
    have at_work' : q.desk.progressOf x ≠ none := by
      rw [TidyLemmas.fits_of_drains ((tidy.posts j q post').fits k' t stage') drains]
      nofun
    obtain rfl := tidy.exclusive post post' (runs.hasLetGo post) (runs.hasLetGo post') at_work at_work'
    obtain rfl := Option.some.inj (post.symm.trans post')
    obtain rfl := (tidy.posts i p post).oneDrain k k' _ t x stage rfl stage' drains
    obtain rfl := Option.some.inj (stage.symm.trans stage')
    cases hires
  refine ⟨alone stage', fun parent serves => ?_⟩
  obtain ⟨t', there, hires⟩ := staffed.posts j q post' k' t parent x stage' serves
  exact alone there hires

theorem Staffed.bare {c : Cluster} (empty : c.store.jobs = ∅) : (bare c).Staffed w := by
  refine ⟨fun id job row => ?_, fun i p k s post => ?_, fun i p post => ?_⟩
  · have row : c.store.jobs[id]? = some job := row
    rw [empty, Std.ExtTreeMap.getElem?_empty] at row
    cases row
  · cases post
  · cases post

/-- Every step keeps the jobs of all nodes with their drainings. -/
theorem Step.staffed {a : Action} (step : f.Step a f') (guarded : f.Guarded)
    (staffed : ∀ i p, f.posts i = some p → p.Staffed) :
    ∀ i p, f'.posts i = some p → p.Staffed := by
  rcases step.kinds with ⟨now, rfl, rfl⟩ | ⟨i, settings, registry, ticket, rfl, free, rfl⟩ |
    ⟨i, p, q, post, begins, rfl⟩ | ⟨i, p, k, s, prompt, e, store, post, stage, works, -, rfl⟩
  · exact staffed
  all_goals
    intro j r placed
    rcases posts_put placed with ⟨-, rfl⟩ | ⟨-, before⟩
    rotate_left
    · exact staffed j r before
  · intro k s parent x stage serves
    obtain ⟨-, rfl⟩ := Post.stages_joining stage
    cases serves
  · exact (staffed i p post).begins (guarded i p post).fresh begins
  · exact (staffed i p post).apply (guarded i p post).fresh stage works.staffs

theorem Step.keyed {a : Action} (step : f.Step a f') (keyed : f.store.Keyed) : f'.store.Keyed := by
  rcases step.kinds with ⟨now, -, rfl⟩ | ⟨i, settings, registry, ticket, -, -, rfl⟩ |
    ⟨i, p, q, -, -, rfl⟩ | ⟨i, p, k, s, prompt, e, store, -, -, works, -, rfl⟩
  · exact keyed
  · exact keyed
  · exact keyed
  · exact works.keyed keyed

/-- Every step keeps the tasks of all nodes about their jobs. -/
theorem Staffed.step {a : Action} (staffed : f.Staffed w) (guarded : f.Guarded)
    (uniform : f.Uniform w) (due : f.Due w first) (step : f.Step a f') : f'.Staffed w := by
  refine ⟨step.keyed staffed.keyed, ?_, step.staffed guarded staffed.posts⟩
  refine step.stages_all (fun ticket => trivial) (fun s opens => ?_)
    (fun i p k s prompt e store post stage works _ => ?_) staffed.keeps
  · cases s with
    | permit | job | running => cases opens
    | _ => trivial
  · exact works.keeps staffed.keyed (uniform i p post) (due.stages i p k s post stage)
      (staffed.keeps i p k s post stage)

end Fleet

end SliceScheduler
