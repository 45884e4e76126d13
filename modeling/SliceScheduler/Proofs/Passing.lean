import SliceScheduler.Proofs.Fencing
import SliceScheduler.Proofs.Rescheduling
/-!
# What the pointer moves past

Any number of nodes of one slice width work in any order, calls to the store fail at any time,
nothing is shut down, and the clock does not go back. The pointer then moves past slices without
pending jobs only, and jobs go on to slices that it has not come to.

1. `MemoryStore.Passed` says that no job is pending behind the pointer, `MemoryStore.IsAligned` what
   is asked of a store that nodes begin with, and `Action.EntersAhead` what is asked of submissions;
2. `TaskStage.Passing` says what a task relies on, and `Fleet.Passing` puts it together with the
   store;
3. `Fleet.Passing.step` says that every step keeps this up;
4. `Cluster.Run.passes_spent` is the result, and `Cluster.Run.passes_late` the run of a submission
   that enters its job when the pointer is past the slice.
-/
namespace SliceScheduler

/-! ## What is asked of a run -/

/-- The index names slices of instants only. -/
def MemoryStore.Indexed (w : Duration) (s : MemoryStore) : Prop :=
  ∀ id x, s.scheduledIn id x → Slice.containing x.start w = x

/-- The store is one that nodes of the width may have left: its pointer is at the start of a slice
that has begun, its index names slices of the width, and its jobs have regular triggers. -/
structure MemoryStore.IsAligned (w : Duration) (now : Instant) (s : MemoryStore) : Prop where
  starts : ∀ p, s.pointer = some p → p.start.Starts w
  begun : ∀ p, s.pointer = some p → p.Begun (Slice.containing now w)
  index : s.Indexed w
  rows : s.Regular w

/-- The slice that a call enters a job into. -/
def Operation.enters? : Operation → Option Slice
  | addScheduled slice _ => some slice
  | _ => none

/-- The slice that a submission is about to enter its job into. -/
def Task.enters? (t : Task) : Option Slice :=
  match t.role with
  | .request _ => (t.code.call?.map Sigma.fst).bind Operation.enters?
  | _ => none

/-- No submission enters its job into a slice that the pointer has come to meanwhile. -/
def Action.EntersAhead (c : Cluster) : Action → Prop
  | answer i number none => ∀ n ∈ c.nodes[i]?, ∀ t ∈ n.task? number, ∀ x ∈ t.enters?,
      ∀ p ∈ c.store.pointer, p < x
  | _ => True

/-- What happens belongs to nodes of one slice width and of different names, to a clock that does
not go back, and to jobs that are entered before the pointer comes to their slices. Nothing is shut
down. -/
structure Action.IsTimely (w : Duration) (c : Cluster) (a : Action) : Prop
    extends a.IsSteady w c where
  running : a.KeepsRunning
  name : a.HasName c
  ahead : a.EntersAhead c

/-! ## What holds of a fleet -/

/-- No job is pending in a slice from the first one up to the pointer. -/
def MemoryStore.Passed (first : Option Slice) (s : MemoryStore) : Prop :=
  ∀ p q x, first = some p → s.pointer = some q → p ≤ x → x < q → (s.sets x).pending = []

/-- The slice that the pointer is to be set to starts where slices do. -/
def SeekStage.Starts (w : Duration) : SeekStage → Prop
  | init x => x.start.Starts w
  | _ => True

/-- What a task relies on: the slice that the pointer is to be set to starts where slices do, no job
is pending in the slice that it is to be moved past, and the slice whose jobs are set off is not
behind it. -/
def TaskStage.Passing (w : Duration) (s : MemoryStore) : TaskStage → Prop
  | start _ seek | walk _ _ _ (.ensure seek) => seek.Starts w
  | turn _ _ (.clear x) | turn _ _ (.move x) => (s.sets x).pending = []
  | permit x _ _ | job _ x _ _ | running _ x _ _ _ => ∃ p, s.pointer = some p ∧ p ≤ x
  | _ => True

/-- The pointer has passed no pending job and is not about to. -/
structure Fleet.Passing (w : Duration) (first : Option Slice) (f : Fleet) : Prop where
  starts : ∀ p, first = some p → p.start.Starts w
  index : f.store.Indexed w
  passed : f.store.Passed first
  stages : ∀ i p k s, f.posts i = some p → p.stages k = some s → s.Passing w f.store

/-- The step enters no job into a slice that the pointer has come to. -/
def Post.EntersAhead (p : Post) (store : MemoryStore) (s : TaskStage) (prompt : Prompt) : Prop :=
  ∀ x id, prompt = .answer none → s.op? p.desk.settings = some (.addScheduled x id) →
    ∀ q, store.pointer = some q → q < x

/-- The step of a submission enters no job into a slice that the pointer has come to. -/
def Fleet.EntersAhead (f : Fleet) : Action → Prop
  | .answer i k none => ∀ p ticket job, f.posts i = some p →
      p.stages k = some (.submission ticket job .enter) →
      ∀ q, f.store.pointer = some q → q < job.slice p.desk.width
  | _ => True

theorem Cluster.Shows.entersAhead {c : Cluster} {f : Fleet} {a : Action} (shows : c.Shows f)
    (ahead : a.EntersAhead c) : f.EntersAhead a := by
  cases a with
  | answer i k fault =>
    cases fault with
    | some e => trivial
    | none =>
      intro p ticket job post stage q there
      obtain ⟨n, node, shown⟩ := shows.node post
      have mem := (shown.tasks (TaskStage.task p.desk.settings k _)).mpr ⟨_, stage, rfl⟩
      have found : (n.task? k).isSome := List.find?_isSome.mpr ⟨_, mem, beq_self_eq_true k⟩
      obtain ⟨t, found⟩ := Option.isSome_iff_exists.mp found
      obtain ⟨s, stage', rfl⟩ := Cluster.Shows.stage shown found
      obtain rfl := Option.some.inj (stage.symm.trans stage')
      refine ahead n node _ found _ ?_ q (shows.store ▸ there)
      have calls := Node.Shows.call?_code p.desk.settings (.submission ticket job .enter)
      exact congrArg (Option.bind · Operation.enters?) calls
  | _ => trivial

namespace PassingLemmas

open Post TidyLemmas

variable {w : Duration} {now : Instant} {first : Option Slice} {store store' : MemoryStore}
  {p : Post} {k : Nat} {s t : TaskStage} {prompt : Prompt} {e : Effect} {slice x : Slice}

/-! ## Slices after the first one -/

theorem le_of_leadsTo {q : Slice} (leads : q.LeadsTo w x) : q ≤ x := by
  induction leads with
  | refl => exact le_refl q
  | next _ ih => exact le_trans ih Slice.le_next

theorem starts_of_leadsTo {q : Slice} (leads : q.LeadsTo w x) (starts : q.start.Starts w) :
    x.start.Starts w := by
  induction leads with
  | refl => exact starts
  | next _ ih => exact Slice.starts_next ih

/-- A clock whose slice has a next one is in range if it was before. -/
theorem isReached_later {later : Instant} (reached : Slice.IsReached w now)
    (le : now.millis ≤ later.millis) (next : (Slice.containing later w).HasNext w) :
    Slice.IsReached w later := by
  by_contra fails
  have mono := Slice.floorMillis_mono le w
  rw [Slice.isReached_iff] at reached
  rw [Slice.containing_of_not_reached fails, Slice.hasNext_iff] at next
  have below := Slice.floorMillis_le later.millis w
  have pos := w.sliceMillis_pos
  rcases Slice.not_reached_bounds fails with ⟨-, low⟩ | ⟨high, -, -⟩
  · omega
  · simp only [Slice.millis] at next
    omega

/-! ## The store -/

/-- A call that enters no job into a slice leaves none pending there if there was none. -/
theorem pending_attempt {fault : Option StoreError} {op : Operation} {answer : op.Result}
    (made : store.attempt now fault op = (answer, store'))
    (other : fault = none → ∀ id, op ≠ .addScheduled x id) (none : (store.sets x).pending = []) :
    (store'.sets x).pending = [] := by
  rcases MemoryStore.attempt_cases made with ⟨-, -, -, rfl⟩ | ⟨calm, performed⟩
  · exact none
  · obtain rfl : (store.perform now op).2 = store' := congrArg Prod.snd performed
    refine List.eq_nil_iff_forall_not_mem.mpr fun id left => ?_
    have before := MemoryStore.pending_perform (other calm) left
    rw [none] at before
    exact List.not_mem_nil before

theorem pending_works (works : p.Works now store k s prompt e store')
    (other : ∀ id, prompt = .answer none → s.op? p.desk.settings ≠ some (.addScheduled x id))
    (none : (store.sets x).pending = []) : (store'.sets x).pending = [] := by
  rcases works.store with rfl | ⟨op, fault, answer, calls, rfl, made⟩
  · exact none
  · refine pending_attempt made ?_ none
    rintro rfl id rfl
    exact other id rfl calls

/-- No job comes to be pending at the pointer or behind it. -/
theorem pending_behind (works : p.Works now store k s prompt e store')
    (ahead : p.EntersAhead store s prompt) {q : Slice} (there : store.pointer = some q) (le : x ≤ q)
    (none : (store.sets x).pending = []) : (store'.sets x).pending = [] :=
  pending_works works (fun id calm calls => not_le_of_gt (ahead x id calm calls q there) le) none

/-- Jobs are entered into the slices of their triggers. -/
theorem index_works (works : p.Works now store k s prompt e store') (width : p.desk.width = w)
    (index : store.Indexed w) : store'.Indexed w := by
  rcases works.store with rfl | ⟨op, fault, answer, calls, -, made⟩
  · exact index
  · rcases MemoryStore.attempt_cases made with ⟨-, -, -, rfl⟩ | ⟨-, performed⟩
    · exact index
    · obtain rfl : (store.perform now op).2 = store' := congrArg Prod.snd performed
      intro id x there
      by_cases adds : ∃ other, op = .addScheduled x other
      · obtain ⟨other, rfl⟩ := adds
        have width : p.desk.settings.width = w := width
        rcases TaskStage.makes calls with ⟨ticket, job, -, rfl, -⟩ | ⟨parent, y, id, job, -, rfl, -⟩
        · rw [width]
          exact Slice.containing_start
        · rw [width]
          exact Slice.containing_start
      · exact index id x (MemoryStore.scheduledIn_perform (not_exists.mp adds) there).1

/-! ## What a step comes to -/

theorem starts_of_seek {seek seek' : SeekStage} {answer : seek.op.Result}
    (reached : Slice.IsReached w now) (goes : seek.react now w answer = .inl seek') :
    seek'.Starts w := by
  cases seek with
  | read =>
    rcases answer with e | _ | x
    · cases goes
    · obtain rfl := Sum.inl.inj goes
      exact Slice.starts_containing reached
    · cases goes
  | init current =>
    rcases answer with e | _ | _
    · cases goes
    · obtain rfl := Sum.inl.inj goes
      trivial
    · cases goes
  | reread => cases goes

theorem passing_first (mover : Mover) (announced : List Slice) (d : Desk) :
    (turnPlace mover announced (TurnStage.first d)).Passing w store := by
  unfold TurnStage.first
  split <;> trivial

theorem passing_turn {mover : Mover} {announced : List Slice} {t : TurnStage}
    {fault : Option StoreError} {answer : (t.op p.desk.settings).Result}
    (made : store.attempt now fault (t.op p.desk.settings) = (answer, store'))
    (stage : (TaskStage.turn mover announced t).Passing w store) :
    (turnPlace mover announced (t.react mover.fromTick p.desk.settings p.desk answer).next).Passing w
      store' := by
  cases t with
  | seek =>
    rcases answer with e | _ | x
    · trivial
    · trivial
    · simp only [TurnStage.react]
      split <;> trivial
  | recheck x =>
    rcases answer with e | index
    · trivial
    · simp only [TurnStage.react]
      split
      · split <;> trivial
      · rename_i none
        rcases MemoryStore.attempt_cases made with ⟨e, -, failed, -⟩ | ⟨-, performed⟩
        · cases failed
        · obtain ⟨same, rfl⟩ := Prod.mk.inj performed
          exact (congrArg SliceSets.pending (Except.ok.inj same)).trans (not_not.mp none)
  | clear x =>
    rcases answer with e | _
    · trivial
    · have made : store.attempt now fault (.deleteSlice x) = (.ok (), store') := made
      exact pending_attempt made (fun _ _ same => (by cases same)) stage
  | move x => rcases answer with e | moved <;> trivial
  | back x moved => cases moved <;> trivial

section

variable {ticket : Option Nat} {dispatch : Bool} {announced advanced : List Slice} {d : Desk}

theorem passing_walkOn {pointer current : Slice} {n : Nat}
    {before : List (Slice × Program.Visit)} :
    (walkPlace ticket dispatch announced
      (WalkStage.walkOn d advanced pointer current n x before)).elim True (·.Passing w store) := by
  induction n generalizing x before with
  | zero => trivial
  | succ n ih =>
    simp only [WalkStage.walkOn]
    split
    · trivial
    · split
      · exact ih
      · trivial

theorem passing_releaseOn {pointer : Slice} {stale : List Slice} :
    (walkPlace ticket dispatch announced
      (WalkStage.releaseOn now dispatch d advanced pointer stale)).elim True
        (·.Passing w store) := by
  cases stale with
  | nil =>
    simp only [WalkStage.releaseOn, WalkStage.setOut]
    split
    · exact passing_walkOn
    · trivial
  | cons x others => trivial

theorem passing_fromPointer (found : Except SchedulerError Slice) :
    (walkPlace ticket dispatch announced
      (WalkStage.fromPointer now dispatch d advanced found)).elim True (·.Passing w store) := by
  rcases found with e | pointer
  · trivial
  · exact passing_releaseOn

theorem passing_walk {t : WalkStage} {set : NodeSettings} {answer : (t.op set).Result}
    (width : d.width = w) (reached : Slice.IsReached w now) :
    (walkPlace ticket dispatch announced
      (t.react now dispatch announced set d answer).next).elim True (·.Passing w store) := by
  cases t with
  | read =>
    rcases answer with e | _ | x
    · trivial
    · trivial
    · exact passing_fromPointer (.ok x)
  | ensure seek =>
    simp only [WalkStage.react]
    split
    · rename_i goes
      rw [width] at goes
      exact starts_of_seek reached goes
    · exact passing_fromPointer _
  | release pointer x others => exact passing_releaseOn
  | take pointer current limit x before =>
    rcases answer with e | _ | _ <;> exact passing_walkOn

end

theorem passing_permits {ids : List JobId}
    (ahead : ids ≠ [] → ∃ q, store.pointer = some q ∧ q ≤ slice) :
    (permits slice ids).Passing w store := by
  cases ids with
  | nil => trivial
  | cons id others => exact ahead (List.cons_ne_nil id others)

theorem passing_jobPlace {parent : Nat} {id : JobId} {next : JobNext}
    (ahead : ∃ q, store.pointer = some q ∧ q ≤ slice) :
    (jobPlace parent slice id next).elim True (·.Passing w store) := by
  cases next with
  | spent => trivial
  | _ => exact ahead

theorem passing_of_opens {a : Action} (opens : s.Opens a) : s.Passing w store := by
  cases s with
  | start | turn | walk | permit | job | running => cases opens
  | _ => trivial

theorem passing_drained (drained : Option Slice) :
    (drained.map TaskStage.sets).elim True (·.Passing w store) := by
  cases drained <;> trivial

/-- A slice that is due and has pending jobs is not behind the pointer. -/
theorem le_of_pending {limit : Slice} (passed : store.Passed first)
    (unset : store.pointer = none → first = none) (due : x.Due w first limit)
    (pending : (store.sets x).pending ≠ []) : ∃ q, store.pointer = some q ∧ q ≤ x := by
  obtain ⟨p, same, leads⟩ := due.after
  cases there : store.pointer with
  | none => cases (unset there).symm.trans same
  | some q =>
    refine ⟨q, rfl, le_of_not_gt fun less => pending ?_⟩
    exact passed p q x same there (le_of_leadsTo leads) less

end PassingLemmas

open PassingLemmas

/-- A step of a task leads to one that relies on as much. -/
theorem Post.Works.passing {w : Duration} {now : Instant} {first : Option Slice} {limit : Slice}
    {store store' : MemoryStore} {p : Post} {k : Nat} {s : TaskStage} {prompt : Prompt} {e : Effect}
    (works : p.Works now store k s prompt e store') (width : p.desk.width = w)
    (reached : Slice.IsReached w now) (passed : store.Passed first)
    (unset : store.pointer = none → first = none) (due : s.Due w first limit)
    (stage : s.Passing w store) :
    e.next.elim True (·.Passing w store') ∧ e.spawned.elim True (·.Passing w store') := by
  cases works with
  | start made =>
    unfold afterSeek
    split
    · rename_i goes
      rw [width] at goes
      exact ⟨starts_of_seek reached goes, trivial⟩
    · exact ⟨trivial, trivial⟩
  | submission made =>
    unfold afterSubmit
    split <;> exact ⟨trivial, trivial⟩
  | guard free => exact ⟨passing_first .., trivial⟩
  | turn made => exact ⟨passing_turn made stage, passing_drained _⟩
  | moved => exact ⟨passing_first .., trivial⟩
  | @stay mover announced => cases mover <;> exact ⟨trivial, trivial⟩
  | walk made =>
    rw [TidyLemmas.next_afterWalk, TidyLemmas.spawned_afterWalk]
    exact ⟨passing_walk width reached, passing_drained _⟩
  | look => exact ⟨trivial, trivial⟩
  | halt => exact ⟨trivial, trivial⟩
  | hold free =>
    unfold givingUp
    split <;> exact ⟨trivial, trivial⟩
  | giveUp made live' =>
    unfold givingUp
    split <;> exact ⟨trivial, trivial⟩
  | @sets slice fault answer store' made =>
    rcases MemoryStore.attempt_cases made with ⟨e, -, rfl, rfl⟩ | ⟨-, performed⟩
    · exact ⟨trivial, trivial⟩
    · obtain ⟨rfl, rfl⟩ := Prod.mk.inj performed
      exact ⟨passing_permits (le_of_pending passed unset due), trivial⟩
  | permit => exact ⟨passing_permits fun _ => stage, stage⟩
  | jobs spent => exact ⟨trivial, trivial⟩
  | @job parent slice id t fault answer store' made =>
    obtain ⟨q, there, le⟩ := stage
    have stays := MemoryStore.pointer_attempt made (by cases t <;> rfl) there
    exact ⟨passing_jobPlace ⟨q, stays, le⟩, trivial⟩
  | running => exact ⟨stage, trivial⟩

namespace Fleet

variable {w : Duration} {first first' : Option Slice} {f f' : Fleet} {i j k k' : Nat} {p q : Post}
  {s t : TaskStage} {prompt : Prompt} {e : Effect} {store : MemoryStore} {x : Slice}

/-- The pointer is not moved past a slice whose jobs are being set off, run or awaited. -/
theorem Fenced.unmoved (fenced : f.Fenced) (runs : f.Runs) (post : f.posts i = some p)
    (stage : p.stages k = some s) (moves : s.moves? = some x) (post' : f.posts j = some q)
    (stage' : q.stages k' = some t) :
    t.hires? ≠ some x ∧ ∀ parent, t.serves? ≠ some (parent, x) := by
  have drained := (TidyLemmas.fits_of_moves ((fenced.tidy.posts i p post).fits k s stage) moves).1
  have alone {k' : Nat} {t : TaskStage} (stage' : q.stages k' = some t) : t.hires? ≠ some x := by
    intro hires
    have draining := TidyLemmas.fits_of_drains ((fenced.tidy.posts j q post').fits k' t stage')
      (StaffLemmas.drains_of_hires hires)
    obtain rfl := fenced.tidy.exclusive post post' (runs.hasLetGo post) (runs.hasLetGo post')
      (by rw [drained]; nofun) (by rw [draining]; nofun)
    obtain rfl := Option.some.inj (post.symm.trans post')
    cases drained.symm.trans draining
  refine ⟨alone stage', fun parent serves => ?_⟩
  obtain ⟨t', there, hires⟩ := fenced.staffed j q post' k' t parent x stage' serves
  exact alone there hires

namespace Passing

theorem bare {c : Cluster} (aligned : c.store.IsAligned w c.now) :
    (bare c).Passing w c.store.pointer := by
  refine ⟨aligned.starts, aligned.index, fun p q x same there le less => ?_,
    fun i p k s post => ?_⟩
  · obtain rfl := Option.some.inj (same.symm.trans there)
    exact absurd less (not_lt_of_ge le)
  · cases post

/-- Slices that are due start where slices do. -/
theorem starts_of_after (passing : f.Passing w first) (after : x.After w first) :
    x.start.Starts w := by
  obtain ⟨p, same, leads⟩ := after
  exact starts_of_leadsTo leads (passing.starts p same)

/-- No step enters a job into a slice that the pointer has come to. -/
theorem entersAhead (passing : f.Passing w first) (forward : f.Forward w)
    (uniform : f.Uniform w) (post : f.posts i = some p) (stage : p.stages k = some s)
    (submissions : prompt = .answer none → f.EntersAhead (.answer i k none)) :
    p.EntersAhead f.store s prompt := by
  intro x id calm calls q there
  rcases TaskStage.makes calls with ⟨ticket, job, rfl, rfl, -⟩ | ⟨parent, y, other, job, rfl, rfl, -⟩
  · exact submissions calm p ticket job post stage q there
  · obtain ⟨q', there', le⟩ := passing.stages i p k _ post stage
    obtain rfl := Option.some.inj (there'.symm.trans there)
    have less : y < job.slice w := forward.stages i p k _ post stage
    have width : p.desk.settings.width = w := uniform i p post
    rw [width]
    exact lt_of_le_of_lt le less

/-- What a task relies on stays while a task takes a step. -/
theorem kept (passing : f.Passing w first) (fenced : f.Fenced) (runs : f.Runs)
    (uniform : f.Uniform w) (due : f.Due w first) (post : f.posts i = some p)
    (stage : p.stages k = some s) (works : p.Works f.now f.store k s prompt e store)
    (ahead : p.EntersAhead f.store s prompt) (post' : f.posts j = some q)
    (stage' : q.stages k' = some t) : t.Passing w store := by
  have before := passing.stages j q k' t post' stage'
  -- a slice whose jobs are set off stays in front of the pointer
  have works_on {x : Slice} (at_work : t.hires? = some x ∨ ∃ parent, t.serves? = some (parent, x))
      (after : x.After w first) (here : ∃ q, f.store.pointer = some q ∧ q ≤ x) :
      ∃ q, store.pointer = some q ∧ q ≤ x := by
    obtain ⟨y, there, le⟩ := here
    rcases works.pointer with (same | none) | ⟨mover, announced, z, rfl, there', moved⟩
    · exact ⟨y, same.trans there, le⟩
    · cases none.symm.trans there
    · obtain rfl := Option.some.inj (there.symm.trans there')
      rw [uniform i p post] at moved
      refine ⟨y.next w, moved, Slice.next_le ?_ (passing.starts_of_after after)
        (lt_of_le_of_ne le ?_)⟩
      · exact passing.starts_of_after (due.store.pointer y there).1
      · rintro rfl
        obtain ⟨idle, unserved⟩ := fenced.unmoved runs post stage rfl post' stage'
        rcases at_work with hires | ⟨parent, serves⟩
        · exact idle hires
        · exact unserved parent serves
  have due := due.stages j q k' t post' stage'
  cases t with
  | start ticket seek => exact before
  | walk ticket dispatch announced t =>
    cases t with
    | ensure seek => exact before
    | _ => trivial
  | turn mover announced t =>
    cases t with
    | clear x | move x =>
      obtain ⟨-, there⟩ := (fenced.tidy.posts j q post').fits k' _ stage'
      exact pending_behind works ahead there (le_refl x) before
    | _ => trivial
  | permit x id others => exact works_on (.inl rfl) due.after before
  | job parent x id t => exact works_on (.inr ⟨parent, rfl⟩) due.after before
  | running parent x id job registration => exact works_on (.inr ⟨parent, rfl⟩) due.after before
  | _ => trivial

/-- Who is about to move the pointer past a slice finds no job pending up to the next one. -/
theorem spent (passing : f.Passing w first) (due : f.Due w first) (post : f.posts i = some p)
    {mover : Mover} {announced : List Slice} {y : Slice}
    (stage : p.stages k = some (.turn mover announced (.move y)))
    (there : f.store.pointer = some y) (le : y ≤ x) (less : x < y.next w) :
    (f.store.sets x).pending = [] := by
  refine List.eq_nil_iff_forall_not_mem.mpr fun id left => ?_
  have own := passing.index id x (MemoryStore.mem_pending.mp left).1
  have starts := passing.starts_of_after (due.store.pointer y there).1
  obtain rfl := Slice.eq_of_lt_next starts own le less
  have none : (f.store.sets x).pending = [] := passing.stages i p k _ post stage
  exact List.not_mem_nil (none ▸ left)

/-- The pointer moves past slices without pending jobs. -/
theorem passed_work (passing : f.Passing w first) (uniform : f.Uniform w) (due : f.Due w first)
    (post : f.posts i = some p) (stage : p.stages k = some s)
    (works : p.Works f.now f.store k s prompt e store) (ahead : p.EntersAhead f.store s prompt)
    (sets : first' = first ∨ first = none ∧ first' = store.pointer) : store.Passed first' := by
  intro y q x same there le less
  -- the first slice is the same if there was a pointer
  have first_same {z : Slice} (before : f.store.pointer = some z) : first = some y := by
    rcases sets with rfl | ⟨none, -⟩
    · exact same
    · exact absurd none (due.first_ne_none before)
  rcases works.pointer with (stays | none) | ⟨mover, announced, z, rfl, before, moved⟩
  · rw [stays] at there
    exact pending_behind works ahead there (le_of_lt less)
      (passing.passed y q x (first_same there) there le less)
  · rcases sets with rfl | ⟨-, rfl⟩
    · cases (due.store.unset none).symm.trans same
    · obtain rfl := Option.some.inj (same.symm.trans there)
      exact absurd less (not_lt_of_ge le)
  · rcases lt_or_ge x z with behind | here
    · exact pending_behind works ahead before (le_of_lt behind)
        (passing.passed y z x (first_same before) before le behind)
    · rw [uniform i p post, there, Option.some.injEq] at moved
      subst moved
      exact pending_works works (fun id _ calls => (by cases calls))
        (passing.spent due post stage before here less)

/-- The pointer is set to where a slice starts. -/
theorem starts_work (passing : f.Passing w first) (due : f.Due w first) (post : f.posts i = some p)
    (stage : p.stages k = some s) (works : p.Works f.now f.store k s prompt e store)
    (sets : first' = first ∨ first = none ∧ first' = store.pointer) (y : Slice)
    (same : first' = some y) : y.start.Starts w := by
  rcases sets with rfl | ⟨unset, rfl⟩
  · exact passing.starts y same
  · have none (z : Slice) : f.store.pointer ≠ some z := fun there => due.first_ne_none there unset
    rcases works.store with rfl | ⟨op, fault, answer, calls, -, made⟩
    · exact absurd same (none y)
    · rcases MemoryStore.pointer_cases made with stays | ⟨z, y', rfl, there, -⟩ | ⟨z, rfl, -, set⟩
      · exact absurd (stays.symm.trans same) (none y)
      · exact absurd there (none z)
      · obtain rfl := Option.some.inj (set.symm.trans same)
        have here := passing.stages i p k s post stage
        rcases TaskStage.makes calls with ⟨ticket, rfl⟩ | ⟨ticket, dispatch, announced, rfl⟩
        · exact here
        · exact here

/-- Every step leaves no pending job behind the pointer, as long as submissions enter their jobs in
front of it. -/
theorem step {a : Action} (passing : f.Passing w first) (fenced : f.Fenced) (runs : f.Runs)
    (uniform : f.Uniform w) (due : f.Due w first) (forward : f.Forward w)
    (reached : Slice.IsReached w f.now) (submissions : f.EntersAhead a)
    (sets : first' = first ∨ first = none ∧ first' = f'.store.pointer) (step : f.Step a f') :
    f'.Passing w first' := by
  -- a step that leaves the pointer alone does not set the first slice
  have first_same (stays : f'.store.pointer = f.store.pointer) : first' = first := by
    rcases sets with same | ⟨none, same⟩
    · exact same
    · rw [same, none, stays]
      cases there : f.store.pointer with
      | none => rfl
      | some z => exact absurd none (due.first_ne_none there)
  rcases step.kinds with ⟨now, rfl, rfl⟩ | ⟨i, settings, registry, ticket, rfl, free, rfl⟩ |
    ⟨i, p, q, post, begins, rfl⟩ | ⟨i, p, k, s, prompt, e, store, post, stage, works, acts, rfl⟩
  · obtain rfl := first_same rfl
    exact ⟨passing.starts, passing.index, passing.passed, passing.stages⟩
  · obtain rfl := first_same rfl
    refine ⟨passing.starts, passing.index, passing.passed, fun j r k s placed stage => ?_⟩
    rcases posts_put placed with ⟨-, rfl⟩ | ⟨-, before⟩
    · obtain ⟨-, rfl⟩ := Post.stages_joining stage
      trivial
    · exact passing.stages j r k s before stage
  · obtain rfl := first_same rfl
    refine ⟨passing.starts, passing.index, passing.passed, fun j r k s placed stage => ?_⟩
    rcases posts_put placed with ⟨-, rfl⟩ | ⟨-, before⟩
    · rcases begins.stages k s stage with before | ⟨-, -, opens⟩
      · exact passing.stages i p k s post before
      · exact passing_of_opens opens
    · exact passing.stages j r k s before stage
  · have ahead : p.EntersAhead f.store s prompt := by
      refine passing.entersAhead forward uniform post stage fun calm => ?_
      subst calm
      have acts : a = .answer i k none := acts
      exact acts ▸ submissions
    refine ⟨passing.starts_work due post stage works sets,
      index_works works (uniform i p post) passing.index,
      passing.passed_work uniform due post stage works ahead sets, fun j r k' t placed stage' => ?_⟩
    have old {j k' : Nat} {r : Post} {t : TaskStage} (post' : f.posts j = some r)
        (stage' : r.stages k' = some t) : t.Passing w store :=
      passing.kept fenced runs uniform due post stage works ahead post' stage'
    rcases posts_put placed with ⟨-, rfl⟩ | ⟨-, before⟩
    · obtain ⟨goes, spawns⟩ := works.passing (uniform i p post) reached passing.passed
        due.store.unset (due.stages i p k s post stage) (passing.stages i p k s post stage)
      rcases Post.stages_apply stage' with ⟨-, same⟩ | ⟨-, -, same⟩ | ⟨-, before⟩
      · rwa [same] at goes
      · rwa [same] at spawns
      · exact old post before
    · exact old before stage'

/-- A step leaves the pointer alone or moves it past a slice up to the next one, and no job is
pending in between. -/
theorem passes (passing : f.Passing w first) (uniform : f.Uniform w) (due : f.Due w first)
    {a : Action} (step : f.Step a f') {y : Slice} (there : f.store.pointer = some y) :
    f'.store.pointer = some y ∨ f'.store.pointer = some (y.next w) ∧
      ∀ x, y ≤ x → x < y.next w → (f.store.sets x).pending = [] := by
  rcases step.kinds with ⟨now, -, rfl⟩ | ⟨i, settings, registry, ticket, -, free, rfl⟩ |
    ⟨i, p, q, post, begins, rfl⟩ | ⟨i, p, k, s, prompt, e, store, post, stage, works, -, rfl⟩
  · exact .inl there
  · exact .inl there
  · exact .inl there
  · rcases works.pointer with (same | none) | ⟨mover, announced, z, rfl, there', moved⟩
    · exact .inl (same.trans there)
    · cases none.symm.trans there
    · obtain rfl := Option.some.inj (there.symm.trans there')
      rw [uniform i p post] at moved
      exact .inr ⟨moved, fun x le less => passing.spent due post stage there le less⟩

end Passing

/-! ## Runs -/

theorem Step.millis_le {a : Action} (step : f.Step a f') (keeps : a.KeepsTime f.now) :
    f.now.millis ≤ f'.now.millis := by
  cases step with
  | pass now => exact keeps.2
  | _ => exact le_refl f.now.millis

/-- What holds of a fleet at any time while everything is timely. The first pointer is that of the
store that the nodes began with, if there was one. -/
structure Timely (w : Duration) (pointer : Option Slice) (f : Fleet) : Prop where
  uniform : f.Uniform w
  fenced : f.Fenced
  runs : f.Runs
  passing : ∃ first, f.Due w first ∧ (∀ p, pointer = some p → first = some p) ∧
    ((f.limit w).HasNext w → f.Forward w ∧ Slice.IsReached w f.now ∧ f.Passing w first)

theorem Timely.bare {c : Cluster} (aligned : c.store.IsAligned w c.now)
    (reached : Slice.IsReached w c.now) : (bare c).Timely w c.store.pointer :=
  ⟨.bare w c, .bare c, .bare c, c.store.pointer, .bare aligned.begun, fun _ same => same,
    fun _ => ⟨.bare aligned.rows, reached, .bare aligned⟩⟩

/-- Everything stays timely. -/
theorem Timely.step {c : Cluster} {a : Action} {pointer : Option Slice}
    (timely : f.Timely w pointer) (shows : c.Shows f) (allowed : a.IsTimely w c)
    (step : f.Step a f') : f'.Timely w pointer := by
  obtain ⟨uniform, fenced, runs, first, due, begins, passing⟩ := timely
  have keeps : a.KeepsTime f.now := shows.now ▸ allowed.keeps
  have later := step.forward (w := w) keeps
  obtain ⟨first', sets, due'⟩ := due.step uniform later step
  refine ⟨uniform.step allowed.width step, fenced.step (shows.isNew allowed.name) step,
    runs.step fenced.tidy.posts allowed.running step, first', due', fun p same => ?_,
    fun next => ?_⟩
  · rcases sets with same' | ⟨none, -⟩
    · exact same'.trans (begins p same)
    · cases none.symm.trans (begins p same)
  · obtain ⟨forward, reached, passing⟩ := passing (later.hasNext next)
    exact ⟨forward.step uniform due (later.hasNext next) allowed.inMillis step,
      isReached_later reached (step.millis_le keeps) next,
      passing.step fenced runs uniform due forward reached (shows.entersAhead allowed.ahead) sets
        step⟩

end Fleet

/-- After a run of nodes of one slice width that are not shut down, no job is pending between the
pointer that the nodes began with and the pointer: who is about to clear a slice finds none pending
in it, a job that is run goes on to a slice in front of the pointer, and the pointer moves past
slices in which no job is pending. Submissions must not be overtaken by the pointer, the clock must
not go back, and there must be a slice after the current one. Calls may fail at any time. -/
theorem Cluster.Run.passes_spent {w : Duration} {c₀ c : Cluster} {past : List Action}
    (run : c₀.Run (fun _ c a => a.IsTimely w c) past c) (alone : c₀.nodes = [])
    (aligned : c₀.store.IsAligned w c₀.now) (reached : Slice.IsReached w c₀.now)
    (next : (Slice.containing c.now w).HasNext w) :
    (∀ p q x, c₀.store.pointer = some p → c.store.pointer = some q → p ≤ x → x < q →
      (c.store.sets x).pending = []) ∧
    (∀ n ∈ c.nodes, ∀ t ∈ n.tasks, ∀ x rest, t.code.call? = some ⟨.deleteSlice x, rest⟩ →
      c.store.pointer = some x ∧ (c.store.sets x).pending = []) ∧
    (∀ n ∈ c.nodes, ∀ t ∈ n.tasks, ∀ parent x id rest, t.role = .job parent →
      t.code.call? = some ⟨.addScheduled x id, rest⟩ → ∃ p, c.store.pointer = some p ∧ p < x) ∧
    ∀ a c' p, c.act? a = some c' → c.store.pointer = some p →
      c'.store.pointer = some p ∨ c'.store.pointer = some (p.next w) ∧
        ∀ x, p ≤ x → x < p.next w → (c.store.sets x).pending = [] := by
  obtain ⟨f, shows, timely⟩ := run.invariant (P := fun _ f => f.Timely w c₀.store.pointer) alone
    (.bare aligned reached) fun past c f a f' _ shows timely allowed step =>
      timely.step shows allowed step
  obtain ⟨uniform, fenced, -, first, due, begins, passing⟩ := timely
  rw [shows.now] at next
  obtain ⟨forward, -, passing⟩ := passing next
  -- a task of a node is at a stage of its post
  have staged {n : Node} (mem : n ∈ c.nodes) {t : Task} (there : t ∈ n.tasks) :
      ∃ i p s, f.posts i = some p ∧ p.stages t.number = some s ∧
        t = s.task p.desk.settings t.number := by
    obtain ⟨i, node⟩ := List.mem_iff_getElem?.mp mem
    obtain ⟨p, post, shown⟩ := shows.post node
    obtain ⟨s, stage, task⟩ := (shown.tasks t).mp there
    exact ⟨i, p, s, post, stage, task⟩
  rw [shows.store]
  refine ⟨fun p q x same => passing.passed p q x (begins p same), ?_, ?_,
    fun a c' p acted there => ?_⟩
  · intro n mem t there x rest calls
    obtain ⟨i, p, s, post, stage, task⟩ := staged mem there
    obtain ⟨mover, announced, rfl⟩ := TaskStage.makes (Node.Shows.op_of_call task calls)
    exact ⟨((fenced.tidy.posts i p post).fits _ _ stage).2, passing.stages i p _ _ post stage⟩
  · intro n mem t there parent x id rest role calls
    obtain ⟨i, p, s, post, stage, task⟩ := staged mem there
    have width : p.desk.settings.width = w := uniform i p post
    rcases TaskStage.makes (Node.Shows.op_of_call task calls) with ⟨ticket, job, rfl, -⟩ |
      ⟨parent, y, other, job, rfl, rfl, -⟩
    · rw [task] at role
      cases role
    · obtain ⟨q, here, le⟩ := passing.stages i p _ _ post stage
      have less : y < job.slice w := forward.stages i p _ _ post stage
      exact ⟨q, here, width ▸ lt_of_le_of_lt le less⟩
  · obtain ⟨f', step, shows'⟩ := shows.act acted
    rw [shows'.store]
    exact passing.passes uniform due step there

/-! ## Submissions in time and too late -/

namespace Action

instance : (a : Action) → Decidable a.KeepsRunning
  | send _ _ command => inferInstanceAs (Decidable (command ≠ .shutdown))
  | leave _ => isFalse fun keeps => keeps
  | pass _ | join _ _ _ | register _ _ | submit _ _ _ | receive _ | tickItself _ | answer _ _ _
  | proceed _ _ | finish _ _ _ | wake _ _ => isTrue trivial

instance (w : Duration) (c : Cluster) (a : Action) : Decidable (a.IsSteady w c) :=
  decidable_of_iff (a.HasWidth w ∧ a.KeepsTime c.now ∧ a.InMillis)
    ⟨fun ⟨width, keeps, inMillis⟩ => ⟨width, keeps, inMillis⟩,
      fun ⟨width, keeps, inMillis⟩ => ⟨width, keeps, inMillis⟩⟩

instance (c : Cluster) : (a : Action) → Decidable (a.EntersAhead c)
  | answer i number none => inferInstanceAs (Decidable (∀ n ∈ c.nodes[i]?,
      ∀ t ∈ n.task? number, ∀ x ∈ t.enters?, ∀ p ∈ c.store.pointer, p < x))
  | answer _ _ (some _) | pass _ | join _ _ _ | register _ _ | submit _ _ _ | send _ _ _ | leave _
  | receive _ | tickItself _ | proceed _ _ | finish _ _ _ | wake _ _ => isTrue trivial

instance (w : Duration) (c : Cluster) (a : Action) : Decidable (a.IsTimely w c) :=
  decidable_of_iff (a.IsSteady w c ∧ a.KeepsRunning ∧ a.HasName c ∧ a.EntersAhead c)
    ⟨fun ⟨steady, running, name, ahead⟩ => ⟨steady, running, name, ahead⟩,
      fun ⟨steady, running, name, ahead⟩ => ⟨steady, running, name, ahead⟩⟩

/-- A node joins and a job is submitted to it, with the call that looks at the pointer. -/
def submitting (job : Job) : List Action :=
  [.join (.standard "a") .errands 0, .answer 0 0 none, .answer 0 0 none, .submit 0 1 job,
    .answer 0 1 none]

/-- The other calls of that submission. -/
def entering : List Action := [.answer 0 1 none, .answer 0 1 none, .answer 0 1 none]

/-- A tick drains the slice at the pointer and clears it. -/
def clearing : List Action :=
  [.send 0 2 .tick, .receive 0, .proceed 0 2, .answer 0 2 none, .proceed 0 2, .answer 0 2 none,
    .answer 0 2 none, .answer 0 3 none, .proceed 0 3, .proceed 0 3, .answer 0 3 none,
    .answer 0 3 none, .answer 0 3 none]

end Action

theorem MemoryStore.isAligned_empty (w : Duration) (now : Instant) :
    MemoryStore.empty.IsAligned w now := by
  have unset (p : Slice) : MemoryStore.empty.pointer ≠ some p := (Option.some_ne_none p).symm
  refine ⟨fun p there => absurd there (unset p), fun p there => absurd there (unset p),
    fun id x there => ?_, fun id job row => ?_⟩
  · have there : id ∈ (MemoryStore.empty.sets x).scheduled := there
    rw [sets, MemoryStore.empty, Std.ExtTreeMap.getD_empty] at there
    exact absurd there Std.ExtTreeSet.not_mem_empty
  · rw [MemoryStore.empty, Std.ExtTreeMap.getElem?_empty] at row
    cases row

/-- A job that is entered in time is in front of the pointer when that moves past the slice before. -/
theorem Cluster.Run.passes_spent_soon : ∃ past c c',
    (Cluster.start .newYear2024).Run (fun _ c a => a.IsTimely (.ofSeconds 60) c) past c ∧
      c.act? (.answer 0 3 none) = some c' ∧
      c'.store.pointer = some (Slice.next ⟨.newYear2024⟩ (.ofSeconds 60)) ∧
      (∀ x, ⟨.newYear2024⟩ ≤ x → x < Slice.next ⟨.newYear2024⟩ (.ofSeconds 60) →
        (c.store.sets x).pending = []) ∧
      (c'.store.sets (Slice.next ⟨.newYear2024⟩ (.ofSeconds 60))).pending = [Job.soon.id] := by
  have played : ((Cluster.start .newYear2024).play? (fun _ c a => a.IsTimely (.ofSeconds 60) c) []
      (Action.submitting .soon ++ Action.entering ++ Action.clearing)).bind (fun r =>
        (r.2.act? (.answer 0 3 none)).map fun c' => (r.2.now, r.2.store.pointer, c'.store.pointer,
          (c'.store.sets (Slice.next ⟨.newYear2024⟩ (.ofSeconds 60))).pending)) =
      some (.newYear2024, some ⟨.newYear2024⟩,
        some (Slice.next ⟨.newYear2024⟩ (.ofSeconds 60)), [Job.soon.id]) := by decide +kernel
  obtain ⟨⟨past, c⟩, ends, shown⟩ := Option.bind_eq_some_iff.mp played
  obtain ⟨c', acted, facts⟩ := Option.map_eq_some_iff.mp shown
  obtain ⟨now, before, after, pending⟩ := by simpa only [Prod.mk.injEq] using facts
  have run := Cluster.Run.of_play _ .nil ends
  have passes := (run.passes_spent rfl (MemoryStore.isAligned_empty _ _) (by decide)
    (by rw [now]; decide)).2.2.2 _ c' _ acted before
  rcases passes with stays | ⟨-, spent⟩
  · rw [after] at stays
    exact absurd stays (by decide)
  · exact ⟨past, c, c', run, acted, after, spent, pending⟩

/-- A submission that the pointer overtakes leaves its job pending behind the pointer. -/
theorem Cluster.Run.passes_late : ∃ past c,
    (Cluster.start .newYear2024).Run
        (fun _ c a => a.IsSteady (.ofSeconds 60) c ∧ a.KeepsRunning ∧ a.HasName c) past c ∧
      c.store.pointer = some (Slice.next ⟨.newYear2024⟩ (.ofSeconds 60)) ∧
      (c.store.sets ⟨.newYear2024⟩).pending = [Job.errand.id] := by
  have played : ((Cluster.start .newYear2024).play?
      (fun _ c a => a.IsSteady (.ofSeconds 60) c ∧ a.KeepsRunning ∧ a.HasName c) []
        (Action.submitting .errand ++ Action.clearing ++ [.answer 0 3 none, .answer 0 3 none] ++
          Action.entering)).map
          (fun r => (r.2.store.pointer, (r.2.store.sets ⟨.newYear2024⟩).pending)) =
      some (some (Slice.next ⟨.newYear2024⟩ (.ofSeconds 60)), [Job.errand.id]) := by
    decide +kernel
  obtain ⟨⟨past, c⟩, ends, facts⟩ := Option.map_eq_some_iff.mp played
  obtain ⟨pointer, pending⟩ := Prod.mk.inj facts
  exact ⟨past, c, Cluster.Run.of_play _ .nil ends, pointer, pending⟩

end SliceScheduler
