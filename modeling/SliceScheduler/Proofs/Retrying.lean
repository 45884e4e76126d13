import SliceScheduler.Proofs.Course
import SliceScheduler.Proofs.Fencing
/-!
# A node that retries a job

One node works on a store, no call fails, and the executor of the type of a job, if there is one,
retries by a bounded policy. The clock goes anywhere, and the node may be paused or shut down.

1. `Action.IsRetrying` says what may happen;
2. `TaskStage.Minds` says that a task is about the jobs that it was set off for, and `Fleet.Retrying`
   puts together what holds of the fleet;
3. `Fleet.Retrying.step` is the result: every step that may happen keeps it up.
-/
namespace SliceScheduler

/-! ## What may happen -/

/-- The executor of a type of job, if there is one, retries by the policy. -/
def Registry.Retries (p : BoundedRetry) (type : String) (registry : Registry) : Prop :=
  ∀ r, registry[type]? = some r → r.policy = .bounded p

namespace Action

/-- No call fails. -/
def IsFaultless : Action → Prop
  | answer _ _ fault => fault = none
  | _ => True

/-- A node joins only while there is none. -/
def IsSingle (c : Cluster) : Action → Prop
  | join _ _ _ => c.nodes = []
  | _ => True

/-- The executors that a node gets. -/
def registry? : Action → Option Registry
  | join _ registry _ | register _ registry => some registry
  | _ => none

/-- What is submitted under the id of the job is the job, and once only. -/
def Submits (first : Job) (past : List Action) : Action → Prop
  | submit _ _ job => job.id = first.id → job = first ∧ ∀ b ∈ past, b.submitted? ≠ some first.id
  | _ => True

/-- What happens belongs to one node of a slice width, which retries jobs of the type of the first
job by the policy; the job is submitted once, and no call fails. -/
structure IsRetrying (first : Job) (p : BoundedRetry) (w : Duration) (past : List Action)
    (c : Cluster) (a : Action) : Prop where
  width : a.HasWidth w
  faultless : a.IsFaultless
  single : a.IsSingle c
  policed : ∀ registry, a.registry? = some registry → registry.Retries p first.type
  submits : a.Submits first past

end Action

/-! ## What holds of the fleet -/

/-- The task is about the jobs that it was set off for, and submits a job under the id of `first` only
if it is that job. -/
def TaskStage.Minds (first : Job) : TaskStage → Prop
  | submission _ submitted _ => submitted.id = first.id → submitted = first
  | permit _ id others => (id :: others).Nodup
  | job _ _ id s => s.IsAbout id
  | running _ _ id loaded _ => loaded.id = id
  | _ => True

/-- What holds of a fleet of one node that retries a job. -/
structure Fleet.Retrying (first : Job) (p : BoundedRetry) (w : Duration) (f : Fleet) : Prop where
  fenced : f.Fenced
  single : ∀ i q, f.posts i = some q → i = 0
  uniform : f.Uniform w
  keyed : f.store.Keyed
  minds : ∀ i q k s, f.posts i = some q → q.stages k = some s → s.Minds first
  policed : ∀ i q, f.posts i = some q → q.desk.registry.Retries p first.type

namespace RetryingLemmas

open Post TidyLemmas StaffLemmas JobViewLemmas

variable {first : Job} {id : JobId} {q : Post} {f f' : Fleet} {i k : Nat} {e : Effect}
  {s : TaskStage} {now : Instant} {store store' : MemoryStore} {prompt : Prompt}
  {past : List Action}

/-! ## Tasks stay about their jobs -/

theorem minds_of_jobless (s : TaskStage) (jobless : s.isJobless = true) : s.Minds first := by
  cases s with
  | submission | permit | job | running => cases jobless
  | _ => trivial

theorem minds_permits {slice : Slice} {ids : List JobId} (nodup : ids.Nodup) :
    (permits slice ids).Minds first := by
  cases ids with
  | nil => trivial
  | cons id others => exact nodup

theorem minds_jobPlace {parent : Nat} {slice : Slice} {next : JobNext} (about : next.IsAbout id) :
    (jobPlace parent slice id next).elim True (·.Minds first) := by
  cases next with
  | call | execute => exact about
  | spent => trivial

/-- Tasks stay about the jobs that they were set off for. -/
theorem minds_work (works : q.Works now store k s prompt e store') (calm : prompt.IsCalm)
    (keyed : store.Keyed) (minds : s.Minds first) :
    e.next.elim True (·.Minds first) ∧ e.spawned.elim True (·.Minds first) := by
  have works' := works
  cases works with
  | submission made =>
    unfold afterSubmit
    split
    · exact ⟨minds, trivial⟩
    · exact ⟨trivial, trivial⟩
  | sets made =>
    unfold afterSets
    split
    · exact ⟨minds_permits (MemoryStore.nodup_pending _), trivial⟩
    · exact ⟨trivial, trivial⟩
  | permit => exact ⟨minds_permits minds.of_cons, trivial⟩
  | @job parent slice id s fault answer store' made =>
    obtain rfl : fault = none := calm
    have about : s.IsAbout id := minds
    have made : store.perform now (s.op q.desk.settings.width slice id) = (answer, store') := made
    obtain rfl : answer = (store.entry id).answer (s.op q.desk.settings.width slice id) :=
      (congrArg Prod.fst made).symm.trans (MemoryStore.answer_perform (JobStage.subject_op about))
    exact ⟨minds_jobPlace (Course.about_react (fun job row => keyed id job row) about), trivial⟩
  | @running parent slice id loaded registration outcome =>
    refine ⟨?_, trivial⟩
    show (JobStage.outcome ..).2.IsAbout id
    rw [JobStage.outcome_eq]
    split <;> exact minds
  | _ =>
    obtain ⟨next, spawned⟩ := jobless_work works' rfl
    exact ⟨elim_of_jobless next minds_of_jobless, elim_of_jobless spawned minds_of_jobless⟩

theorem registry_turn (fromTick : Bool) (set : NodeSettings) (desk : Desk) (s : TurnStage)
    (answer : (s.op set).Result) :
    (s.react fromTick set desk answer).desk.registry = desk.registry := by
  cases s with
  | seek =>
    rcases answer with e | _ | pointer
    · rfl
    · rfl
    · simp only [TurnStage.react]
      split <;> rfl
  | recheck pointer =>
    rcases answer with e | index
    · rfl
    · simp only [TurnStage.react]
      split
      · split <;> rfl
      · rfl
  | clear pointer => rcases answer with e | _ <;> rfl
  | move pointer => rcases answer with e | _ <;> rfl
  | back pointer moved => cases moved <;> rfl

theorem registry_walk (dispatch : Bool) (advanced : List Slice) (set : NodeSettings) (desk : Desk)
    (s : WalkStage) (answer : (s.op set).Result) :
    (s.react now dispatch advanced set desk answer).desk.registry = desk.registry := by
  cases s with
  | read => rcases answer with e | _ | pointer <;> rfl
  | ensure s =>
    simp only [WalkStage.react]
    split <;> rfl
  | release pointer slice rest => rfl
  | take pointer current limit slice before => rcases answer with e | _ | _ <;> rfl

/-- The executors of a node stay as they are while its tasks work. -/
theorem registry_work (works : q.Works now store k s prompt e store') :
    e.desk.registry = q.desk.registry := by
  cases works with
  | start made =>
    unfold afterSeek
    split <;> rfl
  | submission made =>
    unfold afterSubmit
    split <;> rfl
  | turn made => exact registry_turn ..
  | @stay mover announced => cases mover <;> rfl
  | walk made =>
    rw [desk_afterWalk]
    exact registry_walk ..
  | giveUp made live' =>
    unfold givingUp
    split <;> rfl
  | sets made =>
    unfold afterSets
    split <;> rfl
  | job made => exact Desk.registry_announceAll ..
  | running => exact Desk.registry_announceAll ..
  | _ => rfl

theorem registry_put {j : Nat} {r r' : Post} (there : f.posts j = some r)
    (same : r'.desk.registry = r.desk.registry) (post : (f.put j r').posts i = some q) :
    ∃ q', f.posts i = some q' ∧ q.desk.registry = q'.desk.registry := by
  rcases Fleet.posts_put post with ⟨rfl, rfl⟩ | ⟨-, before⟩
  · exact ⟨r, there, same⟩
  · exact ⟨q, before, rfl⟩

theorem registry_obeys {ticket : Option Nat} {command : Command}
    (obeys : q.Obeys ticket command e) : e.desk.registry = q.desk.registry := by
  cases obeys <;> rfl

/-- The executors of a node stay as they are, unless it gets others. -/
theorem registry_step {a : Action} (step : f.Step a f') (post : f'.posts i = some q) :
    (∃ q', f.posts i = some q' ∧ q.desk.registry = q'.desk.registry) ∨
      a.registry? = some q.desk.registry := by
  cases step with
  | pass now => exact .inl ⟨q, post, rfl⟩
  | join free =>
    rcases Fleet.posts_put post with ⟨rfl, rfl⟩ | ⟨-, before⟩
    · exact .inr rfl
    · exact .inl ⟨q, before, rfl⟩
  | register registry there =>
    rcases Fleet.posts_put post with ⟨rfl, rfl⟩ | ⟨-, before⟩
    · exact .inr rfl
    · exact .inl ⟨q, before, rfl⟩
  | submit ticket job there opened =>
    refine .inl (registry_put there ?_ post)
    show (submitting ..).desk.registry = _
    unfold submitting
    split <;> rfl
  | send ticket command there opened =>
    refine .inl (registry_put there ?_ post)
    unfold Post.send
    split <;> rfl
  | leave there opened =>
    refine .inl (registry_put there ?_ post)
    rfl
  | receive there opened idle waits obeys =>
    exact .inl (registry_put there (registry_obeys obeys) post)
  | abandon there opened idle alone obeys =>
    exact .inl (registry_put there (registry_obeys obeys) post)
  | tickItself there opened idle obeys =>
    exact .inl (registry_put there (registry_obeys obeys) post)
  | work there stage works same => exact .inl (registry_put there (registry_work works) post)

/-- A task that begins is about the jobs that it was set off for. -/
theorem minds_opens {a : Action} (submits : a.Submits first past) (opens : s.Opens a) :
    s.Minds first := by
  cases s with
  | submission ticket job stage =>
    cases stage with
    | pointer =>
      obtain ⟨i, rfl⟩ := opens
      exact fun mine => (submits mine).1
    | _ => cases opens
  | permit | job | running => cases opens
  | _ => trivial

end RetryingLemmas

open RetryingLemmas

namespace Fleet

variable {first : Job} {p : BoundedRetry} {w : Duration} {c c' : Cluster} {f f' : Fleet}
  {past : List Action} {a : Action}

theorem Retrying.bare (keyed : c.store.Keyed) : (bare c).Retrying first p w :=
  ⟨.bare c, fun _ _ post => (by cases post), .bare w c, keyed, fun _ _ _ _ post => (by cases post),
    fun _ _ post => (by cases post)⟩

/-- What holds of the fleet is kept up. -/
theorem Retrying.step (retrying : f.Retrying first p w) (shows : c.Shows f) (shows' : c'.Shows f')
    (allowed : a.IsRetrying first p w past c) (step : f.Step a f') :
    f'.Retrying first p w := by
  have name : a.HasName c := by
    cases a with
    | join settings registry ticket =>
      intro n mem
      have none : c.nodes = [] := allowed.single
      rw [none] at mem
      cases mem
    | _ => trivial
  have policed (i : Nat) (q : Post) (post : f'.posts i = some q) :
      q.desk.registry.Retries p first.type := by
    rcases registry_step step post with ⟨q', before, same⟩ | gets
    · rw [same]
      exact retrying.policed i q' before
    · exact allowed.policed _ gets
  have minds : ∀ i q k s, f'.posts i = some q → q.stages k = some s → s.Minds first := by
    refine step.stages_all (fun _ => trivial) (fun s => minds_opens allowed.submits)
      (fun i q k s prompt e store post stage works same => ?_) retrying.minds
    refine minds_work works ?_ retrying.keyed (retrying.minds i q k s post stage)
    cases prompt with
    | answer fault =>
      subst same
      exact allowed.faultless
    | _ => trivial
  refine ⟨retrying.fenced.step (shows.isNew name) step, ?_,
    retrying.uniform.step allowed.width step, step.keyed retrying.keyed, minds, policed⟩
  rcases step.kinds with ⟨now, -, rfl⟩ | ⟨i, settings, registry, ticket, rfl, free, rfl⟩ |
    ⟨i, q, q', post, begins, rfl⟩ | ⟨i, q, k, s, prompt, e, store, post, stage, works, same, rfl⟩
  · exact retrying.single
  · -- the node that joins is the only one, and has the first place
    have none : c.nodes = [] := allowed.single
    have only (j : Nat) (r : Post) (placed : (f.put i (.joining settings registry ticket)).posts j =
        some r) : j = i := by
      rcases posts_put placed with ⟨here, -⟩ | ⟨-, before⟩
      · exact here
      · obtain ⟨n, node, -⟩ := shows.node before
        rw [none] at node
        cases node
    intro j r placed
    obtain ⟨n, node, -⟩ := shows'.node placed
    have more : 0 < c'.nodes.length := Nat.zero_lt_of_lt (List.getElem?_eq_some_iff.mp node).1
    obtain ⟨r', placed', -⟩ := shows'.post (List.getElem?_eq_getElem more)
    exact (only j r placed).trans (only 0 r' placed').symm
  all_goals
    intro j r placed
    rcases posts_put placed with ⟨rfl, -⟩ | ⟨-, before⟩
    · exact retrying.single j q post
    · exact retrying.single j r before

end Fleet

end SliceScheduler
