import SliceScheduler.Proofs.JobOutcome
import SliceScheduler.Proofs.PointerLaw
/-!
# Jobs go on to later slices

A job that comes back or is retried goes on to a slice after the current one. That is a slice after
the one that it was run for as long as the clock does not go back.

1. `Event.IsForward` says that a job was not moved to the slice that it came from or to an earlier
   one;
2. `Fleet.Forward` adds that the triggers in the store are regular, and that tasks have jobs in hand
   that go on to a later slice than the one at work;
3. `Fleet.Forward.step` says that every step keeps this up while the clock does not go back;
4. `Cluster.Run.reschedules_forward` is the result, and `Cluster.Run.reschedules_back` the run of a
   job whose executor ends after the clock was set back.
-/
namespace SliceScheduler

/-- A job that is moved goes to a later slice. -/
def Event.IsForward : Event → Prop
  | jobRescheduled _ source target _ => source < target
  | _ => True

/-- A job that is submitted has its times in whole milliseconds. -/
def Action.InMillis : Action → Prop
  | submit _ _ job => job.trigger.InMillis
  | _ => True

namespace Action

instance : (a : Action) → Decidable a.InMillis
  | submit _ _ job => inferInstanceAs (Decidable job.trigger.InMillis)
  | pass _ | join _ _ _ | register _ _ | send _ _ _ | leave _ | receive _ | tickItself _
  | answer _ _ _ | proceed _ _ | finish _ _ _ | wake _ _ => isTrue trivial

end Action

/-- The job in hand has a regular trigger and, once it was put on its next one, a later slice. -/
def JobStage.Forward (w : Duration) (slice : Slice) : JobStage → Prop
  | activate job _ => job.trigger.Regular w
  | update job => job.trigger.Regular w ∧ slice < job.slice w
  | enter job | finish job | leave job => slice < job.slice w
  | _ => True

/-- What a job comes to has it in hand like that. -/
def JobNext.Forward (w : Duration) (slice : Slice) : JobNext → Prop
  | call s => s.Forward w slice
  | execute job _ => job.trigger.Regular w
  | spent => True

/-- What a job announces and what it comes to are like that. -/
def JobNext.LeadsForward (w : Duration) (slice : Slice) (r : List Event × JobNext) : Prop :=
  (∀ e ∈ r.1, e.IsForward) ∧ r.2.Forward w slice

/-- The jobs that a task has in hand have regular triggers and go on to later slices. -/
def TaskStage.Forward (w : Duration) : TaskStage → Prop
  | submission _ submitted _ => submitted.trigger.Regular w
  | job _ slice _ s => s.Forward w slice
  | running _ _ _ loaded _ => loaded.trigger.Regular w
  | _ => True

/-- The jobs of the store have regular triggers. -/
def MemoryStore.Regular (w : Duration) (s : MemoryStore) : Prop :=
  ∀ (id : JobId) (job : Job), s.jobs[id]? = some job → job.trigger.Regular w

/-- No job was moved to a slice that is not later. -/
def Desk.Forward (d : Desk) : Prop := ∀ e ∈ d.log.toList, e.IsForward

/-- Jobs go on to later slices, and whatever has jobs in hand sees to it. -/
structure Fleet.Forward (w : Duration) (f : Fleet) : Prop where
  rows : f.store.Regular w
  desks : ∀ i p, f.posts i = some p → p.desk.Forward
  stages : ∀ i p k s, f.posts i = some p → p.stages k = some s → s.Forward w

/-- There is a slice after one that has begun if there is one after the current slice. -/
theorem Slice.Begun.hasNext {w : Duration} {s current : Slice} (begun : s.Begun current)
    (next : current.HasNext w) : s.HasNext w := by
  have := begun.millis_le
  rw [hasNext_iff] at next ⊢
  omega

namespace ReschedulingLemmas

open Post

variable {w : Duration} {now : Instant} {store store' : MemoryStore} {p : Post} {e : Effect}
  {k : Nat} {s : TaskStage} {prompt : Prompt} {slice : Slice}

/-! ## The store -/

/-- Only regular triggers are written. -/
theorem regular_attempt {fault : Option StoreError} {op : Operation} {answer : op.Result}
    (rows : store.Regular w) (made : store.attempt now fault op = (answer, store'))
    (writes : ∀ job, op.written? = some job → job.trigger.Regular w) :
    store'.Regular w := by
  rcases MemoryStore.attempt_cases made with ⟨-, -, -, rfl⟩ | ⟨-, performed⟩
  · exact rows
  · obtain rfl : (store.perform now op).2 = store' := congrArg Prod.snd performed
    intro id row there
    rcases MemoryStore.row_perform there with before | written
    · exact rows id row before
    · exact writes row written

/-! ## Announcements -/

theorem forward_of_log {d d' : Desk} (same : d'.log = d.log) (forward : d.Forward) :
    d'.Forward := by
  rwa [Desk.Forward, same]

theorem forward_announce {d : Desk} {event : Event} (forward : d.Forward)
    (announced : event.IsForward) : (d.announce event).Forward := by
  intro e mem
  rw [Desk.announce, Array.toList_push] at mem
  rcases List.mem_append.mp mem with before | new
  · exact forward e before
  · exact List.mem_singleton.mp new ▸ announced

theorem forward_announceAll {d : Desk} {events : List Event} (forward : d.Forward)
    (announced : ∀ e ∈ events, e.IsForward) : (d.announceAll events).Forward := by
  induction events generalizing d with
  | nil => exact forward
  | cons e events ih =>
    exact ih (forward_announce forward (announced e List.mem_cons_self))
      fun e' mem => announced e' (List.mem_cons_of_mem e mem)

theorem forward_turn {d : Desk} (forward : d.Forward) (fromTick : Bool) (set : NodeSettings)
    (t : TurnStage) (answer : (t.op set).Result) :
    (t.react fromTick set d answer).desk.Forward := by
  rcases t.log_react fromTick set d answer with same | ⟨slice, same⟩
  · exact forward_of_log same forward
  · exact forward_of_log same (forward_announce forward trivial)

theorem forward_walk {d : Desk} (forward : d.Forward) (dispatch : Bool) (advanced : List Slice)
    (set : NodeSettings) (t : WalkStage) (answer : (t.op set).Result) :
    (t.react now dispatch advanced set d answer).desk.Forward := by
  rcases t.log_react now dispatch advanced set d answer with same | ⟨slice, same⟩
  · exact forward_of_log same forward
  · exact forward_of_log same (forward_announce forward trivial)

/-! ## Jobs -/

theorem jobPlace_forward {parent : Nat} {id : JobId} {next : JobNext}
    (forward : next.Forward w slice) :
    (jobPlace parent slice id next).elim True (·.Forward w) := by
  cases next <;> exact forward

/-- The job that was loaded is one of the store. -/
theorem row_of_loaded {fault : Option StoreError} {id : JobId} {job : Job}
    (made : store.attempt now fault (.getJob id) = (.ok job, store')) :
    store.jobs[id]? = some job := by
  rcases MemoryStore.attempt_cases made with ⟨e, -, failed, -⟩ | ⟨-, performed⟩
  · cases failed
  · obtain ⟨-, ⟨⟨what, failed⟩, -⟩ | ⟨job', same, there⟩⟩ := MemoryStore.getJob_cases performed
    · cases failed
    · exact Except.ok.inj same ▸ there

theorem loaded_forward {d : Desk} {job : Job} (regular : job.trigger.Regular w) :
    (JobStage.loaded d slice job).Forward w slice := by
  unfold JobStage.loaded
  split
  · trivial
  · split
    · trivial
    · exact regular

/-- A job goes on from call to call with what it has in hand, and the move that it announces last is
the one that it has made. -/
theorem forward_react {id : JobId} {t : JobStage} {fault : Option StoreError} {d : Desk}
    {answer : (t.op w slice id).Result} (rows : store.Regular w)
    (made : store.attempt now fault (t.op w slice id) = (answer, store'))
    (forward : t.Forward w slice) :
    JobNext.LeadsForward w slice (t.react w d slice id answer) := by
  have silent {next : JobNext} (goes : next.Forward w slice) :
      JobNext.LeadsForward w slice ([], next) :=
    ⟨fun _ mem => absurd mem List.not_mem_nil, goes⟩
  have single {event : Event} {next : JobNext} (announced : event.IsForward)
      (goes : next.Forward w slice) : JobNext.LeadsForward w slice ([event], next) :=
    ⟨fun _ mem => List.mem_singleton.mp mem ▸ announced, goes⟩
  cases t with
  | load =>
    rcases answer with e | job
    · cases e <;> exact silent trivial
    · exact silent (loaded_forward (rows id job (row_of_loaded made)))
  | pass => exact silent trivial
  | deadLetter type => exact single trivial trivial
  | activate job registration =>
    rcases answer with e | _
    · exact silent trivial
    · exact single trivial forward
  | update job =>
    rcases answer with e | _
    · exact silent trivial
    · exact silent forward.2
  | enter job | finish job =>
    rcases answer with e | _
    · exact silent trivial
    · exact silent forward
  | leave job =>
    rcases answer with e | _
    · exact silent trivial
    · exact single forward trivial
  | retire id => rcases answer with e | _ <;> exact silent trivial
  | delete id => exact silent trivial

/-- A job whose executor has come to an end goes on after the current slice, which is not before the
slice that it was run for. -/
theorem forward_outcome {d : Desk} {job : Job} (id : JobId) (policy : RetryPolicy) (o : Outcome)
    (width : d.width = w) (regular : job.trigger.Regular w)
    (begun : slice ≤ Slice.containing now w) (next : (Slice.containing now w).HasNext w) :
    JobNext.LeadsForward w slice
      ((JobStage.outcome now d slice id job policy o).1,
        .call (JobStage.outcome now d slice id job policy o).2) := by
  constructor
  · unfold JobStage.outcome
    split
    · simp [Event.IsForward]
    · split <;> simp [Event.IsForward]
  · rw [JobStage.outcome_eq, width]
    cases onward : job.onward? policy w now o with
    | none => trivial
    | some goes =>
      obtain ⟨trigger, retries⟩ := goes
      have goes := Job.goesOn_of_onward? onward
      exact ⟨goes.regular regular, lt_of_le_of_lt begun (goes.lt_slice regular next)⟩

/-- The tasks that write a job have it in hand. -/
theorem regular_of_written {set : NodeSettings} {op : Operation} {job : Job} (forward : s.Forward w)
    (calls : s.op? set = some op) (written : op.written? = some job) : job.trigger.Regular w := by
  cases op with
  | insertJob submitted =>
    obtain rfl := Option.some.inj written
    obtain ⟨ticket, rfl⟩ := TaskStage.makes calls
    exact forward
  | updateJob moved =>
    obtain rfl := Option.some.inj written
    obtain ⟨parent, x, id, rfl⟩ := TaskStage.makes calls
    exact forward.1
  | _ => cases written

theorem forward_turnPlace (mover : Mover) (announced : List Slice)
    (next : TurnStage ⊕ Program.Turn) : (turnPlace mover announced next).Forward w := by
  cases next <;> trivial

theorem forward_permits (ids : List JobId) : (permits slice ids).Forward w := by
  cases ids <;> trivial

theorem forward_drained (drained : Option Slice) :
    (drained.map TaskStage.sets).elim True (·.Forward w) := by
  cases drained <;> trivial

theorem forward_of_opens {a : Action} (opens : s.Opens a)
    (other : ∀ i ticket job, a ≠ .submit i ticket job) : s.Forward w := by
  cases s with
  | submission ticket submitted t =>
    cases t with
    | pointer =>
      obtain ⟨i, same⟩ := opens
      exact absurd same (other i ticket submitted)
    | _ => cases opens
  | job | running => cases opens
  | _ => trivial

end ReschedulingLemmas

open ReschedulingLemmas

/-- A step of a task keeps up what is said of jobs and of what is announced of them. -/
theorem Post.Works.forward {w : Duration} {now : Instant} {first : Option Slice}
    {store store' : MemoryStore} {p : Post} {k : Nat} {s : TaskStage} {prompt : Prompt} {e : Effect}
    (works : p.Works now store k s prompt e store') (width : p.desk.width = w)
    (next : (Slice.containing now w).HasNext w) (due : s.Due w first (Slice.containing now w))
    (rows : store.Regular w) (desk : p.desk.Forward) (stage : s.Forward w) :
    store'.Regular w ∧ e.desk.Forward ∧ e.next.elim True (·.Forward w) ∧
      e.spawned.elim True (·.Forward w) := by
  constructor
  · rcases works.store with rfl | ⟨op, fault, answer, calls, -, made⟩
    · exact rows
    · exact regular_attempt rows made fun job written => regular_of_written stage calls written
  cases works with
  | start made =>
    unfold afterSeek
    split <;> exact ⟨desk, trivial, trivial⟩
  | submission made =>
    unfold afterSubmit
    split
    · exact ⟨desk, stage, trivial⟩
    · exact ⟨desk, trivial, trivial⟩
  | guard free => exact ⟨desk, forward_turnPlace .., trivial⟩
  | turn made => exact ⟨forward_turn desk _ _ _ _, forward_turnPlace .., forward_drained _⟩
  | moved => exact ⟨desk, forward_turnPlace .., trivial⟩
  | @stay mover announced => cases mover <;> exact ⟨desk, trivial, trivial⟩
  | walk made =>
    unfold afterWalk
    split <;> exact ⟨forward_walk desk _ _ _ _ _, trivial, forward_drained _⟩
  | look => exact ⟨desk, trivial, trivial⟩
  | halt => exact ⟨desk, trivial, trivial⟩
  | hold free =>
    unfold givingUp
    split <;> exact ⟨desk, trivial, trivial⟩
  | giveUp made live' =>
    unfold givingUp
    split <;> exact ⟨desk, trivial, trivial⟩
  | @sets slice fault answer store' made =>
    cases answer with
    | error e => exact ⟨desk, trivial, trivial⟩
    | ok index => exact ⟨desk, forward_permits _, trivial⟩
  | permit => exact ⟨desk, forward_permits _, trivial⟩
  | jobs spent => exact ⟨desk, trivial, trivial⟩
  | job made =>
    obtain rfl : p.desk.settings.width = w := width
    obtain ⟨announced, goes⟩ := forward_react (d := p.desk) rows made stage
    exact ⟨forward_announceAll desk announced, jobPlace_forward goes, trivial⟩
  | @running parent slice id job registration outcome =>
    obtain ⟨announced, goes⟩ := forward_outcome id registration.policy outcome width stage
      due.begun.le next
    exact ⟨forward_announceAll desk announced, jobPlace_forward goes, trivial⟩

/-- A submission that is not refused at once has a regular trigger in hand. -/
theorem Post.submitting_forward {w : Duration} {p : Post} {job : Job} (ticket : Nat)
    (width : p.desk.width = w) (inMillis : job.trigger.InMillis) :
    (p.submitting ticket job).next.elim True (·.Forward w) := by
  unfold submitting
  split
  · trivial
  · rename_i screened
    have accepted : job.check w = .ok () := by
      unfold Desk.screen at screened
      split at screened
      · cases screened
      · rw [width] at screened
        split at screened
        · cases screened
        · assumption
    exact Trigger.regular_of_check (Job.check_trigger accepted) inMillis

namespace Fleet

variable {w : Duration} {first : Option Slice} {f f' : Fleet} {i : Nat} {p q : Post}

theorem Forward.bare {c : Cluster} (rows : c.store.Regular w) : (bare c).Forward w := by
  refine ⟨rows, fun i p post => ?_, fun i p k s post => ?_⟩
  · cases post
  · cases post

/-- A submission begins a task of its own. -/
theorem Step.submits {ticket : Nat} {job : Job} (step : f.Step (.submit i ticket job) f') :
    ∃ p, f.posts i = some p ∧ f' = f.put i (p.begin (p.submitting ticket job)) := by
  cases step with
  | submit _ _ post opened => exact ⟨_, post, rfl⟩
  | @work _ _ _ _ prompt _ _ _ post stage works same => cases prompt <;> cases same

/-- One post changes. -/
theorem Forward.put {store : MemoryStore} (forward : f.Forward w) (rows : store.Regular w)
    (desk : q.desk.Forward) (stages : ∀ k s, q.stages k = some s → s.Forward w) :
    ({ f with store }.put i q).Forward w := by
  refine ⟨rows, fun j r placed => ?_, fun j r k s placed stage => ?_⟩
  · rcases posts_put placed with ⟨-, rfl⟩ | ⟨-, before⟩
    · exact desk
    · exact forward.desks j r before
  · rcases posts_put placed with ⟨-, rfl⟩ | ⟨-, before⟩
    · exact stages k s stage
    · exact forward.stages j r k s before stage

/-- Steps keep up that jobs go on to later slices, as long as the slices at work have begun. -/
theorem Forward.step {a : Action} (forward : f.Forward w) (uniform : f.Uniform w)
    (due : f.Due w first) (next : (f.limit w).HasNext w) (inMillis : a.InMillis)
    (step : f.Step a f') : f'.Forward w := by
  rcases em (∃ i ticket job, a = .submit i ticket job) with ⟨i, ticket, job, rfl⟩ | other
  · obtain ⟨p, post, rfl⟩ := step.submits
    have begins := p.begins_submitting i ticket job
    refine forward.put forward.rows (forward_of_log begins.log (forward.desks i p post)) ?_
    intro k s stage
    have goes := Post.submitting_forward ticket (uniform i p post) inMillis
    rcases Post.stages_apply stage with ⟨-, same⟩ | ⟨-, -, spawned⟩ | ⟨-, before⟩
    · rwa [same] at goes
    · unfold Post.submitting at spawned
      split at spawned <;> cases spawned
    · exact forward.stages i p k s post before
  rcases step.kinds with ⟨now, rfl, rfl⟩ | ⟨i, settings, registry, ticket, rfl, free, rfl⟩ |
    ⟨i, p, q, post, begins, rfl⟩ | ⟨i, p, k, s, prompt, e, store, post, stage, works, -, rfl⟩
  · exact ⟨forward.rows, forward.desks, forward.stages⟩
  · refine forward.put forward.rows (fun e mem => absurd mem List.not_mem_nil) fun k s stage => ?_
    obtain ⟨-, rfl⟩ := Post.stages_joining stage
    trivial
  · refine forward.put forward.rows (forward_of_log begins.log (forward.desks i p post)) ?_
    intro k s stage
    rcases begins.stages k s stage with before | ⟨-, -, opens⟩
    · exact forward.stages i p k s post before
    · exact forward_of_opens opens fun j ticket job same => other ⟨j, ticket, job, same⟩
  · obtain ⟨rows, desk, goes, spawns⟩ := works.forward (uniform i p post) next
      (due.stages i p k s post stage) forward.rows (forward.desks i p post)
      (forward.stages i p k s post stage)
    refine forward.put rows desk fun k' s' stage' => ?_
    rcases Post.stages_apply stage' with ⟨-, same⟩ | ⟨-, -, same⟩ | ⟨-, before⟩
    · rwa [same] at goes
    · rwa [same] at spawns
    · exact forward.stages i p k' s' post before

end Fleet

/-! ## Runs -/

/-- The nodes have one slice width, the clock does not go back, and jobs have their times in whole
milliseconds. -/
structure Action.IsSteady (w : Duration) (c : Cluster) (a : Action) : Prop where
  width : a.HasWidth w
  keeps : a.KeepsTime c.now
  inMillis : a.InMillis

/-- After a run of nodes of one slice width, every job that was moved went to a later slice than the
one that it was run for, as long as the clock does not go back and there is a slice after the current
one. Calls may fail at any time, and nodes may be shut down. -/
theorem Cluster.Run.reschedules_forward {w : Duration} {c₀ c : Cluster} {past : List Action}
    (run : c₀.Run (fun _ c a => a.IsSteady w c) past c) (alone : c₀.nodes = [])
    (begun : ∀ p, c₀.store.pointer = some p → p.Begun (Slice.containing c₀.now w))
    (rows : c₀.store.Regular w)
    (next : (Slice.containing c.now w).HasNext w) {n : Node} (mem : n ∈ c.nodes) {id : JobId}
    {source target : Slice} {retries : Count}
    (moved : .jobRescheduled id source target retries ∈ n.desk.log.toList) : source < target := by
  obtain ⟨f, shows, uniform, ⟨first, due⟩, forward⟩ := run.invariant
    (P := fun _ f => f.Uniform w ∧ (∃ first, f.Due w first) ∧
      ((f.limit w).HasNext w → f.Forward w)) alone
    ⟨.bare w c₀, ⟨_, .bare begun⟩, fun _ => .bare rows⟩
    fun past c f a f' _ shows ⟨uniform, ⟨first, due⟩, forward⟩ steady step => by
      have later := step.forward (w := w) (shows.now ▸ steady.keeps)
      obtain ⟨first', -, due'⟩ := due.step uniform later step
      refine ⟨uniform.step steady.width step, ⟨first', due'⟩, fun next => ?_⟩
      have next := later.hasNext next
      exact (forward next).step uniform due next steady.inMillis step
  obtain ⟨i, node⟩ := List.mem_iff_getElem?.mp mem
  obtain ⟨p, post, shown⟩ := shows.post node
  rw [shown.desk] at moved
  rw [shows.now] at next
  exact (forward next).desks i p post _ moved

/-! ## A clock that is set back -/

/-- A minute and a half before the end of 2023. -/
def Instant.beforeNewYear2024 : Instant :=
  ⟨1704067110, 0, by decide, by decide, zero_nano_lt, by decide⟩

/-- The executor of a type of job that is retried after ten seconds. -/
def Registry.retried : Registry :=
  Std.ExtTreeMap.empty.insert "WORK" ⟨0, fun _ => .ok (), .fixed (.ofSeconds 10)⟩

/-- The job of an errand fails after the clock was set back, and is moved to its retry. -/
def Action.setBack : List Action :=
  .join (.standard "a") .retried 0 :: Action.errand.tail ++
    [.pass .beforeNewYear2024, .finish 0 4 (.failure (.other "no answer")), .answer 0 4 none,
      .answer 0 4 none, .answer 0 4 none, .answer 0 4 none]

/-- When the clock is set back while a job is at work, the job goes back to the slice before the one
that it was run for. The pointer is past that slice already. -/
theorem Cluster.Run.reschedules_back : ∃ past c n,
    (Cluster.start .newYear2024).Run
        (fun _ _ a => a.HasWidth (.ofSeconds 60) ∧ a.InMillis) past c ∧ n ∈ c.nodes ∧
      .jobRescheduled Job.errand.id ⟨.newYear2024⟩ (Slice.prev ⟨.newYear2024⟩ (.ofSeconds 60))
        Count.zero.succ ∈ n.desk.log.toList ∧
      c.store.pointer = some ⟨.newYear2024⟩ ∧
      (c.store.sets (Slice.prev ⟨.newYear2024⟩ (.ofSeconds 60))).pending = [Job.errand.id] := by
  have played : ((Cluster.start .newYear2024).play?
      (fun _ _ a => a.HasWidth (.ofSeconds 60) ∧ a.InMillis) [] Action.setBack).bind (fun r =>
        r.2.nodes[0]?.map fun n => (n.desk.log.toList[2]?, r.2.store.pointer,
          (r.2.store.sets (Slice.prev ⟨.newYear2024⟩ (.ofSeconds 60))).pending)) =
      some (some (.jobRescheduled Job.errand.id ⟨.newYear2024⟩
        (Slice.prev ⟨.newYear2024⟩ (.ofSeconds 60)) Count.zero.succ), some ⟨.newYear2024⟩,
          [Job.errand.id]) := by decide +kernel
  obtain ⟨⟨past, c⟩, ends, shown⟩ := Option.bind_eq_some_iff.mp played
  obtain ⟨n, node, facts⟩ := Option.map_eq_some_iff.mp shown
  obtain ⟨moved, pointer, pending⟩ := by simpa only [Prod.mk.injEq] using facts
  exact ⟨past, c, n, Cluster.Run.of_play _ .nil ends, List.mem_of_getElem? node,
    List.mem_of_getElem? moved, pointer, pending⟩

end SliceScheduler
