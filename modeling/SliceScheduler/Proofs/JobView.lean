import SliceScheduler.Proofs.JobLife
import SliceScheduler.Proofs.Staff
import SliceScheduler.Proofs.TaskView
/-!
# The life of a job in a fleet

1. `TaskStage.part?` is what a task at a stage has to do with a job, and `Fleet.life` the life of a
   job that a fleet shows;
2. `life_work` says how the life changes by the step of a task, and the lemmas after it what the
   steps of submissions, drainings and jobs come to;
3. `Fleet.Step.life` is the result: a step of a fleet in which no call fails is a step in the life of
   every job.
-/
namespace SliceScheduler

/-! ## What a fleet shows of a job -/

/-- What a submission has to do with its job. -/
def SubmitStage.part (target : Slice) : SubmitStage → Part
  | enter => .entering target
  | _ => .waiting

/-- What a job task has to do with its job. -/
def JobStage.part (w : Duration) (slice : Slice) : JobStage → Part
  | load => .claimed slice
  | pass => .passing slice
  | deadLetter _ => .burying slice
  | activate _ _ => .ready slice
  | update _ | retire _ | delete _ => .busy slice
  | enter job => .moving slice (job.slice w)
  | finish job => .finishing slice (job.slice w)
  | leave job => .leaving slice (job.slice w)

/-- What a task has to do with a job. -/
def TaskStage.part? (w : Duration) (id : JobId) : TaskStage → Option Part
  | submission _ submitted s =>
    if submitted.id = id then some (s.part (submitted.slice w)) else none
  | permit slice first others => if id ∈ first :: others then some (.claimed slice) else none
  | job _ slice other s => if other = id then some (s.part w slice) else none
  | running _ slice other _ _ => if other = id then some (.busy slice) else none
  | _ => none

/-- The job that an event says to be started, and the slice. -/
def Event.started? : Event → Option (JobId × Slice)
  | jobStarted id _ slice => some (id, slice)
  | _ => none

/-- How often the node has started a job for a slice. -/
def Desk.starts (d : Desk) (id : JobId) (slice : Slice) : Nat :=
  d.log.toList.countP fun e => e.started? = some (id, slice)

/-- The life of a job that a fleet shows after what has happened. -/
def Fleet.life (w : Duration) (id : JobId) (past : List Action) (f : Fleet) : Life where
  known := ∃ a ∈ past, a.submitted? = some id
  row := f.store.jobs[id]?.map (·.slice w)
  scheduled := f.store.scheduledIn id
  finished := f.store.finishedIn id
  starts i slice := (f.posts i).elim 0 (·.desk.starts id slice)
  parts t := ((f.posts t.1).bind (·.stages t.2)).bind (·.part? w id)

namespace JobViewLemmas

open Post JobLifeLemmas

variable {w : Duration} {id : JobId} {p : Post} {f : Fleet} {i k : Nat} {e : Effect}
  {store : MemoryStore} {past : List Action}

/-! ## Logs -/

theorem starts_announce (d : Desk) (e : Event) (slice : Slice) :
    (d.announce e).starts id slice =
      d.starts id slice + if e.started? = some (id, slice) then 1 else 0 := by
  simp only [Desk.starts, Desk.announce, Array.toList_push, List.countP_append, List.countP_cons,
    List.countP_nil, Nat.zero_add, decide_eq_true_eq]

theorem starts_of_log {d d' : Desk} (same : d'.log = d.log) : d'.starts id = d.starts id := by
  funext slice
  rw [Desk.starts, same]
  rfl

/-- An event that does not start the job. -/
theorem starts_plain {e : Event} (d : Desk) (plain : ∀ slice, e.started? ≠ some (id, slice)) :
    (d.announce e).starts id = d.starts id := by
  funext slice
  rw [starts_announce, if_neg (plain slice), Nat.add_zero]

theorem starts_announceAll {events : List Event} {slice : Slice} (d : Desk)
    (plain : ∀ e ∈ events, e.started? ≠ some (id, slice)) :
    (d.announceAll events).starts id slice = d.starts id slice := by
  induction events generalizing d with
  | nil => rfl
  | cons e events ih =>
    have later := ih (d.announce e) fun e' mem => plain e' (List.mem_cons_of_mem e mem)
    rw [starts_announce, if_neg (plain e List.mem_cons_self), Nat.add_zero] at later
    exact later

/-- Nothing is started when an executor has come to an end. -/
theorem plain_outcome (now : Instant) (desk : Desk) (slice : Slice) (other : JobId) (job : Job)
    (policy : RetryPolicy) (o : Outcome) :
    ∀ e ∈ (JobStage.outcome now desk slice other job policy o).1, e.started? = none := by
  unfold JobStage.outcome
  split
  · simp [Event.started?]
  · split <;> simp [Event.started?]

/-- A job task starts its own job for its own slice. -/
theorem started_react {other : JobId} {w : Duration} {desk : Desk} {slice u : Slice} {s : JobStage}
    {answer : (s.op w slice other).Result} {e : Event}
    (mem : e ∈ (s.react w desk slice other answer).1) (started : e.started? = some (id, u)) :
    other = id ∧ slice = u := by
  cases s with
  | activate job registration =>
    rcases answer with e | _
    · cases mem
    · obtain rfl := List.mem_singleton.mp mem
      exact Prod.mk.inj (Option.some.inj started)
  | load =>
    rcases answer with e | job
    · cases e <;> cases mem
    · cases mem
  | pass => cases mem
  | deadLetter type =>
    obtain rfl := List.mem_singleton.mp mem
    cases started
  | leave job =>
    rcases answer with e | _
    · cases mem
    · obtain rfl := List.mem_singleton.mp mem
      cases started
  | delete j => cases mem
  | _ => rcases answer with e | _ <;> cases mem

theorem log_announceAll (d : Desk) (events : List Event) :
    (d.announceAll events).log.toList = d.log.toList ++ events := by
  induction events generalizing d with
  | nil => exact (List.append_nil _).symm
  | cons e events ih =>
    refine (ih (d.announce e)).trans ?_
    rw [Desk.announce, Array.toList_push, List.append_assoc, List.singleton_append]

/-- What the step of a task adds to the log starts no job but the one that the task runs, for its
slice. -/
def Logs (p : Post) (s : TaskStage) (e : Effect) : Prop :=
  ∃ events, e.desk.log.toList = p.desk.log.toList ++ events ∧ ∀ event ∈ events, ∀ j slice,
    event.started? = some (j, slice) → ∃ parent t, s = .job parent slice j t

theorem logs_quiet {s : TaskStage} (same : e.desk.log = p.desk.log) : Logs p s e :=
  ⟨[], by rw [same, List.append_nil], fun _ mem => absurd mem List.not_mem_nil⟩

theorem logs_announce {s : TaskStage} {event : Event} (none : event.started? = none)
    (same : e.desk.log = (p.desk.announce event).log) : Logs p s e := by
  refine ⟨[event], by rw [same, Desk.announce, Array.toList_push], ?_⟩
  intro event' mem j slice started
  obtain rfl := List.mem_singleton.mp mem
  cases none.symm.trans started

/-- A job is started by the task that runs it, for its slice. -/
theorem logs_work {now : Instant} {store' : MemoryStore} {s : TaskStage} {prompt : Prompt}
    (works : p.Works now store k s prompt e store') : Logs p s e := by
  cases works with
  | start made =>
    unfold afterSeek
    split <;> exact logs_quiet rfl
  | submission made =>
    unfold afterSubmit
    split <;> exact logs_quiet rfl
  | @turn mover announced t fault answer store' made =>
    rcases t.log_react mover.fromTick p.desk.settings p.desk answer with same | ⟨slice, same⟩
    · exact logs_quiet same
    · exact logs_announce rfl same
  | @stay mover announced => cases mover <;> exact logs_quiet rfl
  | @walk ticket dispatch announced t fault answer store' made =>
    rcases t.log_react now dispatch announced p.desk.settings p.desk answer with
      same | ⟨slice, same⟩
    · exact logs_quiet ((congrArg Desk.log (TidyLemmas.desk_afterWalk _)).trans same)
    · exact logs_announce rfl ((congrArg Desk.log (TidyLemmas.desk_afterWalk _)).trans same)
  | giveUp made live' =>
    unfold givingUp
    split <;> exact logs_quiet rfl
  | sets made =>
    unfold afterSets
    split <;> exact logs_quiet rfl
  | @job parent slice other t fault answer store' made =>
    refine ⟨_, log_announceAll .., fun event mem j u started => ?_⟩
    obtain ⟨rfl, rfl⟩ := started_react mem started
    exact ⟨parent, t, rfl⟩
  | @running parent slice other job registration outcome =>
    refine ⟨_, log_announceAll .., fun event mem j u started => ?_⟩
    rw [plain_outcome _ _ _ _ _ _ _ event mem] at started
    cases started
  | _ => exact logs_quiet rfl

/-- A job is started for a slice by the task that runs it. -/
theorem starts_work {now : Instant} {store' : MemoryStore} {s : TaskStage} {prompt : Prompt}
    {slice : Slice} (works : p.Works now store k s prompt e store')
    (starts : e.desk.starts id slice ≠ p.desk.starts id slice) :
    ∃ parent t, s = .job parent slice id t := by
  obtain ⟨events, log, own⟩ := logs_work works
  by_contra other
  refine starts ?_
  have none : events.countP (fun event => event.started? = some (id, slice)) = 0 :=
    List.countP_eq_zero.mpr fun event mem started =>
      other (own event mem id slice (of_decide_eq_true started))
  rw [Desk.starts, log, List.countP_append, none, Nat.add_zero]
  rfl

/-! ## The life after a step -/

theorem life_past {a : Action} (other : a.submitted? ≠ some id) :
    f.life w id (a :: past) = f.life w id past := by
  ext : 1
  · refine propext ⟨?_, fun ⟨b, mem, same⟩ => ⟨b, List.mem_cons_of_mem a mem, same⟩⟩
    rintro ⟨b, mem, same⟩
    rcases List.mem_cons.mp mem with rfl | mem
    · exact absurd same other
    · exact ⟨b, mem, same⟩
  all_goals rfl

/-- The part of a task. -/
theorem parts_of_stage {s : TaskStage} (post : f.posts i = some p) (stage : p.stages k = some s) :
    (f.life w id past).parts (i, k) = s.part? w id :=
  Fleet.viewed_of_stage post stage

theorem parts_of_free (post : f.posts i = some p) (free : p.stages k = none) :
    (f.life w id past).parts (i, k) = none :=
  Fleet.viewed_of_free post free

theorem starts_put (i : Nat) (q : Post) :
    (({ f with store }.put i q).life w id past).starts =
      Function.update (f.life w id past).starts i (q.desk.starts id) := by
  funext j slice
  simp only [Fleet.life, Fleet.put]
  by_cases here : j = i
  · subst here
    rw [Function.update_self, Function.update_self]
    rfl
  · rw [Function.update_of_ne here, Function.update_of_ne here]

theorem go_self {l : Life} {t : Nat × Nat} {x : Option Part} (part : l.parts t = x) :
    l.go t x = l := by
  rw [Life.go, ← part, Function.update_eq_self]

/-- The life of a job after the step of a task. -/
theorem life_work (post : f.posts i = some p) (fresh : p.Fresh) :
    ({ f with store }.put i (p.apply k e)).life w id past =
      { known := (f.life w id past).known
        row := store.jobs[id]?.map (·.slice w)
        scheduled := store.scheduledIn id
        finished := store.finishedIn id
        starts := Function.update (f.life w id past).starts i (e.desk.starts id)
        parts := Function.update (Function.update (f.life w id past).parts (i, p.nextNumber)
          (e.spawned.bind (·.part? w id))) (i, k) (e.next.bind (·.part? w id)) } := by
  ext : 1
  · rfl
  · rfl
  · rfl
  · rfl
  · exact starts_put i _
  · exact Fleet.viewed_apply post fresh

theorem starts_same {d : Desk} (post : f.posts i = some p)
    (starts : d.starts id = p.desk.starts id) :
    Function.update (f.life w id past).starts i (d.starts id) = (f.life w id past).starts := by
  refine Function.update_eq_self_iff.mpr (funext fun slice => ?_)
  simp only [Fleet.life, post, Option.elim_some, starts]

/-- The life of a job after a step that neither starts it nor sets off a task for it. -/
theorem life_quiet (post : f.posts i = some p) (fresh : p.Fresh)
    (starts : e.desk.starts id = p.desk.starts id)
    (spawned : e.spawned.bind (·.part? w id) = none) :
    ({ f with store }.put i (p.apply k e)).life w id past =
      { (f.life w id past).go (i, k) (e.next.bind (·.part? w id)) with
        row := store.jobs[id]?.map (·.slice w)
        scheduled := store.scheduledIn id
        finished := store.finishedIn id } := by
  have free : (f.life w id past).parts (i, p.nextNumber) = none :=
    parts_of_free post fresh.free
  rw [life_work post fresh, spawned, ← free, Function.update_eq_self, starts_same post starts]
  rfl

/-- A step is one in the life of the job if the changes that it makes are. -/
theorem step_work {x y : Option Part} {starts : Nat → Slice → Nat} {row : Option Slice}
    {scheduled finished : Slice → Prop} (post : f.posts i = some p) (fresh : p.Fresh)
    (counts : Function.update (f.life w id past).starts i (e.desk.starts id) = starts)
    (spawned : e.spawned.bind (·.part? w id) = y) (next : e.next.bind (·.part? w id) = x)
    (rows : store.jobs[id]?.map (·.slice w) = row) (enters : store.scheduledIn id = scheduled)
    (marks : store.finishedIn id = finished)
    (step : (f.life w id past).Step
      { known := (f.life w id past).known, row, scheduled, finished, starts
        parts := Function.update (Function.update (f.life w id past).parts (i, p.nextNumber) y)
          (i, k) x }) :
    (f.life w id past).Step (({ f with store }.put i (p.apply k e)).life w id past) := by
  subst counts spawned next rows enters marks
  rw [life_work post fresh]
  exact step

/-- A step that neither starts the job nor sets off a task for it. -/
theorem step_quiet {x : Option Part} {row : Option Slice} {scheduled finished : Slice → Prop}
    (post : f.posts i = some p) (fresh : p.Fresh)
    (starts : e.desk.starts id = p.desk.starts id)
    (spawned : e.spawned.bind (·.part? w id) = none) (next : e.next.bind (·.part? w id) = x)
    (rows : store.jobs[id]?.map (·.slice w) = row) (enters : store.scheduledIn id = scheduled)
    (marks : store.finishedIn id = finished)
    (step : (f.life w id past).Step
      { (f.life w id past).go (i, k) x with row, scheduled, finished }) :
    (f.life w id past).Step (({ f with store }.put i (p.apply k e)).life w id past) := by
  subst next rows enters marks
  rw [life_quiet post fresh starts spawned]
  exact step

/-- A step that has nothing to do with a job. -/
theorem step_same {s : TaskStage} (post : f.posts i = some p) (fresh : p.Fresh)
    (stage : p.stages k = some s) (starts : e.desk.starts id = p.desk.starts id)
    (spawned : e.spawned.bind (·.part? w id) = none)
    (next : e.next.bind (·.part? w id) = s.part? w id) (agrees : f.store.Agrees id store) :
    (f.life w id past).Step (({ f with store }.put i (p.apply k e)).life w id past) := by
  have stays : ({ f with store }.put i (p.apply k e)).life w id past = f.life w id past := by
    rw [life_quiet post fresh starts spawned, next, go_self (parts_of_stage post stage),
      agrees.row, agrees.scheduled, agrees.finished]
    rfl
  rw [stays]
  exact .idle

/-- A call about another job. -/
theorem agrees_attempt {now : Instant} {fault : Option StoreError} {op : Operation}
    {answer : op.Result} {before : MemoryStore}
    (made : before.attempt now fault op = (answer, store)) (other : op.job? ≠ some id)
    (kept : op.clears? = none) : before.Agrees id store := by
  rcases MemoryStore.attempt_cases made with ⟨-, -, -, rfl⟩ | ⟨-, made⟩
  · exact .refl
  · have agrees : before.Agrees id (before.perform now op).2 := MemoryStore.agrees_perform other kept
    rwa [made] at agrees

/-! ## Submissions -/

theorem part_names (target : Slice) (others : List JobId) :
    (SubmitStage.names others).part target = .waiting := by
  cases others <;> rfl

/-- A submission that has not stored its job yet goes on, or is refused. -/
theorem react_waiting {now : Instant} {job : Job} {slice : Slice} {s : SubmitStage}
    (target : Slice) (reads : s ≠ .insert ∧ s ≠ .enter) (answer : (s.op job slice).Result) :
    (∃ s', s.react now w job slice answer = .inl s' ∧ s'.part target = .waiting) ∨
      ∃ e, s.react now w job slice answer = .inr (.error e) := by
  cases s with
  | pointer =>
    rcases answer with e | found
    · exact .inr ⟨_, rfl⟩
    · simp only [SubmitStage.react]
      split
      · exact .inr ⟨_, rfl⟩
      · exact .inl ⟨_, rfl, rfl⟩
  | sets =>
    rcases answer with e | index
    · exact .inr ⟨_, rfl⟩
    · exact .inl ⟨_, rfl, part_names ..⟩
  | name other rest =>
    rcases answer with e | existing
    · cases e with
      | notFound what => exact .inl ⟨_, rfl, part_names ..⟩
      | _ => exact .inr ⟨_, rfl⟩
    · simp only [SubmitStage.react]
      split
      · exact .inr ⟨_, rfl⟩
      · exact .inl ⟨_, rfl, part_names ..⟩
  | insert => exact absurd rfl reads.1
  | enter => exact absurd rfl reads.2

theorem step_submission {ticket : Nat} {job : Job} {s : SubmitStage}
    {answer : (s.op job (job.slice p.desk.width)).Result} (post : f.posts i = some p)
    (fresh : p.Fresh) (stage : p.stages k = some (.submission ticket job s))
    (width : p.desk.width = w)
    (made : f.store.attempt f.now none (s.op job (job.slice p.desk.width)) = (answer, store)) :
    (f.life w id past).Step (({ f with store }.put i (p.apply k (p.afterSubmit ticket job
      (s.react f.now p.desk.width job (job.slice p.desk.width) answer)))).life w id past) := by
  have starts (next : SubmitStage ⊕ Except SchedulerError Job) :
      (p.afterSubmit ticket job next).desk.starts id = p.desk.starts id := by
    cases next <;> rfl
  have spawned (next : SubmitStage ⊕ Except SchedulerError Job) :
      (p.afterSubmit ticket job next).spawned.bind (·.part? w id) = none := by
    cases next <;> rfl
  by_cases mine : job.id = id
  · subst mine width
    have part : (f.life p.desk.width job.id past).parts (i, k) =
        some (s.part (job.slice p.desk.width)) :=
      (parts_of_stage post stage).trans (if_pos rfl)
    have waiting (reads : s ≠ .insert ∧ s ≠ .enter) (agrees : f.store.Agrees job.id store)
        (waits : s.part (job.slice p.desk.width) = .waiting) :
        (f.life p.desk.width job.id past).Step (({ f with store }.put i (p.apply k
          (p.afterSubmit ticket job (s.react f.now p.desk.width job (job.slice p.desk.width)
            answer)))).life p.desk.width job.id past) := by
      rcases react_waiting (job.slice p.desk.width) reads answer with ⟨s', goes, waits'⟩ | ⟨e, goes⟩
      · rw [goes]
        refine step_same post fresh stage rfl rfl ?_ agrees
        simp only [Post.afterSubmit, Post.onto, Option.bind_some, TaskStage.part?, waits, waits']
      · rw [goes]
        refine step_quiet post fresh rfl rfl rfl (congrArg _ agrees.row) agrees.scheduled
          agrees.finished ?_
        exact .refuse (part.trans (congrArg some waits))
    cases s with
    | pointer => exact waiting ⟨nofun, nofun⟩ (agrees_attempt made nofun rfl) rfl
    | sets => exact waiting ⟨nofun, nofun⟩ (agrees_attempt made nofun rfl) rfl
    | name other rest => exact waiting ⟨nofun, nofun⟩ (agrees_attempt made nofun rfl) rfl
    | insert =>
      have made : f.store.perform f.now (.insertJob job) = (answer, store) := made
      rcases MemoryStore.insertJob_cases made with ⟨⟨e, rfl⟩, rfl⟩ | ⟨rfl, unset, rfl⟩
      · exact step_quiet post fresh rfl rfl rfl rfl rfl rfl (.refuse part)
      · -- the row is there from now on, and the entry in the index is still to come
        have row : (f.life p.desk.width job.id past).row = none := by
          simp only [Fleet.life, unset, Option.map_none]
        refine step_quiet post fresh rfl rfl (if_pos rfl) ?_ rfl rfl
          (.store (job.slice p.desk.width) part row)
        simp only [MemoryStore.jobs_insert, if_pos, Option.map_some]
    | enter =>
      obtain ⟨rfl, rfl⟩ := Prod.mk.inj made.symm
      exact step_quiet post fresh rfl rfl rfl rfl
        (MemoryStore.scheduledIn_addScheduled f.store f.now _ _)
        (MemoryStore.finishedIn_addScheduled f.store f.now _ _) (.enter part)
  · have other : (s.op job (job.slice p.desk.width)).job? ≠ some id := by
      cases s with
      | insert | enter => exact fun same => mine (Option.some.inj same)
      | _ => exact nofun
    have kept : (s.op job (job.slice p.desk.width)).clears? = none := by cases s <;> rfl
    refine step_same post fresh stage (starts _) (spawned _) ?_ (agrees_attempt made other kept)
    cases s.react f.now p.desk.width job (job.slice p.desk.width) answer with
    | inl s' => exact (if_neg mine).trans (if_neg mine).symm
    | inr result => exact (if_neg mine).symm

/-! ## Drainings -/

theorem part_permits (slice : Slice) (ids : List JobId) :
    (permits slice ids).part? w id = if id ∈ ids then some (.claimed slice) else none := by
  cases ids with
  | nil => exact (if_neg List.not_mem_nil).symm
  | cons first others => rfl

/-- A draining finds the jobs that are pending in its slice. -/
theorem step_sets {slice : Slice} {answer : Except StoreError SliceSets}
    (post : f.posts i = some p) (fresh : p.Fresh) (stage : p.stages k = some (.sets slice))
    (made : f.store.attempt f.now none (.sliceSets slice) = (answer, store))
    (unclaimed : ∀ t, (f.life w id past).claims t ≠ some slice) :
    (f.life w id past).Step
      (({ f with store }.put i (p.apply k (p.afterSets slice answer))).life w id past) := by
  obtain ⟨rfl, rfl⟩ := Prod.mk.inj made.symm
  by_cases pending : id ∈ (f.store.sets slice).pending
  · obtain ⟨scheduled, unfinished⟩ := MemoryStore.mem_pending.mp pending
    refine step_quiet post fresh rfl rfl ((part_permits ..).trans (if_pos pending)) rfl rfl rfl ?_
    exact .claim (parts_of_stage post stage) scheduled unfinished unclaimed
  · exact step_same post fresh stage rfl rfl ((part_permits ..).trans (if_neg pending)) .refl

/-- A draining sets off the next of its jobs. -/
theorem step_permit {slice : Slice} {first : JobId} {others : List JobId}
    (post : f.posts i = some p) (fresh : p.Fresh)
    (stage : p.stages k = some (.permit slice first others)) (nodup : (first :: others).Nodup) :
    (f.life w id past).Step (({ f with store := f.store }.put i (p.apply k
      { p.onto (some (permits slice others)) with
        spawned := some (.job k slice first .load) })).life w id past) := by
  have part : (f.life w id past).parts (i, k) =
      if id ∈ first :: others then some (.claimed slice) else none := parts_of_stage post stage
  by_cases mine : first = id
  · subst mine
    -- the claim passes from the draining to the task of the job
    have claimed := part.trans (if_pos List.mem_cons_self)
    have spent : first ∉ others := (List.nodup_cons.mp nodup).1
    have free : (f.life w first past).parts (i, p.nextNumber) = none :=
      parts_of_free post fresh.free
    have next : (permits slice others).part? w first = none :=
      (part_permits ..).trans (if_neg spent)
    have spawned : (TaskStage.job k slice first .load).part? w first = some (.claimed slice) :=
      if_pos rfl
    exact step_work post fresh (starts_same post rfl) spawned next rfl rfl rfl
      (.hand claimed free)
  · refine step_same post fresh stage rfl (if_neg mine) ?_ .refl
    refine (part_permits ..).trans ?_
    simp only [TaskStage.part?, List.mem_cons, Ne.symm mine, false_or]

/-! ## Jobs -/

/-- The tasks of other jobs. -/
theorem step_other {parent : Nat} {slice : Slice} {other : JobId} {s : JobStage}
    {answer : (s.op p.desk.settings.width slice other).Result} (post : f.posts i = some p)
    (fresh : p.Fresh) (stage : p.stages k = some (.job parent slice other s))
    (keeps : s.Keeps w slice other) (differs : other ≠ id)
    (made : f.store.attempt f.now none (s.op p.desk.settings.width slice other) =
      (answer, store)) :
    (f.life w id past).Step (({ f with store }.put i (p.apply k (p.afterJob parent slice other
      (s.react p.desk.settings.width p.desk slice other answer)))).life w id past) := by
  refine step_same post fresh stage ?_ rfl ?_ (agrees_attempt made ?_ (by cases s <;> rfl))
  · exact funext fun u => starts_announceAll _ fun e mem started =>
      differs (started_react mem started).1
  · simp only [afterJob, onto, TaskStage.part?, if_neg differs]
    cases (s.react p.desk.settings.width p.desk slice other answer).2 with
    | spent => rfl
    | _ => exact if_neg differs
  · cases s with
    | load | activate =>
      intro same
      cases same
    | pass | deadLetter => exact fun same => differs (Option.some.inj same)
    | retire j | delete j =>
      obtain rfl : j = other := keeps
      exact fun same => differs (Option.some.inj same)
    | update job =>
      obtain rfl : job.id = other := keeps.1
      exact fun same => differs (Option.some.inj same)
    | enter job | finish job | leave job =>
      obtain rfl : job.id = other := keeps
      exact fun same => differs (Option.some.inj same)

/-- What becomes of a job whose slice is due. -/
theorem loaded_cases {desk : Desk} {slice : Slice} {job : Job} (due : job.slice desk.width = slice) :
    JobStage.loaded desk slice job = .deadLetter job.type ∨
      ∃ registration, JobStage.loaded desk slice job = .activate job registration := by
  rw [JobStage.loaded, if_neg (not_not.mpr due)]
  split
  · exact .inl rfl
  · exact .inr ⟨_, rfl⟩

/-- The announcement that a job has been started counts as a start on the node. -/
theorem starts_jobStarted {slice : Slice} {type : String} (post : f.posts i = some p) :
    Function.update (f.life w id past).starts i
        ((p.desk.announce (.jobStarted id type slice)).starts id) =
      ((f.life w id past).start i slice).starts := by
  refine congrArg (Function.update _ i) (funext fun u => ?_)
  have before : (f.life w id past).starts i = p.desk.starts id := by
    simp only [Fleet.life, post, Option.elim_some]
  rw [starts_announce, before, Function.update_apply]
  by_cases here : u = slice
  · rw [if_pos here, here]
    exact congrArg _ (if_pos rfl)
  · have other : (Event.jobStarted id type slice).started? ≠ some (id, u) :=
      fun same => here (Prod.mk.inj (Option.some.inj same)).2.symm
    rw [if_neg here, if_neg other, Nat.add_zero]

/-- The call of a task of the job is a step in the life of the job. -/
theorem step_job {parent : Nat} {slice : Slice} {s : JobStage}
    {answer : (s.op p.desk.settings.width slice id).Result} (post : f.posts i = some p)
    (fresh : p.Fresh) (stage : p.stages k = some (.job parent slice id s))
    (keeps : s.Keeps w slice id) (width : p.desk.settings.width = w)
    (sound : (f.life w id past).Sound)
    (made : f.store.attempt f.now none (s.op p.desk.settings.width slice id) =
      (answer, store)) :
    (f.life w id past).Step (({ f with store }.put i (p.apply k (p.afterJob parent slice id
      (s.react p.desk.settings.width p.desk slice id answer)))).life w id past) := by
  subst width
  have part : (f.life p.desk.settings.width id past).parts (i, k) =
      some (s.part p.desk.settings.width slice) :=
    (parts_of_stage post stage).trans (if_pos rfl)
  cases s with
  | load =>
    have made : f.store.perform f.now (.getJob id) = (answer, store) := made
    obtain ⟨rfl, ⟨⟨what, rfl⟩, unset⟩ | ⟨job, rfl, row⟩⟩ := MemoryStore.getJob_cases made
    · -- no row, so that none names this slice
      refine step_quiet post fresh rfl rfl (if_pos rfl) rfl rfl rfl (.skip part ?_)
      simp only [Fleet.life, unset, Option.map_none]
      exact nofun
    · have named : (f.life p.desk.settings.width id past).row =
          some (job.slice p.desk.settings.width) := by
        simp only [Fleet.life, row, Option.map_some]
      by_cases due : job.slice p.desk.width = slice
      · have here := named.trans (congrArg some due)
        rcases loaded_cases due with goes | ⟨registration, goes⟩
        · refine step_quiet post fresh rfl rfl ?_ rfl rfl rfl (.condemn part here)
          simp only [JobStage.react, goes]
          exact if_pos rfl
        · refine step_quiet post fresh rfl rfl ?_ rfl rfl rfl (.load part here)
          simp only [JobStage.react, goes]
          exact if_pos rfl
      · refine step_quiet post fresh rfl rfl ?_ rfl rfl rfl (.skip part fun here => ?_)
        · simp only [JobStage.react, JobStage.loaded, if_pos due]
          exact if_pos rfl
        · exact due (Option.some.inj (named.symm.trans here))
  | pass =>
    obtain ⟨rfl, rfl⟩ := Prod.mk.inj made.symm
    exact step_quiet post fresh rfl rfl rfl rfl
      (MemoryStore.scheduledIn_addFinished f.store f.now _ _)
      (MemoryStore.finishedIn_addFinished f.store f.now _ _) (.pass part)
  | deadLetter type =>
    obtain ⟨rfl, rfl⟩ := Prod.mk.inj made.symm
    refine step_quiet post fresh (starts_plain _ fun u same => (by cases same)) rfl rfl rfl
      (MemoryStore.scheduledIn_addFinished f.store f.now _ _)
      (MemoryStore.finishedIn_addFinished f.store f.now _ _) (.bury part)
  | activate job registration =>
    obtain ⟨rfl, rfl⟩ := Prod.mk.inj made.symm
    have free : (f.life p.desk.settings.width id past).parts (i, p.nextNumber) = none :=
      parts_of_free post fresh.free
    refine step_work (y := none) post fresh (starts_jobStarted post) rfl (if_pos rfl) rfl
      (MemoryStore.scheduledIn_of_same .rfl) (MemoryStore.finishedIn_of_same .rfl) ?_
    rw [← free, Function.update_eq_self]
    exact .start part
  | update job =>
    obtain ⟨rfl, le⟩ := keeps
    have made : f.store.perform f.now (.updateJob job) = (answer, store) := made
    have row : (f.life p.desk.settings.width job.id past).row = some slice := by
      refine sound.holds (i, k) slice ?_
      rw [Life.holds, part]
      rfl
    rcases MemoryStore.updateJob_cases made with ⟨-, unset, -⟩ | ⟨rfl, -, rfl⟩
    · -- while a task is busy with the job its row is there
      simp only [Fleet.life, unset, Option.map_none] at row
      cases row
    · refine step_quiet post fresh rfl rfl (if_pos rfl) ?_ rfl rfl (.update part le)
      simp only [MemoryStore.jobs_insert, if_pos, Option.map_some]
  | enter job =>
    obtain rfl : job.id = id := keeps
    obtain ⟨rfl, rfl⟩ := Prod.mk.inj made.symm
    exact step_quiet post fresh rfl rfl (if_pos rfl) rfl
      (MemoryStore.scheduledIn_addScheduled f.store f.now _ _)
      (MemoryStore.finishedIn_addScheduled f.store f.now _ _) (.index part)
  | finish job =>
    obtain rfl : job.id = id := keeps
    obtain ⟨rfl, rfl⟩ := Prod.mk.inj made.symm
    exact step_quiet post fresh rfl rfl (if_pos rfl) rfl
      (MemoryStore.scheduledIn_addFinished f.store f.now _ _)
      (MemoryStore.finishedIn_addFinished f.store f.now _ _) (.finish part)
  | leave job =>
    obtain rfl : job.id = id := keeps
    have made : f.store.perform f.now (.removeScheduled slice job.id) = (answer, store) := made
    obtain ⟨rfl, rows⟩ := MemoryStore.removeScheduled_cases made
    have enters := MemoryStore.scheduledIn_removeScheduled f.store f.now slice job.id
    have marks := MemoryStore.finishedIn_removeScheduled f.store f.now slice job.id
    rw [made] at enters marks
    refine step_quiet post fresh (starts_plain _ fun u same => (by cases same)) rfl rfl ?_ enters
      marks (.leave part)
    rw [rows]
    rfl
  | retire j =>
    obtain rfl : j = id := keeps
    obtain ⟨rfl, rfl⟩ := Prod.mk.inj made.symm
    refine step_quiet post fresh rfl rfl (if_pos rfl) rfl
      (MemoryStore.scheduledIn_addFinished f.store f.now _ _)
      (MemoryStore.finishedIn_addFinished f.store f.now _ _) ?_
    show Life.Step _ (((f.life p.desk.settings.width j past).go (i, k)
      (some (.busy slice))).setFinished slice True)
    rw [go_self (x := some (.busy slice)) part]
    exact .retire part
  | delete j =>
    obtain rfl : j = id := keeps
    have made : f.store.perform f.now (.deleteJob j) = (answer, store) := made
    obtain ⟨gone, index⟩ := MemoryStore.deleteJob_row f.store f.now j
    rw [made] at gone index
    exact step_quiet post fresh rfl rfl rfl (congrArg _ gone)
      (MemoryStore.scheduledIn_of_index index) (MemoryStore.finishedIn_of_index index)
      (.delete part)

/-- Who has started the job goes on with it. -/
theorem part_outcome (now : Instant) (desk : Desk) (slice : Slice) (other : JobId) (job : Job)
    (policy : RetryPolicy) (o : Outcome) (w : Duration) :
    (JobStage.outcome now desk slice other job policy o).2.part w slice = .busy slice := by
  have completes : (JobStage.completing now desk job).part w slice = .busy slice := by
    unfold JobStage.completing
    split <;> rfl
  unfold JobStage.outcome
  split
  · exact completes
  · split
    · rfl
    · exact completes

theorem step_running {parent : Nat} {slice : Slice} {other : JobId} {loaded : Job}
    {registration : Registration} {outcome : Outcome} (post : f.posts i = some p) (fresh : p.Fresh)
    (stage : p.stages k = some (.running parent slice other loaded registration)) :
    (f.life w id past).Step (({ f with store := f.store }.put i (p.apply k
      (p.afterOutcome parent slice other (JobStage.outcome f.now p.desk slice other loaded
        registration.policy outcome)))).life w id past) := by
  refine step_same post fresh stage ?_ rfl ?_ .refl
  · refine funext fun u => starts_announceAll _ fun e mem same => ?_
    rw [plain_outcome _ _ _ _ _ _ _ e mem] at same
    cases same
  · have busy := part_outcome f.now p.desk slice other loaded registration.policy outcome w
    simp only [afterOutcome, afterJob, jobPlace, onto, Option.bind_some, TaskStage.part?, busy]

/-! ## Other tasks -/

theorem part_of_jobless (s : TaskStage) (jobless : s.isJobless = true) : s.part? w id = none := by
  cases s with
  | submission | permit | job | running => cases jobless
  | _ => rfl

/-- The step of a task that has nothing to do with jobs, and comes to none either. -/
structure IsPlain (s : TaskStage) (e : Effect) : Prop where
  part (w : Duration) (id : JobId) : s.part? w id = none
  next (w : Duration) (id : JobId) : e.next.bind (·.part? w id) = none
  spawned (w : Duration) (id : JobId) : e.spawned.bind (·.part? w id) = none

theorem plain_work {now : Instant} {store' : MemoryStore} {s : TaskStage} {prompt : Prompt}
    (works : p.Works now store k s prompt e store') (plain : s.isPlain = true) : IsPlain s e := by
  obtain ⟨next, spawned⟩ := StaffLemmas.jobless_work works plain
  refine ⟨fun w id => part_of_jobless s ?_, fun w id => ?_, fun w id => ?_⟩
  · cases s with
    | submission | permit | job | running => cases plain
    | _ => rfl
  · exact StaffLemmas.bind_of_jobless next part_of_jobless
  · exact StaffLemmas.bind_of_jobless spawned part_of_jobless

/-- The call of a task that has nothing to do with jobs is not about one. -/
theorem job_plain {set : NodeSettings} {s : TaskStage} {op : Operation} (plain : s.isPlain = true)
    (calls : s.op? set = some op) : op.job? = none := by
  cases s with
  | start ticket s | turn mover announced s =>
    obtain rfl := Option.some.inj calls
    cases s <;> rfl
  | walk ticket dispatch announced s =>
    obtain rfl := Option.some.inj calls
    cases s with
    | ensure s => cases s <;> rfl
    | _ => rfl
  | giveUp ticket lock others live =>
    obtain rfl := Option.some.inj calls
    unfold HeldLock.giveUpOp
    cases lock.mode <;> rfl
  | submission | sets | job => cases plain
  | _ => cases calls

/-- The task of a plain step starts no job. -/
theorem starts_plain_work {now : Instant} {store' : MemoryStore} {s : TaskStage} {prompt : Prompt}
    (works : p.Works now store k s prompt e store') (plain : s.isPlain = true) :
    e.desk.starts id = p.desk.starts id := by
  funext slice
  by_contra starts
  obtain ⟨parent, t, rfl⟩ := starts_work works starts
  cases plain

theorem step_plain {s : TaskStage} {prompt : Prompt}
    (works : p.Works f.now f.store k s prompt e store) (plain : s.isPlain = true)
    (post : f.posts i = some p) (fresh : p.Fresh) (stage : p.stages k = some s)
    (kept : ∀ mover announced x, s ≠ .turn mover announced (.clear x)) :
    (f.life w id past).Step (({ f with store }.put i (p.apply k e)).life w id past) := by
  have effect := plain_work works plain
  refine step_same post fresh stage (starts_plain_work works plain) (effect.spawned w id)
    ((effect.next w id).trans (effect.part w id).symm) ?_
  rcases works.store with rfl | ⟨op, fault, answer, calls, -, made⟩
  · exact .refl
  · refine agrees_attempt made (fun about => nomatch (job_plain plain calls).symm.trans about) ?_
    by_contra clears
    cases op with
    | deleteSlice x =>
      obtain ⟨mover, announced, rfl⟩ := TaskStage.makes calls
      exact kept mover announced x rfl
    | _ => exact clears rfl

/-- A call of a turn is about no job, but it may clear the index of a slice. -/
theorem step_turn {mover : Mover} {announced : List Slice} {s : TurnStage}
    {answer : (s.op p.desk.settings).Result} (post : f.posts i = some p) (fresh : p.Fresh)
    (stage : p.stages k = some (.turn mover announced s))
    (made : f.store.attempt f.now none (s.op p.desk.settings) = (answer, store)) :
    (f.life w id past).Step (({ f with store }.put i (p.apply k (p.afterTurn mover announced
      (s.react mover.fromTick p.desk.settings p.desk answer)))).life w id past) := by
  have works : p.Works f.now f.store k (.turn mover announced s) (.answer none) _ store :=
    .turn made
  cases s with
  | clear pointer =>
    have plain := plain_work works rfl
    obtain ⟨rfl, rfl⟩ := Prod.mk.inj made.symm
    refine step_quiet post fresh (starts_plain_work works rfl) (plain.spawned w id)
      (plain.next w id) rfl (MemoryStore.scheduledIn_deleteSlice f.store f.now _ _)
      (MemoryStore.finishedIn_deleteSlice f.store f.now _ _) ?_
    have part : (f.life w id past).parts (i, k) = none := parts_of_stage post stage
    show Life.Step _ ((((f.life w id past).go (i, k) none).setScheduled pointer False).setFinished
      pointer False)
    rw [go_self part]
    exact .clear pointer
  | _ => exact step_plain works rfl post fresh stage fun _ _ _ same => (by cases same)

/-! ## Steps from outside -/

/-- A task that begins. -/
theorem part_opens {a : Action} {s : TaskStage} (opens : s.Opens a) :
    s.part? w id = none ∨ s.part? w id = some .waiting ∧ a.submitted? = some id := by
  cases s with
  | submission ticket job stage =>
    cases stage with
    | pointer =>
      obtain ⟨j, rfl⟩ := opens
      by_cases mine : job.id = id
      · exact .inr ⟨if_pos mine, congrArg some mine⟩
      · exact .inl (if_neg mine)
    | _ => cases opens
  | guard mover => exact .inl rfl
  | rest | hold => exact .inl rfl
  | _ => cases opens

/-- A step from outside adds a task that has nothing to do with the job, or submits it. -/
theorem life_begins {a : Action} {q : Post} (post : f.posts i = some p) (fresh : p.Fresh)
    (begins : p.Begins a q) :
    ∃ x, (x = none ∨ x = some .waiting ∧ a.submitted? = some id) ∧
      (f.put i q).life w id past = (f.life w id past).go (i, p.nextNumber) x := by
  have starts : Function.update (f.life w id past).starts i (q.desk.starts id) =
      (f.life w id past).starts := starts_same post (starts_of_log begins.log)
  have view : (f.put i q).life w id past = (f.life w id past).go (i, p.nextNumber)
      ((q.stages p.nextNumber).bind (·.part? w id)) := by
    ext : 1
    · rfl
    · rfl
    · rfl
    · rfl
    · exact (starts_put i q).trans starts
    · exact Fleet.viewed_begins post fresh begins
  refine ⟨_, ?_, view⟩
  cases after : q.stages p.nextNumber with
  | none => exact .inl rfl
  | some s =>
    rcases begins.stages _ s after with before | ⟨-, -, opens⟩
    · cases fresh.free.symm.trans before
    · exact part_opens opens

/-- A node that joins has nothing to do with the job. -/
theorem life_join (free : f.posts i = none) (settings : NodeSettings) (registry : Registry)
    (ticket : Nat) :
    (f.put i (.joining settings registry ticket)).life w id past = f.life w id past := by
  ext : 1
  · rfl
  · rfl
  · rfl
  · rfl
  · refine (starts_put i _).trans (Function.update_eq_self_iff.mpr ?_)
    simp only [Fleet.life, free, Option.elim_none]
    rfl
  · exact Fleet.viewed_join free settings registry ticket rfl

/-- The job is submitted now. -/
theorem life_submitted {a : Action} (mine : a.submitted? = some id) :
    f.life w id (a :: past) = { f.life w id past with known := True } := by
  ext : 1
  · exact propext (iff_true_intro ⟨a, List.mem_cons_self, mine⟩)
  all_goals rfl

/-- The task that claims the job for a slice is the draining of the slice, or belongs to it. -/
theorem hires_of_claims {s : TaskStage} {slice : Slice}
    (claims : (s.part? w id).bind Part.claims? = some slice) :
    s.hires? = some slice ∨ ∃ parent, s.serves? = some (parent, slice) := by
  cases s with
  | submission ticket job s =>
    simp only [TaskStage.part?] at claims
    split at claims
    · cases s <;> cases claims
    · cases claims
  | permit u first others =>
    simp only [TaskStage.part?] at claims
    split at claims
    · exact .inl claims
    · cases claims
  | job parent u other s =>
    simp only [TaskStage.part?] at claims
    split at claims
    · refine .inr ⟨parent, ?_⟩
      cases s <;> exact congrArg (fun x => some (parent, x)) (Option.some.inj claims)
    · cases claims
  | running parent u other loaded registration =>
    simp only [TaskStage.part?] at claims
    split at claims
    · exact .inr ⟨parent, congrArg (fun x => some (parent, x)) (Option.some.inj claims)⟩
    · cases claims
  | _ => cases claims

end JobViewLemmas

open JobViewLemmas

/-- The prompt is not that of a call that fails. -/
def Prompt.IsCalm : Prompt → Prop
  | .answer fault => fault = none
  | _ => True

namespace Fleet

variable {f f' : Fleet} {w : Duration} {id : JobId} {past : List Action}

/-- The step of a task is one in the life of every job. -/
theorem life_step_work {i k : Nat} {p : Post} {s : TaskStage} {prompt : Prompt} {e : Effect}
    {store : MemoryStore} (fresh : p.Fresh) (width : p.desk.width = w) (keeps : s.Keeps w)
    (sound : (f.life w id past).Sound) (calm : prompt.IsCalm)
    (unclaimed : ∀ slice, s = .sets slice → ∀ t, (f.life w id past).claims t ≠ some slice)
    (post : f.posts i = some p) (stage : p.stages k = some s)
    (works : p.Works f.now f.store k s prompt e store) :
    (f.life w id past).Step (({ f with store }.put i (p.apply k e)).life w id past) := by
  have works' := works
  cases works with
  | @submission ticket job s fault answer store' made =>
    obtain rfl : fault = none := calm
    exact step_submission post fresh stage width made
  | @turn mover announced s fault answer store' made =>
    obtain rfl : fault = none := calm
    exact step_turn post fresh stage made
  | @sets slice fault answer store' made =>
    obtain rfl : fault = none := calm
    exact step_sets post fresh stage made (unclaimed slice rfl)
  | permit => exact step_permit post fresh stage keeps
  | @job parent slice other s fault answer store' made =>
    obtain rfl : fault = none := calm
    by_cases mine : other = id
    · subst mine
      exact step_job post fresh stage keeps width sound made
    · exact step_other post fresh stage keeps mine made
  | running => exact step_running post fresh stage
  | _ => exact step_plain works' rfl post fresh stage fun _ _ _ same => (by cases same)

/-- A step of a fleet in which no call fails is a step in the life of every job. -/
theorem Step.life {a : Action} (guarded : f.Guarded) (uniform : f.Uniform w) (tidy : f.Tidy)
    (runs : f.Runs) (staffed : f.Staffed w) (sound : (f.life w id past).Sound) (calm : a.IsCalm)
    (isNew : a.HasId past) (step : f.Step a f') :
    (f.life w id past).Step (f'.life w id (a :: past)) := by
  have unknown (mine : a.submitted? = some id) : ¬ (f.life w id past).known := by
    rintro ⟨b, mem, same⟩
    cases a with
    | submit i ticket job => exact isNew b mem (same.trans mine.symm)
    | _ => cases mine
  rcases step.kinds with ⟨now, rfl, rfl⟩ | ⟨i, settings, registry, ticket, rfl, free, rfl⟩ |
    ⟨i, p, q, post, begins, rfl⟩ | ⟨i, p, k, s, prompt, e, store, post, stage, works, same, rfl⟩
  · rw [life_past fun same => (by cases same)]
    exact .idle
  · rw [life_past fun same => (by cases same), life_join free]
    exact .idle
  · have fresh := (guarded i p post).fresh
    obtain ⟨x, part, goes⟩ : ∃ x, (x = none ∨ x = some .waiting ∧ a.submitted? = some id) ∧
        (f.put i q).life w id past = (f.life w id past).go (i, p.nextNumber) x :=
      life_begins post fresh begins
    by_cases mine : a.submitted? = some id
    · rw [life_submitted mine, goes]
      exact .submit (i, p.nextNumber) (unknown mine) (part.imp_right And.left)
    · obtain rfl := part.resolve_right fun waits => mine waits.2
      rw [life_past mine, goes, go_self (parts_of_free post fresh.free)]
      exact .idle
  · have other : a.submitted? ≠ some id := by
      rw [same]
      cases prompt <;> exact nofun
    rw [life_past other]
    refine life_step_work (guarded i p post).fresh (uniform i p post)
      (staffed.keeps i p k s post stage) sound ?_ ?_ post stage works
    · cases prompt with
      | answer fault =>
        rw [same] at calm
        exact calm
      | _ => trivial
    · rintro slice rfl ⟨j, n⟩ claims
      obtain ⟨part, stage', claims⟩ := Option.bind_eq_some_iff.mp claims
      obtain ⟨t, stage', named⟩ := Option.bind_eq_some_iff.mp stage'
      obtain ⟨r, post', stage'⟩ := Option.bind_eq_some_iff.mp stage'
      obtain ⟨unhired, unserved⟩ := staffed.unclaimed tidy runs post stage post' stage'
      have claims : (t.part? w id).bind Part.claims? = some slice := by
        rw [named]
        exact claims
      rcases hires_of_claims claims with hires | ⟨parent, serves⟩
      · exact unhired hires
      · exact unserved parent serves

end Fleet

end SliceScheduler
