import SliceScheduler.Proofs.Retrying
import SliceScheduler.Proofs.Trials
/-!
# The runs of a job in a fleet

1. `TaskStage.hand?` is what a task at a stage has to do with a job that is retried, and
   `Fleet.trials` the job that a fleet shows;
2. `trials_work` says how the job changes by the step of a task, and the lemmas after it what the
   steps of submissions, drainings and jobs come to;
3. `Fleet.Step.trials` is the result: a step of a fleet that retries a job is a step of the job.
-/
namespace SliceScheduler

/-! ## What a fleet shows of a job -/

/-- What a submission has to do with its job. -/
def SubmitStage.hand? : SubmitStage → Option Hand
  | enter => none
  | _ => some .waiting

/-- What a job task has to do with its job. -/
def JobStage.hand (slice : Slice) : JobStage → Hand
  | activate job registration => .loaded slice job registration.policy
  | update next => .rearming slice next
  | retire _ | delete _ => .retiring slice
  | load | pass | deadLetter _ | enter _ | finish _ | leave _ => .claimed slice

namespace TaskStage

/-- What a task has to do with a job. -/
def hand? (id : JobId) : TaskStage → Option Hand
  | submission _ submitted s => if submitted.id = id then s.hand? else none
  | permit slice first others => if id ∈ first :: others then some (.claimed slice) else none
  | job _ slice other s => if other = id then some (s.hand slice) else none
  | running _ slice other loaded registration =>
    if other = id then some (.running slice loaded registration.policy) else none
  | _ => none

/-- The run of a job that comes to its end with the executor that the task waits for. -/
def ended? (id : JobId) (outcome : Outcome) : TaskStage → Option (Job × Outcome)
  | running _ _ other loaded _ => if other = id then some (loaded, outcome) else none
  | _ => none

end TaskStage

/-- How often the node has started a job. -/
def Desk.runs (d : Desk) (id : JobId) : Nat :=
  d.log.toList.countP fun e => e.started?.map Prod.fst = some id

namespace Fleet

/-- The run of a job that comes to its end, and what came of it. -/
def ended? (id : JobId) (f : Fleet) : Action → Option (Job × Outcome)
  | .finish i k outcome => f.viewed (·.ended? id outcome) (i, k)
  | _ => none

/-- The job that a fleet of one node shows, after what has happened, with the runs that have come to
their ends. -/
def trials (id : JobId) (past : List Action) (stored : Prop) (ends : List (Job × Outcome))
    (f : Fleet) : Trials where
  known := ∃ a ∈ past, a.submitted? = some id
  stored
  row := f.store.jobs[id]?
  starts := (f.posts 0).elim 0 (·.desk.runs id)
  ends
  hands := f.viewed (·.hand? id)

end Fleet

/-! ## The policy -/

namespace Job

variable {p : BoundedRetry} {w : Duration} {now : Instant} {job : Job} {o : Outcome}

/-- A job that is to be retried goes on with one more retry. -/
theorem onward?_of_retries (retries : p.Retries o) (left : job.retries.val < p.maxAttempts.val) :
    job.onward? (.bounded p) w now o =
      some (Program.retryTrigger now p.delay w, job.retries.succ) := by
  obtain ⟨error, raised, admits⟩ := retries
  have again : p.shouldRetry job.retries error = true :=
    BoundedRetry.shouldRetry_iff.mpr ⟨admits, left⟩
  simp only [onward?, raised, Option.map_some, RetryPolicy.decide, if_pos again]

/-- A job that is to be run once and not to be retried does not go on. -/
theorem onward?_of_last {time : Instant} (single : job.trigger = .single time)
    (last : ¬(p.Retries o ∧ job.retries.val < p.maxAttempts.val)) :
    job.onward? (.bounded p) w now o = none := by
  have finished : (job.trigger.next? now w).map (·, Count.zero) = none := by rw [single]; rfl
  cases raised : o.error? with
  | none => simp only [onward?, raised, Option.map_none, finished]
  | some error =>
    have terminal : ¬ p.shouldRetry job.retries error = true := fun again =>
      have ⟨admits, left⟩ := BoundedRetry.shouldRetry_iff.mp again
      last ⟨⟨error, raised, admits⟩, left⟩
    simp only [onward?, raised, Option.map_some, RetryPolicy.decide, if_neg terminal, finished]

end Job

namespace TrialsViewLemmas

open Post JobViewLemmas

variable {first : Job} {p : BoundedRetry} {w : Duration} {id : JobId} {q : Post} {f : Fleet}
  {k : Nat} {e : Effect} {s : TaskStage} {store : MemoryStore} {prompt : Prompt}
  {past : List Action} {stored : Prop} {ends : List (Job × Outcome)}

/-! ## Rows and logs -/

/-- A call about another job leaves the row as it is. -/
theorem row_attempt {now : Instant} {before : MemoryStore} {fault : Option StoreError}
    {op : Operation} {answer : op.Result} (made : before.attempt now fault op = (answer, store))
    (other : op.job? ≠ some id) : store.jobs[id]? = before.jobs[id]? := by
  cases kept : op.clears? with
  | none => exact (agrees_attempt made other kept).row
  | some slice =>
    cases op with
    | deleteSlice =>
      rcases MemoryStore.attempt_cases made with ⟨-, -, -, rfl⟩ | ⟨-, made⟩
      · rfl
      · obtain ⟨rfl, rfl⟩ := Prod.mk.inj made.symm
        rfl
    | _ => cases kept

/-- A row comes to be there by its insertion only. -/
theorem isSome_attempt {now : Instant} {before : MemoryStore} {fault : Option StoreError}
    {op : Operation} {answer : op.Result} (made : before.attempt now fault op = (answer, store))
    (other : ∀ job, op = .insertJob job → job.id ≠ id) (there : store.jobs[id]?.isSome = true) :
    before.jobs[id]?.isSome = true := by
  by_cases about : op.subject? = some id
  · rcases MemoryStore.attempt_cases made with ⟨-, -, -, rfl⟩ | ⟨-, made⟩
    · exact there
    · have entry : (before.perform now op).2.entry id = (before.entry id).after op :=
        MemoryStore.entry_perform about
      rw [made] at entry
      have row : store.jobs[id]? = ((before.entry id).after op).row := congrArg JobEntry.row entry
      rw [row] at there
      cases op with
      | insertJob job => exact absurd (Option.some.inj about) (other job rfl)
      | updateJob job => exact Option.isSome_map.symm.trans there
      | deleteJob => cases there
      | _ => exact there
  · have unrelated : op.job? ≠ some id := by
      intro same
      cases op <;> first | exact about same | cases same
    rwa [row_attempt made unrelated] at there

theorem runs_announce (d : Desk) (event : Event) : (d.announce event).runs id =
    d.runs id + if event.started?.map Prod.fst = some id then 1 else 0 := by
  simp only [Desk.runs, Desk.announce, Array.toList_push, List.countP_append, List.countP_cons,
    List.countP_nil, Nat.zero_add, decide_eq_true_eq]

theorem runs_of_log {d d' : Desk} (same : d'.log = d.log) : d'.runs id = d.runs id := by
  rw [Desk.runs, same]
  rfl

/-- The step of another task starts the job no more often. -/
theorem runs_work (works : q.Works f.now f.store k s prompt e store)
    (other : ∀ parent slice t, s ≠ .job parent slice id t) : e.desk.runs id = q.desk.runs id := by
  obtain ⟨events, log, own⟩ := logs_work works
  have none : events.countP (fun event => event.started?.map Prod.fst = some id) = 0 := by
    refine List.countP_eq_zero.mpr fun event mem started => ?_
    obtain ⟨⟨j, slice⟩, begun, rfl⟩ := Option.map_eq_some_iff.mp (of_decide_eq_true started)
    obtain ⟨parent, t, rfl⟩ := own event mem j slice begun
    exact other parent slice t rfl
  rw [Desk.runs, log, List.countP_append, none, Nat.add_zero]
  rfl

/-! ## The job after a step -/

theorem hands_of_stage (post : f.posts 0 = some q) (stage : q.stages k = some s) :
    (f.trials id past stored ends).hands (0, k) = s.hand? id :=
  Fleet.viewed_of_stage post stage

theorem hands_of_free (post : f.posts 0 = some q) (free : q.stages k = none) :
    (f.trials id past stored ends).hands (0, k) = none :=
  Fleet.viewed_of_free post free

theorem starts_of_post (post : f.posts 0 = some q) :
    (f.trials id past stored ends).starts = q.desk.runs id := by
  simp only [Fleet.trials, post, Option.elim_some]

theorem go_self {T : Trials} {t : Nat × Nat} {x : Option Hand} (hand : T.hands t = x) :
    T.go t x = T := by
  rw [Trials.go, ← hand, Function.update_eq_self]

/-- The job after the step of a task. -/
theorem trials_work {stored' : Prop} {ends' : List (Job × Outcome)} (post : f.posts 0 = some q)
    (fresh : q.Fresh) :
    ({ f with store }.put 0 (q.apply k e)).trials id past stored' ends' =
      { known := ∃ a ∈ past, a.submitted? = some id
        stored := stored'
        row := store.jobs[id]?
        starts := e.desk.runs id
        ends := ends'
        hands := Function.update (Function.update (f.viewed (·.hand? id)) (0, q.nextNumber)
          (e.spawned.bind (·.hand? id))) (0, k) (e.next.bind (·.hand? id)) } := by
  rw [Fleet.trials, Fleet.viewed_apply post fresh]
  rfl

/-- A step is one of the job if the changes that it makes are. -/
theorem step_work {x y : Option Hand} {row : Option Job} {starts : Nat} {stored' : Prop}
    {ends' : List (Job × Outcome)} (post : f.posts 0 = some q) (fresh : q.Fresh)
    (runs : e.desk.runs id = starts) (spawned : e.spawned.bind (·.hand? id) = y)
    (next : e.next.bind (·.hand? id) = x) (rows : store.jobs[id]? = row)
    (step : (f.trials id past stored ends).Step first p w
      { known := (f.trials id past stored ends).known, stored := stored', row, starts, ends := ends'
        hands := Function.update (Function.update (f.trials id past stored ends).hands
          (0, q.nextNumber) y) (0, k) x }) :
    (f.trials id past stored ends).Step first p w
      (({ f with store }.put 0 (q.apply k e)).trials id past stored' ends') := by
  subst runs spawned next rows
  rw [trials_work post fresh]
  exact step

/-- A step that neither starts the job nor sets off a task for it. -/
theorem step_quiet {x : Option Hand} {row : Option Job} {stored' : Prop}
    {ends' : List (Job × Outcome)} (post : f.posts 0 = some q) (fresh : q.Fresh)
    (runs : e.desk.runs id = q.desk.runs id) (spawned : e.spawned.bind (·.hand? id) = none)
    (next : e.next.bind (·.hand? id) = x) (rows : store.jobs[id]? = row)
    (step : (f.trials id past stored ends).Step first p w
      { (f.trials id past stored ends).go (0, k) x with row, stored := stored', ends := ends' }) :
    (f.trials id past stored ends).Step first p w
      (({ f with store }.put 0 (q.apply k e)).trials id past stored' ends') := by
  have begun : (f.trials id past stored ends).starts = q.desk.runs id := starts_of_post post
  have free : (f.trials id past stored ends).hands (0, q.nextNumber) = none :=
    hands_of_free post fresh.free
  refine step_work post fresh (runs.trans begun.symm) spawned next rows ?_
  rw [← free, Function.update_eq_self]
  exact step

/-- A step that has nothing to do with the job. -/
theorem step_same (post : f.posts 0 = some q) (fresh : q.Fresh) (stage : q.stages k = some s)
    (runs : e.desk.runs id = q.desk.runs id) (spawned : e.spawned.bind (·.hand? id) = none)
    (next : e.next.bind (·.hand? id) = s.hand? id) (row : store.jobs[id]? = f.store.jobs[id]?) :
    (f.trials id past stored ends).Step first p w
      (({ f with store }.put 0 (q.apply k e)).trials id past stored ends) := by
  refine step_quiet post fresh runs spawned next row ?_
  rw [go_self (hands_of_stage post stage)]
  exact .idle

/-- A row that is there was stored at some time. -/
theorem stored_of_isSome (sound : (f.trials id past stored ends).Sound first p w)
    (there : f.store.jobs[id]?.isSome = true) : stored := by
  obtain ⟨row, there⟩ := Option.isSome_iff_exists.mp there
  exact sound.stored_of_row there

theorem stored_same (sound : (f.trials id past stored ends).Sound first p w)
    (row : store.jobs[id]? = f.store.jobs[id]?) :
    (stored ∨ store.jobs[id]?.isSome = true) = stored := by
  rw [row]
  exact propext (or_iff_left_of_imp (stored_of_isSome sound))

/-- Only a submission stores the job. -/
theorem stored_work (sound : (f.trials id past stored ends).Sound first p w)
    (works : q.Works f.now f.store k s prompt e store)
    (other : ∀ ticket job t, s ≠ .submission ticket job t) :
    (stored ∨ store.jobs[id]?.isSome = true) = stored := by
  refine propext (or_iff_left_of_imp fun there => stored_of_isSome sound ?_)
  rcases works.store with rfl | ⟨op, fault, answer, calls, -, made⟩
  · exact there
  · refine isSome_attempt made (fun job same _ => ?_) there
    subst same
    obtain ⟨ticket, rfl⟩ := TaskStage.makes calls
    exact other ticket job .insert rfl

/-! ## Submissions -/

theorem hand_of_part {target : Slice} {s : SubmitStage} (waits : s.part target = .waiting) :
    s.hand? = some .waiting := by
  cases s with
  | enter => cases waits
  | _ => rfl

theorem step_submission {ticket : Nat} {job : Job} {s : SubmitStage}
    {answer : (s.op job (job.slice q.desk.width)).Result} (post : f.posts 0 = some q)
    (fresh : q.Fresh) (stage : q.stages k = some (.submission ticket job s))
    (mine : job.id = id → job = first) (sound : (f.trials id past stored ends).Sound first p w)
    (made : f.store.attempt f.now none (s.op job (job.slice q.desk.width)) = (answer, store)) :
    (f.trials id past stored ends).Step first p w (({ f with store }.put 0 (q.apply k
      (q.afterSubmit ticket job (s.react f.now q.desk.width job (job.slice q.desk.width)
        answer)))).trials id past (stored ∨ store.jobs[id]?.isSome = true) ends) := by
  by_cases mine' : job.id = id
  · obtain rfl := mine mine'
    subst mine'
    have hand : (f.trials job.id past stored ends).hands (0, k) = s.hand? :=
      (hands_of_stage post stage).trans (if_pos rfl)
    have waiting (reads : s ≠ .insert ∧ s ≠ .enter) (waits : s.hand? = some .waiting)
        (other : (s.op job (job.slice q.desk.width)).job? ≠ some job.id) :
        (f.trials job.id past stored ends).Step job p w (({ f with store }.put 0 (q.apply k
          (q.afterSubmit ticket job (s.react f.now q.desk.width job (job.slice q.desk.width)
            answer)))).trials job.id past (stored ∨ store.jobs[job.id]?.isSome = true) ends) := by
      have row : store.jobs[job.id]? = f.store.jobs[job.id]? := row_attempt made other
      rw [stored_same sound row]
      rcases react_waiting (job.slice q.desk.width) reads answer with ⟨s', goes, waits'⟩ | ⟨e, goes⟩
      · rw [goes]
        refine step_same post fresh stage rfl rfl ?_ row
        simp only [Post.afterSubmit, Post.onto, Option.bind_some, TaskStage.hand?, waits,
          hand_of_part waits']
      · rw [goes]
        exact step_quiet post fresh rfl rfl rfl row (.refuse (hand.trans waits))
    cases s with
    | insert =>
      have made : f.store.perform f.now (.insertJob job) = (answer, store) := made
      rcases MemoryStore.insertJob_cases made with ⟨⟨e, rfl⟩, rfl⟩ | ⟨rfl, -, rfl⟩
      · rw [stored_same sound rfl]
        exact step_quiet post fresh rfl rfl rfl rfl (.refuse hand)
      · have row : (f.store.jobs.insert job.id job)[job.id]? = some job :=
          (MemoryStore.jobs_insert ..).trans (if_pos rfl)
        have now : (stored ∨ (f.store.jobs.insert job.id job)[job.id]?.isSome = true) = True := by
          rw [row]
          exact propext (iff_true_intro (.inr rfl))
        rw [now]
        exact step_quiet post fresh rfl rfl (if_pos rfl) row (.store hand)
    | enter =>
      have row : store.jobs[job.id]? = f.store.jobs[job.id]? :=
        congrArg (fun made => made.2.jobs[job.id]?) made.symm
      rw [stored_same sound row]
      obtain ⟨rfl, -⟩ := Prod.mk.inj made.symm
      exact step_same post fresh stage rfl rfl (if_pos rfl).symm row
    | _ =>
      exact waiting ⟨fun same => (by cases same), fun same => (by cases same)⟩ rfl
        fun same => (by cases same)
  · have other : (s.op job (job.slice q.desk.width)).job? ≠ some id := by
      cases s with
      | insert | enter => exact fun same => mine' (Option.some.inj same)
      | _ => exact fun same => (by cases same)
    have row : store.jobs[id]? = f.store.jobs[id]? := row_attempt made other
    rw [stored_same sound row]
    cases s.react f.now q.desk.width job (job.slice q.desk.width) answer with
    | inl s' =>
      exact step_same post fresh stage rfl rfl ((if_neg mine').trans (if_neg mine').symm) row
    | inr result => exact step_same post fresh stage rfl rfl (if_neg mine').symm row

/-! ## Drainings -/

theorem hand_permits (slice : Slice) (ids : List JobId) :
    (permits slice ids).hand? id = if id ∈ ids then some (.claimed slice) else none := by
  cases ids with
  | nil => exact (if_neg List.not_mem_nil).symm
  | cons first others => rfl

/-- A draining finds the jobs that are pending in its slice. -/
theorem step_sets {slice : Slice} {answer : Except StoreError SliceSets}
    (post : f.posts 0 = some q) (fresh : q.Fresh) (stage : q.stages k = some (.sets slice))
    (made : f.store.attempt f.now none (.sliceSets slice) = (answer, store))
    (unclaimed : ∀ t, (f.trials id past stored ends).claims t ≠ some slice) :
    (f.trials id past stored ends).Step first p w
      (({ f with store }.put 0 (q.apply k (q.afterSets slice answer))).trials id past stored
        ends) := by
  obtain ⟨rfl, rfl⟩ := Prod.mk.inj made.symm
  by_cases pending : id ∈ (f.store.sets slice).pending
  · refine step_quiet post fresh rfl rfl ((hand_permits ..).trans (if_pos pending)) rfl ?_
    exact .claim (hands_of_stage post stage) unclaimed
  · exact step_same post fresh stage rfl rfl ((hand_permits ..).trans (if_neg pending)) rfl

/-- A draining sets off the next of its jobs. -/
theorem step_permit {slice : Slice} {head : JobId} {others : List JobId}
    (post : f.posts 0 = some q) (fresh : q.Fresh)
    (stage : q.stages k = some (.permit slice head others)) (nodup : (head :: others).Nodup) :
    (f.trials id past stored ends).Step first p w (({ f with store := f.store }.put 0 (q.apply k
      { q.onto (some (permits slice others)) with
        spawned := some (.job k slice head .load) })).trials id past stored ends) := by
  have hand : (f.trials id past stored ends).hands (0, k) =
      if id ∈ head :: others then some (.claimed slice) else none := hands_of_stage post stage
  by_cases mine : head = id
  · subst mine
    -- the claim passes from the draining to the task of the job
    have claimed := hand.trans (if_pos List.mem_cons_self)
    have spent : head ∉ others := (List.nodup_cons.mp nodup).1
    have free : (f.trials head past stored ends).hands (0, q.nextNumber) = none :=
      hands_of_free post fresh.free
    have begun : (f.trials head past stored ends).starts = q.desk.runs head := starts_of_post post
    have next : (permits slice others).hand? head = none :=
      (hand_permits ..).trans (if_neg spent)
    have spawned : (TaskStage.job k slice head .load).hand? head = some (.claimed slice) :=
      if_pos rfl
    exact step_work post fresh begun.symm spawned next rfl (.hand claimed free)
  · refine step_same post fresh stage rfl (if_neg mine) ?_ rfl
    refine (hand_permits ..).trans ?_
    simp only [TaskStage.hand?, List.mem_cons, Ne.symm mine, false_or]

/-! ## Jobs -/

/-- The tasks of other jobs. -/
theorem step_other {parent : Nat} {slice : Slice} {other : JobId} {s : JobStage}
    {answer : (s.op q.desk.settings.width slice other).Result} (post : f.posts 0 = some q)
    (fresh : q.Fresh) (stage : q.stages k = some (.job parent slice other s))
    (about : s.IsAbout other) (differs : other ≠ id)
    (made : f.store.attempt f.now none (s.op q.desk.settings.width slice other) =
      (answer, store)) :
    (f.trials id past stored ends).Step first p w (({ f with store }.put 0 (q.apply k
      (q.afterJob parent slice other (s.react q.desk.settings.width q.desk slice other
        answer)))).trials id past stored ends) := by
  have works : q.Works f.now f.store k (.job parent slice other s) (.answer none) _ store :=
    .job made
  refine step_same post fresh stage (runs_work works fun _ u t same => ?_) rfl ?_ ?_
  · exact differs (TaskStage.job.inj same).2.2.1
  · simp only [afterJob, onto, TaskStage.hand?, if_neg differs]
    cases (s.react q.desk.settings.width q.desk slice other answer).2 with
    | spent => rfl
    | _ => exact if_neg differs
  · have made : f.store.perform f.now (s.op q.desk.settings.width slice other) =
        (answer, store) := made
    have spares : MemoryStore.Spares other f.store
        (f.store.perform f.now (s.op q.desk.settings.width slice other)).2 :=
      MemoryStore.spares_perform (JobStage.subject_op about)
    rw [made] at spares
    exact congrArg JobEntry.row (spares.others id differs.symm)

/-- The call of a task of the job is a step of the job. -/
theorem step_job {parent : Nat} {slice : Slice} {s : JobStage}
    {answer : (s.op q.desk.settings.width slice id).Result} (post : f.posts 0 = some q)
    (fresh : q.Fresh) (stage : q.stages k = some (.job parent slice id s))
    (about : s.IsAbout id) (width : q.desk.settings.width = w)
    (policed : q.desk.registry.Retries p first.type)
    (sound : (f.trials id past stored ends).Sound first p w)
    (made : f.store.attempt f.now none (s.op q.desk.settings.width slice id) =
      (answer, store)) :
    (f.trials id past stored ends).Step first p w (({ f with store }.put 0 (q.apply k
      (q.afterJob parent slice id (s.react q.desk.settings.width q.desk slice id
        answer)))).trials id past stored ends) := by
  subst width
  have hand : (f.trials id past stored ends).hands (0, k) = some (s.hand slice) :=
    (hands_of_stage post stage).trans (if_pos rfl)
  have begun : (f.trials id past stored ends).starts = q.desk.runs id := starts_of_post post
  cases s with
  | load =>
    have made : f.store.perform f.now (.getJob id) = (answer, store) := made
    have next {t : JobStage} (claims : t.hand slice = .claimed slice) :
        (TaskStage.job parent slice id t).hand? id = some (.claimed slice) :=
      (if_pos rfl).trans (congrArg some claims)
    have same {t : JobStage} (claims : t.hand slice = .claimed slice) :
        (TaskStage.job parent slice id t).hand? id =
          (TaskStage.job parent slice id .load).hand? id :=
      (next claims).trans (next rfl).symm
    obtain ⟨rfl, ⟨⟨what, rfl⟩, -⟩ | ⟨job, rfl, row⟩⟩ := MemoryStore.getJob_cases made
    · exact step_same post fresh stage rfl rfl (same rfl) rfl
    · simp only [JobStage.react, JobStage.loaded]
      split
      · exact step_same post fresh stage rfl rfl (same rfl) rfl
      · rename_i due
        split
        · exact step_same post fresh stage rfl rfl (same rfl) rfl
        · rename_i registration found
          refine step_quiet post fresh rfl rfl (if_pos rfl) rfl
            (.load hand row (not_not.mp due) fun type => ?_)
          rw [type] at found
          exact policed registration found
  | pass =>
    obtain ⟨rfl, rfl⟩ := Prod.mk.inj made.symm
    exact step_quiet post fresh rfl rfl rfl rfl (.drop hand)
  | deadLetter type =>
    obtain ⟨rfl, rfl⟩ := Prod.mk.inj made.symm
    exact step_quiet post fresh (runs_announce ..) rfl rfl rfl (.drop hand)
  | activate job registration =>
    obtain ⟨rfl, rfl⟩ := Prod.mk.inj made.symm
    have free : (f.trials id past stored ends).hands (0, q.nextNumber) = none :=
      hands_of_free post fresh.free
    have runs : (q.desk.announce (.jobStarted id job.type slice)).runs id = q.desk.runs id + 1 :=
      (runs_announce ..).trans (congrArg _ (if_pos rfl))
    refine step_work (y := none) post fresh runs rfl (if_pos rfl) rfl ?_
    rw [← free, Function.update_eq_self, ← begun]
    exact .start hand
  | update job =>
    obtain rfl : job.id = id := about
    have made : f.store.perform f.now (.updateJob job) = (answer, store) := made
    obtain ⟨-, ⟨row, there, -⟩, -⟩ := sound.of_rearming hand
    rcases MemoryStore.updateJob_cases made with ⟨-, absent, -⟩ | ⟨rfl, -, rfl⟩
    · cases absent.symm.trans there
    · refine step_quiet post fresh rfl rfl (if_pos rfl) ?_ (.record hand)
      exact (MemoryStore.jobs_insert ..).trans (if_pos rfl)
  | enter job =>
    obtain rfl : job.id = id := about
    obtain ⟨rfl, rfl⟩ := Prod.mk.inj made.symm
    exact step_same post fresh stage rfl rfl ((if_pos rfl).trans (if_pos rfl).symm) rfl
  | finish job =>
    obtain rfl : job.id = id := about
    obtain ⟨rfl, rfl⟩ := Prod.mk.inj made.symm
    exact step_same post fresh stage rfl rfl ((if_pos rfl).trans (if_pos rfl).symm) rfl
  | leave job =>
    obtain rfl : job.id = id := about
    have made : f.store.perform f.now (.removeScheduled slice job.id) = (answer, store) := made
    obtain ⟨rfl, rows⟩ := MemoryStore.removeScheduled_cases made
    refine step_quiet post fresh (runs_announce ..) rfl rfl (congrArg (·[job.id]?) rows)
      (.drop hand)
  | retire j =>
    obtain rfl : j = id := about
    obtain ⟨rfl, rfl⟩ := Prod.mk.inj made.symm
    exact step_same post fresh stage rfl rfl ((if_pos rfl).trans (if_pos rfl).symm) rfl
  | delete j =>
    obtain rfl : j = id := about
    have made : f.store.perform f.now (.deleteJob j) = (answer, store) := made
    obtain ⟨gone, -⟩ := MemoryStore.deleteJob_row f.store f.now j
    rw [made] at gone
    exact step_quiet post fresh rfl rfl rfl gone (.delete hand)

/-- The end of an executor is a step of the job. -/
theorem step_running {parent : Nat} {slice : Slice} {other : JobId} {loaded : Job}
    {registration : Registration} {outcome : Outcome} (post : f.posts 0 = some q) (fresh : q.Fresh)
    (stage : q.stages k = some (.running parent slice other loaded registration))
    (sound : (f.trials id past stored ends).Sound first p w) :
    (f.trials id past stored ends).Step first p w (({ f with store := f.store }.put 0 (q.apply k
      (q.afterOutcome parent slice other (JobStage.outcome f.now q.desk slice other loaded
        registration.policy outcome)))).trials id past stored
        (ends ++ ((TaskStage.running parent slice other loaded registration).ended? id
          outcome).toList)) := by
  have works : q.Works f.now f.store k (.running parent slice other loaded registration)
    (.finish outcome) _ f.store := .running
  have runs : (q.afterOutcome parent slice other (JobStage.outcome f.now q.desk slice other loaded
      registration.policy outcome)).desk.runs id = q.desk.runs id :=
    runs_work works fun _ _ _ same => (by cases same)
  have goes := JobStage.outcome_eq f.now q.desk slice other loaded registration.policy outcome
  by_cases mine : other = id
  · subst mine
    have hand : (f.trials other past stored ends).hands (0, k) =
        some (.running slice loaded registration.policy) :=
      (hands_of_stage post stage).trans (if_pos rfl)
    have ended : (TaskStage.running parent slice other loaded registration).ended? other outcome =
        some (loaded, outcome) := if_pos rfl
    have next {t : JobStage} (goes : (JobStage.outcome f.now q.desk slice other loaded
        registration.policy outcome).2 = t) :
        (some (TaskStage.job parent slice other (JobStage.outcome f.now q.desk slice other loaded
          registration.policy outcome).2)).bind (·.hand? other) = some (t.hand slice) := by
      rw [goes]
      exact if_pos rfl
    obtain ⟨-, found, -, policed, -⟩ := sound.of_running hand
    obtain ⟨time, retries, version⟩ := sound.version loaded found
    rw [ended]
    by_cases again : p.Retries outcome ∧ loaded.retries.val < p.maxAttempts.val
    · obtain ⟨later, single⟩ := Program.retryTrigger_single f.now p.delay q.desk.width
      have onward : loaded.onward? registration.policy q.desk.width f.now outcome =
          some (.single later, loaded.retries.succ) := by
        rw [policed, Job.onward?_of_retries again.1 again.2, single]
      rw [onward] at goes
      exact step_quiet post fresh runs rfl (next goes) rfl (.retry later hand again.1 again.2)
    · have onward : loaded.onward? registration.policy q.desk.width f.now outcome = none := by
        rw [policed, Job.onward?_of_last (congrArg Job.trigger version) again]
      rw [onward] at goes
      exact step_quiet post fresh runs rfl (next goes) rfl (.finish hand again)
  · have ended : (TaskStage.running parent slice other loaded registration).ended? id outcome =
        none := if_neg mine
    rw [ended, Option.toList_none, List.append_nil]
    exact step_same post fresh stage runs rfl ((if_neg mine).trans (if_neg mine).symm) rfl

/-! ## Other tasks -/

theorem hand_of_plain (part : s.part? w id = none) : s.hand? id = none := by
  cases s with
  | submission | permit | job | running =>
    simp only [TaskStage.part?, ite_eq_right_iff, reduceCtorEq, imp_false] at part
    exact if_neg part
  | _ => rfl

theorem step_plain (works : q.Works f.now f.store k s prompt e store) (plain : s.isPlain = true)
    (post : f.posts 0 = some q) (fresh : q.Fresh) (stage : q.stages k = some s) :
    (f.trials id past stored ends).Step first p w
      (({ f with store }.put 0 (q.apply k e)).trials id past stored ends) := by
  have effect := plain_work works plain
  have none {s' : Option TaskStage} (part : s'.bind (·.part? w id) = none) :
      s'.bind (·.hand? id) = none := by
    cases s' with
    | none => rfl
    | some t => exact hand_of_plain part
  refine step_same post fresh stage (runs_work works fun _ _ _ same => ?_)
    (none (effect.spawned w id)) ((none (effect.next w id)).trans ?_) ?_
  · rw [same] at plain
    cases plain
  · exact (hand_of_plain (effect.part w id)).symm
  · rcases works.store with rfl | ⟨op, fault, answer, calls, -, made⟩
    · rfl
    · exact row_attempt made fun about => nomatch (job_plain plain calls).symm.trans about

/-! ## Steps from outside -/

/-- A task that begins. -/
theorem hand_opens {a : Action} (opens : s.Opens a) :
    s.hand? id = none ∨ s.hand? id = some .waiting ∧ a.submitted? = some id := by
  cases s with
  | submission ticket job stage =>
    cases stage with
    | pointer =>
      obtain ⟨j, rfl⟩ := opens
      by_cases mine : job.id = id
      · exact .inr ⟨if_pos mine, congrArg some mine⟩
      · exact .inl (if_neg mine)
    | _ => cases opens
  | guard mover => exact .inl rfl
  | rest | hold => exact .inl rfl
  | _ => cases opens

/-- A step from outside adds a task that has nothing to do with the job, or submits it. -/
theorem trials_begins {a : Action} {q' : Post} (post : f.posts 0 = some q) (fresh : q.Fresh)
    (begins : q.Begins a q') : ∃ x, (x = none ∨ x = some .waiting ∧ a.submitted? = some id) ∧
      (f.put 0 q').trials id past stored ends =
        (f.trials id past stored ends).go (0, q.nextNumber) x := by
  refine ⟨(q'.stages q.nextNumber).bind (·.hand? id), ?_, ?_⟩
  · cases after : q'.stages q.nextNumber with
    | none => exact .inl rfl
    | some s =>
      rcases begins.stages _ s after with before | ⟨-, -, opens⟩
      · cases fresh.free.symm.trans before
      · exact hand_opens opens
  · have begun : (f.trials id past stored ends).starts = q'.desk.runs id :=
      (starts_of_post post).trans (runs_of_log begins.log).symm
    rw [Fleet.trials, Fleet.viewed_begins post fresh begins, Trials.go, begun]
    rfl

/-- A node that joins has nothing to do with the job. -/
theorem trials_join {i : Nat} (free : f.posts i = none) (settings : NodeSettings)
    (registry : Registry) (ticket : Nat) :
    (f.put i (.joining settings registry ticket)).trials id past stored ends =
      f.trials id past stored ends := by
  have starts : ((f.put i (.joining settings registry ticket)).posts 0).elim 0 (·.desk.runs id) =
      (f.posts 0).elim 0 (·.desk.runs id) := by
    by_cases here : 0 = i
    · subst here
      rw [free]
      rfl
    · simp only [Fleet.put, Function.update_of_ne here]
  rw [Fleet.trials, Fleet.viewed_join free settings registry ticket rfl, starts]
  rfl

theorem trials_past {a : Action} (other : a.submitted? ≠ some id) :
    f.trials id (a :: past) stored ends = f.trials id past stored ends := by
  have known : (∃ b ∈ a :: past, b.submitted? = some id) = ∃ b ∈ past, b.submitted? = some id := by
    refine propext ⟨?_, fun ⟨b, mem, same⟩ => ⟨b, List.mem_cons_of_mem a mem, same⟩⟩
    rintro ⟨b, mem, same⟩
    rcases List.mem_cons.mp mem with rfl | mem
    · exact absurd same other
    · exact ⟨b, mem, same⟩
  rw [Fleet.trials, known]
  rfl

/-- The job is submitted now. -/
theorem trials_submitted {a : Action} (mine : a.submitted? = some id) :
    f.trials id (a :: past) stored ends =
      { f.trials id past stored ends with known := True } := by
  have known : (∃ b ∈ a :: past, b.submitted? = some id) = True :=
    propext (iff_true_intro ⟨a, List.mem_cons_self, mine⟩)
  rw [Fleet.trials, known]
  rfl

/-! ## Claims -/

/-- The tasks that have something to do with the job. -/
theorem hand_cases {hand : Hand} (there : s.hand? id = some hand) :
    hand = .waiting ∨
      (∃ slice head others, s = .permit slice head others ∧ id ∈ head :: others ∧
        hand = .claimed slice) ∨
      (∃ parent slice t, s = .job parent slice id t ∧ hand = t.hand slice) ∨
      ∃ parent slice loaded registration, s = .running parent slice id loaded registration ∧
        hand = .running slice loaded registration.policy := by
  cases s with
  | submission ticket job t =>
    simp only [TaskStage.hand?] at there
    split at there
    · cases t <;> cases there <;> exact .inl rfl
    · cases there
  | permit slice head others =>
    simp only [TaskStage.hand?] at there
    split at there
    · rename_i mem
      exact .inr (.inl ⟨slice, head, others, rfl, mem, (Option.some.inj there).symm⟩)
    · cases there
  | job parent slice other t =>
    simp only [TaskStage.hand?] at there
    split at there
    · subst other
      exact .inr (.inr (.inl ⟨parent, slice, t, rfl, (Option.some.inj there).symm⟩))
    · cases there
  | running parent slice other loaded registration =>
    simp only [TaskStage.hand?] at there
    split at there
    · subst other
      exact .inr (.inr (.inr ⟨parent, slice, loaded, registration, rfl,
        (Option.some.inj there).symm⟩))
    · cases there
  | _ => cases there

/-- The task that claims the job for a slice is the draining of the slice, or belongs to it. -/
theorem claims_part {hand : Hand} {slice : Slice} (there : s.hand? id = some hand)
    (claims : hand.claims? = some slice) : (s.part? w id).bind Part.claims? = some slice := by
  rcases hand_cases there with rfl | ⟨u, head, others, rfl, mem, rfl⟩ | ⟨parent, u, t, rfl, rfl⟩ |
    ⟨parent, u, loaded, registration, rfl, rfl⟩
  · cases claims
  · rw [TaskStage.part?, if_pos mem]
    exact claims
  · rw [TaskStage.part?, if_pos rfl]
    cases t <;> exact claims
  · rw [TaskStage.part?, if_pos rfl]
    exact claims

/-- While a draining is about to look up the jobs of a slice, no task has claimed the job for it. -/
theorem unclaimed {slice : Slice} (retrying : f.Retrying first p w) (post : f.posts 0 = some q)
    (stage : q.stages k = some (.sets slice)) (t : Nat × Nat) :
    (f.trials id past stored ends).claims t ≠ some slice := by
  intro claims
  obtain ⟨hand, there, claims⟩ := Option.bind_eq_some_iff.mp claims
  obtain ⟨q', s, post', stage', found⟩ := Fleet.of_viewed there
  obtain rfl : q' = q := by
    rw [retrying.single _ q' post'] at post'
    exact Option.some.inj (post'.symm.trans post)
  have alone {j : Nat} {s : TaskStage} (stage' : q'.stages j = some s) :
      s.hires? ≠ some slice := by
    intro hires
    obtain rfl := (retrying.fenced.tidy.posts 0 q' post).oneDrain k j _ s slice stage rfl stage'
      (StaffLemmas.drains_of_hires hires)
    obtain rfl := Option.some.inj (stage.symm.trans stage')
    cases hires
  rcases hires_of_claims (claims_part (w := w) found claims) with hires | ⟨parent, serves⟩
  · exact alone stage' hires
  · obtain ⟨s', there, hires⟩ := retrying.fenced.staffed 0 q' post _ s parent slice stage' serves
    exact alone there hires

end TrialsViewLemmas

open TrialsViewLemmas

namespace Fleet

variable {first : Job} {p : BoundedRetry} {w : Duration} {c : Cluster} {f f' : Fleet}
  {past : List Action} {stored : Prop} {ends : List (Job × Outcome)}

/-- A run comes to its end by the end of its executor only. -/
theorem ended_of_ne {id : JobId} {a : Action} (other : ∀ i k outcome, a ≠ .finish i k outcome) :
    f.ended? id a = none := by
  cases a with
  | finish i k outcome => exact absurd rfl (other i k outcome)
  | _ => rfl

/-- The step of a task is a step of the job. -/
theorem trials_step_work {i k : Nat} {q : Post} {s : TaskStage} {prompt : Prompt} {e : Effect}
    {store : MemoryStore} {a : Action} (same : a = (match prompt with
      | .answer fault => .answer i k fault
      | .proceed => .proceed i k
      | .finish outcome => .finish i k outcome
      | .wake => .wake i k)) (faultless : a.IsFaultless) (retrying : f.Retrying first p w)
    (sound : (f.trials first.id past stored ends).Sound first p w) (post : f.posts i = some q)
    (stage : q.stages k = some s) (works : q.Works f.now f.store k s prompt e store) :
    (f.trials first.id past stored ends).Step first p w
      (({ f with store }.put i (q.apply k e)).trials first.id (a :: past)
        (stored ∨ store.jobs[first.id]?.isSome = true) (ends ++ (f.ended? first.id a).toList)) := by
  obtain rfl : i = 0 := retrying.single i q post
  have fresh := (retrying.fenced.tidy.posts 0 q post).guarded.fresh
  have minds := retrying.minds 0 q k s post stage
  subst same
  rw [trials_past (by cases prompt <;> exact nofun)]
  have silent {a : Action} (none : f.ended? first.id a = none) :
      ends ++ (f.ended? first.id a).toList = ends := by
    rw [none, Option.toList_none, List.append_nil]
  have works' := works
  cases works with
  | @submission ticket job s fault answer store' made =>
    obtain rfl : fault = none := faultless
    rw [silent rfl]
    exact step_submission post fresh stage minds sound made
  | @sets slice fault answer store' made =>
    obtain rfl : fault = none := faultless
    rw [silent rfl, stored_work sound works' fun _ _ _ same => (by cases same)]
    exact step_sets post fresh stage made (unclaimed retrying post stage)
  | permit =>
    rw [silent rfl, stored_same sound rfl]
    exact step_permit post fresh stage minds
  | @job parent slice other s fault answer store' made =>
    obtain rfl : fault = none := faultless
    rw [silent rfl, stored_work sound works' fun _ _ _ same => (by cases same)]
    by_cases mine : other = first.id
    · subst mine
      exact step_job post fresh stage minds (retrying.uniform 0 q post) (retrying.policed 0 q post)
        sound made
    · exact step_other post fresh stage minds mine made
  | @running parent slice other loaded registration outcome =>
    have ended : f.ended? first.id (.finish 0 k outcome) =
        (TaskStage.running parent slice other loaded registration).ended? first.id outcome :=
      viewed_of_stage post stage
    rw [ended, stored_same sound rfl]
    exact step_running post fresh stage sound
  | _ =>
    rw [silent rfl, stored_work sound works' fun _ _ _ same => (by cases same)]
    exact step_plain works' rfl post fresh stage

/-- A step of a fleet that retries a job is a step of the job. -/
theorem Step.trials {a : Action} (retrying : f.Retrying first p w)
    (sound : (f.trials first.id past stored ends).Sound first p w)
    (allowed : a.IsRetrying first p w past c) (step : f.Step a f') :
    (f.trials first.id past stored ends).Step first p w (f'.trials first.id (a :: past)
      (stored ∨ f'.store.jobs[first.id]?.isSome = true)
      (ends ++ (f.ended? first.id a).toList)) := by
  by_cases finishes : ∃ i k outcome, a = .finish i k outcome
  · obtain ⟨i, k, outcome, rfl⟩ := finishes
    cases step with
    | work post stage works same =>
      exact trials_step_work same allowed.faultless retrying sound post stage works
  have silent : ends ++ (f.ended? first.id a).toList = ends := by
    rw [ended_of_ne fun i k outcome same => finishes ⟨i, k, outcome, same⟩, Option.toList_none,
      List.append_nil]
  have stays : (stored ∨ f.store.jobs[first.id]?.isSome = true) = stored := stored_same sound rfl
  rcases step.kinds with ⟨now, rfl, rfl⟩ | ⟨i, settings, registry, ticket, rfl, free, rfl⟩ |
    ⟨i, q, q', post, begins, rfl⟩ | ⟨i, q, k, s, prompt, e, store, post, stage, works, same, rfl⟩
  · rw [trials_past fun same => (by cases same), silent, stays]
    exact .idle
  · rw [trials_past fun same => (by cases same), trials_join free, silent]
    show Trials.Step _ _ _ _
      (f.trials first.id past (stored ∨ f.store.jobs[first.id]?.isSome = true) ends)
    rw [stays]
    exact .idle
  · obtain rfl : i = 0 := retrying.single i q post
    have fresh := (retrying.fenced.tidy.posts 0 q post).guarded.fresh
    have free : (f.trials first.id past stored ends).hands (0, q.nextNumber) = none :=
      hands_of_free post fresh.free
    obtain ⟨x, hand, goes⟩ : ∃ x, (x = none ∨ x = some .waiting ∧ a.submitted? = some first.id) ∧
        (f.put 0 q').trials first.id past stored ends =
          (f.trials first.id past stored ends).go (0, q.nextNumber) x :=
      trials_begins post fresh begins
    rw [silent]
    show Trials.Step _ _ _ _ ((f.put 0 q').trials first.id (a :: past)
      (stored ∨ f.store.jobs[first.id]?.isSome = true) ends)
    rw [stays]
    by_cases mine : a.submitted? = some first.id
    · rw [trials_submitted mine, goes]
      refine .submit (0, q.nextNumber) ?_ free (hand.imp_right And.left)
      rintro ⟨b, mem, same⟩
      cases a with
      | submit i ticket job => exact (allowed.submits (Option.some.inj mine)).2 b mem same
      | _ => cases mine
    · obtain rfl := hand.resolve_right fun waits => mine waits.2
      rw [trials_past mine, goes, go_self free]
      exact .idle
  · exact trials_step_work same allowed.faultless retrying sound post stage works

end Fleet

end SliceScheduler
