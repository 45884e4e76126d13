import SliceScheduler.Proofs.JobOrder
import SliceScheduler.Proofs.TrialsView
/-!
# Bounded retries

One node works on a store, and a job to be run once is submitted to it whose type is retried by a
bounded policy. No call fails. The clock goes anywhere, executors come to any ends, and the node may
be paused, shut down, or without an executor for the job at times.

1. `Cluster.endings` lists the runs of a job that have come to their ends, and `Cluster.runs` counts
   those that have begun;
2. `BoundedRetry.IsOver` says that no run is to follow, and `Cluster.KeepsTo` how the runs of a job
   keep to a policy;
3. `Cluster.Run.keepsTo` is the result: they do, whatever happens.

The policy with `n` retries lets the job run `n + 1` times at most, the row counts the runs that were
retried, and goes with the next two calls of the task that the last run belongs to.
-/
namespace SliceScheduler

namespace Cluster

/-! ## Runs of a job -/

/-- The cluster after what has happened, the latest first. -/
def after? (c₀ : Cluster) : List Action → Option Cluster
  | [] => some c₀
  | a :: past => (c₀.after? past).bind (·.act? a)

/-- The run of a job that comes to its end: the job as the executor was given it, and what came of
it. -/
def ended? (c : Cluster) (id : JobId) : Action → Option (Job × Outcome)
  | .finish i k outcome => ((c.task? i k).bind Task.executes?).bind fun (_, job) =>
      if job.id = id then some (job, outcome) else none
  | _ => none

/-- The runs of a job that have come to their ends, the earliest first. -/
def endings (c₀ : Cluster) (id : JobId) : List Action → List (Job × Outcome)
  | [] => []
  | a :: past => c₀.endings id past ++ ((c₀.after? past).bind (·.ended? id a)).toList

/-- How often a job was started, counted over all nodes. -/
def runs (c : Cluster) (id : JobId) : Nat := (c.nodes.map (·.desk.runs id)).sum

/-- The row of the job was there at some time. -/
def HasStored (c₀ : Cluster) (id : JobId) (past : List Action) : Prop :=
  ∃ earlier c, earlier <:+ past ∧ c₀.after? earlier = some c ∧ c.store.jobs[id]?.isSome = true

/-- The store comes to be so with the next calls of one task, so many at most. -/
def Soon (c : Cluster) (calls : Nat) (P : MemoryStore → Prop) : Prop :=
  ∃ k ≤ calls, ∃ number c',
    c.after? (List.replicate k (.answer 0 number none)) = some c' ∧ P c'.store

end Cluster

/-- The runs of a job keep to a policy, as the row of the job does. -/
structure Cluster.KeepsTo (p : BoundedRetry) (id : JobId) (stored : Prop)
    (ends : List (Job × Outcome)) (c : Cluster) : Prop where
  /-- One run follows another. -/
  ordered : ends.length ≤ c.runs id ∧ c.runs id ≤ ends.length + 1
  /-- The executor is at work on the job while a run has begun that has not come to its end. -/
  working : c.runs id = ends.length + 1 ↔ ∃ n ∈ c.nodes, ∃ t ∈ n.tasks, ∃ registration job,
    t.executes? = some (registration, job) ∧ job.id = id
  /-- There is one run besides the retries. -/
  bounded : c.runs id ≤ p.maxAttempts.val + 1
  /-- The executor is given the number of retries so far. -/
  given : ∀ (k : Nat) (r : Job × Outcome), ends[k]? = some r → r.1.retries.val = k
  /-- After so many runs that are retried the row counts them, at the latest with the next call. -/
  counted : stored → (∀ r ∈ ends, p.Retries r.2) → ends.length ≤ p.maxAttempts.val →
    c.Soon 1 fun s => ∃ row, s.jobs[id]? = some row ∧ row.retries.val = ends.length
  /-- The row is not deleted before the last run is over. -/
  kept : stored → c.store.jobs[id]? = none → p.IsOver ends ∧ c.runs id = ends.length
  /-- The row is deleted right after the last run, and no other run begins. -/
  deleted : p.IsOver ends → c.runs id = ends.length ∧ c.Soon 2 fun s => s.jobs[id]? = none
  /-- When every run is to be retried, all runs have been made by the time that the row is gone. -/
  exhausted : stored → c.store.jobs[id]? = none → (∀ r ∈ ends, p.Retries r.2) →
    c.runs id = p.maxAttempts.val + 1
  /-- When the first run is not to be retried, it is the only one. -/
  once : ∀ r, ends.head? = some r → ¬p.Retries r.2 → c.runs id = 1

namespace BoundedRetryLemmas

open Post TrialsViewLemmas

variable {first : Job} {p : BoundedRetry} {w : Duration} {c c' c₀ : Cluster} {f f' : Fleet}
  {q : Post} {k : Nat} {s : TaskStage} {id : JobId} {a : Action} {past : List Action}
  {ends : List (Job × Outcome)} {stored : Prop} {slice : Slice} {parent : Nat}

/-! ## What has happened -/

theorem after_run {Allowed : List Action → Cluster → Action → Prop}
    (run : c₀.Run Allowed past c) : c₀.after? past = some c := by
  induction run with
  | nil => rfl
  | cons a run allowed acted ih => exact (congrArg (·.bind (·.act? a)) ih).trans acted

theorem endings_cons (run : c₀.after? past = some c) :
    c₀.endings id (a :: past) = c₀.endings id past ++ (c.ended? id a).toList := by
  rw [Cluster.endings, run]
  rfl

theorem hasStored_cons (run : c₀.after? past = some c) (acted : c.act? a = some c') :
    c₀.HasStored id (a :: past) ↔ c₀.HasStored id past ∨ c'.store.jobs[id]?.isSome = true := by
  have now : c₀.after? (a :: past) = some c' := (congrArg (·.bind (·.act? a)) run).trans acted
  refine ⟨?_, ?_⟩
  · rintro ⟨earlier, c'', suffix, there, stored⟩
    rcases List.suffix_cons_iff.mp suffix with rfl | before
    · obtain rfl := Option.some.inj (now.symm.trans there)
      exact .inr stored
    · exact .inl ⟨earlier, c'', before, there, stored⟩
  · rintro (⟨earlier, c'', before, there, stored⟩ | stored)
    · exact ⟨earlier, c'', before.trans (List.suffix_cons a past), there, stored⟩
    · exact ⟨a :: past, c', List.suffix_rfl, now, stored⟩

/-! ## Runs that end -/

/-- A task waits for an executor when its stage does. -/
theorem executes_task (set : NodeSettings) (number : Nat) (s : TaskStage) :
    (s.task set number).executes? = match s with
      | .running _ _ _ loaded registration => some (registration, loaded)
      | _ => none := by
  have silent (calls : s.isCall = true) : (s.task set number).executes? = none :=
    congrArg (Option.map _) (Node.Shows.waits_of_call (Node.Shows.call?_isSome set calls)).1
  cases s with
  | guard mover => cases mover <;> rfl
  | turned | rest | hold | permit | jobs | running => rfl
  | _ => exact silent rfl

theorem task?_eq_none {i : Nat} (shows : c.Shows f)
    (free : (f.posts i).bind (·.stages k) = none) : c.task? i k = none := by
  cases found : c.task? i k with
  | none => rfl
  | some t =>
    obtain ⟨n, node, found⟩ := Option.bind_eq_some_iff.mp found
    obtain ⟨q, post, shown⟩ := shows.post node
    obtain ⟨s, stage, -⟩ := Cluster.Shows.stage shown found
    rw [post, Option.bind_some, stage] at free
    cases free

/-- A run comes to its end in a cluster as it does in the fleet that the cluster shows. -/
theorem ended_shows (shows : c.Shows f)
    (minds : ∀ i q k s, f.posts i = some q → q.stages k = some s → s.Minds first) (a : Action) :
    c.ended? id a = f.ended? id a := by
  cases a with
  | finish i k outcome =>
    cases there : (f.posts i).bind (·.stages k) with
    | none =>
      simp only [Cluster.ended?, Fleet.ended?, Fleet.viewed, task?_eq_none shows there, there,
        Option.bind_none]
    | some s =>
      obtain ⟨q, post, stage⟩ := Option.bind_eq_some_iff.mp there
      simp only [Cluster.ended?, Fleet.ended?, shows.task? post stage, Option.bind_some,
        executes_task, Fleet.viewed_of_stage post stage]
      cases s with
      | running parent slice other loaded registration =>
        obtain rfl : loaded.id = other := minds i q k _ post stage
        rfl
      | _ => rfl
  | _ => rfl

/-! ## The next calls of a task -/

/-- The call of a task is answered. -/
theorem act_answer {i : Nat} (shows : c.Shows f) (post : f.posts i = some q)
    (stage : q.stages k = some s) (calls : s.isCall = true) :
    ∃ c', c.act? (.answer i k none) = some c' := by
  obtain ⟨n, node, -⟩ := shows.node post
  have found : n.task? k = some (s.task q.desk.settings k) := by
    have task := shows.task? post stage
    rwa [Cluster.task?, node, Option.bind_some] at task
  have acted : c.act? (.answer i k none) = c.answerCall? i (s.task q.desk.settings k) none := by
    simp only [Cluster.act?, Cluster.onTask?, node, found, Option.bind_eq_bind, Option.bind_some]
  rw [acted, Cluster.answerCall?]
  split
  · exact ⟨_, rfl⟩
  · rename_i silent
    have waits := Node.Shows.call?_isSome q.desk.settings calls
    cases waits.symm.trans (congrArg Option.isSome silent)

/-- The answer to the call of a job goes to the task of the job. -/
theorem answer_job {i : Nat} {t : JobStage} (shows : c.Shows f) (post : f.posts i = some q)
    (stage : q.stages k = some (.job parent slice id t)) :
    ∃ c' f', c.act? (.answer i k none) = some c' ∧ c'.Shows f' ∧
      f'.store = (f.store.perform f.now (t.op q.desk.settings.width slice id)).2 ∧
      f'.posts i = some (q.apply k (q.afterJob parent slice id (t.react q.desk.settings.width q.desk
        slice id (f.store.perform f.now (t.op q.desk.settings.width slice id)).1))) := by
  obtain ⟨c', acted⟩ := act_answer shows post stage rfl
  obtain ⟨f', step, shows'⟩ := shows.act acted
  refine ⟨c', f', acted, shows', ?_⟩
  cases step with
  | @work j q' number s' prompt e store _ post' stage' works same =>
    cases prompt with
    | answer fault =>
      obtain ⟨rfl, rfl, rfl⟩ := Action.answer.inj same
      obtain rfl := Option.some.inj (post.symm.trans post')
      obtain rfl := Option.some.inj (stage.symm.trans stage')
      cases works with
      | job made =>
        obtain ⟨rfl, rfl⟩ := Prod.mk.inj made
        exact ⟨rfl, Function.update_self ..⟩
    | _ => cases same

theorem after_twice {c'' : Cluster} (acted : c.act? a = some c') (acted' : c'.act? a = some c'') :
    c.after? (List.replicate 2 a) = some c'' := by
  show ((some c).bind (·.act? a)).bind (·.act? a) = some c''
  rw [Option.bind_some, acted]
  exact acted'

theorem stage_of_rearming {next : Job} (rearms : s.hand? id = some (.rearming slice next)) :
    ∃ parent, s = .job parent slice id (.update next) := by
  rcases hand_cases rearms with same | ⟨u, head, others, -, -, same⟩ | ⟨parent, u, t, rfl, same⟩ |
    ⟨parent, u, loaded, registration, -, same⟩
  · cases same
  · cases same
  · cases t <;> cases same
    exact ⟨parent, rfl⟩
  · cases same

theorem stage_of_retiring (retires : s.hand? id = some (.retiring slice)) :
    ∃ parent j, s = .job parent slice id (.retire j) ∨ s = .job parent slice id (.delete j) := by
  rcases hand_cases retires with same | ⟨u, head, others, -, -, same⟩ | ⟨parent, u, t, rfl, same⟩ |
    ⟨parent, u, loaded, registration, -, same⟩
  · cases same
  · cases same
  · cases t with
    | retire j =>
      cases same
      exact ⟨parent, j, .inl rfl⟩
    | delete j =>
      cases same
      exact ⟨parent, j, .inr rfl⟩
    | _ => cases same
  · cases same

theorem stage_of_running {job : Job} {policy : RetryPolicy}
    (runs : s.hand? id = some (.running slice job policy)) :
    ∃ parent registration, s = .running parent slice id job registration := by
  rcases hand_cases runs with same | ⟨u, head, others, -, -, same⟩ | ⟨parent, u, t, rfl, same⟩ |
    ⟨parent, u, loaded, registration, rfl, same⟩
  · cases same
  · cases same
  · cases t <;> cases same
  · cases same
    exact ⟨parent, registration, rfl⟩

/-- A retry that is to be recorded is recorded by the next call. -/
theorem soon_recorded {t : Nat × Nat} {next row : Job} (retrying : f.Retrying first p w)
    (shows : c.Shows f) (rearms : f.viewed (·.hand? first.id) t = some (.rearming slice next))
    (there : f.store.jobs[first.id]? = some row) :
    c.Soon 1 fun s => s.jobs[first.id]? = some next := by
  obtain ⟨q, s, post, stage, found⟩ := Fleet.of_viewed rearms
  obtain ⟨parent, rfl⟩ := stage_of_rearming found
  have about : next.id = first.id := retrying.minds _ q _ _ post stage
  obtain ⟨c', f', acted, shows', store, -⟩ := answer_job shows post stage
  rw [retrying.single _ q post] at acted
  refine ⟨1, Nat.le_refl 1, t.2, c', acted, ?_⟩
  rw [shows'.store, store]
  have entry : (f.store.perform f.now (.updateJob next)).2.entry first.id =
      (f.store.entry first.id).after (.updateJob next) :=
    MemoryStore.entry_perform (congrArg some about)
  have written : (f.store.perform f.now (.updateJob next)).2.jobs[first.id]? =
      f.store.jobs[first.id]?.map fun _ => next := congrArg JobEntry.row entry
  exact written.trans (congrArg (Option.map _) there)

/-- A row that is to be deleted is deleted by the next two calls. -/
theorem soon_deleted {t : Nat × Nat} (retrying : f.Retrying first p w) (shows : c.Shows f)
    (retires : f.viewed (·.hand? first.id) t = some (.retiring slice)) :
    c.Soon 2 fun s => s.jobs[first.id]? = none := by
  obtain ⟨q, s, post, stage, found⟩ := Fleet.of_viewed retires
  have here := retrying.single _ q post
  rw [here] at post
  obtain ⟨parent, j, rfl | rfl⟩ := stage_of_retiring found
  · obtain rfl : j = first.id := retrying.minds _ q _ _ post stage
    obtain ⟨c', f', acted, shows', -, post'⟩ := answer_job shows post stage
    -- the task has marked the job finished, and deletes it next
    have stage' : (q.apply t.2 (q.afterJob parent slice first.id
        ([], .call (.delete first.id)))).stages t.2 =
          some (.job parent slice first.id (.delete first.id)) := Function.update_self ..
    obtain ⟨c'', f'', acted', shows'', store, -⟩ := answer_job shows' post' stage'
    refine ⟨2, Nat.le_refl 2, t.2, c'', after_twice acted acted', ?_⟩
    rw [shows''.store, store]
    exact (MemoryStore.deleteJob_row ..).1
  · obtain rfl : j = first.id := retrying.minds _ q _ _ post stage
    obtain ⟨c', f', acted, shows', store, -⟩ := answer_job shows post stage
    refine ⟨1, Nat.le_succ 1, t.2, c', acted, ?_⟩
    rw [shows'.store, store]
    exact (MemoryStore.deleteJob_row ..).1

/-! ## The runs of the job -/

/-- What holds of a fleet at any time, with the runs of the job. -/
structure Retried (first : Job) (p : BoundedRetry) (w : Duration) (c₀ : Cluster)
    (past : List Action) (f : Fleet) : Prop where
  retrying : f.Retrying first p w
  sound : (f.trials first.id past (c₀.HasStored first.id past)
    (c₀.endings first.id past)).Sound first p w

theorem retried_run (run : c₀.Run (Action.IsRetrying first p w) past c) (alone : c₀.nodes = [])
    (keyed : c₀.store.Keyed) (absent : c₀.store.jobs[first.id]? = none)
    (fresh : first.retries = .zero) (single : ∃ time, first.trigger = .single time) :
    ∃ f, c.Shows f ∧ Retried first p w c₀ past f := by
  induction run with
  | nil =>
    refine ⟨.bare c₀, ⟨rfl, rfl, fun i => ?_⟩, .bare keyed, ?_⟩
    · rw [alone]
      exact .none
    · refine .init ?_ absent rfl rfl fun t => rfl
      rintro ⟨earlier, c, suffix, there, stored⟩
      obtain rfl := List.suffix_nil.mp suffix
      obtain rfl := Option.some.inj there
      rw [absent] at stored
      cases stored
  | @cons past c c' a run allowed acted ih =>
    obtain ⟨f, shows, retrying, sound⟩ := ih
    obtain ⟨f', step, shows'⟩ := shows.act acted
    have before := after_run run
    refine ⟨f', shows', retrying.step shows shows' allowed step, ?_⟩
    have stored : c₀.HasStored first.id (a :: past) =
        (c₀.HasStored first.id past ∨ f'.store.jobs[first.id]?.isSome = true) := by
      rw [← shows'.store]
      exact propext (hasStored_cons before acted)
    rw [stored, endings_cons before, ended_shows shows retrying.minds]
    exact sound.step fresh single (step.trials retrying sound allowed)

/-- The node of a fleet of one has all starts. -/
theorem runs_shows (retrying : f.Retrying first p w) (shows : c.Shows f) :
    c.runs id = (f.posts 0).elim 0 (·.desk.runs id) := by
  match nodes : c.nodes with
  | [] =>
    cases post : f.posts 0 with
    | none => simp only [Cluster.runs, nodes, List.map_nil, List.sum_nil, Option.elim_none]
    | some q =>
      obtain ⟨n, node, -⟩ := shows.node post
      rw [nodes] at node
      cases node
  | [n] =>
    obtain ⟨q, post, shown⟩ := shows.post (i := 0) (n := n) (by rw [nodes]; rfl)
    simp only [Cluster.runs, nodes, List.map_cons, List.map_nil, List.sum_cons, List.sum_nil,
      Nat.add_zero, post, Option.elim_some, shown.desk]
  | _ :: n :: rest =>
    obtain ⟨q, post, -⟩ := shows.post (i := 1) (n := n) (by rw [nodes]; rfl)
    cases retrying.single 1 q post

/-- A task waits for the executor of the job when it runs the job. -/
theorem executes_shows (retrying : f.Retrying first p w) (shows : c.Shows f) :
    (∃ n ∈ c.nodes, ∃ t ∈ n.tasks, ∃ registration job,
      t.executes? = some (registration, job) ∧ job.id = first.id) ↔
    ∃ t slice job policy, f.viewed (·.hand? first.id) t = some (.running slice job policy) := by
  refine ⟨?_, ?_⟩
  · rintro ⟨n, mem, t, there, registration, job, executes, named⟩
    obtain ⟨i, node⟩ := List.mem_iff_getElem?.mp mem
    obtain ⟨q, post, shown⟩ := shows.post node
    obtain ⟨s, stage, same⟩ := (shown.tasks t).mp there
    rw [same, executes_task] at executes
    cases s with
    | running parent slice other loaded r =>
      obtain ⟨-, rfl⟩ := Prod.mk.inj (Option.some.inj executes)
      have about : loaded.id = other := retrying.minds i q _ _ post stage
      exact ⟨(i, t.number), slice, loaded, r.policy,
        (Fleet.viewed_of_stage post stage).trans (if_pos (about.symm.trans named))⟩
    | _ => cases executes
  · rintro ⟨⟨i, k⟩, slice, job, policy, runs⟩
    obtain ⟨q, s, post, stage, found⟩ := Fleet.of_viewed runs
    obtain ⟨parent, registration, rfl⟩ := stage_of_running found
    obtain ⟨n, node, shown⟩ := shows.node post
    exact ⟨n, List.mem_of_getElem? node,
      (TaskStage.running parent slice first.id job registration).task q.desk.settings k,
      (shown.tasks _).mpr ⟨_, stage, rfl⟩, registration, job, rfl,
      retrying.minds i q _ _ post stage⟩

end BoundedRetryLemmas

open BoundedRetryLemmas

/-- A job that is to be run once keeps to the policy by which it is retried. -/
theorem Cluster.Run.keepsTo {first : Job} {p : BoundedRetry} {w : Duration} {c₀ c : Cluster}
    {past : List Action} (run : c₀.Run (Action.IsRetrying first p w) past c)
    (alone : c₀.nodes = []) (keyed : c₀.store.Keyed)
    (absent : c₀.store.jobs[first.id]? = none) (fresh : first.retries = .zero)
    (single : ∃ time, first.trigger = .single time) :
    c.KeepsTo p first.id (c₀.HasStored first.id past) (c₀.endings first.id past) := by
  obtain ⟨f, shows, retrying, sound⟩ := retried_run run alone keyed absent fresh single
  have runs : c.runs first.id = _ := runs_shows retrying shows
  have row : c.store.jobs[first.id]? = f.store.jobs[first.id]? := by rw [shows.store]
  have now {calls : Nat} {P : MemoryStore → Prop} (holds : P c.store) : c.Soon calls P :=
    ⟨0, Nat.zero_le calls, 0, c, rfl, holds⟩
  refine ⟨?_, ?_, ?_, sound.given, fun stored retries left => ?_, fun stored gone => ?_,
    fun spent => ?_, fun stored gone retries => ?_, fun r head last => ?_⟩
  · rw [runs]
    exact sound.starts_bounds
  · rw [runs, executes_shows retrying shows]
    refine ⟨sound.running_of_starts, fun ⟨t, slice, job, policy, runs⟩ => ?_⟩
    exact (sound.of_running runs).2.2.2.2.1
  · rw [runs]
    exact sound.starts_le
  · obtain ⟨r, there, counts | ⟨t, slice, next, rearms, counts⟩⟩ :=
      sound.row_counts stored (.of_retries retries left)
    · exact now ⟨r, row.trans there, counts⟩
    · obtain ⟨k, le, number, c', acted, written⟩ := soon_recorded retrying shows rearms there
      exact ⟨k, le, number, c', acted, next, written, counts⟩
  · obtain ⟨final, begun⟩ := sound.final_of_gone stored (row.symm.trans gone)
    exact ⟨final.isOver, runs.trans begun⟩
  · obtain ⟨begun, gone | ⟨t, slice, retires⟩⟩ := sound.gone_of_isOver spent
    · exact ⟨runs.trans begun, now (row.trans gone)⟩
    · exact ⟨runs.trans begun, soon_deleted retrying shows retires⟩
  · obtain ⟨final, begun⟩ := sound.final_of_gone stored (row.symm.trans gone)
    exact runs.trans (begun.trans (final.length_eq retries))
  · exact runs.trans (sound.starts_eq_one head last)

/-! ## A job that fails twice -/

/-- One retry after ten seconds, for faults that are likely to pass. -/
def BoundedRetry.onceMore : BoundedRetry := ⟨⟨1, by decide⟩, .ofSeconds 10, .transientOnly⟩

/-- The executor of a type of job that is retried once. -/
def Registry.onceMore : Registry :=
  Std.ExtTreeMap.empty.insert "WORK" ⟨0, fun _ => .ok (), .bounded .onceMore⟩

/-- A node runs a job, which fails, and a minute later runs it once more, with no better success. -/
def Action.twice : List Action :=
  [.join (.standard "a") .onceMore 0, .answer 0 0 none, .answer 0 0 none,
    .submit 0 1 .errand, .answer 0 1 none, .answer 0 1 none, .answer 0 1 none, .answer 0 1 none,
    .send 0 2 .tick, .receive 0, .proceed 0 2, .answer 0 2 none, .proceed 0 2, .answer 0 2 none,
    .answer 0 2 none, .answer 0 3 none, .proceed 0 3, .answer 0 4 none, .answer 0 4 none,
    .finish 0 4 (.failure (.transient "busy")),
    .answer 0 4 none, .answer 0 4 none, .answer 0 4 none, .answer 0 4 none,
    .proceed 0 3, .proceed 0 3, .answer 0 3 none, .answer 0 3 none, .answer 0 3 none,
    .answer 0 3 none, .answer 0 3 none, .proceed 0 3, .answer 0 3 none, .proceed 0 3,
    .pass Job.soon.trigger.time,
    .send 0 3 .tick, .receive 0, .proceed 0 5, .answer 0 5 none, .proceed 0 5, .answer 0 5 none,
    .answer 0 5 none, .answer 0 6 none, .proceed 0 6, .answer 0 7 none, .answer 0 7 none,
    .finish 0 7 (.failure (.transient "busy")), .answer 0 7 none, .answer 0 7 none]

section Played

instance (policy : RetryPolicy) (p : BoundedRetry) : Decidable (policy = .bounded p) :=
  match policy with
  | .bounded q => decidable_of_iff (q = p) ⟨fun same => congrArg _ same, RetryPolicy.bounded.inj⟩
  | .none | .fixed _ | .custom _ => isFalse nofun

instance (p : BoundedRetry) (type : String) (registry : Registry) :
    Decidable (registry.Retries p type) :=
  match found : registry[type]? with
  | none => isTrue fun _ there => nomatch found.symm.trans there
  | some r => decidable_of_iff (r.policy = .bounded p)
      ⟨fun same _ there => Option.some.inj (found.symm.trans there) ▸ same, fun all => all r found⟩

instance : (a : Action) → Decidable a.IsFaultless
  | .answer _ _ fault => inferInstanceAs (Decidable (fault = none))
  | .pass _ | .join _ _ _ | .register _ _ | .submit _ _ _ | .send _ _ _ | .leave _ | .receive _
  | .tickItself _ | .proceed _ _ | .finish _ _ _ | .wake _ _ => isTrue trivial

instance (c : Cluster) : (a : Action) → Decidable (a.IsSingle c)
  | .join _ _ _ => decidable_of_iff (c.nodes.isEmpty = true) List.isEmpty_iff
  | .pass _ | .register _ _ | .submit _ _ _ | .send _ _ _ | .leave _ | .receive _
  | .tickItself _ | .answer _ _ _ | .proceed _ _ | .finish _ _ _ | .wake _ _ => isTrue trivial

instance (first : Job) (past : List Action) : (a : Action) → Decidable (a.Submits first past)
  | .submit _ _ job => inferInstanceAs (Decidable
      (job.id = first.id → job = first ∧ ∀ b ∈ past, b.submitted? ≠ some first.id))
  | .pass _ | .join _ _ _ | .register _ _ | .send _ _ _ | .leave _ | .receive _
  | .tickItself _ | .answer _ _ _ | .proceed _ _ | .finish _ _ _ | .wake _ _ => isTrue trivial

instance (first : Job) (p : BoundedRetry) (w : Duration) (past : List Action) (c : Cluster)
    (a : Action) : Decidable (a.IsRetrying first p w past c) :=
  decidable_of_iff (a.HasWidth w ∧ a.IsFaultless ∧ a.IsSingle c ∧
      (∀ registry ∈ a.registry?, registry.Retries p first.type) ∧ a.Submits first past)
    ⟨fun ⟨width, faultless, single, policed, submits⟩ =>
      ⟨width, faultless, single, policed, submits⟩,
      fun ⟨width, faultless, single, policed, submits⟩ =>
      ⟨width, faultless, single, policed, submits⟩⟩

end Played

/-- The job was run twice, and its row is gone. -/
theorem Cluster.Run.keepsTo_twice : ∃ past c,
    (Cluster.start .newYear2024).Run
        (Action.IsRetrying .errand .onceMore (Duration.ofSeconds 60)) past c ∧
      (Cluster.start .newYear2024).nodes = [] ∧ (Cluster.start .newYear2024).store.Keyed ∧
      (Cluster.start .newYear2024).store.jobs[Job.errand.id]? = none ∧
      Job.errand.retries = .zero ∧ (∃ time, Job.errand.trigger = .single time) ∧
      c.runs Job.errand.id = 2 ∧ c.store.jobs[Job.errand.id]? = none ∧
      c.KeepsTo .onceMore Job.errand.id
        ((Cluster.start .newYear2024).HasStored Job.errand.id past)
        ((Cluster.start .newYear2024).endings Job.errand.id past) := by
  have played : ((Cluster.start .newYear2024).play?
      (Action.IsRetrying .errand .onceMore (Duration.ofSeconds 60)) [] Action.twice).map
        (fun r => (r.2.runs Job.errand.id, r.2.store.jobs[Job.errand.id]?)) = some (2, none) := rfl
  obtain ⟨⟨past, c⟩, ends, facts⟩ := Option.map_eq_some_iff.mp played
  obtain ⟨runs, gone⟩ := Prod.mk.inj facts
  have run := Cluster.Run.of_play _ .nil ends
  have keyed : (Cluster.start .newYear2024).store.Keyed := fun id job there =>
    nomatch Std.ExtTreeMap.getElem?_empty.symm.trans there
  have absent : (Cluster.start .newYear2024).store.jobs[Job.errand.id]? = none :=
    Std.ExtTreeMap.getElem?_empty
  exact ⟨past, c, run, rfl, keyed, absent, rfl, ⟨_, rfl⟩, runs, gone,
    run.keepsTo rfl keyed absent rfl ⟨_, rfl⟩⟩

end SliceScheduler
