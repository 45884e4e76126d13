import SliceScheduler.Proofs.JobView
import SliceScheduler.Proofs.Scenario
import SliceScheduler.Proofs.Shows
import SliceScheduler.Proofs.Visits
/-!
# Jobs are run under the lock of their slice

Any number of nodes of different names work in any order on one store. Calls fail, nodes pause and
shut down, the clock goes anywhere, and nodes may have different slice widths.

1. `Node.IsJobOf` says that a task runs a job of a slice;
2. `Fleet.Fenced` puts together what holds of a fleet after any such run;
3. `Cluster.Run.fenced` is the result: while a task runs a job of a slice, and so whenever it starts
   the executor or writes what came of it, its node is the owner of the lock of the slice, as long
   as the node has not begun to give up its locks in a shutdown;
4. `Cluster.Run.fenced_rivals` shows it of two nodes that go for one slice, and
   `Cluster.Run.abandoned_start` that a node that has begun to goes on with the jobs that it did not
   wait for.
-/
namespace SliceScheduler

/-- The slice that a call of a running job names as the one that the job is run for. -/
def Operation.source? : Operation → Option Slice
  | addActive slice _ | addFinished slice _ | removeScheduled slice _ => some slice
  | _ => none

/-- The task runs a job of the slice: the draining of the slice has set it off. -/
def Node.IsJobOf (n : Node) (slice : Slice) (t : Task) : Prop :=
  t ∈ n.tasks ∧ ∃ d ∈ n.tasks, t.role = .job d.number ∧ d.role = .drain slice

/-- What holds of a fleet at any time, whatever happens to it. -/
structure Fleet.Fenced (f : Fleet) : Prop where
  visits : ∃ first, f.Visits first
  tidy : f.Tidy
  staffed : ∀ i p, f.posts i = some p → p.Staffed

namespace FencingLemmas

open Post TidyLemmas JobViewLemmas

variable {p : Post} {e : Effect} {k : Nat} {s : TaskStage} {now : Instant} {id : JobId}
  {slice : Slice} {store store' : MemoryStore} {prompt : Prompt}

/-- A call that names the slice that a job is run for is made for that slice. -/
theorem source_call {set : NodeSettings} {t : Task} {parent : Nat} {op : Operation} {x y : Slice}
    {next : op.Result → Code t.role.Result} (task : t = s.task set k)
    (serves : s.serves? = some (parent, x)) (calls : t.code.call? = some ⟨op, next⟩)
    (source : op.source? = some y) : y = x := by
  subst task
  cases s with
  | job other z id t =>
    obtain ⟨rfl, rfl⟩ := Prod.mk.inj (Option.some.inj serves)
    obtain ⟨after, shape, -⟩ := t.calls set default k z id
    have calls : (Code.run (t.program set.width z id)).call? = some ⟨op, next⟩ := calls
    rw [shape] at calls
    obtain rfl := congrArg Sigma.fst (Option.some.inj calls)
    cases t with
    | load | update | enter | delete => cases source
    | _ => exact (Option.some.inj source).symm
  | running other z id job registration => cases calls
  | _ => cases serves

theorem role_of_hires (hires : s.hires? = some slice) : s.role = .drain slice := by
  cases s with
  | permit | jobs =>
    obtain rfl := Option.some.inj hires
    rfl
  | _ => cases hires

end FencingLemmas

open FencingLemmas TidyLemmas

namespace Fleet

variable {f f' : Fleet} {i : Nat} {p : Post}

theorem Fenced.bare (c : Cluster) : (bare c).Fenced :=
  ⟨⟨_, .bare c⟩, .bare c, nofun⟩

/-- Whatever happens to a fleet keeps it fenced. -/
theorem Fenced.step {a : Action} (fenced : f.Fenced) (isNew : f.IsNew a) (step : f.Step a f') :
    f'.Fenced := by
  obtain ⟨first, visits⟩ := fenced.visits
  have posts := fenced.tidy.posts
  exact ⟨visits.step posts step, fenced.tidy.step (fun i p => visits.distinct) isNew step,
    step.staffed (fun i p post => (posts i p post).guarded) fenced.staffed⟩

/-- A node that runs a job of a slice is the owner of the lock of the slice. -/
theorem Fenced.owner (fenced : f.Fenced) (post : f.posts i = some p) (still : ¬ p.desk.HasLetGo)
    {k parent : Nat} {s : TaskStage} {slice : Slice} (stage : p.stages k = some s)
    (serves : s.serves? = some (parent, slice)) :
    f.store.owner slice.advanceLock = some p.desk.settings.node := by
  obtain ⟨t, there, hires⟩ := fenced.staffed i p post k s parent slice stage serves
  refine fenced.tidy.locks i p slice post still ?_
  rw [fits_of_drains ((fenced.tidy.posts i p post).fits parent t there)
    (StaffLemmas.drains_of_hires hires)]
  nofun

/-- Who starts a job for a slice is the owner of the lock of the slice, before and after. -/
theorem Fenced.owner_start (fenced : f.Fenced) {a : Action} (step : f.Step a f')
    (post : f.posts i = some p) (still : ¬ p.desk.HasLetGo) {q : Post}
    (post' : f'.posts i = some q) {id : JobId} {slice : Slice}
    (starts : q.desk.starts id slice ≠ p.desk.starts id slice) :
    f.store.owner slice.advanceLock = some p.desk.settings.node ∧
      f'.store.owner slice.advanceLock = some p.desk.settings.node := by
  have other (log : q.desk.log = p.desk.log) : False :=
    starts (congrFun (JobViewLemmas.starts_of_log log) slice)
  rcases step.kinds with ⟨now, -, rfl⟩ | ⟨j, settings, registry, ticket, -, free, rfl⟩ |
    ⟨j, r, r', there, begins, rfl⟩ | ⟨j, r, k, s, prompt, e, store, there, stage, works, -, rfl⟩
  · exact (other (congrArg (·.desk.log) (Option.some.inj (post'.symm.trans post)))).elim
  all_goals
    rcases posts_put post' with ⟨rfl, rfl⟩ | ⟨-, before⟩
    rotate_left
    · exact (other (congrArg (·.desk.log) (Option.some.inj (before.symm.trans post)))).elim
  · cases free.symm.trans post
  · obtain rfl := Option.some.inj (there.symm.trans post)
    exact (other begins.log).elim
  · obtain rfl := Option.some.inj (there.symm.trans post)
    obtain ⟨parent, t, rfl⟩ := JobViewLemmas.starts_work works starts
    have mine := fenced.owner there still stage rfl
    refine ⟨mine, ?_⟩
    rcases works.store with rfl | ⟨op, fault, answer, calls, -, made⟩
    · exact mine
    · show store.owner _ = _
      rcases MemoryStore.owner_cases made slice.advanceLock with same | ⟨o, rfl, -⟩ | ⟨o, rfl, -⟩
      · exact same.trans mine
      · cases t <;> cases calls
      · cases t <;> cases calls

end Fleet

/-- While a task runs a job of a slice, its node is the owner of the lock of the slice, and so it is
when it starts the executor, unless it has begun to give up its locks in a shutdown. -/
theorem Cluster.Run.fenced {c₀ c : Cluster} {past : List Action}
    (run : c₀.Run (fun _ c a => a.HasName c) past c) (alone : c₀.nodes = []) {i : Nat} {n : Node}
    (node : c.nodes[i]? = some n) (still : ¬ n.desk.HasLetGo) :
    (∀ t ∈ n.tasks, ∀ parent, t.role = .job parent → ∃ slice, n.IsJobOf slice t) ∧
    (∀ t slice, n.IsJobOf slice t → c.store.owner slice.advanceLock = some n.name ∧
      ∀ op next, t.code.call? = some ⟨op, next⟩ → ∀ x, op.source? = some x → x = slice) ∧
    ∀ a c' n' id slice, c.act? a = some c' → c'.nodes[i]? = some n' →
      n.desk.starts id slice < n'.desk.starts id slice →
      c.store.owner slice.advanceLock = some n.name ∧
        c'.store.owner slice.advanceLock = some n.name := by
  obtain ⟨f, shows, fenced⟩ := run.invariant (P := fun _ f => f.Fenced) alone (.bare c₀)
    fun past c f a f' _ shows fenced name step => fenced.step (shows.isNew name) step
  obtain ⟨p, post, shown⟩ := shows.post node
  rw [shown.desk] at still
  have name : n.name = p.desk.settings.node := by rw [Node.name, shown.desk]
  rw [shows.store, name]
  -- a task in the role of a job belongs to a draining
  have serves {t : Task} (mem : t ∈ n.tasks) {parent : Nat} (role : t.role = .job parent) :
      ∃ s slice, p.stages t.number = some s ∧ t = s.task p.desk.settings t.number ∧
        s.serves? = some (parent, slice) := by
    obtain ⟨s, stage, task⟩ := (shown.tasks t).mp mem
    rw [task] at role
    cases s with
    | job other slice | running other slice =>
      obtain rfl := Role.job.inj role
      exact ⟨_, slice, stage, task, rfl⟩
    | guard mover | turn mover | turned mover => cases mover <;> cases role
    | _ => cases role
  refine ⟨fun t mem parent role => ?_, fun t slice ⟨mem, d, there, role, drains⟩ => ?_,
    fun a c' n' id slice acted node' starts => ?_⟩
  · obtain ⟨s, slice, stage, -, serves⟩ := serves mem role
    obtain ⟨d, there, hires⟩ := fenced.staffed i p post _ s parent slice stage serves
    exact ⟨slice, mem, d.task p.desk.settings parent, (shown.tasks _).mpr ⟨d, there, rfl⟩, role,
      role_of_hires hires⟩
  · obtain ⟨s, x, stage, task, serves⟩ := serves mem role
    obtain ⟨d', there', hires⟩ := fenced.staffed i p post _ s d.number x stage serves
    obtain ⟨d'', there'', same⟩ := (shown.tasks d).mp there
    obtain rfl := Option.some.inj (there'.symm.trans there'')
    obtain rfl : x = slice := by
      rw [same] at drains
      exact Role.drain.inj ((role_of_hires hires).symm.trans drains)
    refine ⟨fenced.owner post still stage serves, fun op next calls y source => ?_⟩
    exact source_call task serves calls source
  · obtain ⟨f', step, shows'⟩ := shows.act acted
    obtain ⟨p', post', shown'⟩ := shows'.post node'
    rw [shown.desk, shown'.desk] at starts
    rw [shows'.store]
    exact fenced.owner_start step post still post' (Nat.ne_of_gt starts)

/-- Of two nodes that go for one slice, the one that runs the job there is the owner of its lock, and
the other one has put the slice off. -/
theorem Cluster.Run.fenced_rivals : ∃ past c n n' t,
    (Cluster.start .newYear2024).Run (fun _ c a => a.HasName c) past c ∧
      (Cluster.start .newYear2024).nodes = [] ∧ c.nodes[0]? = some n ∧
      c.nodes[1]? = some n' ∧ n.name ≠ n'.name ∧
      ¬ n.desk.HasLetGo ∧ n.IsJobOf ⟨.newYear2024⟩ t ∧
      n.desk.starts Job.errand.id ⟨.newYear2024⟩ = 1 ∧
      n'.desk.log.toList = [.tickDeferred ⟨.newYear2024⟩] ∧
      c.store.owner (Slice.mk .newYear2024).advanceLock = some n.name := by
  have played : ((Cluster.start .newYear2024).play? (fun _ c a => a.HasName c) []
      (Action.rivals (.standard "a") (.standard "b") .errands .errand ++
        [.answer 1 1 none])).bind (fun r => r.2.nodes[0]?.bind fun n => r.2.nodes[1]?.map fun n' =>
        (n.name, n'.name, n.desk.stopped,
          n.tasks.map fun t => (t.number, t.role),
          n.desk.starts Job.errand.id ⟨.newYear2024⟩, n'.desk.log.toList)) =
      some ("a", "b", false, [(3, .drain ⟨.newYear2024⟩), (4, .job 3)], 1,
        [.tickDeferred ⟨.newYear2024⟩]) := rfl
  obtain ⟨⟨past, c⟩, ends, shown⟩ := Option.bind_eq_some_iff.mp played
  obtain ⟨n, node, shown⟩ := Option.bind_eq_some_iff.mp shown
  obtain ⟨n', node', facts⟩ := Option.map_eq_some_iff.mp shown
  obtain ⟨name, name', runs, tasks, one, log⟩ := by simpa only [Prod.mk.injEq] using facts
  have still : ¬ n.desk.HasLetGo := fun gone => by cases runs.symm.trans gone.1
  have task {number : Nat} {role : Role}
      (mem : (number, role) ∈ [(3, Role.drain ⟨.newYear2024⟩), (4, Role.job 3)]) :
      ∃ t ∈ n.tasks, t.number = number ∧ t.role = role := by
    rw [← tasks] at mem
    obtain ⟨t, there, same⟩ := List.mem_map.mp mem
    exact ⟨t, there, Prod.mk.inj same⟩
  obtain ⟨d, there, number, drains⟩ := task List.mem_cons_self
  obtain ⟨t, mem, -, role⟩ := task (List.mem_cons_of_mem _ List.mem_cons_self)
  have isJob : n.IsJobOf ⟨.newYear2024⟩ t := ⟨mem, d, there, number ▸ role, drains⟩
  have run := Cluster.Run.of_play _ .nil ends
  exact ⟨past, c, n, n', t, run, rfl, node, node', by rw [name, name']; decide, still, isJob, one, log,
    ((run.fenced rfl node still).2.1 t _ isJob).1⟩

/-! ## A shutdown that does not wait long enough -/

/-- A node that runs one executor at a time and waits for ten milliseconds when it shuts down. -/
def NodeSettings.hasty : NodeSettings :=
  { standard "a" with maxConcurrent := 1, shutdownTimeout := .ofMillis 10 }

/-- Another job that is due at the first instant of 2024. -/
def Job.other : Job := { Job.errand with id := ⟨1, by decide⟩, name := "other" }

/-- A node shuts down while it runs a job and another one waits for its permit. When it has given
up its locks, the first job comes to its end and the second one is loaded. -/
def Action.abandoned : List Action :=
  [.join .hasty .errands 0, .answer 0 0 none, .answer 0 0 none,
    .submit 0 1 .errand, .answer 0 1 none, .answer 0 1 none, .answer 0 1 none, .answer 0 1 none,
    .submit 0 2 .other, .answer 0 2 none, .answer 0 2 none, .answer 0 2 none, .answer 0 2 none,
    .answer 0 2 none, .send 0 3 .tick, .receive 0, .proceed 0 3, .answer 0 3 none, .proceed 0 3,
    .answer 0 3 none, .answer 0 3 none, .answer 0 4 none, .proceed 0 4, .answer 0 5 none,
    .answer 0 5 none, .send 0 4 .shutdown, .receive 0, .wake 0 6, .proceed 0 6, .answer 0 6 none,
    .finish 0 5 .success, .answer 0 5 none, .answer 0 5 none, .proceed 0 4, .answer 0 7 none]

/-- A node that has given up its locks starts a job of a slice whose lock has no owner. -/
theorem Cluster.Run.abandoned_start : ∃ past c c' n n',
    (Cluster.start .newYear2024).Run (fun _ c a => a.HasName c) past c ∧
      c.act? (.answer 0 7 none) = some c' ∧ c.nodes[0]? = some n ∧ c'.nodes[0]? = some n' ∧
      n.desk.starts Job.other.id ⟨.newYear2024⟩ < n'.desk.starts Job.other.id ⟨.newYear2024⟩ ∧
      c.store.owner (Slice.mk .newYear2024).advanceLock = none ∧
      c'.store.owner (Slice.mk .newYear2024).advanceLock = none := by
  have played : ((Cluster.start .newYear2024).play? (fun _ c a => a.HasName c) []
      Action.abandoned).bind (fun r => (r.2.act? (.answer 0 7 none)).bind fun c' =>
        r.2.nodes[0]?.bind fun n => c'.nodes[0]?.map fun n' =>
          (n.desk.starts Job.other.id ⟨.newYear2024⟩, n'.desk.starts Job.other.id ⟨.newYear2024⟩,
            r.2.store.owner (Slice.mk .newYear2024).advanceLock,
            c'.store.owner (Slice.mk .newYear2024).advanceLock)) = some (0, 1, none, none) := rfl
  obtain ⟨⟨past, c⟩, ends, shown⟩ := Option.bind_eq_some_iff.mp played
  obtain ⟨c', acted, shown⟩ := Option.bind_eq_some_iff.mp shown
  obtain ⟨n, node, shown⟩ := Option.bind_eq_some_iff.mp shown
  obtain ⟨n', node', facts⟩ := Option.map_eq_some_iff.mp shown
  obtain ⟨zero, facts⟩ := Prod.mk.inj facts
  obtain ⟨one, free, free'⟩ := Prod.mk.inj facts |>.imp id Prod.mk.inj
  refine ⟨past, c, c', n, n', Cluster.Run.of_play _ .nil ends, acted, node, node', ?_, free, free'⟩
  rw [zero, one]
  exact Nat.one_pos

end SliceScheduler
