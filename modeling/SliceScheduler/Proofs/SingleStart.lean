import SliceScheduler.Proofs.JobView
import SliceScheduler.Proofs.Scenario
import SliceScheduler.Proofs.Shows
import SliceScheduler.Proofs.Visits
/-!
# One start for each job and slice

Any number of nodes of different names work in any order on one store that was empty at first, no
call fails and nothing is shut down, jobs are submitted under ids of their own, and the clock does
not go back.

1. `Orderly` puts together what holds of a fleet after such a run, and `orderly_run` says so;
2. `Cluster.Run.starts_le_one` is the result: counted over all nodes, a job is started at most once
   for each slice;
3. `Cluster.Run.starts_le_one_rivals` shows it of two nodes that both drain the slice, and
   `Cluster.Run.starts_twice_after_leap_second` of the same nodes that it fails when the clock goes
   back in milliseconds, as it does after a leap second.
-/
namespace SliceScheduler

/-- What holds of a fleet at any time while everything is orderly. -/
structure Fleet.Orderly (w : Duration) (past : List Action) (f : Fleet) : Prop where
  uniform : f.Uniform w
  guarded : f.Guarded
  due : ∃ first, f.Due w first
  visits : ∃ first, f.Visits first
  tidy : f.Tidy
  runs : f.Runs
  staffed : f.Staffed w
  lives : ∀ id, (f.life w id past).Sound

namespace Fleet

variable {w : Duration} {c₀ c : Cluster} {past : List Action} {f f' : Fleet} {a : Action}

theorem Orderly.bare (empty : c₀.store = .empty) : (bare c₀).Orderly w [] := by
  have unset : c₀.store.pointer = none := by rw [empty]; rfl
  have rows : c₀.store.jobs = ∅ := by rw [empty]; rfl
  have due : (Fleet.bare c₀).Due w c₀.store.pointer :=
    .bare fun p there => (by cases unset.symm.trans there)
  refine ⟨.bare w c₀, .bare c₀, ⟨_, due⟩, ⟨_, .bare c₀⟩, .bare c₀, .bare c₀, .bare rows, fun id => ?_⟩
  refine .unborn ⟨?_, fun slice scheduled => ?_, ?_⟩ fun t => rfl
  · have row : ((Fleet.bare c₀).life w id []).row = (c₀.store.jobs[id]?).map (·.slice w) := rfl
    rw [row, rows, Std.ExtTreeMap.getElem?_empty]
    rfl
  · have pending : id ∈ (c₀.store.sets slice).scheduled := scheduled
    have none : (c₀.store.sets slice) = .none := by
      rw [empty, MemoryStore.sets, MemoryStore.empty]
      exact Std.ExtTreeMap.getD_empty
    rw [none] at pending
    exact Std.ExtTreeSet.not_mem_empty pending
  · rintro slice ⟨i, started⟩
    exact started rfl

/-- Everything stays orderly. -/
theorem Orderly.step (orderly : f.Orderly w past) (shows : c.Shows f)
    (allowed : a.IsOrderly w past c) (step : f.Step a f') : f'.Orderly w (a :: past) := by
  obtain ⟨first, due⟩ := orderly.due
  have keeps : a.KeepsTime f.now := shows.now ▸ allowed.keeps
  obtain ⟨first', -, due'⟩ := due.step orderly.uniform (step.forward keeps) step
  obtain ⟨pointer, visits⟩ := orderly.visits
  refine ⟨orderly.uniform.step allowed.width step, orderly.guarded.step step, ⟨first', due'⟩,
    visits.step orderly.tidy.posts step,
    orderly.tidy.step (fun i p => visits.distinct) (shows.isNew allowed.name) step,
    orderly.runs.step orderly.tidy.posts allowed.calm.keepsRunning step,
    orderly.staffed.step orderly.guarded orderly.uniform due step, fun id => ?_⟩
  have sound := orderly.lives id
  exact sound.step (step.life orderly.guarded orderly.uniform orderly.tidy orderly.runs orderly.staffed
    sound allowed.calm allowed.id)

end Fleet

namespace SingleStartLemmas

variable {w : Duration} {c₀ c : Cluster} {past : List Action}

theorem orderly_run (run : c₀.Run (Action.IsOrderly w) past c) (alone : c₀.nodes = [])
    (empty : c₀.store = .empty) : ∃ f, c.Shows f ∧ f.Orderly w past := by
  refine run.invariant alone (.bare empty) ?_
  intro past c f a f' _ shows orderly allowed step
  exact orderly.step shows allowed step

/-- A list of numbers of which at most one is not zero, and none is greater than one. -/
theorem sum_le_one {l : List Nat} (single : ∀ (i j m n : Nat), l[i]? = some m → l[j]? = some n →
    m ≠ 0 → n ≠ 0 → i = j ∧ m = 1) : l.sum ≤ 1 := by
  induction l with
  | nil => exact Nat.zero_le 1
  | cons m rest ih =>
    rw [List.sum_cons]
    by_cases zero : m = 0
    · rw [zero, Nat.zero_add]
      refine ih fun i j a b first second some some' => ?_
      obtain ⟨same, one⟩ := single (i + 1) (j + 1) a b first second some some'
      exact ⟨Nat.succ.inj same, one⟩
    · have idle : rest.sum = 0 := by
        refine List.sum_eq_zero_iff_forall_eq_nat.mpr fun n mem => ?_
        obtain ⟨j, at_⟩ := List.mem_iff_getElem?.mp mem
        by_contra some
        obtain ⟨same, -⟩ := single 0 (j + 1) m n rfl at_ zero some
        cases same
      rw [idle, (single 0 0 m m rfl rfl zero zero).2]

end SingleStartLemmas

open SingleStartLemmas

/-- Counted over all nodes, a job is started at most once for each slice. -/
theorem Cluster.Run.starts_le_one {w : Duration} {c₀ c : Cluster} {past : List Action}
    (run : c₀.Run (Action.IsOrderly w) past c) (alone : c₀.nodes = [])
    (empty : c₀.store = .empty) (id : JobId) (slice : Slice) :
    (c.nodes.map fun n => n.desk.starts id slice).sum ≤ 1 := by
  obtain ⟨f, shows, orderly⟩ := orderly_run run alone empty
  -- the starts on a node are those of the post of its place
  have counted {i m : Nat} (here : (c.nodes.map fun n => n.desk.starts id slice)[i]? = some m) :
      (f.life w id past).starts i slice = m := by
    rw [List.getElem?_map] at here
    obtain ⟨n, node, rfl⟩ := Option.map_eq_some_iff.mp here
    obtain ⟨p, post, shown⟩ := shows.post node
    simp only [Fleet.life, post, Option.elim_some, shown.desk]
  refine sum_le_one fun i j m n first second some some' => ?_
  have once := (orderly.lives id).once i j slice
  rw [counted first, counted second] at once
  exact once some some'

/-! ## Two nodes that drain one slice -/

/-- The executor of a type of job that is retried at once. -/
def Registry.insistent : Registry :=
  Std.ExtTreeMap.empty.insert "WORK" ⟨0, fun _ => .ok (), .fixed (.ofMillis 0)⟩

/-- The slice that begins a tenth of a second into the year 2017. -/
def Slice.firstTenth : Slice := ⟨Instant.newYear.later (.ofMillis 100)⟩

/-- A job that is due a tenth of a second into the year 2017. -/
def Job.tenth : Job := { Job.errand with trigger := .single Slice.firstTenth.start }

/-- Two nodes go for a slice in the leap second. The job there fails on the first node, which puts it
on a retry and moves the pointer. It starts the job again in the next slice, a tenth of a second
later. The second node still is to take the slice that the job was in first. -/
def Action.overrun : List Action :=
  Action.rivals (.tenths "a") (.tenths "b") .insistent .tenth ++
    [.finish 0 4 (.failure (.other "no answer")), .answer 0 4 none, .answer 0 4 none,
      .answer 0 4 none, .answer 0 4 none, .proceed 0 3, .proceed 0 3, .answer 0 3 none,
      .answer 0 3 none, .answer 0 3 none, .answer 0 3 none, .answer 0 3 none, .proceed 0 3,
      .answer 0 3 none, .proceed 0 3,
      .pass (.leapTenths ⟨2, by decide⟩), .send 0 3 .tick, .receive 0, .proceed 0 5, .answer 0 5 none,
      .proceed 0 5, .answer 0 5 none, .answer 0 5 none, .answer 0 6 none, .proceed 0 6,
      .answer 0 7 none, .answer 0 7 none]

/-- The second node takes the slice after the first one has moved the job on, and finds nothing
there. -/
theorem Cluster.Run.starts_le_one_rivals : ∃ past c,
    (Cluster.start (.leapTenths 1)).Run (Action.IsOrderly (.ofMillis 100)) past c ∧
      (Cluster.start (.leapTenths 1)).nodes = [] ∧
      (Cluster.start (.leapTenths 1)).store = .empty ∧
      (c.nodes.map fun n => (n.name, n.desk.starts Job.tenth.id .firstTenth,
        n.desk.progressOf .firstTenth)) = [("a", 1, none), ("b", 0, some .draining)] ∧
      (c.nodes.map fun n => n.desk.starts Job.tenth.id .firstTenth).sum = 1 ∧
      (c.nodes.map fun n => n.desk.starts Job.tenth.id .firstTenth).sum ≤ 1 := by
  have played : ((Cluster.start (.leapTenths 1)).play? (Action.IsOrderly (.ofMillis 100)) []
      (Action.overrun ++ [.answer 1 1 none, .answer 1 2 none])).map (fun r =>
        (r.2.nodes.map (fun n => (n.name, n.desk.starts Job.tenth.id .firstTenth,
          n.desk.progressOf .firstTenth)),
          (r.2.nodes.map fun n => n.desk.starts Job.tenth.id .firstTenth).sum)) =
      some ([("a", 1, none), ("b", 0, some .draining)], 1) := by decide +kernel
  obtain ⟨⟨past, c⟩, ends, facts⟩ := Option.map_eq_some_iff.mp played
  obtain ⟨nodes, one⟩ := Prod.mk.inj facts
  have run := Cluster.Run.of_play _ .nil ends
  exact ⟨past, c, run, rfl, rfl, nodes, one, run.starts_le_one rfl rfl _ _⟩

/-- When the leap second is over, the clock goes back in milliseconds, although it never went back.
The retry of the second start comes to the slice that the job was in first, and the second node
starts the job there once more. -/
theorem Cluster.Run.starts_twice_after_leap_second : ∃ past c,
    (Cluster.start (.leapTenths 1)).Run (fun past c a => a.HasWidth (.ofMillis 100) ∧
        a.KeepsOrder c.now ∧ a.IsCalm ∧ a.HasName c ∧ a.HasId past) past c ∧
      (Cluster.start (.leapTenths 1)).nodes = [] ∧
      (Cluster.start (.leapTenths 1)).store = .empty ∧
      (c.nodes.map fun n => (n.name, n.desk.starts Job.tenth.id .firstTenth)) =
        [("a", 1), ("b", 1)] ∧
      ¬(c.nodes.map fun n => n.desk.starts Job.tenth.id .firstTenth).sum ≤ 1 := by
  have played : ((Cluster.start (.leapTenths 1)).play? (fun past c a =>
      a.HasWidth (.ofMillis 100) ∧ a.KeepsOrder c.now ∧ a.IsCalm ∧ a.HasName c ∧ a.HasId past) []
      (Action.overrun ++ [.pass .newYear, .finish 0 7 (.failure (.other "no answer")),
        .answer 0 7 none, .answer 0 7 none, .answer 0 7 none, .answer 0 7 none,
        .answer 1 1 none, .answer 1 2 none, .proceed 1 2, .answer 1 3 none, .answer 1 3 none])).map
      (fun r => (r.2.nodes.map (fun n => (n.name, n.desk.starts Job.tenth.id .firstTenth)),
        (r.2.nodes.map fun n => n.desk.starts Job.tenth.id .firstTenth).sum)) =
      some ([("a", 1), ("b", 1)], 2) := by decide +kernel
  obtain ⟨⟨past, c⟩, ends, facts⟩ := Option.map_eq_some_iff.mp played
  obtain ⟨nodes, two⟩ := Prod.mk.inj facts
  refine ⟨past, c, Cluster.Run.of_play _ .nil ends, rfl, rfl, nodes, ?_⟩
  rw [two]
  decide

end SliceScheduler
