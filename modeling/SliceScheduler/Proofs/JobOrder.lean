import SliceScheduler.Proofs.Course
import SliceScheduler.Proofs.Fencing
import SliceScheduler.Proofs.Shows
/-!
# The order of the jobs of a slice

A node drains a slice over a store with any contents. No call fails, the clock stands still, and
what executors make of a job depends on the job alone. The jobs of the slice are set off one by one
and make their calls in any order.

1. `Action.IsOfDraining` is what happens meanwhile, and `Cluster.HasDrained` says that all jobs have
   come to an end;
2. `Post.Draining` and `StoreFollows` say that every job that was set off has come as far on its
   course as its task and its entry in the store show, and that nothing else has happened;
3. `Fleet.Drains.step` says that every step takes one job further on its own course;
4. `Cluster.Run.drain_unique` is the result: whatever the order, the store is the same in the end.
-/
namespace SliceScheduler

/-- The task waits for a permit to set off a job. -/
def Task.takesPermit : Task → Bool
  | ⟨_, _, .run (.ask .takePermit _)⟩ => true
  | _ => false

/-- The execution that the task waits for. -/
def Task.executes? (t : Task) : Option (Registration × Job) :=
  t.code.execution?.map fun (registration, job, _) => (registration, job)

/-- The task of a number on the node of a place. -/
def Cluster.task? (c : Cluster) (i k : Nat) : Option Task := c.nodes[i]?.bind (·.task? k)

/-- What happens while a slice is drained: calls are answered, jobs are set off, and executors come
to the end that `make` says. -/
def Action.IsOfDraining (make : Registration → Job → Outcome) (c : Cluster) : Action → Prop
  | answer _ _ fault => fault = none
  | proceed i k => (c.task? i k).any Task.takesPermit = true
  | finish i k outcome =>
    ((c.task? i k).bind Task.executes?).all fun (r, job) => outcome = make r job
  | _ => False

instance (make : Registration → Job → Outcome) (c : Cluster) :
    (a : Action) → Decidable (a.IsOfDraining make c)
  | .answer _ _ fault => inferInstanceAs (Decidable (fault = none))
  | .proceed _ _ => inferInstanceAs (Decidable (_ = true))
  | .finish _ _ _ => inferInstanceAs (Decidable (_ = true))
  | .pass _ | .join _ _ _ | .register _ _ | .submit _ _ _ | .send _ _ _ | .leave _ | .receive _
  | .tickItself _ | .wake _ _ => isFalse id

/-- The jobs of a slice have been set off and have come to an end, and nothing else is at work. -/
def Cluster.HasDrained (slice : Slice) (c : Cluster) : Prop :=
  ∃ n number, c.nodes = [n] ∧
    n.tasks = [⟨number, .drain slice, .run (Program.awaitDrain slice)⟩]

/-- The stores have the same rows, indexes, pointer and locks. -/
structure MemoryStore.Alike (s s' : MemoryStore) : Prop where
  jobs : s.jobs = s'.jobs
  sets : ∀ slice, s.sets slice = s'.sets slice
  pointer : s.pointer = s'.pointer
  locks : s.locks = s'.locks

/-- Stores that have the same of every job are alike. -/
theorem MemoryStore.alike_of_entry {s s' : MemoryStore} (entry : ∀ id, s.entry id = s'.entry id)
    (pointer : s.pointer = s'.pointer) (locks : s.locks = s'.locks) : s.Alike s' := by
  refine ⟨Std.ExtTreeMap.ext_getElem? fun {id} => congrArg JobEntry.row (entry id), fun slice => ?_,
    pointer, locks⟩
  have scheduled : (s.sets slice).scheduled = (s'.sets slice).scheduled :=
    Std.ExtTreeSet.ext_mem fun {id} =>
      iff_of_eq (congrFun (congrArg JobEntry.scheduled (entry id)) slice)
  have active : (s.sets slice).active = (s'.sets slice).active :=
    Std.ExtTreeSet.ext_mem fun {id} =>
      iff_of_eq (congrFun (congrArg JobEntry.active (entry id)) slice)
  have finished : (s.sets slice).finished = (s'.sets slice).finished :=
    Std.ExtTreeSet.ext_mem fun {id} =>
      iff_of_eq (congrFun (congrArg JobEntry.finished (entry id)) slice)
  cases h : s.sets slice
  cases h' : s'.sets slice
  simp_all

/-! ## Jobs at work -/

section Draining

variable (make : Registration → Job → Outcome) (desk : Desk) (store₀ : MemoryStore) (now : Instant)
  (slice : Slice) (d : Nat)

/-- The course of a job whose executor ends without the clock going on. -/
abbrev Course.further (id : JobId) : Course → Course :=
  Course.advance (fun r job => (make r job, now)) desk slice id

/-- The draining of a number has set off some of the jobs of its slice, which are as far as their
courses say, and others wait. -/
structure Post.Draining (out waiting : List JobId) (course : JobId → Course) (p : Post) : Prop where
  settings : p.desk.settings = desk.settings
  registry : p.desk.registry = desk.registry
  pending : out ++ waiting = (store₀.sets slice).pending
  next : p.nextNumber = d + 1 + out.length
  drain : p.stages d = some (permits slice waiting)
  placed : ∀ i id, out[i]? = some id →
    p.stages (d + 1 + i) = jobPlace d slice id (course id).next
  only : ∀ k s, p.stages k = some s → k = d ∨ ∃ i < out.length, k = d + 1 + i

/-- Every job that was set off has come some way on its course, and the store has nothing else that
is new. -/
structure StoreFollows (out : List JobId) (course : JobId → Course) (store : MemoryStore) :
    Prop where
  entry : ∀ id, store.entry id = (course id).entry
  reached : ∀ id, ∃ n,
    course id = (Course.further make desk now slice id)^[n] (.start (store₀.entry id))
  waiting : ∀ id, id ∉ out → course id = .start (store₀.entry id)
  pointer : store.pointer = store₀.pointer
  locks : store.locks = store₀.locks

/-- A fleet of one post. -/
def Fleet.single (store : MemoryStore) (now : Instant) (p : Post) : Fleet :=
  ⟨store, now, Function.update (fun _ => none) 0 (some p)⟩

/-- The slice is being drained: its jobs are about to be looked up, or some of them have been set
off. -/
inductive Fleet.Drains : Fleet → Prop
  | looking {p : Post} : p.desk = desk → p.nextNumber = d + 1 →
    p.stages = Function.update (fun _ => none) d (some (.sets slice)) →
    Drains (.single store₀ now p)
  | working {p : Post} {store : MemoryStore} {out waiting : List JobId} {course : JobId → Course} :
    p.Draining desk store₀ slice d out waiting course →
    StoreFollows make desk store₀ now slice out course store → Drains (.single store now p)

end Draining

section Lemmas

open Post

variable {make : Registration → Job → Outcome} {desk : Desk} {store₀ store store' : MemoryStore}
  {now : Instant} {slice : Slice} {d k : Nat} {out waiting : List JobId} {course : JobId → Course}
  {p : Post} {e : Effect} {s : TaskStage} {id : JobId}

/-! ## The tasks of a node at their stages -/

theorem Cluster.Shows.task? {c : Cluster} {f : Fleet} {i : Nat} (shows : c.Shows f)
    (post : f.posts i = some p) (stage : p.stages k = some s) :
    c.task? i k = some (s.task p.desk.settings k) := by
  obtain ⟨n, node, shown⟩ := shows.node post
  rw [Cluster.task?, node, Option.bind_some]
  cases found : n.task? k with
  | none =>
    have mem := (shown.tasks (s.task p.desk.settings k)).mpr ⟨s, stage, rfl⟩
    exact absurd (beq_self_eq_true k) (List.find?_eq_none.mp found _ mem)
  | some t =>
    obtain ⟨s', stage', rfl⟩ := Cluster.Shows.stage shown found
    rw [Option.some.inj (stage.symm.trans stage')]

theorem Fleet.single_put (q : Post) :
    ({ Fleet.single store now p with store := store' }).put 0 q = .single store' now q := by
  simp only [Fleet.put, Fleet.single, Function.update_idem]

theorem Fleet.post_single {i : Nat} {q : Post}
    (post : (Fleet.single store now p).posts i = some q) : i = 0 ∧ q = p := by
  simp only [Fleet.single] at post
  by_cases first : i = 0
  · subst first
    rw [Function.update_self] at post
    exact ⟨rfl, (Option.some.inj post).symm⟩
  · rw [Function.update_of_ne first] at post
    cases post

/-! ## Stores and courses -/

theorem StoreFollows.isOf
    (follows : StoreFollows make desk store₀ now slice out course store) (keyed : store₀.Keyed)
    (id : JobId) : (course id).IsOf id := by
  obtain ⟨n, reached⟩ := follows.reached id
  rw [reached]
  exact (Course.isOf_start fun job row => keyed id job row).iterate n

/-- The store before any job was set off. -/
theorem StoreFollows.start : StoreFollows make desk store₀ now slice []
    (fun id => .start (store₀.entry id)) store₀ :=
  ⟨fun _ => rfl, fun _ => ⟨0, rfl⟩, fun _ _ => rfl, rfl, rfl⟩

/-- A job that is set off is at the beginning of its course. -/
theorem StoreFollows.setOff (follows : StoreFollows make desk store₀ now slice out course store)
    (id : JobId) : StoreFollows make desk store₀ now slice (out ++ [id]) course store :=
  { follows with
    waiting := fun other absent =>
      follows.waiting other fun mem => absent (List.mem_append_left _ mem) }

/-- A job that was set off goes further on its course, and the others stay where they are. -/
theorem StoreFollows.further (follows : StoreFollows make desk store₀ now slice out course store)
    (mem : id ∈ out) (spares : store.Spares id store')
    (own : store'.entry id = ((course id).further make desk now slice id).entry) :
    StoreFollows make desk store₀ now slice out
      (Function.update course id ((course id).further make desk now slice id)) store' where
  entry other := by
    by_cases same : other = id
    · subst same
      rw [Function.update_self, own]
    · rw [Function.update_of_ne same, spares.others other same, follows.entry other]
  reached other := by
    by_cases same : other = id
    · subst same
      obtain ⟨n, reached⟩ := follows.reached other
      refine ⟨n + 1, ?_⟩
      rw [Function.update_self, Function.iterate_succ_apply', ← reached]
    · rw [Function.update_of_ne same]
      exact follows.reached other
  waiting other absent := by
    have ne : other ≠ id := fun same => absent (same ▸ mem)
    rw [Function.update_of_ne ne]
    exact follows.waiting other absent
  pointer := spares.pointer.trans follows.pointer
  locks := spares.locks.trans follows.locks

/-! ## Tasks and courses -/

/-- The stages of a node that drains a slice: that of the draining, and those of the jobs that were
set off. -/
theorem Post.Draining.stage_cases (draining : p.Draining desk store₀ slice d out waiting course)
    (stage : p.stages k = some s) :
    (k = d ∧ s = permits slice waiting) ∨ ∃ i id, k = d + 1 + i ∧ out[i]? = some id ∧
      jobPlace d slice id (course id).next = some s := by
  rcases draining.only k s stage with rfl | ⟨i, inside, rfl⟩
  · exact .inl ⟨rfl, Option.some.inj (stage.symm.trans draining.drain)⟩
  · have found := List.getElem?_eq_getElem inside
    exact .inr ⟨i, out[i], rfl, found, (draining.placed i _ found).symm.trans stage⟩

/-- A task that waits for its job goes where its course goes. -/
theorem Post.Draining.further (draining : p.Draining desk store₀ slice d out waiting course)
    {i : Nat} (found : out[i]? = some id) {c : Course}
    (settings : e.desk.settings = p.desk.settings) (registry : e.desk.registry = p.desk.registry)
    (spawned : e.spawned = none) (next : e.next = jobPlace d slice id c.next) :
    (p.apply (d + 1 + i) e).Draining desk store₀ slice d out waiting
      (Function.update course id c) := by
  have stages : (p.apply (d + 1 + i) e).stages = Function.update p.stages (d + 1 + i) e.next := by
    simp only [apply, spawned]
    rfl
  have distinct : out.Nodup :=
    (List.nodup_append.mp (draining.pending ▸ MemoryStore.nodup_pending (store₀.sets slice))).1
  refine ⟨settings.trans draining.settings, registry.trans draining.registry, draining.pending,
    ?next, ?drain, ?placed, ?only⟩
  case next =>
    rw [← draining.next]
    simp only [apply, spawned]
    rfl
  case drain =>
    rw [stages, Function.update_of_ne (by omega)]
    exact draining.drain
  case placed =>
    intro j other there
    rw [stages]
    by_cases same : j = i
    · subst same
      obtain rfl := Option.some.inj (found.symm.trans there)
      rw [Function.update_self, Function.update_self, next]
    · -- no job is set off twice, so that the task of another place is that of another job
      have ne : other ≠ id := by
        rintro rfl
        exact same ((List.getElem?_inj (List.getElem?_eq_some_iff.mp there).1 distinct).mp
          (there.trans found.symm))
      rw [Function.update_of_ne (by omega), Function.update_of_ne ne]
      exact draining.placed j other there
  case only =>
    intro j s stage
    rw [stages] at stage
    by_cases same : j = d + 1 + i
    · exact .inr ⟨i, (List.getElem?_eq_some_iff.mp found).1, same⟩
    · rw [Function.update_of_ne same] at stage
      exact draining.only j s stage

/-- A job that is set off stands behind the draining, at the beginning of its course. -/
theorem Post.Draining.setOff (draining : p.Draining desk store₀ slice d out (id :: waiting) course)
    (start : (course id).next = .call .load) (settings : e.desk.settings = p.desk.settings)
    (registry : e.desk.registry = p.desk.registry)
    (spawned : e.spawned = some (.job d slice id .load))
    (next : e.next = some (permits slice waiting)) :
    (p.apply d e).Draining desk store₀ slice d (out ++ [id]) waiting course := by
  have stages : (p.apply d e).stages =
      Function.update (Function.update p.stages (d + 1 + out.length) (some (.job d slice id .load)))
        d (some (permits slice waiting)) := by
    simp only [apply, spawned, spawn, next, draining.next]
  refine ⟨settings.trans draining.settings, registry.trans draining.registry, ?pending, ?next,
    ?drain, ?placed, ?only⟩
  case pending =>
    rw [List.append_assoc]
    exact draining.pending
  case next =>
    simp only [apply, spawned, spawn, draining.next, List.length_append, List.length_singleton]
    omega
  case drain => rw [stages, Function.update_self]
  case placed =>
    intro i other there
    rw [stages, Function.update_of_ne (by omega)]
    rcases Nat.lt_trichotomy i out.length with before | rfl | beyond
    · rw [List.getElem?_append_left before] at there
      rw [Function.update_of_ne (by omega)]
      exact draining.placed i other there
    · rw [List.getElem?_concat_length, Option.some.injEq] at there
      subst there
      rw [Function.update_self, start]
      rfl
    · rw [List.getElem?_eq_none (by rw [List.length_append, List.length_singleton]; omega)] at there
      cases there
  case only =>
    intro j s stage
    rw [stages] at stage
    rw [List.length_append, List.length_singleton]
    by_cases first : j = d
    · exact .inl first
    · rw [Function.update_of_ne first] at stage
      by_cases last : j = d + 1 + out.length
      · exact .inr ⟨out.length, Nat.lt_succ_self _, last⟩
      · rw [Function.update_of_ne last] at stage
        rcases draining.only j s stage with same | ⟨i, inside, there⟩
        · exact .inl same
        · exact .inr ⟨i, Nat.lt_succ_of_lt inside, there⟩

/-! ## Steps of a job -/

/-- The answer to a call of a job takes the job further on its course. -/
theorem Course.further_call {c : Course} {desk' : Desk} {stage : JobStage} {w : Duration}
    {answer : (stage.op w slice id).Result} (of : c.IsOf id) (next : c.next = .call stage)
    (entry : store.entry id = c.entry) (settings : desk'.settings = desk.settings)
    (registry : desk'.registry = desk.registry) (width : w = desk.width)
    (made : store.attempt now none (stage.op w slice id) = (answer, store')) :
    store.Spares id store' ∧ store'.entry id = (c.further make desk now slice id).entry ∧
      (stage.react w desk' slice id answer).2 = (c.further make desk now slice id).next := by
  subst width
  obtain ⟨row, _, events, executed⟩ := c
  obtain rfl : _ = JobNext.call stage := next
  have about : (stage.op desk.width slice id).subject? = some id := JobStage.subject_op of.about
  obtain ⟨rfl, rfl⟩ := Prod.mk.inj made
  refine ⟨MemoryStore.spares_perform about, ?_, ?_⟩
  · rw [← show store.entry id = row from entry]
    exact MemoryStore.entry_perform about
  · rw [JobStage.react_congr settings registry]
    show (stage.react desk.width desk slice id (store.perform now _).1).2 = _
    rw [MemoryStore.answer_perform about, entry]
    rfl

/-- The end of an executor takes its job further on its course. -/
theorem Course.further_outcome {c : Course} {desk' : Desk} {job : Job} {registration : Registration}
    (make : Registration → Job → Outcome) (now : Instant) (slice : Slice) (id : JobId)
    (next : c.next = .execute job registration) (settings : desk'.settings = desk.settings) :
    (c.further make desk now slice id).entry = c.entry ∧
      JobNext.call (JobStage.outcome now desk' slice id job registration.policy
        (make registration job)).2 = (c.further make desk now slice id).next := by
  obtain ⟨row, _, events, executed⟩ := c
  obtain rfl : _ = JobNext.execute job registration := next
  refine ⟨rfl, ?_⟩
  rw [JobStage.outcome_congr settings]
  rfl

/-! ## Steps of a draining -/

/-- The jobs of the slice are looked up. -/
theorem Post.Draining.start (desk' : p.desk = desk) (number : p.nextNumber = d + 1)
    (alone : p.stages = Function.update (fun _ => none) d (some (.sets slice))) :
    (p.apply d (p.afterSets slice (.ok (store₀.sets slice)))).Draining desk store₀ slice d []
      (store₀.sets slice).pending fun id => .start (store₀.entry id) where
  settings := congrArg Desk.settings desk'
  registry := congrArg Desk.registry desk'
  pending := rfl
  next := number
  drain := Function.update_self ..
  placed _ _ there := by cases there
  only j s stage := by
    rcases stages_apply stage with ⟨same, -⟩ | ⟨-, -, spawned⟩ | ⟨ne, before⟩
    · exact .inl same
    · cases spawned
    · rw [alone, Function.update_of_ne ne] at before
      cases before

end Lemmas

/-- Whatever happens while a slice is drained sets off one of its jobs or takes one further on its
course. -/
theorem Fleet.Drains.step {make : Registration → Job → Outcome} {desk : Desk}
    {store₀ : MemoryStore} {now : Instant} {slice : Slice} {d : Nat} {c : Cluster} {f f' : Fleet}
    {a : Action} (keyed : store₀.Keyed) (drains : f.Drains make desk store₀ now slice d)
    (shows : c.Shows f) (allowed : a.IsOfDraining make c) (step : f.Step a f') :
    f'.Drains make desk store₀ now slice d := by
  cases step with
  | pass | join | register | submit | send | leave | receive | abandon | tickItself =>
    exact absurd allowed id
  | @work i q k s prompt e store' _ post stage works same =>
    subst same
    cases drains with
    | @looking p atDesk number alone =>
      obtain ⟨rfl, rfl⟩ := Fleet.post_single post
      rw [alone] at stage
      obtain rfl : k = d := by
        by_contra ne
        rw [Function.update_of_ne ne] at stage
        cases stage
      rw [Function.update_self, Option.some.injEq] at stage
      subst stage
      cases works with
      | sets made =>
        obtain rfl : _ = none := allowed
        obtain ⟨rfl, rfl⟩ := Prod.mk.inj made
        rw [Fleet.single_put]
        exact .working (.start atDesk number alone) .start
    | @working p store out waiting course draining follows =>
      obtain ⟨rfl, rfl⟩ := Fleet.post_single post
      have code := shows.task? post stage
      rw [Fleet.single_put]
      rcases draining.stage_cases stage with ⟨rfl, rfl⟩ | ⟨j, id, rfl, there, placed⟩
      · cases waiting with
        | nil =>
          cases works with
          | jobs =>
            simp only [Action.IsOfDraining, code] at allowed
            cases allowed
        | cons id others =>
          cases works with
          | permit =>
            have absent : id ∉ out := by
              have distinct := draining.pending ▸ MemoryStore.nodup_pending (store₀.sets slice)
              exact fun mem => (List.nodup_append.mp distinct).2.2 id mem id List.mem_cons_self rfl
            refine .working (draining.setOff ?_ rfl rfl rfl rfl) (follows.setOff id)
            rw [follows.waiting id absent]
            rfl
      · have mem : id ∈ out := List.mem_of_getElem? there
        have of := follows.isOf keyed id
        cases next : (course id).next with
        | call stage =>
          rw [next] at placed
          obtain rfl := Option.some.inj placed
          cases works with
          | job made =>
            obtain rfl : _ = none := allowed
            obtain ⟨spares, own, goesOn⟩ := Course.further_call of next (follows.entry id)
              draining.settings draining.registry (congrArg NodeSettings.width draining.settings)
              made
            refine .working (draining.further there ?_ ?_ rfl
              (congrArg (Post.jobPlace d slice id) goesOn)) (follows.further mem spares own)
            · exact Desk.settings_announceAll ..
            · exact Desk.registry_announceAll ..
        | execute job registration =>
          rw [next] at placed
          obtain rfl := Option.some.inj placed
          cases works with
          | running =>
            rw [Action.IsOfDraining, code] at allowed
            obtain rfl : _ = make registration job := of_decide_eq_true allowed
            obtain ⟨same, goesOn⟩ :=
              Course.further_outcome make now slice id next draining.settings
            refine .working (draining.further there ?_ ?_ rfl
              (congrArg (Post.jobPlace d slice id) goesOn))
              (follows.further mem (.refl id _) ((follows.entry id).trans same.symm))
            · exact Desk.settings_announceAll ..
            · exact Desk.registry_announceAll ..
        | spent =>
          rw [next] at placed
          cases placed

/-! ## The beginning and the end of a draining -/

/-- The draining begins on a node without tasks. -/
theorem Fleet.Drains.start (make : Registration → Job → Outcome) {n : Node} (idle : n.tasks = [])
    (store : MemoryStore) (now : Instant) (slice : Slice) :
    ∃ f, (⟨store, now, [n.startDrain slice]⟩ : Cluster).Shows f ∧
      f.Drains make n.desk store now slice n.nextNumber := by
  let p : Post := ⟨n.desk, fun _ => none, n.nextNumber, n.advancing, n.loop, n.listening, n.inbox,
    n.outbox⟩
  have shows : n.Shows p :=
    { desk := rfl
      nextNumber := rfl
      advancing := rfl
      loop := rfl
      listening := rfl
      inbox := rfl
      outbox := rfl
      tasks := fun t => by
        rw [idle]
        exact ⟨nofun, fun ⟨_, stage, _⟩ => (Option.some_ne_none _ stage.symm).elim⟩
      fresh := fun _ _ stage => (Option.some_ne_none _ stage.symm).elim }
  refine ⟨.single store now (p.spawn (some (.sets slice))), ⟨rfl, rfl, fun i => ?_⟩,
    .looking rfl rfl rfl⟩
  cases i with
  | zero =>
    simp only [Fleet.single, Function.update_self]
    exact .some (shows.startDrain slice)
  | succ i =>
    simp only [Fleet.single, Function.update_of_ne (Nat.succ_ne_zero i)]
    exact .none

/-- When the jobs of the slice have come to an end, all of them are at the end of their courses. -/
theorem Fleet.Drains.spent {make : Registration → Job → Outcome} {desk : Desk}
    {store₀ : MemoryStore} {now : Instant} {slice : Slice} {d : Nat} {c : Cluster} {f : Fleet}
    (drains : f.Drains make desk store₀ now slice d) (shows : c.Shows f)
    (drained : c.HasDrained slice) :
    ∃ course, StoreFollows make desk store₀ now slice (store₀.sets slice).pending course c.store ∧
      ∀ id ∈ (store₀.sets slice).pending, (course id).next = .spent := by
  obtain ⟨n, number, nodes, tasks⟩ := drained
  obtain ⟨p, post, shown⟩ := shows.post (i := 0) (n := n) (by rw [nodes]; rfl)
  have only {k : Nat} {s : TaskStage} (stage : p.stages k = some s) :
      s.task p.desk.settings k = ⟨number, .drain slice, .run (Program.awaitDrain slice)⟩ := by
    have mem := (shown.tasks (s.task p.desk.settings k)).mpr ⟨s, stage, rfl⟩
    rw [tasks] at mem
    exact List.mem_singleton.mp mem
  cases drains with
  | @looking q atDesk next alone =>
    obtain ⟨-, rfl⟩ := Fleet.post_single post
    have task := only (alone ▸ Function.update_self ..)
    cases congrArg (fun t : Task => t.code.call?.isSome) task
  | @working q store out waiting course draining follows =>
    obtain ⟨-, rfl⟩ := Fleet.post_single post
    have none : waiting = [] := by
      cases waiting with
      | nil => rfl
      | cons id others => cases congrArg Task.takesPermit (only draining.drain)
    have all : out = (store₀.sets slice).pending := by
      rw [← draining.pending, none, List.append_nil]
    rw [← all, shows.store]
    refine ⟨course, follows, fun id mem => ?_⟩
    obtain ⟨i, there⟩ := List.getElem?_of_mem mem
    have placed := draining.placed i id there
    cases next : (course id).next with
    | call s =>
      rw [next] at placed
      cases congrArg Task.role (only placed)
    | execute job registration =>
      rw [next] at placed
      cases congrArg Task.role (only placed)
    | spent => rfl

/-- Stores that follow the courses of the same jobs to their ends are alike. -/
theorem StoreFollows.alike {make : Registration → Job → Outcome} {desk : Desk}
    {store₀ store store' : MemoryStore} {now : Instant} {slice : Slice} {out : List JobId}
    {course course' : JobId → Course}
    (follows : StoreFollows make desk store₀ now slice out course store)
    (follows' : StoreFollows make desk store₀ now slice out course' store')
    (spent : ∀ id ∈ out, (course id).next = .spent)
    (spent' : ∀ id ∈ out, (course' id).next = .spent) : store.Alike store' := by
  refine MemoryStore.alike_of_entry (fun id => ?_) (follows.pointer.trans follows'.pointer.symm)
    (follows.locks.trans follows'.locks.symm)
  have same : course id = course' id := by
    by_cases mem : id ∈ out
    · obtain ⟨m, reached⟩ := follows.reached id
      obtain ⟨n, reached'⟩ := follows'.reached id
      rw [reached, reached']
      exact Course.end_unique (reached ▸ spent id mem) (reached' ▸ spent' id mem)
    · rw [follows.waiting id mem, follows'.waiting id mem]
  rw [follows.entry, follows'.entry, same]

/-- What comes of the draining of a slice does not depend on the order in which its jobs make their
calls and their executors end: rows, indexes, pointer and locks are the same. -/
theorem Cluster.Run.drain_unique {make : Registration → Job → Outcome} {store : MemoryStore}
    {now : Instant} {n : Node} {slice : Slice} {past past' : List Action} {c c' : Cluster}
    (idle : n.tasks = []) (keyed : store.Keyed)
    (run : Run (fun _ c a => a.IsOfDraining make c) ⟨store, now, [n.startDrain slice]⟩ past c)
    (run' : Run (fun _ c a => a.IsOfDraining make c) ⟨store, now, [n.startDrain slice]⟩ past' c')
    (drained : c.HasDrained slice) (drained' : c'.HasDrained slice) :
    c.store.Alike c'.store := by
  -- the order of the jobs is forgotten: all that is kept of a run is how far each job has come
  have comes {past : List Action} {c : Cluster}
      (run : Run (fun _ c a => a.IsOfDraining make c) ⟨store, now, [n.startDrain slice]⟩ past c) :
      ∃ f, c.Shows f ∧ f.Drains make n.desk store now slice n.nextNumber := by
    induction run with
    | nil => exact Fleet.Drains.start make idle store now slice
    | cons a _ allowed acted ih =>
      obtain ⟨f, shows, drains⟩ := ih
      obtain ⟨f', stepped, shows'⟩ := shows.act acted
      exact ⟨f', shows', drains.step keyed shows allowed stepped⟩
  obtain ⟨f, shows, drains⟩ := comes run
  obtain ⟨f', shows', drains'⟩ := comes run'
  obtain ⟨course, follows, spent⟩ := drains.spent shows drained
  obtain ⟨course', follows', spent'⟩ := drains'.spent shows' drained'
  exact follows.alike follows' spent spent'

/-! ## Two errands in two orders -/

/-- Two jobs are stored and scheduled at the first instant of 2024. -/
def MemoryStore.errands : MemoryStore :=
  [.insertJob .errand, .addScheduled ⟨.newYear2024⟩ Job.errand.id,
    .insertJob .other, .addScheduled ⟨.newYear2024⟩ Job.other.id].foldl
      (fun s op => (s.perform .newYear2024 op).2) .empty

/-- A node without tasks that runs two executors at a time. -/
def Node.atRest : Node where
  desk := .ofSettings (.standard "a") .errands
  tasks := []
  nextNumber := 0
  advancing := false
  permits := 2
  drains := ∅
  loop := .idle
  listening := true
  inbox := []
  outbox := []

/-- The slice of two errands is about to be drained. -/
def Cluster.errands : Cluster :=
  ⟨.errands, .newYear2024, [Node.atRest.startDrain ⟨.newYear2024⟩]⟩

/-- One job is run to its end before the other is loaded. -/
def Action.oneByOne : List Action :=
  [.answer 0 0 none, .proceed 0 0, .answer 0 1 none, .answer 0 1 none, .finish 0 1 .success,
    .answer 0 1 none, .answer 0 1 none, .proceed 0 0, .answer 0 2 none, .answer 0 2 none,
    .finish 0 2 .success, .answer 0 2 none, .answer 0 2 none]

/-- The jobs make their calls by turns, the second one first. -/
def Action.byTurns : List Action :=
  [.answer 0 0 none, .proceed 0 0, .proceed 0 0, .answer 0 2 none, .answer 0 1 none,
    .answer 0 2 none, .answer 0 1 none, .finish 0 2 .success, .answer 0 2 none,
    .finish 0 1 .success, .answer 0 1 none, .answer 0 2 none, .answer 0 1 none]

theorem MemoryStore.keyed_errands : MemoryStore.errands.Keyed := by
  refine Keyed.perform (Keyed.perform (Keyed.perform (Keyed.perform ?_)))
  intro id job row
  cases row

/-- Two errands come to the same end whether they are run one by one or by turns. -/
theorem Cluster.Run.drain_unique_errands : ∃ past past' c c',
    Cluster.errands.Run (fun _ c a => a.IsOfDraining (fun _ _ => .success) c) past c ∧
      Cluster.errands.Run (fun _ c a => a.IsOfDraining (fun _ _ => .success) c) past' c' ∧
      c.HasDrained ⟨.newYear2024⟩ ∧ c'.HasDrained ⟨.newYear2024⟩ ∧
      c.store.Alike c'.store := by
  have played : (Cluster.errands.play?
      (fun _ c a => a.IsOfDraining (fun _ _ => .success) c) [] Action.oneByOne).map
        (fun r => r.2.nodes.map Node.tasks) =
      some [[⟨0, .drain ⟨.newYear2024⟩, .run (Program.awaitDrain ⟨.newYear2024⟩)⟩]] := rfl
  have played' : (Cluster.errands.play?
      (fun _ c a => a.IsOfDraining (fun _ _ => .success) c) [] Action.byTurns).map
        (fun r => r.2.nodes.map Node.tasks) =
      some [[⟨0, .drain ⟨.newYear2024⟩, .run (Program.awaitDrain ⟨.newYear2024⟩)⟩]] := rfl
  have drained {c : Cluster} (tasks : c.nodes.map Node.tasks =
      [[⟨0, .drain ⟨.newYear2024⟩, .run (Program.awaitDrain ⟨.newYear2024⟩)⟩]]) :
      c.HasDrained ⟨.newYear2024⟩ := by
    obtain ⟨n, nodes, only⟩ := List.map_eq_singleton_iff.mp tasks
    exact ⟨n, 0, nodes, only⟩
  obtain ⟨⟨past, c⟩, ends, tasks⟩ := Option.map_eq_some_iff.mp played
  obtain ⟨⟨past', c'⟩, ends', tasks'⟩ := Option.map_eq_some_iff.mp played'
  have run := Cluster.Run.of_play _ .nil ends
  have run' := Cluster.Run.of_play _ .nil ends'
  exact ⟨past, past', c, c', run, run', drained tasks, drained tasks',
    Cluster.Run.drain_unique rfl MemoryStore.keyed_errands run run' (drained tasks)
      (drained tasks')⟩

end SliceScheduler
