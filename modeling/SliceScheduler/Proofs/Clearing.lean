import SliceScheduler.Proofs.Exclusion
/-!
# Slices that a tick gives back

A tick that has read the pointer gives back the drained slices before it, one after the other, while
the other tasks of its node go on.

1. `Post.Clears` follows such a slice, and `Fleet.Clears.step` says that no step brings it back to
   work: nobody on the node walks from before the pointer that the tick has read;
2. `Node.walkCall?` is the call that a tick waits for after its turns, and `Cluster.Reads` says that
   a tick reads the pointer;
3. `ClearingLemmas.clears_reads` says that the drained slices before the pointer are given back then.
-/
namespace SliceScheduler

/-- The slice is not at work, or the task of a number is a tick that has still to give it back. No
tick of the node walks from before the pointer that the task has read. -/
structure Post.Clears (k : Nat) (pointer x : Slice) (p : Post) : Prop where
  left : p.desk.progressOf x = none ∨ ∃ ticket dispatch announced y others,
    p.stages k = some (.walk ticket dispatch announced (.release pointer y others)) ∧
      x ∈ y :: others
  walks : ∀ j s q, p.stages j = some s → s.walks? = some q → pointer ≤ q

/-- A tick of the node gives back the slice, which is before the pointer, or has given it back. -/
structure Fleet.Clears (i k : Nat) (pointer x : Slice) (f : Fleet) : Prop where
  before : x < pointer
  ahead : ∃ q, f.store.pointer = some q ∧ pointer ≤ q
  post : ∃ p, f.posts i = some p ∧ p.Clears k pointer x

namespace ClearingLemmas

open Post TidyLemmas ClosingLemmas ExclusionLemmas

variable {p q : Post} {e : Effect} {j k : Nat} {s : TaskStage} {now : Instant}
  {store store' : MemoryStore} {prompt : Prompt} {pointer x : Slice}

/-- The pointer does not go back. -/
theorem ahead_work (works : p.Works now store k s prompt e store')
    (ahead : ∃ q, store.pointer = some q ∧ pointer ≤ q) :
    ∃ q, store'.pointer = some q ∧ pointer ≤ q := by
  obtain ⟨q, there, le⟩ := ahead
  rcases works.pointer with (same | none) | ⟨mover, announced, y, -, here, moved⟩
  · exact ⟨q, same ▸ there, le⟩
  · cases none.symm.trans there
  · obtain rfl := Option.some.inj (there.symm.trans here)
    exact ⟨_, moved, le_trans le Slice.le_next⟩

/-- A slice before the pointers that the ticks of a node walk from does not come to work again. -/
theorem stays_away (clears : p.Clears k pointer x) (tidy : p.Tidy store.pointer)
    (before : x < pointer) (stage : p.stages j = some s)
    (works : p.Works now store j s prompt e store') (away : p.desk.progressOf x = none) :
    e.desk.progressOf x = none := by
  by_contra at_work
  have fits := tidy.fits j s stage
  rcases at_work_cases fits (works.shift fits).change at_work with there | ⟨takes, -⟩
  · exact there away
  · cases s with
    | walk ticket dispatch announced t =>
      cases t with
      | take q current limit y visited =>
        obtain rfl := Option.some.inj takes
        exact lt_irrefl _ (lt_of_lt_of_le before
          (le_trans (clears.walks j _ q stage rfl) fits.1.1))
      | _ => cases takes
    | _ => cases takes

/-- The tick that gives back slices goes on with those that are left. -/
theorem release_work {ticket : Option Nat} {dispatch : Bool} {announced others : List Slice}
    {y : Slice} (works : p.Works now store k
      (.walk ticket dispatch announced (.release pointer y others)) prompt e store')
    (mem : x ∈ y :: others) :
    e.desk.progressOf x = none ∨ ∃ y' others',
      e.next = some (.walk ticket dispatch announced (.release pointer y' others')) ∧
        x ∈ y' :: others' := by
  rcases List.mem_cons.mp mem with rfl | mem
  · exact .inl (forgets works rfl)
  · cases works with
    | walk made =>
      rw [next_afterWalk]
      cases others with
      | nil => cases mem
      | cons y' others' => exact .inr ⟨y', others', rfl, mem⟩

theorem clears_apply (clears : p.Clears k pointer x) (tidy : p.Tidy store.pointer)
    (before : x < pointer) (ahead : ∃ q, store.pointer = some q ∧ pointer ≤ q)
    (stage : p.stages j = some s) (works : p.Works now store j s prompt e store') :
    (p.apply j e).Clears k pointer x := by
  have shift := works.shift (tidy.fits j s stage)
  refine ⟨?_, fun j' t q stage' walks => ?_⟩
  · rcases clears.left with away | ⟨ticket, dispatch, announced, y, others, there, mem⟩
    · exact .inl (stays_away clears tidy before stage works away)
    · by_cases mine : k = j
      · subst mine
        obtain rfl := Option.some.inj (stage.symm.trans there)
        rcases release_work works mem with away | ⟨y', others', next, mem'⟩
        · exact .inl away
        · exact .inr ⟨ticket, dispatch, announced, y', others',
            (Function.update_self ..).trans next, mem'⟩
      · exact .inr ⟨ticket, dispatch, announced, y, others,
          tidy.guarded.fresh.stages_apply there mine e, mem⟩
  · rcases stages_apply stage' with ⟨-, next⟩ | ⟨-, -, spawned⟩ | ⟨-, old⟩
    · rcases shift.walks q (by rw [next]; exact walks) with same | there
      · exact clears.walks j s q stage same
      · obtain ⟨r, here, le⟩ := ahead_work works ahead
        rwa [Option.some.inj (there.symm.trans here)]
    · have plain := shift.spawned
      rw [spawned] at plain
      cases walks.symm.trans plain.2.2.1
    · exact clears.walks j' t q old walks

theorem clears_begins {a : Action} (clears : p.Clears k pointer x) (fresh : p.Fresh)
    (begins : p.Begins a q) : q.Clears k pointer x := by
  refine ⟨?_, fun j t r stage walks => ?_⟩
  · rw [progressOf_of_same begins.progress]
    refine clears.left.imp_right ?_
    rintro ⟨ticket, dispatch, announced, y, others, there, mem⟩
    exact ⟨ticket, dispatch, announced, y, others, begins.kept k _ (fresh k _ there) there, mem⟩
  · rcases begins.stages j t stage with old | ⟨-, -, opens⟩
    · exact clears.walks j t r old walks
    · cases walks.symm.trans (@opens_facts none a t opens).2.2.2

end ClearingLemmas

open ClearingLemmas

namespace Fleet

variable {f f' : Fleet} {i k : Nat} {pointer x : Slice}

/-- A slice that is given back, or has been, does not come to work on the node again. -/
theorem Clears.step {a : Action} (clears : f.Clears i k pointer x) (tidy : f.Tidy)
    (step : f.Step a f') : f'.Clears i k pointer x := by
  obtain ⟨before, ahead, p, post, here⟩ := clears
  have other {g : Fleet} {j : Nat} {q : Post} (posts : g.posts = f.posts) (differs : j ≠ i) :
      ∃ p, (g.put j q).posts i = some p ∧ p.Clears k pointer x :=
    ⟨p, (Function.update_of_ne differs.symm ..).trans (posts ▸ post), here⟩
  rcases step.kinds with ⟨now, -, rfl⟩ | ⟨j, settings, registry, ticket, -, free, rfl⟩ |
    ⟨j, r, q, post', begins, rfl⟩ | ⟨j, r, l, s, prompt, e, store, post', stage, works, -, rfl⟩
  · exact ⟨before, ahead, p, post, here⟩
  · refine ⟨before, ahead, other rfl ?_⟩
    rintro rfl
    cases free.symm.trans post
  · refine ⟨before, ahead, ?_⟩
    by_cases mine : j = i
    · subst mine
      obtain rfl := Option.some.inj (post.symm.trans post')
      exact ⟨q, Function.update_self ..,
        clears_begins here (tidy.posts j p post).guarded.fresh begins⟩
    · exact other rfl mine
  · refine ⟨before, ahead_work works ahead, ?_⟩
    by_cases mine : j = i
    · subst mine
      obtain rfl := Option.some.inj (post.symm.trans post')
      exact ⟨_, Function.update_self ..,
        clears_apply here (tidy.posts j p post) before ahead stage works⟩
    · exact other (g := { f with store }) rfl mine

end Fleet

/-! ## What a tick waits for -/

/-- The call that a tick waits for after its turns of moving the pointer. -/
def Task.walkCall? : Task → Option Operation
  | ⟨_, .command _ .tick, .run (.ask (.call op) _)⟩ => some op
  | _ => none

/-- The call that the tick of a number waits for after its turns of moving the pointer. -/
def Node.walkCall? (n : Node) (k : Nat) : Option Operation := (n.task? k).bind Task.walkCall?

namespace Operation

/-- The call reads the pointer or sets it. -/
def isSeek : Operation → Bool
  | getPointer | initPointer _ => true
  | _ => false

/-- The call gives back a lock. -/
def isReturn : Operation → Bool
  | unlockExclusive .. => true
  | _ => false

end Operation

/-- A tick reads the pointer by the answer to its call, and goes on to give back stale slices. -/
structure Cluster.Reads (c c' : Cluster) (i k : Nat) (pointer : Slice) : Prop where
  acted : c.act? (.answer i k none) = some c'
  seeks : ∃ n op, c.nodes[i]? = some n ∧ n.walkCall? k = some op ∧ op.isSeek = true
  sought : ∀ n op, c'.nodes[i]? = some n → n.walkCall? k = some op → op.isSeek = false
  pointer : c'.store.pointer = some pointer

/-- The call of the stage that a tick is at after its turns. -/
def TaskStage.walkOp? (set : NodeSettings) : TaskStage → Option Operation
  | walk _ _ _ t => some (t.op set)
  | _ => none

namespace ClearingLemmas

open Post TidyLemmas

variable {p : Post} {e : Effect} {k : Nat} {s : TaskStage} {now : Instant}
  {store store' : MemoryStore} {prompt : Prompt} {pointer x : Slice}

theorem walkCall_task (set : NodeSettings) (k : Nat) (s : TaskStage) :
    (s.task set k).walkCall? = s.walkOp? set := by
  cases s with
  | walk ticket dispatch announced t =>
    obtain ⟨next, shape, -⟩ := t.calls set default k dispatch announced
    simp only [TaskStage.task, TaskStage.code, TaskStage.role, shape, Program.andThen,
      Task.walkCall?, TaskStage.walkOp?]
  | guard mover | turn mover | turned mover => cases mover <;> rfl
  | _ => rfl

theorem walkCall_shows {n : Node} (shows : n.Shows p) (k : Nat) :
    n.walkCall? k = (p.stages k).bind (·.walkOp? p.desk.settings) := by
  unfold Node.walkCall?
  cases found : n.task? k with
  | none =>
    cases there : p.stages k with
    | none => rfl
    | some s =>
      have mem := (shows.tasks (s.task p.desk.settings k)).mpr ⟨s, there, rfl⟩
      have absent := List.find?_eq_none.mp found _ mem
      exact absurd (beq_self_eq_true k) absent
  | some t =>
    obtain ⟨s, there, rfl⟩ := Cluster.Shows.stage shows found
    rw [there]
    exact walkCall_task ..

/-- The pointer that a calm search for it ends with is that of the store. -/
theorem seek_found {w : Duration} {t : SeekStage} {answer : t.op.Result} {found : Option Slice}
    (made : store.attempt now none t.op = (answer, store'))
    (ends : t.react now w answer = .inr found) : found = store'.pointer := by
  cases t with
  | read =>
    obtain ⟨rfl, rfl⟩ := Prod.mk.inj made
    cases there : store.pointer with
    | none =>
      simp only [SeekStage.react, there] at ends
      cases ends
    | some pointer =>
      simp only [SeekStage.react, there] at ends
      exact (Sum.inr.inj ends).symm
  | init current =>
    rcases answer with error | _ | _
    · simp only [SeekStage.op, MemoryStore.attempt, MemoryStore.perform] at made
      split at made <;> cases congrArg Prod.fst made
    · cases ends
    · rcases MemoryStore.initPointer_attempt made with ⟨-, set⟩ | ⟨other, -⟩
      · exact (Sum.inr.inj ends).symm.trans set.symm
      · exact absurd rfl other
  | reread =>
    obtain ⟨rfl, rfl⟩ := Prod.mk.inj made
    exact (Sum.inr.inj ends).symm

/-- A tick that has read the pointer goes on from it, with its desk as it was. -/
theorem reads_work {ticket : Option Nat} {dispatch : Bool} {announced : List Slice} {t : WalkStage}
    (works : p.Works now store k (.walk ticket dispatch announced t) (.answer none) e store')
    (seeks : (t.op p.desk.settings).isSeek = true) (there : store'.pointer = some pointer)
    (sought : ∀ s op, e.next = some s → s.walkOp? p.desk.settings = some op → op.isSeek = false) :
    e.desk.progressOf = p.desk.progressOf ∧ e.next = walkPlace ticket dispatch announced
      (WalkStage.fromPointer now dispatch p.desk announced (.ok pointer)) := by
  cases works with
  | @walk _ _ _ _ _ answer _ made =>
    rw [next_afterWalk] at sought
    rw [desk_afterWalk, next_afterWalk]
    cases t with
    | read =>
      obtain ⟨rfl, rfl⟩ := Prod.mk.inj made
      rw [there]
      exact ⟨rfl, rfl⟩
    | ensure t =>
      simp only [WalkStage.react] at sought ⊢
      cases goes : t.react now p.desk.width answer with
      | inl t' =>
        rw [goes] at sought
        have seeks' := sought _ _ rfl rfl
        cases t' <;> cases seeks'
      | inr found =>
        obtain rfl := (seek_found made goes).trans there
        exact ⟨rfl, rfl⟩
    | release | take => cases seeks

theorem mem_staleSlices {d : Desk} (before : x < pointer)
    (drained : d.progressOf x = some .drained) : x ∈ d.staleSlices pointer := by
  refine List.mem_filterMap.mpr ⟨(x, .drained), ?_, if_pos ⟨before, rfl⟩⟩
  exact Std.ExtTreeMap.mem_toList_iff_getElem?_eq_some.mpr drained

/-- A tick that has read the pointer gives back the drained slices before it. -/
theorem clears_reads {ticket : Option Nat} {dispatch : Bool} {announced : List Slice}
    {t : WalkStage} (tidy : p.Tidy store.pointer)
    (stage : p.stages k = some (.walk ticket dispatch announced t))
    (works : p.Works now store k (.walk ticket dispatch announced t) (.answer none) e store')
    (seeks : (t.op p.desk.settings).isSeek = true) (there : store'.pointer = some pointer)
    (sought : ∀ s op, e.next = some s → s.walkOp? p.desk.settings = some op → op.isSeek = false)
    (before : x < pointer) (drained : e.desk.progressOf x = some .drained) :
    (p.apply k e).Clears k pointer x := by
  obtain ⟨same, next⟩ := reads_work works seeks there sought
  rw [same] at drained
  obtain ⟨y, others, stale⟩ := List.exists_cons_of_ne_nil
    (List.ne_nil_of_mem (mem_staleSlices before drained))
  have next : e.next = some (.walk ticket dispatch announced (.release pointer y others)) := by
    rw [next]
    simp only [WalkStage.fromPointer, stale]
    rfl
  refine ⟨.inr ⟨ticket, dispatch, announced, y, others, (Function.update_self ..).trans next,
    stale ▸ mem_staleSlices before drained⟩, fun j s q stage' walks => ?_⟩
  -- no other task of the node walks, as this one is a command
  rcases stages_apply stage' with ⟨-, goes⟩ | ⟨-, -, spawned⟩ | ⟨other, old⟩
  · obtain rfl := Option.some.inj (next.symm.trans goes)
    exact le_of_eq (Option.some.inj walks)
  · have plain := (works.shift (tidy.fits k _ stage)).spawned
    rw [spawned] at plain
    cases walks.symm.trans plain.2.2.1
  · exact absurd (tidy.oneCommand j k s _ old (isCommand_of_walks walks) stage rfl) other

end ClearingLemmas

end SliceScheduler
