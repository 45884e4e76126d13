import SliceScheduler.Proofs.Closing
import SliceScheduler.Proofs.Ownership
/-!
# The slices that nodes come to

Nodes come to a slice from the pointer of the store, in steps of one slice of any width. The first
pointer may be an instant between milliseconds, and all slices after it are whole milliseconds. So
slices that nodes come to have locks of their own, whatever the clock shows.

1. `Slice.Follows` says where the slices lie that one comes to from the first pointer;
2. `Fleet.Visits` says that all slices that nodes come to lie there, and `Fleet.Visits.step` that
   every step keeps this up;
3. `Fleet.Visits.distinct` is the result: the slices of a node have locks of their own.
-/
namespace SliceScheduler

/-- The slice is the first one, if there is a first one, or begins at a later millisecond. -/
def Slice.Follows (first : Option Slice) (s : Slice) : Prop :=
  ∃ p, first = some p ∧ (s = p ∨ s.IsWhole ∧ p.millis < s.millis)

/-- The slices that the task may take or give back the locks of. -/
def TaskStage.visits : TaskStage → List Slice
  | turn _ _ (.recheck x) | turn _ _ (.clear x) | turn _ _ (.move x) | turn _ _ (.back x _)
  | walk _ _ _ (.take _ _ _ x _) => [x]
  | walk _ _ _ (.release p x others) => p :: x :: others
  | _ => []

/-- The slices that the node comes to. -/
structure Post.Visits (P : Slice → Prop) (p : Post) : Prop where
  desk : ∀ x, p.desk.progressOf x ≠ none → P x
  stages : ∀ k s, p.stages k = some s → ∀ x ∈ s.visits, P x

/-- The slices that the nodes come to follow the first pointer. -/
structure Fleet.Visits (first : Option Slice) (f : Fleet) : Prop where
  unset : f.store.pointer = none → first = none
  pointer : ∀ x, f.store.pointer = some x → x.Follows first
  posts : ∀ i p, f.posts i = some p → p.Visits (·.Follows first)

namespace VisitsLemmas

open Post TidyLemmas ClosingLemmas

variable {first : Option Slice} {P : Slice → Prop} {p q : Post} {e : Effect} {k : Nat}
  {s t : TaskStage} {now : Instant} {store store' : MemoryStore} {prompt : Prompt}

/-! ## Slices after the first pointer -/

theorem follows_self (s : Slice) : s.Follows (some s) := ⟨s, rfl, .inl rfl⟩

theorem follows_grow {first' : Option Slice} {x : Slice} (grows : first = none ∨ first' = first)
    (follows : x.Follows first) : x.Follows first' := by
  rcases grows with rfl | rfl
  · obtain ⟨p, none, -⟩ := follows
    cases none
  · exact follows

theorem follows_next {x : Slice} (follows : x.Follows first) (w : Duration) :
    (x.next w).Follows first := by
  obtain ⟨p, same, ahead⟩ := follows
  refine ⟨p, same, ?_⟩
  by_cases next : x.HasNext w
  · have := w.sliceMillis_pos
    refine .inr ⟨Slice.isWhole_next next, ?_⟩
    rw [Slice.millis_next next]
    rcases ahead with rfl | ⟨-, less⟩ <;> omega
  · rwa [Slice.next_eq_self next]

/-- Slices after the first pointer are told apart by their milliseconds. -/
theorem eq_of_follows {x y : Slice} (follows : x.Follows first) (follows' : y.Follows first)
    (same : x.millis = y.millis) : x = y := by
  obtain ⟨p, rfl, ahead⟩ := follows
  obtain ⟨q, equal, ahead'⟩ := follows'
  obtain rfl := Option.some.inj equal
  rcases ahead with rfl | ⟨whole, less⟩
  · rcases ahead' with rfl | ⟨-, less'⟩
    · rfl
    · omega
  · rcases ahead' with rfl | ⟨whole', -⟩
    · omega
    · exact whole.eq_of_millis_eq whole' same

/-! ## What a step comes to -/

theorem walkOn_visits {ticket : Option Nat} {dispatch : Bool} {announced advanced : List Slice}
    {d : Desk} {pointer current x : Slice} {n : Nat} {before : List (Slice × Program.Visit)}
    (next : ∀ x, P x → P (x.next d.width)) (here : P x) :
    ∀ y ∈ (walkPlace ticket dispatch announced
      (WalkStage.walkOn d advanced pointer current n x before)).elim [] TaskStage.visits, P y := by
  induction n generalizing x before with
  | zero => exact fun y mem => absurd mem List.not_mem_nil
  | succ n ih =>
    simp only [WalkStage.walkOn]
    split
    · exact fun y mem => absurd mem List.not_mem_nil
    · split
      · exact ih (next x here)
      · exact fun y mem => List.mem_singleton.mp mem ▸ here

theorem releaseOn_visits {ticket : Option Nat} {dispatch : Bool} {announced advanced : List Slice}
    {d : Desk} {pointer : Slice} {stale : List Slice} (next : ∀ x, P x → P (x.next d.width))
    (here : P pointer) (behind : ∀ x ∈ stale, P x) :
    ∀ y ∈ (walkPlace ticket dispatch announced
      (WalkStage.releaseOn now dispatch d advanced pointer stale)).elim [] TaskStage.visits,
      P y := by
  cases stale with
  | nil =>
    simp only [WalkStage.releaseOn, WalkStage.setOut]
    split
    · exact walkOn_visits next here
    · exact fun y mem => absurd mem List.not_mem_nil
  | cons x others => exact List.forall_mem_cons.mpr ⟨here, behind⟩

theorem fromPointer_visits {ticket : Option Nat} {dispatch : Bool} {announced advanced : List Slice}
    {d : Desk} {pointer : Slice} (next : ∀ x, P x → P (x.next d.width)) (here : P pointer)
    (desk : ∀ x, d.progressOf x ≠ none → P x) :
    ∀ y ∈ (walkPlace ticket dispatch announced
      (WalkStage.fromPointer now dispatch d advanced (.ok pointer))).elim [] TaskStage.visits,
      P y := by
  refine releaseOn_visits next here fun x mem => desk x ?_
  obtain ⟨⟨y, v⟩, found, same⟩ := List.mem_filterMap.mp mem
  simp only [Option.ite_none_right_eq_some, Option.some.injEq] at same
  obtain ⟨-, rfl⟩ := same
  rw [Desk.progressOf, Std.ExtTreeMap.mem_toList_iff_getElem?_eq_some.mp found]
  exact Option.some_ne_none _

theorem turn_visits {mover : Mover} {announced : List Slice} {t : TurnStage}
    {fault : Option StoreError} {answer : (t.op p.desk.settings).Result}
    (made : store.attempt now fault (t.op p.desk.settings) = (answer, store'))
    (pointer : ∀ x, store'.pointer = some x → P x)
    (stage : ∀ x ∈ (TaskStage.turn mover announced t).visits, P x) :
    ∀ x ∈ (turnPlace mover announced
      (t.react mover.fromTick p.desk.settings p.desk answer).next).visits, P x := by
  have none {x : Slice} (mem : x ∈ ([] : List Slice)) : P x := absurd mem List.not_mem_nil
  cases t with
  | seek =>
    obtain ⟨rfl, there⟩ := MemoryStore.getPointer_attempt made
    rcases answer with e | _ | x
    · exact fun _ => none
    · exact fun _ => none
    · simp only [TurnStage.react]
      split
      · exact fun _ => none
      · exact fun y mem => List.mem_singleton.mp mem ▸ pointer x (there _ rfl)
  | recheck x =>
    rcases answer with e | index
    · exact fun _ => none
    · simp only [TurnStage.react]
      split
      · split <;> exact fun _ => none
      · exact stage
  | clear x =>
    rcases answer with e | _
    · exact fun _ => none
    · exact stage
  | move x =>
    rcases answer with e | moved
    · exact fun _ => none
    · exact stage
  | back x moved => cases moved <;> exact fun _ => none

theorem walk_visits {ticket : Option Nat} {dispatch : Bool} {announced : List Slice}
    {t : WalkStage} {fault : Option StoreError} {answer : (t.op p.desk.settings).Result}
    (made : store.attempt now fault (t.op p.desk.settings) = (answer, store'))
    (next : ∀ x, P x → P (x.next p.desk.width)) (desk : ∀ x, p.desk.progressOf x ≠ none → P x)
    (pointer : ∀ x, store'.pointer = some x → P x)
    (stage : ∀ x ∈ (TaskStage.walk ticket dispatch announced t).visits, P x) :
    ∀ x ∈ (walkPlace ticket dispatch announced
      (t.react now dispatch announced p.desk.settings p.desk answer).next).elim []
        TaskStage.visits, P x := by
  have none {x : Slice} (mem : x ∈ ([] : List Slice)) : P x := absurd mem List.not_mem_nil
  cases t with
  | read =>
    obtain ⟨rfl, there⟩ := MemoryStore.getPointer_attempt made
    rcases answer with e | _ | x
    · exact fun _ => none
    · exact fun _ => none
    · exact fromPointer_visits next (pointer x (there _ rfl)) desk
  | ensure s =>
    simp only [WalkStage.react]
    split
    · exact fun _ => none
    · rename_i found goes
      rcases found with _ | x
      · exact fun _ => none
      · exact fromPointer_visits next (pointer x (HorizonLemmas.seek_found made goes)) desk
  | release q x others =>
    obtain ⟨here, others⟩ := List.forall_mem_cons.mp stage
    exact releaseOn_visits next here (List.forall_mem_cons.mp others).2
  | take q current limit x before =>
    have here := next x (stage x (List.mem_singleton_self x))
    rcases answer with e | _ | _ <;> exact walkOn_visits next here

/-- A task comes to slices that it visits, and to slices after them or at the pointer. -/
theorem works_visits (works : p.Works now store k s prompt e store')
    (next : ∀ x, P x → P (x.next p.desk.width)) (desk : ∀ x, p.desk.progressOf x ≠ none → P x)
    (pointer : ∀ x, store'.pointer = some x → P x) (stage : ∀ x ∈ s.visits, P x) :
    ∀ x ∈ e.next.elim [] TaskStage.visits, P x := by
  have none {x : Slice} (mem : x ∈ ([] : List Slice)) : P x := absurd mem List.not_mem_nil
  have begins (mover : Mover) (announced : List Slice) :
      ∀ x ∈ (turnPlace mover announced (TurnStage.first p.desk)).visits, P x := by
    unfold TurnStage.first
    split <;> exact fun _ => none
  cases works with
  | start made =>
    unfold afterSeek
    split <;> exact fun _ => none
  | submission made =>
    unfold afterSubmit
    split <;> exact fun _ => none
  | guard free => exact begins _ _
  | turn made => exact turn_visits made pointer stage
  | moved => exact begins _ _
  | @stay mover announced => cases mover <;> exact fun _ => none
  | walk made =>
    rw [next_afterWalk]
    exact walk_visits made next desk pointer stage
  | hold free =>
    unfold givingUp
    split <;> exact fun _ => none
  | giveUp made live' =>
    unfold givingUp
    split <;> exact fun _ => none
  | @sets slice fault answer store' made =>
    rcases answer with e | index
    · exact fun _ => none
    · have plain : (permits slice index.pending).visits = [] := by cases index.pending <;> rfl
      exact fun x mem => none (plain ▸ mem)
  | @permit slice id others =>
    have plain : (permits slice others).visits = [] := by cases others <;> rfl
    exact fun x mem => none (plain ▸ mem)
  | @job parent slice id t fault answer store' made =>
    have plain (next : JobNext) :
        (jobPlace parent slice id next).elim [] TaskStage.visits = [] := by cases next <;> rfl
    exact fun x mem => none (plain _ ▸ mem)
  | _ => exact fun _ => none

/-- The steps of a task keep up where its node comes to. -/
theorem visits_apply (visits : p.Visits P) (tidy : p.Tidy store.pointer)
    (stage : p.stages k = some s) (works : p.Works now store k s prompt e store')
    (next : ∀ x, P x → P (x.next p.desk.width))
    (pointer : ∀ x, store'.pointer = some x → P x) : (p.apply k e).Visits P := by
  have fits := tidy.fits k s stage
  have shift := works.shift fits
  refine ⟨fun x at_work => ?_, fun j t stage' x mem => ?_⟩
  · rcases at_work_cases fits shift.change at_work with before | ⟨takes, -⟩
    · exact visits.desk x before
    · refine visits.stages k s stage x ?_
      cases s with
      | walk ticket dispatch announced t =>
        cases t with
        | take => exact Option.some.inj takes ▸ List.mem_singleton_self _
        | _ => cases takes
      | _ => cases takes
  · rcases stages_apply stage' with ⟨-, goes⟩ | ⟨-, -, spawned⟩ | ⟨-, before⟩
    · have all := works_visits works next visits.desk pointer (visits.stages k s stage)
      rw [goes] at all
      exact all x mem
    · -- a task that is set off drains a slice or runs a job
      have plain := (works.handles tidy.guarded stage).spawned
      have command := shift.spawned
      rw [spawned] at plain command
      cases t with
      | turn => cases plain
      | walk => cases command.1
      | _ => exact absurd mem List.not_mem_nil
    · exact visits.stages j t before x mem

/-- A step from outside keeps up where its node comes to. -/
theorem visits_begins {a : Action} (visits : p.Visits P) (begins : p.Begins a q) : q.Visits P := by
  refine ⟨?_, fun j t stage x mem => ?_⟩
  · rw [progressOf_of_same begins.progress]
    exact visits.desk
  · rcases begins.stages j t stage with before | ⟨-, -, opens⟩
    · exact visits.stages j t before x mem
    · cases t with
      | turn | walk => cases opens
      | _ => exact absurd mem List.not_mem_nil

theorem visits_joining (settings : NodeSettings) (registry : Registry) (ticket : Nat) :
    (joining settings registry ticket).Visits P := by
  refine ⟨fun x at_work => absurd Std.ExtTreeMap.getElem?_empty at_work,
    fun k s stage x mem => ?_⟩
  obtain ⟨-, rfl⟩ := stages_joining stage
  exact absurd mem List.not_mem_nil

end VisitsLemmas

open VisitsLemmas

namespace Fleet

variable {f f' : Fleet} {first : Option Slice} {i : Nat} {p q : Post}

theorem Visits.bare (c : Cluster) : (bare c).Visits c.store.pointer :=
  ⟨id, fun x there => there ▸ follows_self x, nofun⟩

theorem Visits.put {store : MemoryStore} {first' : Option Slice} (visits : f.Visits first)
    (grows : first = none ∨ first' = first) (unset : store.pointer = none → first' = none)
    (pointer : ∀ x, store.pointer = some x → x.Follows first')
    (here : q.Visits (·.Follows first')) : ({ f with store }.put i q).Visits first' := by
  refine ⟨unset, pointer, fun j r placed => ?_⟩
  rcases posts_put placed with ⟨-, rfl⟩ | ⟨-, before⟩
  · exact here
  · have old := visits.posts j r before
    exact ⟨fun x at_work => follows_grow grows (old.desk x at_work),
      fun k s stage x mem => follows_grow grows (old.stages k s stage x mem)⟩

/-- Every step of a fleet keeps up where nodes come to, and the first pointer once it is set. -/
theorem Visits.grows {a : Action} (visits : f.Visits first)
    (tidy : ∀ i p, f.posts i = some p → p.Tidy f.store.pointer) (step : f.Step a f') :
    ∃ first', (first = none ∨ first' = first) ∧ f'.Visits first' := by
  rcases step.kinds with ⟨now, -, rfl⟩ | ⟨i, settings, registry, ticket, -, free, rfl⟩ |
    ⟨i, p, q, post, begins, rfl⟩ | ⟨i, p, k, s, prompt, e, store, post, stage, works, -, rfl⟩
  · exact ⟨first, .inr rfl, visits.unset, visits.pointer, visits.posts⟩
  · exact ⟨first, .inr rfl, visits.put (.inr rfl) visits.unset visits.pointer (visits_joining ..)⟩
  · exact ⟨first, .inr rfl, visits.put (.inr rfl) visits.unset visits.pointer
      (visits_begins (visits.posts i p post) begins)⟩
  · -- the first pointer may be set by this step
    obtain ⟨first', grows, unset, pointer⟩ : ∃ first', (first = none ∨ first' = first) ∧
        (store.pointer = none → first' = none) ∧
          ∀ x, store.pointer = some x → x.Follows first' := by
      rcases works.pointer with (same | none) | ⟨mover, announced, x, -, there, moved⟩
      · exact ⟨first, .inr rfl, same ▸ visits.unset, same ▸ visits.pointer⟩
      · exact ⟨store.pointer, .inl (visits.unset none), id, fun x there => there ▸ follows_self x⟩
      · refine ⟨first, .inr rfl, fun none => (by cases none.symm.trans moved), fun y there' => ?_⟩
        obtain rfl := Option.some.inj (moved.symm.trans there')
        exact follows_next (visits.pointer x there) _
    have old := visits.posts i p post
    have here : p.Visits (·.Follows first') :=
      ⟨fun x at_work => follows_grow grows (old.desk x at_work),
        fun k s stage x mem => follows_grow grows (old.stages k s stage x mem)⟩
    exact ⟨first', grows, visits.put grows unset pointer
      (visits_apply here (tidy i p post) stage works (fun x follows => follows_next follows _)
        pointer)⟩

/-- Every step of a fleet keeps up where nodes come to. -/
theorem Visits.step {a : Action} (visits : f.Visits first)
    (tidy : ∀ i p, f.posts i = some p → p.Tidy f.store.pointer) (step : f.Step a f') :
    ∃ first', f'.Visits first' := by
  obtain ⟨first', -, visits'⟩ := visits.grows tidy step
  exact ⟨first', visits'⟩

/-- The slices that a node comes to have locks of their own. -/
theorem Visits.distinct (visits : f.Visits first) (post : f.posts i = some p) : p.Distinct := by
  have here := visits.posts i p post
  intro k s x y stage frees at_work same
  refine eq_of_follows (here.desk x at_work) (here.stages k s stage y ?_)
    (Slice.millis_of_advanceLock same)
  cases s with
  | turn mover announced t =>
    cases t with
    | back => exact Option.some.inj frees ▸ List.mem_singleton_self _
    | _ => cases frees
  | walk ticket dispatch announced t =>
    cases t with
    | release =>
      exact Option.some.inj frees ▸ List.mem_cons_of_mem _ List.mem_cons_self
    | _ => cases frees
  | _ => cases frees

end Fleet

end SliceScheduler
