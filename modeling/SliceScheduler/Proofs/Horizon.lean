import SliceScheduler.Proofs.Fleet
import SliceScheduler.Proofs.Order
/-!
# How far the nodes look ahead

The pointer starts at a slice that has begun and goes from slice to slice. Nodes work on slices that
have begun, and move the pointer past those only.

1. `Slice.LeadsTo` says which slices come after a slice in steps of one slice, and
   `Slice.Due` that a slice comes after the first one and has begun;
2. `TaskStage.Due` says that the slices of a stage are due, and `Fleet.Due` that all slices at work
   are;
3. `Fleet.Due.step` keeps this up while the current slice does not go back.
-/
namespace SliceScheduler

namespace Slice

/-- The slices that one comes to in steps of one slice. -/
inductive LeadsTo (w : Duration) (p : Slice) : Slice → Prop
  | refl : LeadsTo w p p
  | next {s : Slice} : LeadsTo w p s → LeadsTo w p (s.next w)

/-- The slice comes after the first one, if there is a first one. -/
def After (w : Duration) (first : Option Slice) (s : Slice) : Prop :=
  ∃ p, first = some p ∧ p.LeadsTo w s

/-- The slice is not after the current one, neither by its start nor by its milliseconds. -/
structure Begun (s current : Slice) : Prop where
  le : s ≤ current
  millis_le : s.millis ≤ current.millis

theorem Begun.refl {s : Slice} : s.Begun s := ⟨le_refl s, le_refl s.millis⟩

theorem Begun.trans {a b c : Slice} (first : a.Begun b) (second : b.Begun c) : a.Begun c :=
  ⟨le_trans first.le second.le, le_trans first.millis_le second.millis_le⟩

/-- The slice comes after the first one and has begun when a slice is the current one. -/
structure Due (w : Duration) (first : Option Slice) (s limit : Slice) : Prop where
  after : s.After w first
  begun : s.Begun limit

end Slice

/-- The slice that the pointer is to be set to has begun. -/
def SeekStage.Due (limit : Slice) : SeekStage → Prop
  | init current => current.Begun limit
  | _ => True

/-- The slice that a turn is about is due. -/
def TurnStage.Due (w : Duration) (first : Option Slice) (limit : Slice) : TurnStage → Prop
  | seek => True
  | recheck pointer | clear pointer | move pointer | back pointer _ => pointer.Due w first limit

/-- The pointer that a tick walks from follows the first one, and the slice that it takes is due. -/
def WalkStage.Due (w : Duration) (first : Option Slice) (limit : Slice) : WalkStage → Prop
  | read => True
  | ensure s => s.Due limit
  | release pointer slice others =>
    pointer.After w first ∧ ∀ x ∈ slice :: others, x.Due w first limit
  | take _ current _ slice _ => current.Begun limit ∧ slice.Due w first limit

/-- The slices that a task is about are due. -/
def TaskStage.Due (w : Duration) (first : Option Slice) (limit : Slice) : TaskStage → Prop
  | start _ s => s.Due limit
  | turn _ _ s => s.Due w first limit
  | walk _ _ _ s => s.Due w first limit
  | sets slice | permit slice _ _ | jobs slice | job _ slice _ _ | running _ slice _ _ _ =>
    slice.Due w first limit
  | _ => True

/-- The slices that a node works on are due. -/
def Desk.Due (w : Duration) (first : Option Slice) (limit : Slice) (d : Desk) : Prop :=
  ∀ slice, slice ∈ d.progress → slice.Due w first limit

/-- The slices of an effect are due. -/
structure Effect.Due (w : Duration) (first : Option Slice) (limit : Slice) (e : Effect) : Prop where
  desk : e.desk.Due w first limit
  next : e.next.elim True (·.Due w first limit)
  spawned : e.spawned.elim True (·.Due w first limit)

/-- The pointer follows its first slice, which has begun, and is at most one slice ahead. -/
structure MemoryStore.Due (w : Duration) (first : Option Slice) (limit : Slice) (s : MemoryStore) :
    Prop where
  unset : s.pointer = none → first = none
  begun : ∀ p, first = some p → p.Begun limit
  pointer : ∀ p, s.pointer = some p → p.After w first ∧ p.millis ≤ limit.millis + w.sliceMillis

/-- The current slice of a fleet. -/
def Fleet.limit (w : Duration) (f : Fleet) : Slice := Slice.containing f.now w

/-- All slices at work are due. -/
structure Fleet.Due (w : Duration) (first : Option Slice) (f : Fleet) : Prop where
  store : f.store.Due w first (f.limit w)
  desks : ∀ i p, f.posts i = some p → p.desk.Due w first (f.limit w)
  stages : ∀ i p k s, f.posts i = some p → p.stages k = some s → s.Due w first (f.limit w)

namespace HorizonLemmas

open Post

variable {w : Duration} {first first' : Option Slice} {limit limit' : Slice} {s : Slice}

/-! ## Slices that come after the first one -/

theorem whole_of_leadsTo {p : Slice} (leads : p.LeadsTo w s) :
    s = p ∨ s.IsWhole ∧ p.millis < s.millis := by
  induction leads with
  | refl => exact .inl rfl
  | @next s leads ih =>
    by_cases next : s.HasNext w
    · refine .inr ⟨Slice.isWhole_next next, ?_⟩
      have := w.sliceMillis_pos
      rw [Slice.millis_next next]
      rcases ih with rfl | ⟨-, less⟩ <;> omega
    · rwa [Slice.next_eq_self next]

theorem after_next (after : s.After w first) : (s.next w).After w first := by
  obtain ⟨p, same, leads⟩ := after
  exact ⟨p, same, .next leads⟩

theorem after_self : s.After w (some s) := ⟨s, rfl, .refl⟩

theorem after_grow (grows : first = none ∨ first' = first) (after : s.After w first) :
    s.After w first' := by
  obtain ⟨p, rfl, leads⟩ := after
  rcases grows with none | rfl
  · cases none
  · exact ⟨p, rfl, leads⟩

/-- A slice that is not after one that has begun has begun. -/
theorem due_of_le {current : Slice} (first_begun : ∀ p, first = some p → p.Begun limit)
    (begun : current.Begun limit) (after : s.After w first) (le : s ≤ current) :
    s.Due w first limit := by
  refine ⟨after, ?_⟩
  obtain ⟨p, same, leads⟩ := after
  rcases whole_of_leadsTo leads with rfl | ⟨whole, -⟩
  · exact first_begun s same
  · exact ⟨le_trans le begun.le, le_trans (whole.millis_le_of_le le) begun.millis_le⟩

theorem millis_next_le : (s.next w).millis ≤ s.millis + w.sliceMillis := by
  by_cases next : s.HasNext w
  · exact le_of_eq (Slice.millis_next next)
  · rw [Slice.next_eq_self next]
    have := w.sliceMillis_pos
    omega

/-! ## Later, and with a first slice -/

theorem grows_of_sets {pointer : Option Slice}
    (sets : first' = first ∨ first = none ∧ first' = pointer) : first = none ∨ first' = first :=
  sets.elim .inr fun set => .inl set.1

theorem slice_mono (grows : first = none ∨ first' = first) (later : limit.Begun limit')
    (due : s.Due w first limit) : s.Due w first' limit' :=
  ⟨after_grow grows due.after, due.begun.trans later⟩

theorem desk_mono (grows : first = none ∨ first' = first) (later : limit.Begun limit') {d : Desk}
    (due : d.Due w first limit) : d.Due w first' limit' :=
  fun slice mem => slice_mono grows later (due slice mem)

theorem seek_mono (later : limit.Begun limit') {s : SeekStage} (due : s.Due limit) : s.Due limit' := by
  cases s with
  | init current => exact Slice.Begun.trans due later
  | _ => trivial

theorem stage_mono (grows : first = none ∨ first' = first) (later : limit.Begun limit')
    {s : TaskStage} (due : s.Due w first limit) : s.Due w first' limit' := by
  cases s with
  | start ticket s => exact seek_mono later due
  | turn mover announced s =>
    cases s with
    | seek => trivial
    | _ => exact slice_mono grows later due
  | walk ticket dispatch announced s =>
    cases s with
    | read => trivial
    | ensure s => exact seek_mono later due
    | release pointer slice others =>
      exact ⟨after_grow grows due.1, fun x mem => slice_mono grows later (due.2 x mem)⟩
    | take pointer current limit slice before =>
      exact ⟨due.1.trans later, slice_mono grows later due.2⟩
  | sets | permit | jobs | job | running => exact slice_mono grows later due
  | _ => trivial

/-! ## The store -/

/-- The first slice after a call: the pointer may be set to it by the call. -/
theorem store_due {now : Instant} {fault : Option StoreError} {op : Operation}
    {store store' : MemoryStore} {answer : op.Result} (due : store.Due w first limit)
    (made : store.attempt now fault op = (answer, store'))
    (inits : ∀ slice, op = .initPointer slice → slice.Begun limit)
    (moves : ∀ x y, op = .movePointer x y → y = x.next w ∧ x.Begun limit) :
    ∃ first', (first' = first ∨ first = none ∧ first' = store'.pointer) ∧
      store'.Due w first' limit := by
  rcases MemoryStore.pointer_cases made with same | ⟨x, y, rfl, there, moved⟩ |
    ⟨slice, rfl, unset, set⟩
  · refine ⟨first, .inl rfl, fun none => due.unset (same ▸ none), due.begun, fun p there => ?_⟩
    exact due.pointer p (same ▸ there)
  · obtain ⟨rfl, begun⟩ := moves x y rfl
    refine ⟨first, .inl rfl, fun none => ?_, due.begun, fun p there' => ?_⟩
    · rw [moved] at none
      cases none
    · obtain rfl : x.next w = p := Option.some.inj (moved.symm.trans there')
      have := begun.millis_le
      refine ⟨after_next (due.pointer x there).1, le_trans millis_next_le ?_⟩
      omega
  · have begun := inits slice rfl
    have := begun.millis_le
    refine ⟨some slice, .inr ⟨due.unset unset, set.symm⟩, fun none => ?_, fun p same => ?_,
      fun p there => ?_⟩
    · rw [set] at none
      cases none
    · exact Option.some.inj same ▸ begun
    · obtain rfl : slice = p := Option.some.inj (set.symm.trans there)
      have := w.sliceMillis_pos
      exact ⟨after_self, by omega⟩

theorem pointer_after {store : MemoryStore} (due : store.Due w first limit) {pointer : Slice}
    (there : store.pointer = some pointer) : pointer.After w first :=
  (due.pointer pointer there).1

theorem init_due {set : NodeSettings} {s : TaskStage} {slice : Slice} (due : s.Due w first limit)
    (calls : s.op? set = some (.initPointer slice)) : slice.Begun limit := by
  rcases TaskStage.makes calls with ⟨ticket, rfl⟩ | ⟨ticket, dispatch, announced, rfl⟩
  · exact due
  · exact due

theorem move_due {set : NodeSettings} {s : TaskStage} {x y : Slice} (due : s.Due w first limit)
    (calls : s.op? set = some (.movePointer x y)) : y = x.next set.width ∧ x.Begun limit := by
  obtain ⟨mover, announced, rfl, same⟩ := TaskStage.makes calls
  exact ⟨same, Slice.Due.begun due⟩

/-! ## What a desk knows -/

theorem desk_setProgress {d : Desk} {slice : Slice} (progress : Progress)
    (due : d.Due w first limit) (added : slice.Due w first limit) :
    (d.setProgress slice progress).Due w first limit := by
  intro x mem
  rcases Std.ExtTreeMap.mem_insert.mp mem with same | before
  · rw [← Std.LawfulEqOrd.eq_of_compare same]
    exact added
  · exact due x before

theorem desk_forget {d : Desk} (slice : Slice) (due : d.Due w first limit) :
    (d.forget slice).Due w first limit :=
  fun x mem => due x (Std.ExtTreeMap.mem_of_mem_erase mem)

theorem desk_of_progress {d d' : Desk} (same : d'.progress = d.progress)
    (due : d.Due w first limit) : d'.Due w first limit := by
  intro x mem
  rw [same] at mem
  exact due x mem

/-! ## What a step comes to -/

variable {p : Post} {store : MemoryStore}

theorem turnPlace_first (mover : Mover) (announced : List Slice) (desk : Desk) :
    (turnPlace mover announced (TurnStage.first desk)).Due w first limit := by
  unfold TurnStage.first
  split <;> trivial

theorem due_of_opens {a : Action} {s : TaskStage} (opens : s.Opens a) : s.Due w first limit := by
  cases s with
  | start ticket s => exact absurd opens id
  | turn mover announced s => exact absurd opens id
  | walk ticket dispatch announced s => exact absurd opens id
  | sets | permit | jobs | job | running => exact absurd opens id
  | _ => trivial

theorem permits_due (ids : List JobId) (due : s.Due w first limit) :
    (permits s ids).Due w first limit := by
  cases ids <;> exact due

theorem jobPlace_due {parent : Nat} {id : JobId} (next : JobNext) (due : s.Due w first limit) :
    (jobPlace parent s id next).elim True (·.Due w first limit) := by
  cases next with
  | spent => trivial
  | _ => exact due

theorem walkOn_due {d : Desk} {advanced : List Slice} {pointer current : Slice} {n : Nat}
    {before : List (Slice × Program.Visit)} {s' : WalkStage} (width : d.width = w)
    (begun : ∀ p, first = some p → p.Begun limit) (now : current.Begun limit)
    (after : s.After w first)
    (walks : WalkStage.walkOn d advanced pointer current n s before = .inl s') :
    s'.Due w first limit := by
  induction n generalizing s before with
  | zero => cases walks
  | succ n ih =>
    simp only [WalkStage.walkOn] at walks
    split at walks
    · cases walks
    · rename_i notLess
      split at walks
      · exact ih (by rw [width]; exact after_next after) walks
      · obtain rfl := Sum.inl.inj walks
        exact ⟨now, due_of_le begun now after (not_lt.mp notLess)⟩

theorem releaseOn_due {d : Desk} {advanced : List Slice} {pointer : Slice} {now : Instant}
    {dispatch : Bool} {stale : List Slice} {s' : WalkStage} (width : d.width = w)
    (begun : ∀ p, first = some p → p.Begun limit)
    (current : (Slice.containing now w).Begun limit) (after : pointer.After w first)
    (behind : ∀ x ∈ stale, x.Due w first limit)
    (walks : WalkStage.releaseOn now dispatch d advanced pointer stale = .inl s') :
    s'.Due w first limit := by
  cases stale with
  | nil =>
    simp only [WalkStage.releaseOn, WalkStage.setOut] at walks
    split at walks
    · exact walkOn_due width begun (width ▸ current) after walks
    · cases walks
  | cons slice rest =>
    obtain rfl := Sum.inl.inj walks
    exact ⟨after, behind⟩

theorem staleSlices_due {d : Desk} {pointer : Slice} (due : d.Due w first limit) :
    ∀ x ∈ d.staleSlices pointer, x.Due w first limit := by
  intro x mem
  obtain ⟨⟨y, v⟩, found, same⟩ := List.mem_filterMap.mp mem
  simp only [Option.ite_none_right_eq_some, Option.some.injEq] at same
  obtain ⟨-, rfl⟩ := same
  apply due y
  rw [Std.ExtTreeMap.mem_iff_isSome_getElem?,
    Std.ExtTreeMap.mem_toList_iff_getElem?_eq_some.mp found]
  rfl

theorem fromPointer_due {d : Desk} {advanced : List Slice} {now : Instant} {dispatch : Bool}
    {found : Except SchedulerError Slice} {s' : WalkStage} (width : d.width = w)
    (begun : ∀ p, first = some p → p.Begun limit)
    (current : (Slice.containing now w).Begun limit)
    (after : ∀ pointer, found = .ok pointer → pointer.After w first) (due : d.Due w first limit)
    (walks : WalkStage.fromPointer now dispatch d advanced found = .inl s') :
    s'.Due w first limit := by
  rcases found with e | pointer
  · cases walks
  · exact releaseOn_due width begun current (after pointer rfl) (staleSlices_due due) walks

/-- The pointer that was found or set is the one in the store. -/
theorem seek_found {now : Instant} {fault : Option StoreError} {store store' : MemoryStore}
    {s : SeekStage} {answer : s.op.Result} {pointer : Slice}
    (made : store.attempt now fault s.op = (answer, store'))
    (found : s.react now w answer = .inr (some pointer)) : store'.pointer = some pointer := by
  cases s with
  | read =>
    obtain ⟨rfl, there⟩ := MemoryStore.getPointer_attempt made
    rcases answer with e | _ | x
    · cases found
    · cases found
    · obtain rfl := Option.some.inj (Sum.inr.inj found)
      exact there _ rfl
  | init current =>
    rcases MemoryStore.initPointer_attempt made with ⟨rfl, there⟩ | ⟨failed, -⟩
    · obtain rfl := Option.some.inj (Sum.inr.inj found)
      exact there
    · rcases answer with e | _ | _
      · cases found
      · cases found
      · exact absurd rfl failed
  | reread =>
    obtain ⟨rfl, there⟩ := MemoryStore.getPointer_attempt made
    rcases answer with e | x
    · cases found
    · exact (there x rfl).trans (Sum.inr.inj found)

theorem seek_react_due {now : Instant} {s s' : SeekStage} {answer : s.op.Result}
    (current : (Slice.containing now w).Begun limit)
    (goes : s.react now w answer = .inl s') : s'.Due limit := by
  cases s with
  | read =>
    rcases answer with e | _ | x
    · cases goes
    · obtain rfl := Sum.inl.inj goes
      exact current
    · cases goes
  | init current =>
    rcases answer with e | _ | _
    · cases goes
    · obtain rfl := Sum.inl.inj goes
      trivial
    · cases goes
  | reread => cases goes

theorem turn_due {mover : Mover} {announced : List Slice} {s : TurnStage} {fault : Option StoreError}
    {now : Instant} {store store' : MemoryStore} {answer : (s.op p.desk.settings).Result}
    (made : store.attempt now fault (s.op p.desk.settings) = (answer, store'))
    (desk : p.desk.Due w first limit) (stage : s.Due w first limit) :
    Effect.Due w first limit
      (p.afterTurn mover announced (s.react mover.fromTick p.desk.settings p.desk answer)) := by
  have idle (d : Desk) (next : TurnStage ⊕ Program.Turn) (due : d.Due w first limit)
      (goes : (turnPlace mover announced next).Due w first limit) :
      Effect.Due w first limit (p.afterTurn mover announced ⟨d, none, next⟩) :=
    ⟨due, goes, trivial⟩
  cases s with
  | seek =>
    rcases answer with e | _ | pointer
    · exact idle _ _ desk trivial
    · exact idle _ _ desk trivial
    · simp only [TurnStage.react]
      split
      · exact idle _ _ desk trivial
      · rename_i drained
        refine idle _ _ desk (desk pointer ?_)
        rw [Std.ExtTreeMap.mem_iff_isSome_getElem?, not_not.mp drained]
        rfl
  | recheck pointer =>
    rcases answer with e | index
    · exact idle _ _ desk trivial
    · simp only [TurnStage.react]
      split
      · split
        · exact ⟨desk_setProgress _ desk stage, trivial, stage⟩
        · exact idle _ _ desk trivial
      · exact idle _ _ desk stage
  | clear pointer =>
    rcases answer with e | _
    · exact idle _ _ desk trivial
    · exact idle _ _ desk stage
  | move pointer =>
    rcases answer with e | moved
    · exact idle _ _ desk trivial
    · exact idle _ _ desk stage
  | back pointer moved =>
    cases moved with
    | true => exact idle _ _ (desk_forget pointer desk) trivial
    | false => exact idle _ _ (desk_forget pointer desk) trivial

theorem walk_due {ticket : Option Nat} {dispatch : Bool} {announced : List Slice} {s : WalkStage}
    {fault : Option StoreError} {now : Instant} {store store' : MemoryStore}
    {answer : (s.op p.desk.settings).Result} (width : p.desk.width = w)
    (current : (Slice.containing now w).Begun limit)
    (made : store.attempt now fault (s.op p.desk.settings) = (answer, store'))
    (after : store'.Due w first limit) (desk : p.desk.Due w first limit)
    (stage : s.Due w first limit) :
    Effect.Due w first limit
      (p.afterWalk ticket dispatch announced
        (s.react now dispatch announced p.desk.settings p.desk answer)) := by
  -- a reaction is due if its desk is, the slice that it sets off, and the stage that it goes on to
  have moves (d : Desk) (drained : Option Slice) (next : WalkStage ⊕ Program.TickResult)
      (due : d.Due w first limit) (spawns : ∀ slice, drained = some slice → slice.Due w first limit)
      (goes : ∀ s, next = .inl s → s.Due w first limit) :
      Effect.Due w first limit (p.afterWalk ticket dispatch announced ⟨d, drained, next⟩) := by
    have spawned : (drained.map TaskStage.sets).elim True (·.Due w first limit) := by
      cases drained with
      | none => trivial
      | some slice => exact spawns slice rfl
    cases next with
    | inl s => exact ⟨due, goes s rfl, spawned⟩
    | inr result => exact ⟨due, trivial, spawned⟩
  have begun := after.begun
  cases s with
  | read =>
    obtain ⟨rfl, there⟩ := MemoryStore.getPointer_attempt made
    rcases answer with e | _ | pointer
    · exact moves _ _ _ desk (fun _ same => by cases same) (fun s same => by cases same)
    · exact moves _ _ _ desk (fun _ same => by cases same)
        (fun s same => Sum.inl.inj same ▸ trivial)
    · refine moves _ _ _ desk (fun _ same => by cases same) fun s goes => ?_
      refine fromPointer_due width begun current ?_ desk goes
      intro x same
      exact pointer_after after (Except.ok.inj same ▸ there _ rfl)
  | ensure s =>
    simp only [WalkStage.react]
    split
    · rename_i s' goes
      refine moves _ _ _ desk (fun _ same => by cases same) fun s same => ?_
      obtain rfl := Sum.inl.inj same
      exact seek_react_due current (by rw [← width]; exact goes)
    · rename_i found goes
      refine moves _ _ _ desk (fun _ same => by cases same) fun s' goes' => ?_
      refine fromPointer_due width begun current ?_ desk goes'
      intro x same
      rcases found with _ | pointer
      · cases same
      · exact pointer_after after (Except.ok.inj same ▸ seek_found made goes)
  | release pointer slice rest =>
    refine moves _ _ _ (desk_forget slice desk) (fun _ same => by cases same) fun s goes => ?_
    exact releaseOn_due (by exact width) begun current stage.1
      (fun x mem => stage.2 x (List.mem_cons_of_mem _ mem)) goes
  | take pointer c limit slice before =>
    obtain ⟨now, due⟩ := stage
    have next : (slice.next p.desk.width).After w first := by
      rw [width]
      exact after_next due.after
    rcases answer with e | _ | _
    · exact moves _ _ _ desk (fun _ same => by cases same) fun s goes =>
        walkOn_due (by exact width) begun now (by exact next) goes
    · exact moves _ _ _ desk (fun _ same => by cases same) fun s goes =>
        walkOn_due (by exact width) begun now (by exact next) goes
    · exact moves _ _ _ (desk_setProgress _ desk due)
        (fun _ same => Option.some.inj same ▸ due) fun s goes =>
        walkOn_due (by exact width) begun now (by exact next) goes

end HorizonLemmas

open HorizonLemmas

/-- What a step of a task comes to is due, and the pointer stays at most one slice ahead. -/
theorem Post.Works.due {w : Duration} {first : Option Slice} {limit : Slice} {now : Instant}
    {store store' : MemoryStore} {p : Post} {k : Nat} {s : TaskStage} {prompt : Prompt} {e : Effect}
    (works : p.Works now store k s prompt e store') (width : p.desk.width = w)
    (current : (Slice.containing now w).Begun limit) (before : store.Due w first limit)
    (desk : p.desk.Due w first limit) (stage : s.Due w first limit) :
    ∃ first', (first' = first ∨ first = none ∧ first' = store'.pointer) ∧
      store'.Due w first' limit ∧ e.Due w first' limit := by
  obtain ⟨first', sets, after⟩ : ∃ first', (first' = first ∨ first = none ∧
      first' = store'.pointer) ∧ store'.Due w first' limit := by
    rcases works.store with rfl | ⟨op, fault, answer, calls, -, made⟩
    · exact ⟨first, .inl rfl, before⟩
    · refine store_due before made (fun slice same => ?_) (fun x y same => ?_)
      · exact init_due stage (same ▸ calls)
      · rw [← width]
        exact move_due stage (same ▸ calls)
  refine ⟨first', sets, after, ?_⟩
  have grows := grows_of_sets sets
  have desk := desk_mono grows .refl desk
  have stage := stage_mono grows .refl stage
  cases works with
  | start made =>
    unfold afterSeek
    split
    · rename_i s' goes
      exact ⟨desk, seek_react_due (w := w) current (by rw [← width]; exact goes), trivial⟩
    · exact ⟨desk, trivial, trivial⟩
  | submission made =>
    unfold afterSubmit
    split <;> exact ⟨desk, trivial, trivial⟩
  | guard free => exact ⟨desk, turnPlace_first .., trivial⟩
  | turn made => exact turn_due made desk stage
  | moved => exact ⟨desk, turnPlace_first .., trivial⟩
  | @stay mover announced => cases mover <;> exact ⟨desk, trivial, trivial⟩
  | walk made => exact walk_due width current made after desk stage
  | look => exact ⟨desk, trivial, trivial⟩
  | halt => exact ⟨desk, trivial, trivial⟩
  | hold free =>
    unfold givingUp
    split <;> exact ⟨desk, trivial, trivial⟩
  | giveUp made live' =>
    unfold givingUp
    split <;> exact ⟨desk, trivial, trivial⟩
  | @sets slice fault answer store' made =>
    cases answer with
    | error e => exact ⟨desk_setProgress _ desk stage, trivial, trivial⟩
    | ok index => exact ⟨desk, permits_due _ stage, trivial⟩
  | permit => exact ⟨desk, permits_due _ stage, stage⟩
  | jobs spent => exact ⟨desk_setProgress _ desk stage, trivial, trivial⟩
  | job made =>
    exact ⟨desk_of_progress (Desk.progress_announceAll ..) desk, jobPlace_due _ stage, trivial⟩
  | running =>
    exact ⟨desk_of_progress (Desk.progress_announceAll ..) desk, stage, trivial⟩

namespace Fleet

variable {w : Duration} {first first' : Option Slice} {f f' : Fleet}

/-- The first slice is the one that the pointer is set to before there are any nodes. -/
theorem Due.bare {c : Cluster}
    (begun : ∀ p, c.store.pointer = some p → p.Begun (Slice.containing c.now w)) :
    (bare c).Due w c.store.pointer := by
  refine ⟨⟨id, begun, fun p there => ?_⟩, fun i p post => ?_, fun i p k s post => ?_⟩
  · have := (begun p there).millis_le
    have := w.sliceMillis_pos
    refine ⟨⟨p, there, .refl⟩, ?_⟩
    show p.millis ≤ (Slice.containing c.now w).millis + w.sliceMillis
    omega
  · exact absurd post (Option.some_ne_none p).symm
  · exact absurd post (Option.some_ne_none p).symm

/-- One post changes, and what it comes to is due. -/
theorem Due.put {i : Nat} {q : Post} {store : MemoryStore} (due : f.Due w first)
    (grows : first = none ∨ first' = first) (after : store.Due w first' (f.limit w))
    (desk : q.desk.Due w first' (f.limit w))
    (stages : ∀ k s, q.stages k = some s → s.Due w first' (f.limit w)) :
    ({ f with store }.put i q).Due w first' := by
  refine ⟨after, fun j r placed => ?_, fun j r k s placed stage => ?_⟩
  · rcases posts_put placed with ⟨-, rfl⟩ | ⟨-, before⟩
    · exact desk
    · exact desk_mono grows .refl (due.desks j r before)
  · rcases posts_put placed with ⟨-, rfl⟩ | ⟨-, before⟩
    · exact stages k s stage
    · exact stage_mono grows .refl (due.stages j r k s before stage)

/-- The current slice does not go back while the clock does not. -/
theorem Step.forward {a : Action} (step : f.Step a f') (keeps : a.KeepsTime f.now) :
    (f.limit w).Begun (f'.limit w) := by
  cases step with
  | pass now =>
    exact ⟨Slice.containing_mono keeps.1 keeps.2 w, Slice.millis_containing_mono keeps.2 w⟩
  | _ => exact .refl

/-- What a step comes to is due, as long as the current slice does not go back. The first slice
stays, or the step sets the pointer to it. -/
theorem Due.step {a : Action} (due : f.Due w first) (uniform : f.Uniform w)
    (forward : (f.limit w).Begun (f'.limit w)) (step : f.Step a f') :
    ∃ first', (first' = first ∨ first = none ∧ first' = f'.store.pointer) ∧ f'.Due w first' := by
  rcases step.kinds with ⟨now, rfl, rfl⟩ | ⟨i, settings, registry, ticket, rfl, free, rfl⟩ |
    ⟨i, p, q, post, begins, rfl⟩ | ⟨i, p, k, s, prompt, e, store, post, stage, works, -, rfl⟩
  · refine ⟨first, .inl rfl, ⟨due.store.unset, ?_, ?_⟩, ?_, ?_⟩
    · exact fun p there => (due.store.begun p there).trans forward
    · intro p there
      obtain ⟨after, ahead⟩ := due.store.pointer p there
      exact ⟨after, le_trans ahead (Int.add_le_add_right forward.millis_le _)⟩
    · exact fun i p post => desk_mono (.inr rfl) forward (due.desks i p post)
    · exact fun i p k s post stage => stage_mono (.inr rfl) forward (due.stages i p k s post stage)
  · refine ⟨first, .inl rfl, due.put (.inr rfl) due.store ?_ ?_⟩
    · intro slice mem
      exact absurd mem Std.ExtTreeMap.not_mem_empty
    · intro k s stage
      obtain ⟨-, rfl⟩ := Post.stages_joining stage
      trivial
  · refine ⟨first, .inl rfl, due.put (.inr rfl) due.store ?_ ?_⟩
    · exact desk_of_progress begins.progress (due.desks i p post)
    · intro k s stage
      rcases begins.stages k s stage with before | ⟨-, -, opens⟩
      · exact due.stages i p k s post before
      · exact due_of_opens opens
  · obtain ⟨first', sets, after, effect⟩ := works.due (uniform i p post) .refl due.store
      (due.desks i p post) (due.stages i p k s post stage)
    have grows := grows_of_sets sets
    refine ⟨first', sets, due.put grows after effect.desk ?_⟩
    intro k' s' stage'
    rcases Post.stages_apply stage' with ⟨-, next⟩ | ⟨-, -, spawned⟩ | ⟨-, before⟩
    · have goes := effect.next
      rwa [next] at goes
    · have goes := effect.spawned
      rwa [spawned] at goes
    · exact stage_mono grows .refl (due.stages i p k' s' post before)

/-- There is a first slice if there is a pointer. -/
theorem Due.first_ne_none {p : Slice} (due : f.Due w first) (there : f.store.pointer = some p) :
    first ≠ none := by
  obtain ⟨⟨p₀, same, -⟩, -⟩ := due.store.pointer p there
  rw [same]
  exact Option.some_ne_none p₀

/-- The pointer is at most at the slice after the current one. -/
theorem Due.pointer_le {p : Slice} (due : f.Due w first) (there : f.store.pointer = some p)
    (next : (Slice.containing f.now w).HasNext w) : p ≤ (Slice.containing f.now w).next w := by
  obtain ⟨⟨p₀, same, leads⟩, ahead⟩ := due.store.pointer p there
  rcases whole_of_leadsTo leads with rfl | ⟨whole, -⟩
  · apply le_of_lt
    apply Slice.lt_of_millis_lt _ (Slice.isWhole_next next)
    have begun : p.millis ≤ (Slice.containing f.now w).millis :=
      (due.store.begun p same).millis_le
    have := w.sliceMillis_pos
    rw [Slice.millis_next next]
    omega
  · rw [Slice.le_iff_millis_le whole (Slice.isWhole_next next), Slice.millis_next next]
    exact ahead

end Fleet

end SliceScheduler
