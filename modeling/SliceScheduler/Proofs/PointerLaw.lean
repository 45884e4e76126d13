import Mathlib.Data.List.Nodup
import SliceScheduler.Proofs.Announcement
import SliceScheduler.Proofs.Horizon
import SliceScheduler.Proofs.Scenario
import SliceScheduler.Proofs.Shows
/-!
# The pointer and the announced slices

Any number of nodes of one slice width work in any order, calls to the store fail at any time, and
nodes pause and stop.

1. `Fleet.Step.pointer` says that one step leaves a pointer alone or moves it to the next slice;
2. `Cluster.Run.pointer_law` is the result: it adds that the pointer is at most one slice past the
   current one, that no slice is announced twice, and that each node announces slices in order;
3. `Cluster.Run.pointer_law_turns` shows it of two nodes that move the pointer in turn, and
   `Cluster.Run.ahead_after_leap_second` that the pointer may be further ahead once a leap second is
   over.

The milliseconds of a leap second go on past those of the second after it, so that the clock goes
back in milliseconds when the leap second is over, and the current slice with it.
-/
namespace SliceScheduler

namespace Fleet

/-- A step leaves the pointer alone or moves it to the next slice. -/
theorem Step.pointer {w : Duration} {f f' : Fleet} {a : Action} (step : f.Step a f')
    (uniform : f.Uniform w) {p : Slice} (there : f.store.pointer = some p) :
    f'.store.pointer = some p ∨ f'.store.pointer = some (p.next w) := by
  rcases step.kinds with ⟨now, -, rfl⟩ | ⟨i, settings, registry, ticket, -, free, rfl⟩ |
    ⟨i, post, q, old, begins, rfl⟩ | ⟨i, post, k, s, prompt, e, store, old, stage, works, -, rfl⟩
  · exact .inl there
  · exact .inl there
  · exact .inl there
  · rcases works.announces with ⟨-, stays⟩ | ⟨mover, announced, x, -, there', moved, -⟩ |
      ⟨mover, announced, x, -, stays, -⟩
    · exact .inl (stays p there)
    · obtain rfl : p = x := Option.some.inj (there.symm.trans there')
      rw [uniform i post old] at moved
      exact .inr moved
    · exact .inl (stays p there)

end Fleet

namespace PointerLawLemmas

variable {w : Duration} {c₀ c : Cluster} {past : List Action} {f : Fleet}

/-- The announcements hold together as long as the pointer has a slice after it. -/
theorem announces_run (starts : c₀.nodes = []) (run : c₀.Run (fun _ _ a => a.HasWidth w) past c) :
    ∃ f, c.Shows f ∧ f.Uniform w ∧
      ((∀ p, f.store.pointer = some p → p.HasNext w) → f.Announces) := by
  refine run.invariant (P := fun _ f => f.Uniform w ∧
    ((∀ p, f.store.pointer = some p → p.HasNext w) → f.Announces)) starts
    ⟨.bare w c₀, fun _ => .bare c₀⟩ ?_
  rintro past c f a f' - - ⟨uniform, announces⟩ width step
  refine ⟨uniform.step width step, fun inRange => ?_⟩
  have before (p : Slice) (there : f.store.pointer = some p) : p.HasNext w := by
    rcases step.pointer uniform there with same | moved
    · exact inRange p same
    · exact Slice.hasNext_of_next (inRange _ moved)
  exact (announces before).step uniform before step

/-- What is at work is due as long as the clock does not go back. -/
theorem due_run (starts : c₀.nodes = []) (unset : c₀.store.pointer = none)
    (run : c₀.Run (fun _ c a => a.HasWidth w ∧ a.KeepsTime c.now) past c) :
    ∃ f, c.Shows f ∧ f.Uniform w ∧ ∃ first, f.Due w first := by
  refine run.invariant (P := fun _ f => f.Uniform w ∧ ∃ first, f.Due w first) starts
    ⟨.bare w c₀, _, .bare fun p there => (by cases unset.symm.trans there)⟩ ?_
  rintro past c f a f' - shows ⟨uniform, first, due⟩ ⟨width, keeps⟩ step
  obtain ⟨first', -, due'⟩ := due.step uniform (step.forward (shows.now ▸ keeps)) step
  exact ⟨uniform.step width step, first', due'⟩

theorem post_of_node (shows : c.Shows f) {i : Nat} (bound : i < c.nodes.length) :
    ∃ p, f.posts i = some p ∧ c.nodes[i].desk = p.desk := by
  obtain ⟨p, post, shown⟩ := shows.post (List.getElem?_eq_getElem bound)
  exact ⟨p, post, shown.desk⟩

theorem ordered_node (shows : c.Shows f) (announces : f.Announces) {n : Node}
    (mem : n ∈ c.nodes) : n.desk.finished.Pairwise (· < ·) := by
  obtain ⟨i, bound, rfl⟩ := List.mem_iff_getElem.mp mem
  obtain ⟨p, post, same⟩ := post_of_node shows bound
  rw [same]
  exact announces.ordered i p post

theorem nodup_nodes (shows : c.Shows f) (announces : f.Announces) :
    (c.nodes.flatMap (·.desk.finished)).Nodup := by
  rw [List.nodup_flatMap]
  refine ⟨fun n mem => (ordered_node shows announces mem).imp ne_of_lt, ?_⟩
  rw [List.pairwise_iff_getElem]
  intro i j first second less x mem mem'
  obtain ⟨p, post, same⟩ := post_of_node shows first
  obtain ⟨q, post', same'⟩ := post_of_node shows second
  simp only [same] at mem
  simp only [same'] at mem'
  exact announces.apart i j p q x (Nat.ne_of_lt less) post post' (.inl mem) (.inl mem')

end PointerLawLemmas

open PointerLawLemmas

/-- After a run of nodes of one slice width over one store, the pointer stays or moves to the next
slice with whatever happens; it is at most one slice past the current one if the nodes set it and
the clock does not go back; no slice was announced twice; and each node announced its slices in
order. Slices are taken to have a slice after them. -/
theorem Cluster.Run.pointer_law {w : Duration} {c₀ c : Cluster} {past : List Action}
    (run : c₀.Run (fun _ _ a => a.HasWidth w) past c) (starts : c₀.nodes = [])
    (inRange : ∀ p, c.store.pointer = some p → p.HasNext w) :
    (∀ a c' p, a.HasWidth w → c.act? a = some c' → c.store.pointer = some p →
      ∃ q, c'.store.pointer = some q ∧
        (q = p ∨ q = p.next w ∧ p < q ∧ q.millis = p.millis + w.sliceMillis)) ∧
    (c₀.store.pointer = none →
      c₀.Run (fun _ c a => a.HasWidth w ∧ a.KeepsTime c.now) past c →
      (Slice.containing c.now w).HasNext w →
      ∀ p, c.store.pointer = some p → p ≤ (Slice.containing c.now w).next w) ∧
    (c.nodes.flatMap (·.desk.finished)).Nodup ∧
    ∀ n ∈ c.nodes, n.desk.finished.Pairwise (· < ·) := by
  obtain ⟨f, shows, uniform, announces⟩ := announces_run starts run
  have announces := announces (shows.store ▸ inRange)
  refine ⟨?_, ?_, nodup_nodes shows announces, fun n mem => ordered_node shows announces mem⟩
  · intro a c' p width acted there
    obtain ⟨f', step, shows'⟩ := shows.act acted
    rw [shows'.store]
    rcases step.pointer uniform (shows.store ▸ there) with same | moved
    · exact ⟨p, same, .inl rfl⟩
    · have next := inRange p there
      exact ⟨p.next w, moved, .inr ⟨rfl, Slice.lt_next next, Slice.millis_next next⟩⟩
  · intro unset steady next p there
    obtain ⟨f', shows', -, first, due⟩ := due_run starts unset steady
    rw [shows'.now] at next ⊢
    exact due.pointer_le (shows'.store ▸ there) next

/-! ## Two nodes that take turns -/

/-- Two nodes join, move the pointer past a slice each, the one after the other, and the first one is
about to move it past a third slice. -/
def Action.turns : List Action :=
  [.join (.tenths "a") ∅ 0, .answer 0 0 none, .answer 0 0 none, .join (.tenths "b") ∅ 0,
    .answer 1 0 none] ++ Action.passes 0 1 ++
    .pass (Instant.newYear.later (.ofMillis 100)) :: Action.passes 1 1 ++
    .pass (Instant.newYear.later (.ofMillis 200)) :: Action.reaches 0 3

/-- The law where two nodes have announced a slice each and the first one moves the pointer past a
third slice. The pointer is then as far ahead of the clock as it may be. -/
theorem Cluster.Run.pointer_law_turns : ∃ past c c' p,
    (Cluster.start .newYear).Run
      (fun _ c a => a.HasWidth (.ofMillis 100) ∧ a.KeepsTime c.now) past c ∧
    (Cluster.start .newYear).nodes = [] ∧ (Cluster.start .newYear).store.pointer = none ∧
    c.store.pointer = some p ∧ p.HasNext (.ofMillis 100) ∧
    c.nodes.map (·.desk.finished) = [[⟨.newYear⟩], [⟨Instant.newYear.later (.ofMillis 100)⟩]] ∧
    c.act? (.answer 0 4 none) = some c' ∧
    (∃ q, c'.store.pointer = some q ∧ q = p.next (.ofMillis 100) ∧ p < q ∧
      q = (Slice.containing c'.now (.ofMillis 100)).next (.ofMillis 100) ∧
      q ≤ (Slice.containing c'.now (.ofMillis 100)).next (.ofMillis 100)) ∧
    (c.nodes.flatMap (·.desk.finished)).Nodup ∧
    ∀ n ∈ c.nodes, n.desk.finished.Pairwise (· < ·) := by
  let w : Duration := .ofMillis 100
  let slice (n : Nat) : Slice := ⟨Instant.newYear.later (.ofMillis (n * 100))⟩
  have played : ((Cluster.start .newYear).play?
      (fun _ c a => a.HasWidth w ∧ a.KeepsTime c.now) [] Action.turns).bind (fun r =>
        (r.2.act? (.answer 0 4 none)).map fun c' => (r.2.store.pointer, c'.store.pointer, c'.now,
          r.2.nodes.map (·.desk.finished))) =
      some (some (slice 2), some (slice 3), Instant.newYear.later (.ofMillis 200),
        [[⟨.newYear⟩], [slice 1]]) := by decide +kernel
  obtain ⟨⟨past, c⟩, ends, shown⟩ := Option.bind_eq_some_iff.mp played
  obtain ⟨c', acted, facts⟩ := Option.map_eq_some_iff.mp shown
  obtain ⟨pointer, pointer', now, finished⟩ := by simpa only [Prod.mk.injEq] using facts
  have steady := Cluster.Run.of_play _ .nil ends
  have steady' := Cluster.Run.cons (.answer 0 4 none) steady ⟨trivial, trivial⟩ acted
  have inRange : (slice 2).HasNext w ∧ (slice 3).HasNext w := by decide
  obtain ⟨moves, -, once, ordered⟩ := (steady.mono fun _ _ _ allowed => allowed.1).pointer_law rfl
    fun p there => Option.some.inj (pointer.symm.trans there) ▸ inRange.1
  obtain ⟨-, ahead, -⟩ := (steady'.mono fun _ _ _ allowed => allowed.1).pointer_law rfl
    fun p there => Option.some.inj (pointer'.symm.trans there) ▸ inRange.2
  obtain ⟨q, there, same | ⟨next, later, -⟩⟩ :=
    moves (.answer 0 4 none) c' _ trivial acted pointer
  · obtain rfl := Option.some.inj (pointer'.symm.trans there)
    exact absurd same (by decide)
  · obtain rfl := Option.some.inj (pointer'.symm.trans there)
    have current : slice 3 = (Slice.containing c'.now w).next w := by
      rw [now]
      decide
    exact ⟨past, c, c', slice 2, steady, rfl, rfl, pointer, inRange.1, finished, acted,
      ⟨slice 3, there, next, later, current,
        ahead rfl steady' (by rw [now]; decide) _ pointer'⟩, once, ordered⟩

/-! ## A leap second -/

/-- A tenth of a second before the end of the leap second of 2016. -/
def Instant.inLeapSecond : Instant := .leapTenths 9

/-- The pointer that was set in the leap second is more than a slice past the current one when the
leap second is over, although the clock never went back. -/
theorem Cluster.Run.ahead_after_leap_second :
    ∃ past c p, (Cluster.start .inLeapSecond).Run
        (fun _ c a => a.HasWidth (.ofMillis 100) ∧ a.KeepsOrder c.now) past c ∧
      c.store.pointer = some p ∧ p.HasNext (.ofMillis 100) ∧
      (Slice.containing c.now (.ofMillis 100)).HasNext (.ofMillis 100) ∧
      ¬ p ≤ (Slice.containing c.now (.ofMillis 100)).next (.ofMillis 100) := by
  have later : Instant.inLeapSecond ≤ .newYear := by decide
  refine ⟨[.pass .newYear, .answer 0 0 none, .answer 0 0 none, .join (.tenths "a") ∅ 0], _, _,
    .cons _ (.cons _ (.cons _ (.cons _ .nil ⟨rfl, trivial⟩ rfl) ⟨trivial, trivial⟩ rfl)
      ⟨trivial, trivial⟩ rfl) ⟨trivial, later⟩ rfl, rfl, ?_, ?_, ?_⟩ <;> decide

end SliceScheduler
