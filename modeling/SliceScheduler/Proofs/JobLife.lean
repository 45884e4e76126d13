import SliceScheduler.Proofs.Order
/-!
# The life of a job

What the nodes of a cluster do to one job, seen from the job: where its row and the indexes of
slices name it, and which tasks have to do with it.

1. `Part` is what a task has to do with the job, and `Life` the job with all such tasks;
2. `Life.Step` lists what can happen to a job;
3. `Life.Sound` is the invariant, and `Life.Sound.step` says that every step keeps it up;
4. `Life.Sound.once` is the result: a job is started at most once for each slice.

A job is started by a task that has claimed it for a slice, has found its row to name that slice, and
has marked it active. Nobody else claims it for that slice meanwhile, and before the claim is given
up the job is taken out of the slice or its row is deleted. It is entered into a slice only once its
row names that slice, and rows go forward only.
-/
namespace SliceScheduler

/-- What a task has to do with a job. -/
inductive Part where
  /-- A submission that has not stored the job yet. -/
  | waiting
  /-- A submission that has stored the job and is about to enter it into a slice. -/
  | entering (target : Slice)
  /-- A task that is about to set the job off or to load it. -/
  | claimed (slice : Slice)
  /-- A task that has found the job to be gone or to belong to another slice. -/
  | passing (slice : Slice)
  /-- A task that has found no executor for the job. -/
  | burying (slice : Slice)
  /-- A task that is about to mark the job active. -/
  | ready (slice : Slice)
  /-- A task that has started the job, up to the first write that moves it or the last that ends
  it. -/
  | busy (slice : Slice)
  /-- A task that moves the job from a slice to another, before each of the last three writes. -/
  | moving (source target : Slice)
  | finishing (source target : Slice)
  | leaving (source target : Slice)
deriving DecidableEq

namespace Part

/-- The slice that the job is claimed for. -/
def claims? : Part → Option Slice
  | waiting | entering _ => none
  | claimed slice | passing slice | burying slice | ready slice | busy slice => some slice
  | moving source _ | finishing source _ | leaving source _ => some source

/-- The slice that the job is claimed for and that its row is known to name. -/
def holds? : Part → Option Slice
  | burying slice | ready slice | busy slice => some slice
  | moving source target | finishing source target | leaving source target =>
    if source = target then some source else none
  | _ => none

/-- The slice that the row names and that the job is about to be entered into, if it is not in it
already. -/
def carries? : Part → Option Slice
  | entering target => some target
  | moving source target => if source = target then none else some target
  | _ => none

/-- The slice that the job was started for. -/
def started? : Part → Option Slice
  | busy slice => some slice
  | moving source _ | finishing source _ | leaving source _ => some source
  | _ => none

end Part

/-- A job in a cluster. Tasks are given by the place of their node and their number. -/
@[ext]
structure Life where
  /-- The job has been submitted. -/
  known : Prop
  /-- The slice that the trigger in the row of the job names. -/
  row : Option Slice
  scheduled : Slice → Prop
  finished : Slice → Prop
  /-- How often a node has started the job for a slice. -/
  starts : Nat → Slice → Nat
  parts : Nat × Nat → Option Part

namespace Life

/-- The job has been started for a slice. -/
def Started (l : Life) (slice : Slice) : Prop := ∃ i, l.starts i slice ≠ 0

/-- The slice that a task has claimed the job for. -/
def claims (l : Life) (t : Nat × Nat) : Option Slice := (l.parts t).bind Part.claims?

/-- The slice that a task has claimed the job for and knows its row to name. -/
def holds (l : Life) (t : Nat × Nat) : Option Slice := (l.parts t).bind Part.holds?

/-- The slice that a task is about to enter the job into for the first time. -/
def carries (l : Life) (t : Nat × Nat) : Option Slice := (l.parts t).bind Part.carries?

/-- The slice that a task has started the job for. -/
def runs (l : Life) (t : Nat × Nat) : Option Slice := (l.parts t).bind Part.started?

/-- The task comes to have another part. -/
def go (l : Life) (t : Nat × Nat) (x : Option Part) : Life :=
  { l with parts := Function.update l.parts t x }

/-- The index of a slice names the job as scheduled, or not. -/
def setScheduled (l : Life) (slice : Slice) (v : Prop) : Life :=
  { l with scheduled := Function.update l.scheduled slice v }

/-- The index of a slice names the job as finished, or not. -/
def setFinished (l : Life) (slice : Slice) (v : Prop) : Life :=
  { l with finished := Function.update l.finished slice v }

/-- A node starts the job for a slice. -/
def start (l : Life) (i : Nat) (slice : Slice) : Life :=
  { l with
    starts := Function.update l.starts i
      (Function.update (l.starts i) slice (l.starts i slice + 1)) }

/-- What can happen to a job. -/
inductive Step (l : Life) : Life → Prop
  | idle : Step l l
  /-- The index of a slice is cleared. -/
  | clear (slice : Slice) : Step l ((l.setScheduled slice False).setFinished slice False)
  /-- The job is submitted, and may be refused at once. -/
  | submit (t : Nat × Nat) {x : Option Part} : ¬ l.known → x = none ∨ x = some .waiting →
    Step l { l.go t x with known := True }
  | refuse {t : Nat × Nat} : l.parts t = some .waiting → Step l (l.go t none)
  | store {t : Nat × Nat} (slice : Slice) : l.parts t = some .waiting → l.row = none →
    Step l { l.go t (some (.entering slice)) with row := some slice }
  | enter {t : Nat × Nat} {slice : Slice} : l.parts t = some (.entering slice) →
    Step l ((l.go t none).setScheduled slice True)
  /-- A draining finds the job to be pending in its slice. -/
  | claim {t : Nat × Nat} {slice : Slice} : l.parts t = none → l.scheduled slice →
    ¬ l.finished slice → (∀ u, l.claims u ≠ some slice) → Step l (l.go t (some (.claimed slice)))
  /-- A draining sets off the job as a task. -/
  | hand {t u : Nat × Nat} {slice : Slice} : l.parts t = some (.claimed slice) →
    l.parts u = none → Step l ((l.go u (some (.claimed slice))).go t none)
  | skip {t : Nat × Nat} {slice : Slice} : l.parts t = some (.claimed slice) →
    l.row ≠ some slice → Step l (l.go t (some (.passing slice)))
  | pass {t : Nat × Nat} {slice : Slice} : l.parts t = some (.passing slice) →
    Step l ((l.go t none).setFinished slice True)
  | condemn {t : Nat × Nat} {slice : Slice} : l.parts t = some (.claimed slice) →
    l.row = some slice → Step l (l.go t (some (.burying slice)))
  | bury {t : Nat × Nat} {slice : Slice} : l.parts t = some (.burying slice) →
    Step l ((l.go t none).setFinished slice True)
  | load {t : Nat × Nat} {slice : Slice} : l.parts t = some (.claimed slice) →
    l.row = some slice → Step l (l.go t (some (.ready slice)))
  | start {t : Nat × Nat} {slice : Slice} : l.parts t = some (.ready slice) →
    Step l ((l.go t (some (.busy slice))).start t.1 slice)
  | update {t : Nat × Nat} {slice target : Slice} : l.parts t = some (.busy slice) →
    slice ≤ target → Step l { l.go t (some (.moving slice target)) with row := some target }
  | index {t : Nat × Nat} {slice target : Slice} : l.parts t = some (.moving slice target) →
    Step l ((l.go t (some (.finishing slice target))).setScheduled target True)
  | finish {t : Nat × Nat} {slice target : Slice} : l.parts t = some (.finishing slice target) →
    Step l ((l.go t (some (.leaving slice target))).setFinished slice True)
  | leave {t : Nat × Nat} {slice target : Slice} : l.parts t = some (.leaving slice target) →
    Step l ((l.go t none).setScheduled slice False)
  | retire {t : Nat × Nat} {slice : Slice} : l.parts t = some (.busy slice) →
    Step l (l.setFinished slice True)
  | delete {t : Nat × Nat} {slice : Slice} : l.parts t = some (.busy slice) →
    Step l { l.go t none with row := none }

/-- The job has nothing to its name but a task. -/
structure Blank (l : Life) : Prop where
  row : l.row = none
  scheduled : ∀ slice, ¬ l.scheduled slice
  starts : ∀ slice, ¬ l.Started slice

/-- What holds of a job at any time. -/
structure Sound (l : Life) : Prop where
  /-- A job that was not submitted is nowhere. -/
  unknown : ¬ l.known → l.Blank ∧ ∀ t, l.parts t = none
  waiting : ∀ t, l.parts t = some .waiting → l.Blank ∧ ∀ u, u ≠ t → l.parts u = none
  claim : ∀ t u slice, l.claims t = some slice → l.claims u = some slice → t = u
  holds : ∀ t slice, l.holds t = some slice → l.row = some slice
  /-- The row names the latest of the slices that the job has to do with. -/
  behind : ∀ slice r, l.row = some r →
    l.scheduled slice ∨ (∃ t, l.claims t = some slice) ∨ l.Started slice → slice ≤ r
  carrier : ∀ t u slice, l.carries t = some slice → l.carries u = some slice → t = u
  /-- The slice that a job is about to be entered into has nothing to do with it yet. -/
  carries : ∀ t slice, l.carries t = some slice → l.row = some slice ∧ ¬ l.scheduled slice ∧
    (∀ u, l.claims u ≠ some slice) ∧ ¬ l.Started slice
  /-- A job that was started for the slice that its row names is at work, or waits no more. -/
  rest : ∀ slice, l.row = some slice → l.Started slice →
    (∃ t, l.runs t = some slice) ∨ ¬ l.scheduled slice ∧ ∀ t, l.claims t ≠ some slice
  once : ∀ i j slice, l.starts i slice ≠ 0 → l.starts j slice ≠ 0 → i = j ∧ l.starts i slice = 1

end Life

namespace JobLifeLemmas

variable {l : Life} {t u : Nat × Nat} {x y : Option Part} {slice target : Slice}

theorem parts_go : (l.go t x).parts u = if u = t then x else l.parts u :=
  Function.update_apply ..

theorem claims_go : (l.go t x).claims u = if u = t then x.bind Part.claims? else l.claims u := by
  unfold Life.claims
  rw [parts_go]
  split <;> rfl

theorem holds_go : (l.go t x).holds u = if u = t then x.bind Part.holds? else l.holds u := by
  unfold Life.holds
  rw [parts_go]
  split <;> rfl

theorem carries_go : (l.go t x).carries u = if u = t then x.bind Part.carries? else l.carries u := by
  unfold Life.carries
  rw [parts_go]
  split <;> rfl

theorem runs_go : (l.go t x).runs u = if u = t then x.bind Part.started? else l.runs u := by
  unfold Life.runs
  rw [parts_go]
  split <;> rfl

/-- Who has started a job has claimed it. -/
theorem claims_of_runs (runs : l.runs t = some slice) : l.claims t = some slice := by
  unfold Life.runs at runs
  unfold Life.claims
  cases part : l.parts t with
  | none =>
    rw [part] at runs
    cases runs
  | some x =>
    rw [part] at runs
    cases x <;> first | exact runs | cases runs

/-- Who knows the row to name the slice of a claim has the claim. -/
theorem claims_of_holds (holds : l.holds t = some slice) : l.claims t = some slice := by
  unfold Life.holds at holds
  unfold Life.claims
  cases part : l.parts t with
  | none =>
    rw [part] at holds
    cases holds
  | some x =>
    rw [part] at holds
    cases x with
    | moving | finishing | leaving =>
      simp only [Option.bind_some, Part.holds?, Option.ite_none_right_eq_some] at holds
      exact holds.2
    | burying | ready | busy => exact holds
    | _ => cases holds

/-- A job that a task has to do with was submitted. -/
theorem known_of_part (sound : l.Sound) (part : l.parts t ≠ none) : l.known := by
  by_contra unknown
  exact part ((sound.unknown unknown).2 t)

/-- A job is not submitted anew while a task has claimed it or is about to enter it. -/
theorem not_waiting (sound : l.Sound) {p : Part} (part : l.parts t = some p) (other : p ≠ .waiting)
    (u : Nat × Nat) : l.parts u ≠ some .waiting := by
  intro waits
  by_cases same : t = u
  · subst same
    exact other (Option.some.inj (part.symm.trans waits))
  · cases part.symm.trans ((sound.waiting u waits).2 t same)

/-- A task does not come to submit the job anew by taking another part. -/
theorem not_waiting_go (sound : l.Sound) {p : Part} (part : l.parts t = some p)
    (other : p ≠ .waiting) (waits : x ≠ some .waiting) (u : Nat × Nat) :
    (l.go t x).parts u ≠ some .waiting := by
  rw [parts_go]
  split
  · exact waits
  · exact not_waiting sound part other u

/-! ## Steps -/

/-- A task comes to have a part that claims no more, and that is about a row that is known. -/
theorem become (sound : l.Sound) {p : Part} (part : l.parts t = some p)
    (waits : y ≠ some .waiting)
    (claims : ∀ s, y.bind Part.claims? = some s → p.claims? = some s)
    (holds : ∀ s, y.bind Part.holds? = some s → l.row = some s)
    (carries : y.bind Part.carries? = none)
    (runs : ∀ s, p.started? = some s → y.bind Part.started? = some s ∨
      ¬ l.scheduled s ∧ y.bind Part.claims? = none) : (l.go t y).Sound := by
  have fewer (u : Nat × Nat) (s : Slice) (has : (l.go t y).claims u = some s) :
      l.claims u = some s := by
    rw [claims_go] at has
    split at has
    · subst u
      rw [Life.claims, part]
      exact claims s has
    · exact has
  have carried (u : Nat × Nat) (s : Slice) (has : (l.go t y).carries u = some s) :
      l.carries u = some s := by
    rw [carries_go] at has
    split at has
    · cases carries.symm.trans has
    · exact has
  have known : l.known := known_of_part sound (by rw [part]; nofun)
  refine ⟨fun unknown => absurd known unknown, fun u waits' => ?waiting, ?claim, ?holds, ?behind,
    ?carrier, ?carries, ?rest, sound.once⟩
  case waiting =>
    rw [parts_go] at waits'
    split at waits'
    · exact absurd waits' waits
    · rename_i other
      cases part.symm.trans ((sound.waiting u waits').2 t (Ne.symm other))
  case claim =>
    exact fun u v s first second => sound.claim u v s (fewer u s first) (fewer v s second)
  case holds =>
    intro u s has
    rw [holds_go] at has
    split at has
    · exact holds s has
    · exact sound.holds u s has
  case behind =>
    rintro s r row (pending | ⟨u, has⟩ | started)
    · exact sound.behind s r row (.inl pending)
    · exact sound.behind s r row (.inr (.inl ⟨u, fewer u s has⟩))
    · exact sound.behind s r row (.inr (.inr started))
  case carrier =>
    exact fun u v s first second => sound.carrier u v s (carried u s first) (carried v s second)
  case carries =>
    intro u s has
    obtain ⟨row, pending, free, started⟩ := sound.carries u s (carried u s has)
    exact ⟨row, pending, fun v claims => free v (fewer v s claims), started⟩
  case rest =>
    intro s row started
    rcases sound.rest s row started with ⟨u, has⟩ | ⟨pending, free⟩
    · by_cases same : u = t
      · subst same
        have claimed := claims_of_runs has
        rw [Life.runs, part] at has
        rcases runs s has with goes | ⟨pending, spent⟩
        · refine .inl ⟨u, ?_⟩
          rw [runs_go, if_pos rfl]
          exact goes
        · refine .inr ⟨pending, fun v claims' => ?_⟩
          obtain rfl := sound.claim v u s (fewer v s claims') claimed
          rw [claims_go, if_pos rfl, spent] at claims'
          cases claims'
      · refine .inl ⟨u, ?_⟩
        rw [runs_go, if_neg same]
        exact has
    · exact .inr ⟨pending, fun v claims => free v (fewer v s claims)⟩

/-- A task has nothing more to do with the job. -/
theorem give_up (sound : l.Sound) {p : Part} (part : l.parts t = some p)
    (runs : ∀ s, p.started? = some s → ¬ l.scheduled s) : (l.go t none).Sound :=
  become sound part (fun same => (by cases same)) (fun s has => (by cases has))
    (fun s has => (by cases has)) rfl (fun s has => .inr ⟨runs s has, rfl⟩)

/-- A task that has not started the job comes to have another part under the same claim. -/
theorem look_at (sound : l.Sound) {p q : Part} (part : l.parts t = some p) (waits : q ≠ .waiting)
    (claims : q.claims? = p.claims?) (holds : ∀ s, q.holds? = some s → l.row = some s)
    (carries : q.carries? = none) (runs : p.started? = none) : (l.go t (some q)).Sound :=
  become sound part (fun same => waits (Option.some.inj same)) (fun s has => claims ▸ has) holds
    carries (fun s has => (by cases runs.symm.trans has))

/-- What the invariant does not speak of may change. -/
theorem remark (sound : l.Sound) (finished : Slice → Prop) :
    Life.Sound { l with finished } where
  unknown unknown :=
    have ⟨blank, free⟩ := sound.unknown unknown
    ⟨⟨blank.row, blank.scheduled, blank.starts⟩, free⟩
  waiting t waits :=
    have ⟨blank, free⟩ := sound.waiting t waits
    ⟨⟨blank.row, blank.scheduled, blank.starts⟩, free⟩
  claim := sound.claim
  holds := sound.holds
  behind := sound.behind
  carrier := sound.carrier
  carries := sound.carries
  rest := sound.rest
  once := sound.once

/-- Slices may lose the job at any time. -/
theorem shrink (sound : l.Sound) : (l.setScheduled slice False).Sound := by
  have fewer (s : Slice) (has : (l.setScheduled slice False).scheduled s) : l.scheduled s := by
    simp only [Life.setScheduled, Function.update_apply] at has
    split at has
    · exact has.elim
    · exact has
  refine ⟨fun unknown => ?unknown, fun u waits => ?waiting, sound.claim, sound.holds, ?behind,
    sound.carrier, ?carries, ?rest, sound.once⟩
  case unknown =>
    obtain ⟨blank, free⟩ := sound.unknown unknown
    exact ⟨⟨blank.row, fun s has => blank.scheduled s (fewer s has), blank.starts⟩, free⟩
  case waiting =>
    obtain ⟨blank, free⟩ := sound.waiting u waits
    exact ⟨⟨blank.row, fun s has => blank.scheduled s (fewer s has), blank.starts⟩, free⟩
  case behind =>
    rintro s r row (pending | others)
    · exact sound.behind s r row (.inl (fewer s pending))
    · exact sound.behind s r row (.inr others)
  case carries =>
    intro u s has
    obtain ⟨row, pending, others⟩ := sound.carries u s has
    exact ⟨row, fun has => pending (fewer s has), others⟩
  case rest =>
    intro s row started
    rcases sound.rest s row started with runs | ⟨pending, free⟩
    · exact .inl runs
    · exact .inr ⟨fun has => pending (fewer s has), free⟩

/-- The slice that the row names gets the job. -/
theorem fill (sound : l.Sound) (known : l.known) (waits : ∀ u, l.parts u ≠ some .waiting)
    (row : l.row = some slice) (free : ∀ u, l.carries u ≠ some slice)
    (runs : l.Started slice → ∃ u, l.runs u = some slice) :
    (l.setScheduled slice True).Sound := by
  have cases_of {s : Slice} (has : (l.setScheduled slice True).scheduled s) :
      s = slice ∨ l.scheduled s := by
    simp only [Life.setScheduled, Function.update_apply] at has
    split at has
    · exact .inl ‹_›
    · exact .inr has
  refine ⟨fun unknown => absurd known unknown, fun u waits' => absurd waits' (waits u), sound.claim,
    sound.holds, ?behind, sound.carrier, ?carries, ?rest, sound.once⟩
  case behind =>
    rintro s r row' (pending | others)
    · rcases cases_of pending with rfl | pending
      · obtain rfl := Option.some.inj (row.symm.trans row')
        exact le_refl s
      · exact sound.behind s r row' (.inl pending)
    · exact sound.behind s r row' (.inr others)
  case carries =>
    intro u s has
    obtain ⟨row', pending, others⟩ := sound.carries u s has
    refine ⟨row', fun pending' => ?_, others⟩
    rcases cases_of pending' with rfl | pending'
    · exact free u has
    · exact pending pending'
  case rest =>
    intro s row' started
    rcases sound.rest s row' started with running | ⟨pending, others⟩
    · exact .inl running
    · obtain rfl := Option.some.inj (row.symm.trans row')
      exact .inl (runs started)

/-- A task claims the job for a slice of which it is pending. -/
theorem claim_anew (sound : l.Sound) (known : l.known) (waits : ∀ u, l.parts u ≠ some .waiting)
    (part : l.parts t = none) (behind : ∀ r, l.row = some r → slice ≤ r)
    (free : ∀ u, l.claims u ≠ some slice) (uncarried : ∀ u, l.carries u ≠ some slice)
    (unstarted : l.row = some slice → ¬ l.Started slice) :
    (l.go t (some (.claimed slice))).Sound := by
  have cases_of {u : Nat × Nat} {s : Slice}
      (has : (l.go t (some (.claimed slice))).claims u = some s) :
      u = t ∧ slice = s ∨ l.claims u = some s := by
    rw [claims_go] at has
    split at has
    · exact .inl ⟨‹_›, Option.some.inj has⟩
    · exact .inr has
  have carried {u : Nat × Nat} {s : Slice}
      (has : (l.go t (some (.claimed slice))).carries u = some s) : l.carries u = some s := by
    rw [carries_go] at has
    split at has
    · cases has
    · exact has
  refine ⟨fun unknown => absurd known unknown, fun u waits' => ?waiting, ?claim, ?holds, ?behind,
    ?carrier, ?carries, ?rest, sound.once⟩
  case waiting =>
    rw [parts_go] at waits'
    split at waits'
    · cases waits'
    · exact absurd waits' (waits u)
  case claim =>
    intro u v s first second
    rcases cases_of first with ⟨rfl, rfl⟩ | before
    · rcases cases_of second with ⟨rfl, -⟩ | before'
      · rfl
      · exact absurd before' (free v)
    · rcases cases_of second with ⟨rfl, rfl⟩ | before'
      · exact absurd before (free u)
      · exact sound.claim u v s before before'
  case holds =>
    intro u s has
    rw [holds_go] at has
    split at has
    · cases has
    · exact sound.holds u s has
  case behind =>
    rintro s r row (pending | ⟨u, has⟩ | started)
    · exact sound.behind s r row (.inl pending)
    · rcases cases_of has with ⟨-, rfl⟩ | has
      · exact behind r row
      · exact sound.behind s r row (.inr (.inl ⟨u, has⟩))
    · exact sound.behind s r row (.inr (.inr started))
  case carrier =>
    exact fun u v s first second => sound.carrier u v s (carried first) (carried second)
  case carries =>
    intro u s has
    obtain ⟨row, pending, others, started⟩ := sound.carries u s (carried has)
    refine ⟨row, pending, fun v claims => ?_, started⟩
    rcases cases_of claims with ⟨-, rfl⟩ | claims
    · exact uncarried u (carried has)
    · exact others v claims
  case rest =>
    intro s row started
    rcases sound.rest s row started with ⟨u, running⟩ | ⟨pending, others⟩
    · refine .inl ⟨u, ?_⟩
      rw [runs_go, if_neg]
      · exact running
      · rintro rfl
        rw [Life.runs, part] at running
        cases running
    · refine .inr ⟨pending, fun v claims => ?_⟩
      rcases cases_of claims with ⟨-, rfl⟩ | claims
      · exact unstarted row started
      · exact others v claims

/-- A task starts the job that it has claimed. -/
theorem count (sound : l.Sound) {i : Nat} (known : l.known) (waits : ∀ u, l.parts u ≠ some .waiting)
    (row : l.row = some slice) (running : l.runs t = some slice) (unstarted : ¬ l.Started slice) :
    (l.start i slice).Sound := by
  have unstarted (j : Nat) : l.starts j slice = 0 := by
    by_contra started
    exact unstarted ⟨j, started⟩
  have starts (j : Nat) (s : Slice) : (l.start i slice).starts j s =
      if s = slice then if j = i then 1 else 0 else l.starts j s := by
    simp only [Life.start, Function.update_apply]
    by_cases here : j = i
    · subst here
      rw [if_pos rfl, Function.update_apply, unstarted]
      split <;> simp
    · rw [if_neg here]
      split
      · subst s
        exact unstarted j
      · rfl
  have cases_of {s : Slice} (started : (l.start i slice).Started s) : s = slice ∨ l.Started s := by
    obtain ⟨j, some⟩ := started
    rw [starts] at some
    split at some
    · exact .inl ‹_›
    · exact .inr ⟨j, some⟩
  refine ⟨fun unknown => absurd known unknown, fun u waits' => absurd waits' (waits u), sound.claim,
    sound.holds, ?behind, sound.carrier, ?carries, ?rest, ?once⟩
  case behind =>
    rintro s r row' (pending | claims | started)
    · exact sound.behind s r row' (.inl pending)
    · exact sound.behind s r row' (.inr (.inl claims))
    · rcases cases_of started with rfl | started
      · obtain rfl := Option.some.inj (row.symm.trans row')
        exact le_refl s
      · exact sound.behind s r row' (.inr (.inr started))
  case carries =>
    intro u s has
    obtain ⟨row', pending, others, started⟩ := sound.carries u s has
    refine ⟨row', pending, others, fun started' => ?_⟩
    rcases cases_of started' with rfl | started'
    · exact others t (claims_of_runs running)
    · exact started started'
  case rest =>
    intro s row' started
    obtain rfl := Option.some.inj (row.symm.trans row')
    exact .inl ⟨t, running⟩
  case once =>
    intro j j' s some some'
    rw [starts] at some some' ⊢
    split at some
    · grind
    · rw [if_neg ‹_›] at some' ⊢
      exact sound.once j j' s some some'

/-- Who knows the row to name the slice of a claim does so alone, and nobody is about to enter the
job. -/
theorem alone (sound : l.Sound) (holds : l.holds t = some slice) :
    (∀ u, l.carries u = none) ∧ ∀ u, u ≠ t → l.holds u = none := by
  have row := sound.holds t slice holds
  refine ⟨fun u => ?_, fun u other => ?_⟩
  · cases has : l.carries u with
    | none => rfl
    | some s =>
      obtain ⟨row', -, free, -⟩ := sound.carries u s has
      obtain rfl := Option.some.inj (row.symm.trans row')
      exact absurd (claims_of_holds holds) (free t)
  · cases has : l.holds u with
    | none => rfl
    | some s =>
      obtain rfl := Option.some.inj (row.symm.trans (sound.holds u s has))
      exact absurd (sound.claim u t slice (claims_of_holds has) (claims_of_holds holds)) other

end JobLifeLemmas

open JobLifeLemmas

namespace Life

variable {l l' : Life}

/-- The job moves to another trigger. -/
theorem Sound.update (sound : l.Sound) {t : Nat × Nat} {slice target : Slice}
    (part : l.parts t = some (.busy slice)) (le : slice ≤ target) :
    Sound { l.go t (some (.moving slice target)) with row := some target } := by
  have holds : l.holds t = some slice := by rw [Life.holds, part]; rfl
  have claims : l.claims t = some slice := claims_of_holds holds
  have row : l.row = some slice := sound.holds t slice holds
  obtain ⟨uncarried, alone⟩ := alone sound holds
  have claims_same (u : Nat × Nat) :
      (l.go t (some (.moving slice target))).claims u = l.claims u := by
    rw [claims_go]
    split
    · subst u
      exact claims.symm
    · rfl
  have before {s : Slice} (has : l.scheduled s ∨ (∃ u, l.claims u = some s) ∨ l.Started s) :
      s ≤ slice := sound.behind s slice row has
  have carried {u : Nat × Nat} {s : Slice}
      (has : (l.go t (some (.moving slice target))).carries u = some s) :
      u = t ∧ slice ≠ target ∧ target = s := by
    rw [carries_go] at has
    split at has
    · simp only [Option.bind_some, Part.carries?, Option.ite_none_left_eq_some,
        Option.some.injEq] at has
      exact ⟨‹_›, has⟩
    · cases (uncarried u).symm.trans has
  have known : l.known := known_of_part sound (by rw [part]; nofun)
  refine ⟨fun unknown => absurd known unknown, fun u waits => ?waiting, ?claim, ?holds, ?behind,
    ?carrier, ?carries, ?rest, sound.once⟩
  case waiting =>
    exact absurd waits
      (not_waiting_go (x := some (.moving slice target)) sound part nofun nofun u)
  case claim =>
    intro u v s first second
    exact sound.claim u v s ((claims_same u).symm.trans first) ((claims_same v).symm.trans second)
  case holds =>
    intro u s has
    have has : (l.go t (some (.moving slice target))).holds u = some s := has
    rw [holds_go] at has
    split at has
    · simp only [Option.bind_some, Part.holds?, Option.ite_none_right_eq_some,
        Option.some.injEq] at has
      obtain ⟨rfl, rfl⟩ := has
      rfl
    · cases (alone u ‹_›).symm.trans has
  case behind =>
    intro s r same has
    obtain rfl := Option.some.inj same
    refine le_trans (before ?_) le
    rcases has with pending | ⟨u, has⟩ | started
    · exact .inl pending
    · exact .inr (.inl ⟨u, (claims_same u).symm.trans has⟩)
    · exact .inr (.inr started)
  case carrier =>
    intro u v s first second
    rw [(carried first).1, (carried second).1]
  case carries =>
    intro u s has
    obtain ⟨rfl, other, rfl⟩ := carried has
    have less : slice < target := lt_of_le_of_ne le other
    refine ⟨rfl, fun pending => ?_, fun v has => ?_, fun started => ?_⟩
    · exact absurd (before (.inl pending)) (not_le_of_gt less)
    · exact absurd (before (.inr (.inl ⟨v, (claims_same v).symm.trans has⟩))) (not_le_of_gt less)
    · exact absurd (before (.inr (.inr started))) (not_le_of_gt less)
  case rest =>
    intro s same started
    obtain rfl := Option.some.inj same
    obtain rfl : slice = target := le_antisymm le (before (.inr (.inr started)))
    refine .inl ⟨t, ?_⟩
    show (l.go t _).runs t = _
    rw [runs_go, if_pos rfl]
    rfl

/-- The row of the job is deleted. -/
theorem Sound.delete (sound : l.Sound) {t : Nat × Nat} {slice : Slice}
    (part : l.parts t = some (.busy slice)) : Sound { l.go t none with row := none } := by
  have holds : l.holds t = some slice := by rw [Life.holds, part]; rfl
  obtain ⟨uncarried, alone⟩ := alone sound holds
  have claimed {u : Nat × Nat} {s : Slice} (has : (l.go t none).claims u = some s) :
      l.claims u = some s := by
    rw [claims_go] at has
    split at has
    · cases has
    · exact has
  have carried (u : Nat × Nat) : (l.go t none).carries u = none := by
    rw [carries_go]
    split
    · rfl
    · exact uncarried u
  have known : l.known := known_of_part sound (by rw [part]; nofun)
  refine ⟨fun unknown => absurd known unknown, fun u waits => ?waiting, ?claim,
    fun u s has => ?holds, fun s r row => ?behind, fun u v s first => ?carrier,
    fun u s has => ?carries, fun s row => ?rest, sound.once⟩
  case waiting =>
    exact absurd waits (not_waiting_go (x := none) sound part nofun nofun u)
  case claim =>
    exact fun u v s first second => sound.claim u v s (claimed first) (claimed second)
  case holds =>
    have has : (l.go t none).holds u = some s := has
    rw [holds_go] at has
    split at has
    · cases has
    · cases (alone u ‹_›).symm.trans has
  case behind =>
    cases row
  case carrier =>
    cases (carried u).symm.trans first
  case carries =>
    cases (carried u).symm.trans has
  case rest =>
    cases row

/-- The job is submitted. -/
theorem Sound.submit (sound : l.Sound) (t : Nat × Nat) {x : Option Part} (unknown : ¬ l.known)
    (begins : x = none ∨ x = some .waiting) : Sound { l.go t x with known := True } := by
  obtain ⟨blank, free⟩ := sound.unknown unknown
  have free' (u : Nat × Nat) (other : u ≠ t) : (l.go t x).parts u = none := by
    rw [parts_go, if_neg other]
    exact free u
  have idle {c : Part → Option Slice} (plain : c .waiting = none) (u : Nat × Nat) :
      ((l.go t x).parts u).bind c = none := by
    rw [parts_go]
    split
    · rcases begins with rfl | rfl
      · rfl
      · exact plain
    · rw [free u]
      rfl
  refine ⟨fun unknown => absurd trivial unknown,
    fun u waits => ⟨⟨blank.row, blank.scheduled, blank.starts⟩, fun v other => free' v ?waiting⟩,
    ?claim, ?holds, ?behind, ?carrier, ?carries, ?rest, sound.once⟩
  case waiting =>
    by_cases here : u = t
    · exact here ▸ other
    · cases (free' u here).symm.trans waits
  case claim =>
    exact fun u v s first => absurd ((idle rfl u).symm.trans first) nofun
  case holds =>
    exact fun u s has => absurd ((idle rfl u).symm.trans has) nofun
  case behind =>
    exact fun s r row => absurd (blank.row.symm.trans row) nofun
  case carrier =>
    exact fun u v s first => absurd ((idle rfl u).symm.trans first) nofun
  case carries =>
    exact fun u s has => absurd ((idle rfl u).symm.trans has) nofun
  case rest =>
    exact fun s row => absurd (blank.row.symm.trans row) nofun

/-- The submission stores the job. -/
theorem Sound.store (sound : l.Sound) {t : Nat × Nat} (slice : Slice)
    (part : l.parts t = some .waiting) :
    Sound { l.go t (some (.entering slice)) with row := some slice } := by
  obtain ⟨blank, free⟩ := sound.waiting t part
  have here {c : Part → Option Slice} {u : Nat × Nat} {s : Slice}
      (has : ((l.go t (some (.entering slice))).parts u).bind c = some s) :
      u = t ∧ c (.entering slice) = some s := by
    rw [parts_go] at has
    split at has
    · exact ⟨‹_›, has⟩
    · rw [free u ‹_›] at has
      cases has
  have known : l.known := known_of_part sound (by rw [part]; nofun)
  refine ⟨fun unknown => absurd known unknown, fun u waits => ?waiting, ?claim, ?holds, ?behind,
    ?carrier, ?carries, ?rest, sound.once⟩
  case waiting =>
    have waits : (l.go t (some (.entering slice))).parts u = some .waiting := waits
    rw [parts_go] at waits
    split at waits
    · cases waits
    · cases (free u ‹_›).symm.trans waits
  case claim =>
    exact fun u v s first => absurd (here first).2 nofun
  case holds =>
    exact fun u s has => absurd (here has).2 nofun
  case behind =>
    rintro s r - (pending | ⟨u, has⟩ | started)
    · exact absurd pending (blank.scheduled s)
    · exact absurd (here has).2 nofun
    · exact absurd started (blank.starts s)
  case carrier =>
    intro u v s first second
    rw [(here first).1, (here second).1]
  case carries =>
    intro u s has
    exact ⟨(here has).2, blank.scheduled s, fun v claims => absurd (here claims).2 nofun,
      blank.starts s⟩
  case rest =>
    exact fun s row started => absurd started (blank.starts s)

/-- The job is entered into the slice that its row names. -/
theorem Sound.enter (sound : l.Sound) {t : Nat × Nat} {p : Part} {y : Option Part} {slice : Slice}
    (part : l.parts t = some p) (carries : p.carries? = some slice) (waits : y ≠ some .waiting)
    (claims : y.bind Part.claims? = p.claims?) (holds : y.bind Part.holds? = none)
    (spent : y.bind Part.carries? = none) (runs : y.bind Part.started? = p.started?) :
    ((l.go t y).setScheduled slice True).Sound := by
  have carried : l.carries t = some slice := by rw [Life.carries, part]; exact carries
  obtain ⟨row, -, -, unstarted⟩ := sound.carries t slice carried
  have plain : p ≠ .waiting := by rintro rfl; cases carries
  have sound' : (l.go t y).Sound := by
    refine become sound part waits (fun s has => claims ▸ has) (fun s has => ?_) spent
      (fun s has => .inl (runs ▸ has))
    cases holds.symm.trans has
  have known : l.known := known_of_part sound (by rw [part]; nofun)
  refine fill sound' known (not_waiting_go sound part plain waits) row (fun u => ?_)
    (fun started => absurd started unstarted)
  rw [carries_go]
  split
  · rw [spent]
    nofun
  · exact fun has => absurd (sound.carrier u t slice has carried) ‹_›

/-- A task claims the job for a slice that it is pending in. -/
theorem Sound.take (sound : l.Sound) {t : Nat × Nat} {slice : Slice} (free : l.parts t = none)
    (pending : l.scheduled slice) (unclaimed : ∀ u, l.claims u ≠ some slice) :
    (l.go t (some (.claimed slice))).Sound := by
  have known : l.known := by
    by_contra unknown
    exact (sound.unknown unknown).1.scheduled slice pending
  refine claim_anew sound known (fun u waits => (sound.waiting u waits).1.scheduled slice pending)
    free (fun r row => sound.behind slice r row (.inl pending)) unclaimed (fun u has => ?_)
    (fun row started => ?_)
  · exact (sound.carries u slice has).2.1 pending
  · -- a job that was started for this slice is at work, and so claimed, or pending no more
    rcases sound.rest slice row started with ⟨u, runs⟩ | ⟨spent, -⟩
    · exact unclaimed u (claims_of_runs runs)
    · exact spent pending

/-- A task hands its claim of the job to another. -/
theorem Sound.hand (sound : l.Sound) {t u : Nat × Nat} {slice : Slice}
    (part : l.parts t = some (.claimed slice)) (free : l.parts u = none) :
    ((l.go u (some (.claimed slice))).go t none).Sound := by
  have claimed : l.claims t = some slice := by rw [Life.claims, part]; rfl
  have known : l.known := known_of_part sound (by rw [part]; nofun)
  have other : t ≠ u := by
    rintro rfl
    cases part.symm.trans free
  -- in this order no two tasks claim the job at once
  have swap : (l.go u (some (.claimed slice))).go t none =
      (l.go t none).go u (some (.claimed slice)) := by
    simp only [go]
    rw [Function.update_comm other]
  rw [swap]
  refine claim_anew (give_up sound part (fun s has => (by cases has))) known
    (not_waiting_go sound part nofun nofun) ?_
    (fun r row => sound.behind slice r row (.inr (.inl ⟨t, claimed⟩))) (fun v => ?_) (fun v => ?_)
    (fun row started => ?_)
  · rw [parts_go, if_neg (Ne.symm other)]
    exact free
  · rw [claims_go]
    split
    · nofun
    · exact fun has => absurd (sound.claim v t slice has claimed) ‹_›
  · rw [carries_go]
    split
    · nofun
    · exact fun has => (sound.carries v slice has).2.2.1 t claimed
  · rcases sound.rest slice row started with ⟨v, runs⟩ | ⟨-, spent⟩
    · obtain rfl := sound.claim v t slice (claims_of_runs runs) claimed
      rw [Life.runs, part] at runs
      cases runs
    · exact spent t claimed

/-- A task starts the job. -/
theorem Sound.start (sound : l.Sound) {t : Nat × Nat} {slice : Slice}
    (part : l.parts t = some (.ready slice)) :
    ((l.go t (some (.busy slice))).start t.1 slice).Sound := by
  have holds : l.holds t = some slice := by rw [Life.holds, part]; rfl
  have known : l.known := known_of_part sound (by rw [part]; nofun)
  have row := sound.holds t slice holds
  have claimed := claims_of_holds holds
  have busy : (l.go t (some (.busy slice))).Sound :=
    look_at sound part nofun rfl (fun s has => row.trans has) rfl rfl
  refine count (t := t) busy known (not_waiting_go sound part nofun nofun) row ?_
    (fun started => ?_)
  · rw [runs_go, if_pos rfl]
    rfl
  · -- who started it before is still at work, or has taken it out of the slice
    rcases sound.rest slice row started with ⟨u, runs⟩ | ⟨-, spent⟩
    · obtain rfl := sound.claim u t slice (claims_of_runs runs) claimed
      rw [Life.runs, part] at runs
      cases runs
    · exact spent t claimed

/-- A task enters the job into the slice that its row has come to name. -/
theorem Sound.index (sound : l.Sound) {t : Nat × Nat} {slice target : Slice}
    (part : l.parts t = some (.moving slice target)) :
    ((l.go t (some (.finishing slice target))).setScheduled target True).Sound := by
  by_cases same : slice = target
  · -- the job stays in its slice, which the task has claimed
    subst same
    have holds : l.holds t = some slice := by rw [Life.holds, part]; exact if_pos rfl
    have known : l.known := known_of_part sound (by rw [part]; nofun)
    have row := sound.holds t slice holds
    have moved : (l.go t (some (.finishing slice slice))).Sound := by
      refine become sound part nofun (fun s has => has) (fun s has => ?_) rfl
        (fun s has => .inl has)
      exact row.trans ((if_pos rfl).symm.trans has)
    refine fill moved known (not_waiting_go sound part nofun nofun) row (fun u => ?_)
      (fun _ => ⟨t, ?_⟩)
    · rw [carries_go]
      split
      · nofun
      · rw [(alone sound holds).1 u]
        nofun
    · rw [runs_go, if_pos rfl]
      rfl
  · exact sound.enter part (if_neg same) nofun rfl (if_neg same) rfl rfl

/-- What can happen to a job keeps what holds of it at any time. -/
theorem Sound.step (sound : l.Sound) (step : l.Step l') : l'.Sound := by
  -- a task looks at the job, gives it up, or takes it a step further
  cases step with
  | idle => exact sound
  | clear slice =>
    have shrunk : (l.setScheduled slice False).Sound := shrink sound
    exact remark shrunk _
  | submit t unknown begins => exact sound.submit t unknown begins
  | refuse part => exact give_up sound part (fun s has => (by cases has))
  | store slice part unset => exact sound.store slice part
  | enter part => exact sound.enter (y := none) part rfl nofun rfl rfl rfl rfl
  | claim free pending open_ unclaimed => exact sound.take free pending unclaimed
  | hand part free => exact sound.hand part free
  | skip part other => exact look_at sound part nofun rfl (fun s has => (by cases has)) rfl rfl
  | pass part => exact remark (give_up sound part (fun s has => (by cases has))) _
  | condemn part row => exact look_at sound part nofun rfl (fun s has => row.trans has) rfl rfl
  | bury part => exact remark (give_up sound part (fun s has => (by cases has))) _
  | load part row => exact look_at sound part nofun rfl (fun s has => row.trans has) rfl rfl
  | start part => exact sound.start part
  | update part le => exact sound.update part le
  | index part => exact sound.index part
  | @finish t slice target part =>
    refine remark (l := l.go t (some (.leaving slice target))) ?_ _
    refine become sound part nofun (fun s has => has) (fun s has => ?_) rfl (fun s has => .inl has)
    exact sound.holds t s (by rw [Life.holds, part]; exact has)
  | @leave t slice target part =>
    refine give_up (l := l.setScheduled slice False) (shrink sound) part fun s has => ?_
    obtain rfl := Option.some.inj has
    simp [Life.setScheduled]
  | retire part => exact remark sound _
  | delete part => exact sound.delete part

/-- A job that was not submitted is nowhere. -/
theorem Sound.unborn (blank : l.Blank) (free : ∀ t, l.parts t = none) : l.Sound := by
  have idle (c : Part → Option Slice) (t : Nat × Nat) : (l.parts t).bind c = none := by
    rw [free t]
    rfl
  refine ⟨fun _ => ⟨blank, free⟩, fun t waits => ?waiting, fun t u s has => ?claim,
    fun t s has => ?holds, fun s r row => ?behind, fun t u s has => ?carrier,
    fun t s has => ?carries, fun s row => ?rest, fun i j s some => ?once⟩
  case waiting =>
    cases (free t).symm.trans waits
  case claim =>
    cases (idle _ t).symm.trans has
  case holds =>
    cases (idle _ t).symm.trans has
  case behind =>
    cases blank.row.symm.trans row
  case carrier =>
    cases (idle _ t).symm.trans has
  case carries =>
    cases (idle _ t).symm.trans has
  case rest =>
    cases blank.row.symm.trans row
  case once =>
    exact absurd ⟨i, some⟩ (blank.starts s)

end Life

end SliceScheduler
