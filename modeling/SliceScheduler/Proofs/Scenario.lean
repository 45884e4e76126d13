import SliceScheduler.Proofs.Run
/-!
# Runs that can be played

A list of actions can be played on a cluster, one after the other. Whether each of them is allowed is
decided on the way, so that a list that can be played to its end is a run.

1. `Cluster.play?` plays a list of actions, the earliest first;
2. `Cluster.Run.of_play` says that it is a run;
3. `Slice.minute` are the first minutes of 2024, `Job.errand` is a job to be run at the first instant
   of 2024, and `Job.soon` one for the minute after it;
4. `Action.rivals` brings two nodes to one slice, of which the second one knows only that the pointer
   was there, and `Action.passes` lets a node tick and move the pointer past a slice without jobs.
-/
namespace SliceScheduler

namespace Action

instance (w : Duration) : (a : Action) → Decidable (a.HasWidth w)
  | join settings _ _ => inferInstanceAs (Decidable (settings.width = w))
  | pass _ | register _ _ | submit _ _ _ | send _ _ _ | leave _ | receive _ | tickItself _
  | answer _ _ _ | proceed _ _ | finish _ _ _ | wake _ _ => isTrue trivial

instance (now : Instant) : (a : Action) → Decidable (a.KeepsTime now)
  | pass later => inferInstanceAs (Decidable (now ≤ later ∧ now.millis ≤ later.millis))
  | join _ _ _ | register _ _ | submit _ _ _ | send _ _ _ | leave _ | receive _ | tickItself _
  | answer _ _ _ | proceed _ _ | finish _ _ _ | wake _ _ => isTrue trivial

instance (now : Instant) : (a : Action) → Decidable (a.KeepsOrder now)
  | pass later => inferInstanceAs (Decidable (now ≤ later))
  | join _ _ _ | register _ _ | submit _ _ _ | send _ _ _ | leave _ | receive _ | tickItself _
  | answer _ _ _ | proceed _ _ | finish _ _ _ | wake _ _ => isTrue trivial

instance : (a : Action) → Decidable a.IsCalm
  | send _ _ command => inferInstanceAs (Decidable (command ≠ .shutdown))
  | leave _ => isFalse id
  | answer _ _ fault => inferInstanceAs (Decidable (fault = none))
  | pass _ | join _ _ _ | register _ _ | submit _ _ _ | receive _ | tickItself _ | proceed _ _
  | finish _ _ _ | wake _ _ => isTrue trivial

instance (c : Cluster) : (a : Action) → Decidable (a.HasName c)
  | join settings _ _ =>
    inferInstanceAs (Decidable (∀ n ∈ c.nodes, n.desk.settings.node ≠ settings.node))
  | pass _ | register _ _ | submit _ _ _ | send _ _ _ | leave _ | receive _ | tickItself _
  | answer _ _ _ | proceed _ _ | finish _ _ _ | wake _ _ => isTrue trivial

instance (past : List Action) : (a : Action) → Decidable (a.HasId past)
  | submit _ _ job => inferInstanceAs (Decidable (∀ b ∈ past, b.submitted? ≠ some job.id))
  | pass _ | join _ _ _ | register _ _ | send _ _ _ | leave _ | receive _ | tickItself _
  | answer _ _ _ | proceed _ _ | finish _ _ _ | wake _ _ => isTrue trivial

instance (w : Duration) (past : List Action) (c : Cluster) (a : Action) :
    Decidable (a.IsOrderly w past c) :=
  decidable_of_iff
    (a.HasWidth w ∧ a.KeepsTime c.now ∧ a.IsCalm ∧ a.HasName c ∧ a.HasId past)
    ⟨fun ⟨width, keeps, calm, name, id⟩ => ⟨width, keeps, calm, name, id⟩,
      fun ⟨width, keeps, calm, name, id⟩ => ⟨width, keeps, calm, name, id⟩⟩

end Action

namespace Cluster

variable (Allowed : List Action → Cluster → Action → Prop)
  [∀ past c a, Decidable (Allowed past c a)]

/-- Plays actions as long as each of them is allowed and can happen. What has happened is kept with
the cluster, the latest first. -/
def play? (past : List Action) (c : Cluster) : List Action → Option (List Action × Cluster)
  | [] => some (past, c)
  | a :: rest =>
    if Allowed past c a then
      match c.act? a with
      | some c' => play? (a :: past) c' rest
      | none => none
    else none

/-- What was played is a run. -/
theorem Run.of_play {c₀ c c' : Cluster} {past past' actions : List Action}
    (run : c₀.Run Allowed past c) (played : c.play? Allowed past actions = some (past', c')) :
    c₀.Run Allowed past' c' := by
  induction actions generalizing past c with
  | nil =>
    obtain ⟨rfl, rfl⟩ := Prod.mk.inj (Option.some.inj played)
    exact run
  | cons a rest ih =>
    unfold play? at played
    split at played
    · rename_i allowed
      cases acted : c.act? a with
      | none =>
        rw [acted] at played
        cases played
      | some next =>
        rw [acted] at played
        exact ih (.cons a run allowed acted) played
    · cases played

end Cluster

/-! ## An errand -/

/-- The first instant of 2024. -/
def Instant.newYear2024 : Instant :=
  ⟨1704067200, 0, by decide, by decide, zero_nano_lt, by decide⟩

/-- The slices of the first minutes of 2024. -/
def Slice.minute (n : Int) : Slice := .offset ⟨.newYear2024⟩ (.ofSeconds 60) n

/-- The executor of a type of job. -/
def Registry.errands : Registry :=
  Std.ExtTreeMap.empty.insert "WORK" ⟨0, fun _ => .ok (), .none⟩

/-- A job that is due at the first instant of 2024. -/
def Job.errand : Job :=
  { (default : Job) with type := "WORK", name := "errand", trigger := .single .newYear2024 }

/-- Another job of the same name, due a minute later. -/
def Job.soon : Job :=
  { Job.errand with
    id := ⟨2, by decide⟩
    trigger := .single ⟨1704067260, 0, by decide, by decide, Instant.zero_nano_lt, by decide⟩ }

/-- A node joins, a job is submitted to it, and a tick starts the job. -/
def Action.errand : List Action :=
  [.join (.standard "a") .errands 0, .answer 0 0 none, .answer 0 0 none,
    .submit 0 1 .errand, .answer 0 1 none, .answer 0 1 none, .answer 0 1 none, .answer 0 1 none,
    .send 0 2 .tick, .receive 0, .proceed 0 2, .answer 0 2 none, .proceed 0 2, .answer 0 2 none,
    .answer 0 2 none, .answer 0 3 none, .proceed 0 3, .answer 0 4 none, .answer 0 4 none]

/-! ## Two nodes -/

/-- Two nodes join, and a job is submitted to the first one. The second one reads the pointer in a
tick and is about to take the slice there. Before it does, the first one ticks, takes the slice and
starts the job. -/
def Action.rivals (a b : NodeSettings) (registry : Registry) (job : Job) : List Action :=
  [.join a registry 0, .answer 0 0 none, .answer 0 0 none, .join b registry 0, .answer 1 0 none,
    .submit 0 1 job, .answer 0 1 none, .answer 0 1 none, .answer 0 1 none, .answer 0 1 none,
    .send 1 1 .tick, .receive 1, .proceed 1 1, .answer 1 1 none, .proceed 1 1, .answer 1 1 none,
    .send 0 2 .tick, .receive 0, .proceed 0 2, .answer 0 2 none, .proceed 0 2, .answer 0 2 none,
    .answer 0 2 none, .answer 0 3 none, .proceed 0 3, .answer 0 4 none, .answer 0 4 none]

/-- A node ticks and drains the slice at the pointer, in which there are no jobs, in a task of the
number after that of the tick. It is about to move the pointer past the slice. -/
def Action.reaches (i number : Nat) : List Action :=
  [.send i number .tick, .receive i, .proceed i number, .answer i number none, .proceed i number,
    .answer i number none, .answer i number none, .answer i (number + 1) none,
    .proceed i (number + 1), .proceed i (number + 1), .answer i (number + 1) none,
    .answer i (number + 1) none, .answer i (number + 1) none]

/-- A node ticks, drains the slice at the pointer and moves the pointer past it. -/
def Action.passes (i number : Nat) : List Action :=
  Action.reaches i number ++ [.answer i (number + 1) none, .answer i (number + 1) none,
    .proceed i (number + 1), .answer i (number + 1) none, .proceed i (number + 1)]

/-! ## Tenths of a second -/

/-- So many tenths of a second into the leap second at the end of 2016. -/
def Instant.leapTenths (n : Fin 10) : Instant :=
  ⟨1483228799, 1000000000 + n.val * 100000000, by decide, by decide, by
    have := n.isLt
    rw [nanosPerSecond]
    omega, fun _ => by decide⟩

/-- The first instant of 2017, right after that leap second. -/
def Instant.newYear : Instant :=
  ⟨1483228800, 0, by decide, by decide, zero_nano_lt, by decide⟩

/-- A node of tenths of a second. -/
def NodeSettings.tenths (node : String) : NodeSettings :=
  { standard node with width := .ofMillis 100 }

end SliceScheduler
