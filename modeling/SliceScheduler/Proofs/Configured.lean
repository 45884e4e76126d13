import SliceScheduler.CommandLine.Run
import SliceScheduler.Proofs.Compression
/-!
# Nodes that are set up by a configuration

The check of a configuration bounds no number from above, so that it accepts some with which no node
can run.

1. `Config.check_eq_ok` says which configurations the check accepts, and `Config.IsBounded` what it
   leaves open;
2. `Config.isSome_start?` says that a node starts exactly when there are not too many permits;
3. `Program.ComesTo` says what a program comes to on a node with some settings, whatever it is
   answered, and `Config.stop_comesTo` that a shutdown goes on to its end;
4. `Config.containing_width` says that a slice is as wide as the configuration says;
5. `Config.keeps` is the result about compression: a node that starts with an accepted and bounded
   configuration over a store without jobs gets a compression that comes back, after blocks of the
   size that the configuration says.
-/
namespace SliceScheduler

/-! ## What a program may come to -/

/-- On a node with the settings the program comes to nothing but results of a kind, whatever its
other requests are answered. -/
inductive Program.ComesTo {α : Type} (settings : NodeSettings) (kind : α → Prop) :
    Program α → Prop
  | done {a : α} : kind a → ComesTo settings kind (.done a)
  | look {next : Desk → Program α} :
      (∀ desk, desk.settings = settings → ComesTo settings kind (next desk)) →
      ComesTo settings kind (.ask .look next)
  | ask {r : Request} {next : r.Answer → Program α} :
      (∀ answer, ComesTo settings kind (next answer)) → ComesTo settings kind (.ask r next)

namespace Program

variable {α β : Type} {settings : NodeSettings} {kind : β → Prop}

/-- A program comes to what its last part comes to. -/
theorem comesTo_andThen (p : Program α) {f : α → Program β}
    (last : ∀ a, (f a).ComesTo settings kind) : (p.andThen f).ComesTo settings kind := by
  induction p with
  | done a => exact last a
  | ask r next ih => exact .ask ih

theorem comesTo_halt : halt.ComesTo settings (· = true) :=
  .ask fun _ => .ask fun _ => .ask fun _ => .ask fun _ =>
    comesTo_andThen (discard _) fun _ => .ask fun _ => .done rfl

/-- A shutdown goes on to its end when its timeout is short enough. -/
theorem comesTo_stop (short : settings.shutdownTimeout.seconds < maxTimeoutSeconds) :
    stop.ComesTo settings (· = true) := by
  refine .look fun desk same => .ask fun atWork => ?_
  have near : ¬maxTimeoutSeconds ≤ desk.settings.shutdownTimeout.seconds := by
    rw [same]
    exact Nat.not_le.mpr short
  dsimp only [andThen]
  split
  · exact comesTo_andThen _ fun _ => comesTo_halt
  · exact comesTo_halt

end Program

theorem Desk.width_ofSettings (s : NodeSettings) (registry : Registry) :
    (Desk.ofSettings s registry).width = s.width := rfl

namespace Config

variable {c : Config} {s : NodeSettings} {registry : Registry}

/-! ## Checked configurations -/

/-- What a configuration that passes its check says. No number is bounded from above. -/
structure IsAccepted (c : Config) : Prop where
  width : c.sliceWidthSecs ≠ 0
  tick : c.tickIntervalSecs ≠ some 0
  tickWithin : c.tickSecs ≤ c.sliceWidthSecs
  jobs : c.maxConcurrentJobs ≠ 0
  catchUp : c.maxCatchUpSlices ≠ 0
  node : c.nodeId.any Text.isBlankText = false
  path : c.storage.path?.any Text.isBlankText = false
  address : c.api.enabled = true → ∃ address, c.api.address = .ok address
  blocks : ∃ size?, c.blockSize? = .ok size? ∧
    ∀ size, size? = some size → size.seconds % c.sliceWidthSecs = 0

theorem refuseIf_eq_ok {b : Bool} {e : ConfigError} {u : Unit} :
    refuseIf b e = .ok u ↔ b = false := by
  cases b <;> simp [refuseIf]

theorem checkBlockSize_eq_ok : c.checkBlockSize = .ok () ↔
    ∃ size?, c.blockSize? = .ok size? ∧
      ∀ size, size? = some size → size.seconds % c.sliceWidthSecs = 0 := by
  simp only [checkBlockSize, Maintenance.bind_eq_ok]
  refine exists_congr fun size? => and_congr_right fun _ => ?_
  cases size? with
  | none => simp [pure, Except.pure]
  | some size => simp [refuseIf_eq_ok]

theorem check_eq_ok : c.check = .ok () ↔ c.IsAccepted := by
  have last : (if c.api.enabled then do discard c.api.address; c.checkBlockSize
      else c.checkBlockSize) = .ok () ↔
      (c.api.enabled = true → ∃ address, c.api.address = .ok address) ∧
        c.checkBlockSize = .ok () := by
    split
    · rename_i enabled
      simp only [enabled, true_imp_iff, Maintenance.bind_eq_ok, Maintenance.discard_eq_ok,
        exists_const]
    · rename_i disabled
      exact (and_iff_right fun enabled => absurd enabled disabled).symm
  simp only [check, Maintenance.bind_eq_ok, refuseIf_eq_ok, decide_eq_false_iff_not, exists_const,
    last, checkBlockSize_eq_ok]
  constructor
  · rintro ⟨width, tick, within, jobs, catchUp, node, path, address, blocks⟩
    exact ⟨width, tick, Nat.le_of_not_lt within, jobs, catchUp, node, path, address, blocks⟩
  · rintro ⟨width, tick, within, jobs, catchUp, node, path, address, blocks⟩
    exact ⟨width, tick, Nat.not_lt_of_le within, jobs, catchUp, node, path, address, blocks⟩

/-- What the check leaves open: a node can have so many permits at most, the milliseconds of a slice
have to fit a signed 64-bit word, and so do the seconds of a shutdown. -/
structure IsBounded (c : Config) : Prop where
  permits : c.maxConcurrentJobs ≤ Node.maxPermits
  width : c.sliceWidthSecs * 1000 < Word.size63
  timeout : c.shutdownTimeoutSecs < Program.maxTimeoutSeconds

/-! ## Starting and shutting down -/

theorem width_apply (c : Config) (s : NodeSettings) : (c.apply s).width = c.sliceWidth := by
  rw [apply]
  rfl

/-- A node that is set up by an accepted configuration starts exactly when there are not too many
permits. -/
theorem isSome_start? (accepted : c.IsAccepted) :
    (Node.start? (c.apply s) registry).isSome ↔ c.maxConcurrentJobs ≤ Node.maxPermits := by
  have permits : (c.apply s).maxConcurrent = c.maxConcurrentJobs :=
    Nat.max_eq_left (Nat.pos_of_ne_zero accepted.jobs)
  rw [Node.start?, permits]
  split
  · rename_i few
    exact iff_of_true rfl few
  · rename_i many
    exact iff_of_false Bool.false_ne_true many

example : ({ standard with maxConcurrentJobs := Node.maxPermits + 1 }.check.toBool,
    (Node.start? ({ standard with maxConcurrentJobs := Node.maxPermits + 1 }.apply
      (.standard "")) ∅).isSome) = (true, false) := by
  decide +kernel

/-- The node that starts has the desk that the configuration sets up. -/
theorem desk_of_start? {node : Node} (started : Node.start? (c.apply s) registry = some node) :
    node.desk = .ofSettings (c.apply s) registry := by
  unfold Node.start? at started
  split at started
  · exact Option.some.inj started ▸ rfl
  · cases started

/-- A shutdown goes on to its end, whatever is at work. -/
theorem stop_comesTo (bounded : c.IsBounded) :
    Program.stop.ComesTo (c.apply s) (· = true) := by
  have fits : c.shutdownTimeoutSecs < Word.size64 :=
    Nat.lt_trans bounded.timeout (by decide)
  refine Program.comesTo_stop ?_
  show (Duration.ofSeconds c.shutdownTimeoutSecs).seconds < _
  rw [Duration.seconds_ofSeconds fits]
  exact bounded.timeout

/-! ## Slices -/

theorem millis_sliceWidth (bounded : c.IsBounded) :
    c.sliceWidth.millis = c.sliceWidthSecs * 1000 := by
  have := bounded.width
  exact Duration.millis_ofSeconds (by simp only [Word.size63, Word.size64] at *; omega)

theorem sliceMillis_sliceWidth (accepted : c.IsAccepted) (bounded : c.IsBounded) :
    c.sliceWidth.sliceMillis = c.sliceWidthSecs * 1000 := by
  have fits := bounded.width
  have positive := accepted.width
  have millis := millis_sliceWidth bounded
  rw [Duration.sliceMillis_of_lt (by omega), millis]
  omega

/-- A slice is as wide as the configuration says. -/
theorem containing_width {t : Instant} (accepted : c.IsAccepted) (bounded : c.IsBounded)
    (since : 0 ≤ t.millis) (outside : ¬t.IsLeap) :
    (Slice.containing t c.sliceWidth).start ≤ t ∧
      t.millis < (Slice.containing t c.sliceWidth).millis + c.sliceWidthSecs * 1000 := by
  have reached := Slice.isReached_of_nonneg (w := c.sliceWidth) since outside
  refine ⟨Slice.start_containing_le reached outside, ?_⟩
  rw [Slice.millis_containing reached, ← sliceMillis_sliceWidth accepted bounded]
  exact Slice.lt_floorMillis_add t.millis c.sliceWidth

/-! ## Compression -/

/-- The blocks of an accepted configuration have a whole number of seconds, and of slices. -/
theorem blocks_of_accepted {size : Duration} (accepted : c.IsAccepted)
    (enabled : c.blockSize? = .ok (some size)) :
    nanosPerSecond ∣ size.nanos ∧ 0 < size.seconds ∧ c.sliceWidthSecs ∣ size.seconds := by
  obtain ⟨_, same, multiple⟩ := accepted.blocks
  obtain rfl := Except.ok.inj (enabled.symm.trans same)
  have read : Duration.ofExpression? c.compression.blockSize = some size := by
    unfold blockSize? at enabled
    split at enabled
    · split at enabled
      · rename_i parsed
        obtain rfl := Option.some.inj (Except.ok.inj enabled)
        exact Block.parseSize_eq_ok.mp (by rw [Block.parseSize, parsed]; rfl)
      · cases enabled
    · cases enabled
  obtain ⟨whole, long⟩ := Duration.whole_of_ofExpression? read
  exact ⟨whole, long, Nat.dvd_of_mod_eq_zero (multiple size rfl)⟩

/-- Each of the maintenance jobs is registered with its own check. -/
theorem registered (kind : Maintenance) : ∃ registration,
    CommandLine.maintenanceRegistry[kind.jobType]? = some registration ∧
      registration.check = kind.check := by
  obtain ⟨place, listed⟩ : ∃ place, (kind, place) ∈ Maintenance.all.zipIdx := by
    cases kind with
    | deleteTenant => exact ⟨0, .head _⟩
    | deleteMetric => exact ⟨1, .tail _ (.head _)⟩
    | compress => exact ⟨2, .tail _ (.tail _ (.head _))⟩
  refine ⟨⟨place, kind.check, kind.policy⟩, Std.ExtTreeMap.getElem?_ofList_of_mem
    (k := kind.jobType) Std.ReflCmp.compare_self ?_ (List.mem_map.mpr ⟨_, listed, rfl⟩), rfl⟩
  decide

section Start

open Program.Submission

variable {pattern : FaultPattern} {id : JobId} {size : Duration} {node : Node} {now : Instant}
variable {store : MemoryStore}

/-- A node that is set up by an accepted and bounded configuration, and that starts over a store
without jobs, gets a compression that comes back, as long as two blocks after the clock are in
range. -/
theorem keeps (quiet : ∀ n, pattern n = none) (accepted : c.IsAccepted) (bounded : c.IsBounded)
    (started : Node.start? (c.apply s) CommandLine.maintenanceRegistry = some node)
    (enabled : c.blockSize? = .ok (some size)) (since : 0 ≤ now.millis) (outside : ¬now.IsLeap)
    (inRange : now.millis + 2 * size.millis < (maxSecond + 1) * 1000)
    (behind : ∀ pointer, store.pointer = some pointer → pointer ≤ Slice.containing now c.sliceWidth)
    (free : ∀ other : JobId, store.jobs[other]? = none)
    (unfinished : ∀ slice, ¬store.finishedIn id slice) (n : Nat) :
    Ends pattern (Maintenance.keepCompression id size) (resting node.desk (.memory store) now n)
      (fun _ s' => ∃ m, s'.store.store = .memory m ∧ m.KeepsCompression id size c.sliceWidth)
      (fun _ _ => False) := by
  obtain ⟨whole, long, multiple⟩ := blocks_of_accepted accepted enabled
  have slices : max c.sliceWidth.millis 1 ∣ size.millis := by
    have wide : 1 ≤ c.sliceWidthSecs * 1000 :=
      Nat.mul_pos (Nat.pos_of_ne_zero accepted.width) (by decide)
    rw [millis_sliceWidth bounded, Nat.max_eq_left wide, Duration.millis_of_dvd whole]
    exact Nat.mul_dvd_mul_right multiple 1000
  have lacks {p : JobId → Job → Prop} (other : JobId) (job : Job)
      (row : store.jobs[other]? = some job) : p other job := by
    cases (free other).symm.trans row
  have starts := desk_of_start? started
  have width : node.desk.width = c.sliceWidth := by
    rw [starts, Desk.width_ofSettings, width_apply]
  have running : node.desk.mode = .running := starts ▸ rfl
  have moving : node.desk.stopped = false := starts ▸ rfl
  have registry : node.desk.registry = CommandLine.maintenanceRegistry := starts ▸ rfl
  rw [← width] at slices behind ⊢
  obtain ⟨trigger, admits⟩ := Maintenance.Admits.of_clock (running ▸ nofun) moving
    (registry ▸ registered .compress) whole long slices since outside inRange behind lacks (free id)
    unfinished lacks
  exact Maintenance.keeps_of_admits quiet n admits

end Start

end Config

end SliceScheduler
