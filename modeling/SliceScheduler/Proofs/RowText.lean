import SliceScheduler.Proofs.IdText
import SliceScheduler.Proofs.JsonText
import SliceScheduler.Proofs.OrderedMaps
import SliceScheduler.Proofs.TimeText
import SliceScheduler.Proofs.WholeTimes
import SliceScheduler.Store.Table
/-!
# Reading back the row of a job

1. `parametersOfText?_render` and `Trigger.ofText?_render` say that parameters and triggers come
   back from their JSON text;
2. `JobRow.toJob_ofJob` says that a job comes back from its row;
3. `Trigger.intervalFits_of_ofText?` says that what is read from a text can be written and read
   again.

The interval of a trigger is written as a word of milliseconds: it comes back if it is whole and
fits.
-/
namespace SliceScheduler

open Json

/-! ## Parameters -/

theorem parametersOfJson_map (entries : List (String × String)) (found : Parameters) :
    (entries.map fun (name, value) => (name, str value)).foldlM
        (fun parameters (name, v) => return parameters.insert name (← v.asString)) found
      = (Except.ok (entries.foldl (fun m (name, value) => m.insert name value) found) :
        Decoded Parameters) := by
  induction entries generalizing found with
  | nil => rfl
  | cons entry entries ih => exact ih (found.insert entry.1 entry.2)

theorem haveWritable_map (entries : List (String × String)) (depth : Nat) :
    HaveWritable depth (entries.map fun (name, value) => (name, str value)) := by
  induction entries with
  | nil => trivial
  | cons entry entries ih => exact ⟨trivial, ih⟩

theorem parametersOfJson_toJson (p : Parameters) :
    parametersOfJson (parametersToJson p) = .ok p := by
  rw [parametersToJson, parametersOfJson, parametersOfJson_map, OrderedMap.foldl_insert_toList]

theorem parametersOfText?_render (p : Parameters) :
    parametersOfText? (parametersToJson p).render = some p := by
  have read : ofText? (parametersToJson p).render = some (parametersToJson p) :=
    ofText?_render ⟨by decide, haveWritable_map p.toList _⟩
  simp only [parametersOfText?, read, parametersOfJson_toJson, Option.bind_eq_bind,
    Option.bind_some]
  rfl

/-! ## Triggers -/

theorem Count.ofNat?_val (c : Count) : Count.ofNat? c.val = some c := dif_pos c.val_le

theorem asNatBelow_nat {bound n : Nat} (fits : n < bound) : asNatBelow bound (nat n) = .ok n := by
  rw [nat, asNatBelow, if_pos ⟨Int.natCast_nonneg n, Int.ofNat_lt.mpr fits⟩, Int.toNat_natCast]

theorem Count.ofJson_nat (c : Count) : Count.ofJson (nat c.val) = .ok c := by
  rw [Count.ofJson, asNatBelow_nat (Nat.lt_succ_of_le c.val_le)]
  simp only [bind, Except.bind, Count.ofNat?_val]

theorem Instant.ofJson_timestamp (t : Instant) : Instant.ofJson (str t.timestamp) = .ok t := by
  rw [Instant.ofJson, asParsed, asString]
  simp only [bind, Except.bind, Instant.ofTimestamp?_timestamp]

theorem Duration.ofMillis_millis {d : Duration} (whole : d.IsWhole) :
    Duration.ofMillis d.millis = d := by
  have whole : d.millis * nanosPerMilli = d.nanos := Nat.div_mul_cancel whole
  rw [Duration.ofMillis, whole, Duration.ofNanos?, dif_pos d.nanos_lt]
  rfl

theorem Duration.ofJsonMillis_nat {d : Duration} (whole : d.IsWhole)
    (fits : d.millis < Word.size64) : Duration.ofJsonMillis (nat d.unsignedMillis) = .ok d := by
  rw [Duration.ofJsonMillis, Duration.unsignedMillis, Nat.mod_eq_of_lt fits, asNatBelow_nat fits]
  exact congrArg Except.ok (Duration.ofMillis_millis whole)

theorem singleOfJson_ok (time : Instant) :
    Trigger.singleOfJson (obj [("trigger_time", str time.timestamp)]) = .ok (.single time) := by
  simp [Trigger.singleOfJson, fields, note, discard, required, Instant.ofJson_timestamp, bind,
    Except.bind, pure, Except.pure, Functor.mapConst, Except.map]

section

variable {time : Instant} {interval : Duration} {limit count : Count} {t v l n : Json}

-- The numbers are kept abstract, so that nothing is computed from their ranges.

theorem repeatingOfJson_none (start : Instant.ofJson t = .ok time)
    (millis : Duration.ofJsonMillis v = .ok interval) (past : Count.ofJson n = .ok count) :
    Trigger.repeatingOfJson (obj [("trigger_time", t), ("interval_ms", v), ("execution_count", n)])
      = .ok (.repeating time interval none count) := by
  simp [Trigger.repeatingOfJson, fields, note, discard, required, withDefault, start, past, millis,
    bind, Except.bind, pure, Except.pure, Functor.mapConst, Except.map]

theorem repeatingOfJson_some (start : Instant.ofJson t = .ok time)
    (millis : Duration.ofJsonMillis v = .ok interval)
    (limited : asOption Count.ofJson l = .ok (some limit)) (past : Count.ofJson n = .ok count) :
    Trigger.repeatingOfJson (obj [("trigger_time", t), ("interval_ms", v), ("repeat_limit", l),
        ("execution_count", n)]) = .ok (.repeating time interval (some limit) count) := by
  simp [Trigger.repeatingOfJson, fields, note, discard, required, withDefault, start, limited, past,
    millis, bind, Except.bind, pure, Except.pure, Functor.mapConst, Except.map]

end

/-- A trigger is read by its kind, which comes first, and by the members after it. -/
theorem Trigger.ofJson_kind {kind : String} {others : List (String × Json)}
    (fields : ∀ field ∈ others, field.1 ≠ "type") (whole : haveWhole others) :
    Trigger.ofJson (obj (("type", str kind) :: others))
      = Trigger.kindOfJson (str kind) (obj others) := by
  have kinds : others.filter (·.1 == "type") = [] := by
    simpa [List.filter_eq_nil_iff] using fields
  have rest : others.filter (not ∘ (·.1 == "type")) = others := by
    simpa [List.filter_eq_self] using fields
  simp [Trigger.ofJson, isWhole, haveWhole, whole, List.partition_eq_filter_filter, kinds, rest]

theorem Trigger.kindOfJson_single (v : Json) :
    Trigger.kindOfJson (str "single_execution") v = Trigger.singleOfJson v := by
  simp [Trigger.kindOfJson, asString, bind, Except.bind]

theorem Trigger.kindOfJson_repeating (v : Json) :
    Trigger.kindOfJson (str "repeating") v = Trigger.repeatingOfJson v := by
  simp [Trigger.kindOfJson, asString, bind, Except.bind]

/-- The interval of a trigger is whole and fits 64 bits. -/
def Trigger.IntervalFits : Trigger → Prop
  | single _ => True
  | repeating _ interval _ _ => interval.IsWhole ∧ interval.millis < Word.size64

theorem Trigger.IsWhole.intervalFits {t : Trigger} (whole : t.IsWhole) : t.IntervalFits := by
  cases t with
  | single time => trivial
  | repeating time interval limit count => exact whole.2

theorem Trigger.ofJson_toJson {t : Trigger} (fits : t.IntervalFits) :
    Trigger.ofJson t.toJson = .ok t := by
  match t with
  | single time =>
    rw [toJson, ofJson_kind (by simp) rfl, kindOfJson_single, singleOfJson_ok]
  | repeating time interval none count =>
    have millis := Duration.ofJsonMillis_nat fits.1 fits.2
    rw [toJson]
    simp only [Option.map_none, Option.toList_none, List.cons_append, List.nil_append]
    rw [ofJson_kind (by simp) rfl, kindOfJson_repeating,
      repeatingOfJson_none (Instant.ofJson_timestamp time) millis (Count.ofJson_nat count)]
  | repeating time interval (some limit) count =>
    have millis := Duration.ofJsonMillis_nat fits.1 fits.2
    have limited : asOption Count.ofJson (nat limit.val) = .ok (some limit) := by
      rw [nat, asOption, ← nat, Count.ofJson_nat]
      · rfl
      · simp
    rw [toJson]
    simp only [Option.map_some, Option.toList_some, List.cons_append, List.nil_append]
    rw [ofJson_kind (by simp) rfl, kindOfJson_repeating,
      repeatingOfJson_some (Instant.ofJson_timestamp time) millis limited (Count.ofJson_nat count)]

theorem Count.isWord_val (c : Count) : IsWord c.val := by
  have := c.val_le
  simp only [IsWord, Word.size63, Word.size64]
  omega

theorem Duration.isWord_unsignedMillis (d : Duration) : IsWord d.unsignedMillis := by
  have : d.unsignedMillis < Word.size64 := Nat.mod_lt _ (by decide)
  simp only [IsWord, Word.size63, Word.size64] at *
  omega

theorem Trigger.isWritable_toJson (t : Trigger) {depth : Nat} (room : 0 < depth) :
    t.toJson.IsWritable depth := by
  match t with
  | single time => exact ⟨room, trivial, trivial, trivial⟩
  | repeating time interval none count =>
    exact ⟨room, trivial, trivial, interval.isWord_unsignedMillis, count.isWord_val, trivial⟩
  | repeating time interval (some limit) count =>
    exact ⟨room, trivial, trivial, interval.isWord_unsignedMillis, limit.isWord_val,
      count.isWord_val, trivial⟩

theorem Trigger.ofText?_render {t : Trigger} (fits : t.IntervalFits) :
    Trigger.ofText? t.toJson.render = some t := by
  simp only [Trigger.ofText?, Json.ofText?_render (t.isWritable_toJson (by decide)),
    Trigger.ofJson_toJson fits, Option.bind_eq_bind, Option.bind_some]
  rfl

/-! ## Triggers that were read -/

theorem Duration.fits_ofMillis {n : Nat} (word : n < Word.size64) :
    (Duration.ofMillis n).IsWhole ∧ (Duration.ofMillis n).millis < Word.size64 := by
  have inRange : n * nanosPerMilli < Word.size64 * nanosPerSecond := by
    simp only [Word.size64, nanosPerMilli, nanosPerSecond] at *
    omega
  rw [Duration.ofMillis, Duration.ofNanos?, dif_pos inRange]
  exact ⟨Nat.dvd_mul_left .., by simpa [Duration.millis, nanosPerMilli] using word⟩

theorem asNatBelow_lt {bound n : Nat} {v : Json} (read : asNatBelow bound v = .ok n) :
    n < bound := by
  cases v with
  | int i =>
    simp only [asNatBelow] at read
    split at read
    · cases read
      omega
    · cases read
  | broken => cases read
  | _ => cases read

theorem Duration.fits_of_ofJsonMillis {v : Json} {d : Duration}
    (read : Duration.ofJsonMillis v = .ok d) : d.IsWhole ∧ d.millis < Word.size64 := by
  unfold Duration.ofJsonMillis at read
  cases word : asNatBelow Word.size64 v with
  | error e =>
    rw [word] at read
    cases read
  | ok n =>
    rw [word] at read
    cases read
    exact Duration.fits_ofMillis (asNatBelow_lt word)

theorem read_of_required {α : Type} {found : Found} {name : String} {read : Json → Decoded α}
    {a : α} (present : required found name read = .ok a) : ∃ v, read v = .ok a := by
  unfold required at present
  split at present
  · exact ⟨_, present⟩
  · cases present

/-- A value that was decoded in two steps. -/
theorem decoded_bind {α β : Type} {first : Decoded α} {next : α → Decoded β} {b : β}
    (decoded : first >>= next = .ok b) : ∃ a, first = .ok a ∧ next a = .ok b := by
  cases first with
  | ok a => exact ⟨a, rfl, decoded⟩
  | error e => cases decoded

namespace Trigger

variable {v fields : Json} {t : Trigger}

theorem intervalFits_of_single (read : singleOfJson v = .ok t) : t.IntervalFits := by
  obtain ⟨found, -, read⟩ := decoded_bind read
  obtain ⟨time, -, same⟩ := decoded_bind read
  cases same
  trivial

theorem intervalFits_of_repeating (read : repeatingOfJson v = .ok t) : t.IntervalFits := by
  obtain ⟨found, -, read⟩ := decoded_bind read
  obtain ⟨time, -, read⟩ := decoded_bind read
  obtain ⟨interval, spaced, read⟩ := decoded_bind read
  obtain ⟨limit, -, read⟩ := decoded_bind read
  obtain ⟨count, -, same⟩ := decoded_bind read
  cases same
  obtain ⟨v, spaced⟩ := read_of_required spaced
  exact Duration.fits_of_ofJsonMillis spaced

theorem intervalFits_of_kind (read : kindOfJson v fields = .ok t) : t.IntervalFits := by
  obtain ⟨kind, -, read⟩ := decoded_bind read
  split at read
  · exact intervalFits_of_single read
  · exact intervalFits_of_repeating read
  · cases read

theorem intervalFits_of_ofJson (read : ofJson v = .ok t) : t.IntervalFits := by
  unfold ofJson at read
  cases whole : v.isWhole with
  | false =>
    rw [whole] at read
    cases read
  | true =>
    rw [whole] at read
    cases v with
    | obj members =>
      simp only [Bool.not_true, Bool.false_eq_true, if_false] at read
      split at read
      · exact intervalFits_of_kind read
      · cases read
    | arr items =>
      cases items with
      | nil => cases read
      | cons kind others => exact intervalFits_of_kind read
    | _ => cases read

/-- The interval of a trigger that was read is whole and fits. -/
theorem intervalFits_of_ofText? {text : String} (read : ofText? text = some t) :
    t.IntervalFits := by
  obtain ⟨v, -, read⟩ := Option.bind_eq_some_iff.mp read
  cases decoded : ofJson v with
  | ok t' =>
    rw [decoded] at read
    cases read
    exact intervalFits_of_ofJson decoded
  | error e =>
    rw [decoded] at read
    cases read

end Trigger

/-! ## Rows -/

namespace JobRow

theorem decodeId_text (id : JobId) : decodeId id.text = .ok id := by
  rw [decodeId, JobId.ofText?_text]

theorem retries_ofJob (job : Job) : (ofJob job).retries = job.retries := by
  have positive : ¬(job.retries.val : Int) < 0 := by omega
  rw [retries, ofJob, if_neg positive, Int.toNat_natCast, Count.ofNat?_val]
  rfl

/-- A job comes back from its row. -/
theorem toJob_ofJob {job : Job} (fits : job.trigger.IntervalFits) :
    (ofJob job).toJob job.id.text = .ok job := by
  have parameters : parametersOfText? (ofJob job).parameters = some job.parameters :=
    parametersOfText?_render job.parameters
  have trigger : Trigger.ofText? (ofJob job).trigger = some job.trigger :=
    Trigger.ofText?_render fits
  rw [toJob, parameters, trigger, decodeId_text, retries_ofJob]
  rfl

/-- The trigger and the id of a job that was read from a row. -/
theorem parts_of_toJob {text : String} {row : JobRow} {job : Job}
    (read : row.toJob text = .ok job) :
    Trigger.ofText? row.trigger = some job.trigger ∧ decodeId text = .ok job.id := by
  unfold toJob at read
  cases parameters : parametersOfText? row.parameters with
  | none =>
    rw [parameters] at read
    cases read
  | some p =>
    cases trigger : Trigger.ofText? row.trigger with
    | none =>
      rw [parameters, trigger] at read
      cases read
    | some t =>
      rw [parameters, trigger] at read
      cases id : decodeId text with
      | error e =>
        rw [id] at read
        cases read
      | ok i =>
        rw [id] at read
        cases read
        exact ⟨rfl, rfl⟩

end JobRow

end SliceScheduler
