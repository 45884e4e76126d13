import SliceScheduler.Proofs.RowText
/-!
# The encodings of a job

A job is kept as a row of texts and numbers, and is exchanged as a record in JSON.

1. `Json.fields_obj` reads a record that has each field once and in its place, and
   `Json.recordOfText?_render` reads its text, of which no member is passed over;
2. `Job.ofJson_toJson` and `Job.ofText?_render` say that a job comes back from its record;
3. `Job.comes_back` puts the record, the trigger in it and the row together: each gives the job
   back, and so no two jobs share one.
-/
namespace SliceScheduler

namespace Json

/-! ## The fields of a record -/

section

variable {check : String → Json → Decoded Unit} {name : String} {v : Json}

theorem find?_found_eq_none {found : Found} (ne : name ∉ found.map (·.1)) :
    found.find? (·.1 == name) = none := by
  rw [List.find?_eq_none]
  intro field mem same
  exact ne (beq_iff_eq.mp same ▸ List.mem_map_of_mem mem)

/-- The value of a field is noted in the place of the field. -/
theorem note_place {before after : Found} (before_ne : name ∉ before.map (·.1))
    (after_ne : name ∉ after.map (·.1)) (checked : check name v = .ok ()) :
    note check (before ++ (name, none) :: after) name v
      = .ok (before ++ (name, some v) :: after) := by
  have others {found : Found} (ne : name ∉ found.map (·.1)) :
      found.map (fun field => if field.1 == name then (name, some v) else field) = found := by
    rw [List.map_congr_left (g := id), List.map_id]
    intro field mem
    have distinct : ¬(field.1 == name) = true := fun same =>
      ne (beq_iff_eq.mp same ▸ List.mem_map_of_mem mem)
    rw [if_neg distinct, id]
  have found : (before ++ (name, none) :: after).find? (·.1 == name) = some (name, none) := by
    rw [List.find?_append, find?_found_eq_none before_ne, Option.none_or,
      List.find?_cons_of_pos (by simp)]
  rw [note, found]
  simp only [checked, List.map_append, List.map_cons, others before_ne, others after_ne,
    beq_self_eq_true, if_true]
  rfl

/-- The members of a record that are still to come are noted one by one. -/
theorem foldlM_note {members : List (String × Json)} (before : Found)
    (distinct : (before.map (·.1) ++ members.map (·.1)).Nodup)
    (checked : ∀ m ∈ members, check m.1 m.2 = .ok ()) :
    members.foldlM (fun found (name, v) => note check found name v)
        (before ++ members.map fun m => (m.1, none))
      = (.ok (before ++ members.map fun m => (m.1, some m.2)) : Decoded Found) := by
  induction members generalizing before with
  | nil => rfl
  | cons m members ih =>
    obtain ⟨name, v⟩ := m
    rw [List.map_cons, List.nodup_middle, List.nodup_cons, List.mem_append, not_or] at distinct
    have after_ne : name ∉ (members.map fun m => (m.1, (none : Option Json))).map (·.1) := by
      rw [List.map_map]
      exact distinct.1.2
    have rest := ih (before ++ [(name, some v)])
      (by
        rw [List.map_append, List.append_assoc, List.map_singleton, List.singleton_append,
          List.nodup_middle, List.nodup_cons, List.mem_append, not_or]
        exact distinct)
      (fun m mem => checked m (List.mem_cons_of_mem _ mem))
    rw [List.append_assoc, List.append_assoc, List.singleton_append, List.singleton_append] at rest
    have noted := note_place distinct.1.1 after_ne (checked (name, v) List.mem_cons_self)
    simp only [List.foldlM_cons, List.map_cons, noted]
    exact rest

/-- A record that has each field once and in its place. -/
theorem fields_obj {members : List (String × Json)} (distinct : (members.map (·.1)).Nodup)
    (checked : ∀ m ∈ members, check m.1 m.2 = .ok ()) :
    fields (members.map (·.1)) check (obj members)
      = .ok (members.map fun m => (m.1, some m.2)) := by
  have noted := foldlM_note [] distinct checked
  rw [List.nil_append] at noted
  rw [fields, List.map_map]
  exact noted

theorem discard_of_ok {α : Type} {decoded : Decoded α} {a : α} (read : decoded = .ok a) :
    discard decoded = .ok () := by
  rw [read]
  rfl

end

/-! ## The text of a record -/

section

variable {fuel depth : Nat} {cs rest : List Char} {members : List (String × Json)}
  {passed : String → Bool}

/-- If no name is passed over, reading is the same as when every member is kept. -/
theorem readMembers_of_keepAll (read : readMembers keepAll fuel depth cs = (members, some rest))
    (kept : ∀ m ∈ members, passed m.1 = false) :
    readMembers passed fuel depth cs = (members, some rest) := by
  induction fuel generalizing cs members with
  | zero => cases read
  | succ fuel ih =>
    rw [readMembers] at read ⊢
    -- every branch but two ends without a rest of the text
    split at read
    · split at read
      · cases read
      · split at read
        · simp only [keepAll, Bool.false_eq_true, if_false] at read
          split at read
          · cases read
          · rename_i value after valueRead
            split at read
            · rename_i closed
              cases read
              have named := kept _ List.mem_cons_self
              simp only [named, Bool.false_eq_true, if_false, valueRead, closed]
            · rename_i more comma
              obtain ⟨rfl, ended⟩ := Prod.mk.inj read
              have named := kept _ List.mem_cons_self
              have others := ih (Prod.ext rfl ended)
                (fun m mem => kept m (List.mem_cons_of_mem _ mem))
              simp only [named, Bool.false_eq_true, if_false, valueRead, comma, others]
            · cases read
        · cases read
    · cases read

theorem readValue_of_keepAll (read : readValue keepAll fuel depth cs = (obj members, some rest))
    (kept : ∀ m ∈ members, passed m.1 = false) :
    readValue passed fuel depth cs = (obj members, some rest) := by
  cases fuel with
  | zero => cases read
  | succ fuel =>
    rw [readValue] at read ⊢
    -- what is passed over matters to an object alone
    split at read
    case h_6 =>
      split at read
      · cases read
      · rename_i room
        rw [if_neg room]
        split at read
        · exact read
        · obtain ⟨same, ended⟩ := Prod.mk.inj read
          obtain rfl := Json.obj.inj same
          have others := readMembers_of_keepAll (Prod.ext rfl ended) kept
          simp only [others]
    all_goals exact read

/-- The text of a record all of whose members are fields reads back as the record. -/
theorem recordOfText?_render {names : List String} (known : ∀ m ∈ members, m.1 ∈ names)
    (writable : (obj members).IsWritable deepest) :
    recordOfText? names (obj members).render = some (obj members) := by
  have whole := readValue_renderChars (obj members) (2 * (obj members).renderChars.length + 2)
    deepest [] writable (by omega) (by rintro c ⟨⟩)
  rw [List.append_nil] at whole
  have read : readValue (fun name => !names.contains name)
      (2 * (obj members).renderChars.length + 2) deepest (obj members).renderChars
        = (obj members, some []) :=
    readValue_of_keepAll whole fun m mem => by simp [known m mem]
  have last : skip [] = [] := rfl
  simp only [recordOfText?, readRecord, readPassing, render, String.toList_ofList, read, last,
    beq_self_eq_true, whole?, writable.isWhole, if_true]

end

end Json

open Json

/-! ## The record of a job -/

namespace Job

variable {job : Job} {i t n p g r : Json}

-- The values are kept abstract, so that nothing is computed from their ranges.

/-- A job is read from the values of its fields. -/
theorem ofJson_obj (id : JobId.ofJson i = .ok job.id) (type : t.asString = .ok job.type)
    (name : n.asString = .ok job.name) (parameters : parametersOfJson p = .ok job.parameters)
    (trigger : Trigger.ofJson g = .ok job.trigger) (retries : Count.ofJson r = .ok job.retries) :
    ofJson (obj [("job_id", i), ("job_type", t), ("job_name", n), ("parameters", p),
      ("trigger", g), ("retry_count", r)]) = .ok job := by
  have names : fieldNames = [("job_id", i), ("job_type", t), ("job_name", n), ("parameters", p),
    ("trigger", g), ("retry_count", r)].map (·.1) := rfl
  have distinct : fieldNames.Nodup := by decide
  rw [ofJson, names, fields_obj (names ▸ distinct)]
  · simp [required, id, type, name, parameters, trigger, retries, bind, Except.bind, pure,
      Except.pure]
  · simp [discard_of_ok id, discard_of_ok type, discard_of_ok name, discard_of_ok parameters,
      discard_of_ok trigger, discard_of_ok retries]

theorem ofJson_toJson (fits : job.trigger.IntervalFits) : ofJson job.toJson = .ok job := by
  have id : JobId.ofJson (str job.id.text) = .ok job.id := by
    rw [JobId.ofJson, asParsed, asString]
    simp only [bind, Except.bind, JobId.ofText?_text]
  exact ofJson_obj id rfl rfl (parametersOfJson_toJson job.parameters)
    (Trigger.ofJson_toJson fits) (Count.ofJson_nat job.retries)

theorem isWritable_toJson (job : Job) : job.toJson.IsWritable deepest :=
  ⟨by decide, trivial, trivial, trivial, ⟨by decide, haveWritable_map _ _⟩,
    job.trigger.isWritable_toJson (by decide), job.retries.isWord_val, trivial⟩

/-- A job comes back from the text of its record. -/
theorem ofText?_render (fits : job.trigger.IntervalFits) :
    ofText? job.toJson.render = some job := by
  have known : ∀ m ∈ [("job_id", str job.id.text), ("job_type", str job.type),
      ("job_name", str job.name), ("parameters", parametersToJson job.parameters),
      ("trigger", job.trigger.toJson), ("retry_count", nat job.retries.val)],
      m.1 ∈ fieldNames := by
    simp [fieldNames]
  have read : recordOfText? fieldNames job.toJson.render = some job.toJson :=
    recordOfText?_render known job.isWritable_toJson
  simp only [ofText?, read, ofJson_toJson fits, Option.bind_eq_bind, Option.bind_some]
  rfl

end Job

/-! ## No two share an encoding -/

theorem Trigger.render_inj {a b : Trigger} (fits : a.IntervalFits) (fits' : b.IntervalFits) :
    a.toJson.render = b.toJson.render ↔ a = b := by
  refine ⟨fun same => ?_, fun same => same ▸ rfl⟩
  have read := Trigger.ofText?_render fits
  rw [same, Trigger.ofText?_render fits'] at read
  exact (Option.some.inj read).symm

namespace Job

variable {a b : Job}

theorem render_inj (fits : a.trigger.IntervalFits) (fits' : b.trigger.IntervalFits) :
    a.toJson.render = b.toJson.render ↔ a = b := by
  refine ⟨fun same => ?_, fun same => same ▸ rfl⟩
  have read := ofText?_render fits
  rw [same, ofText?_render fits'] at read
  exact (Option.some.inj read).symm

theorem row_inj (fits : a.trigger.IntervalFits) (fits' : b.trigger.IntervalFits) :
    a.id.text = b.id.text ∧ JobRow.ofJob a = JobRow.ofJob b ↔ a = b := by
  refine ⟨fun ⟨id, row⟩ => ?_, fun same => same ▸ ⟨rfl, rfl⟩⟩
  have read := JobRow.toJob_ofJob fits
  rw [id, row, JobRow.toJob_ofJob fits'] at read
  exact (Except.ok.inj read).symm

/-- A job whose interval is whole and fits 64 bits comes back from its row and from its record, and
its trigger from the trigger in the record. So another such job differs from it in the row or in the
id that the row is kept by, and in the record, and another trigger has another text. -/
theorem comes_back {job : Job} (fits : job.trigger.IntervalFits) :
    (JobRow.ofJob job).toJob job.id.text = .ok job ∧
    (Job.ofJson job.toJson = .ok job ∧ Job.ofText? job.toJson.render = some job) ∧
    (Trigger.ofJson job.trigger.toJson = .ok job.trigger ∧
      Trigger.ofText? job.trigger.toJson.render = some job.trigger) ∧
    (∀ other : Job, other.trigger.IntervalFits → other ≠ job →
      (other.id.text, JobRow.ofJob other) ≠ (job.id.text, JobRow.ofJob job) ∧
      other.toJson.render ≠ job.toJson.render) ∧
    (∀ other : Trigger, other.IntervalFits → other ≠ job.trigger →
      other.toJson.render ≠ job.trigger.toJson.render) := by
  refine ⟨JobRow.toJob_ofJob fits, ⟨ofJson_toJson fits, ofText?_render fits⟩,
    ⟨Trigger.ofJson_toJson fits, Trigger.ofText?_render fits⟩, ?_, ?_⟩
  · intro other fits' different
    refine ⟨fun same => different ?_, fun same => different ((render_inj fits' fits).mp same)⟩
    exact (row_inj fits' fits).mp (Prod.mk.inj same)
  · exact fun other fits' different same => different ((Trigger.render_inj fits' fits).mp same)

/-- A job with characters that are escaped in all of its texts, due in a leap second of the first
minute that there is, with the longest interval and the greatest numbers. -/
def ofExtremes : Job where
  id := ⟨340282366920938463463374607431768211455, by decide⟩
  type := "a \"quoted\" \\ type"
  name := "line\nfeed, tab\t, bell \u0007 and 🕰"
  parameters := .ofList [("", "\u0000"), ("key\\", "\"\r\n")]
  trigger := .repeating
    ⟨Instant.earliest.second + 59, 1500000001, by decide, by decide, by decide, by decide⟩
    ⟨18446744073709551615000000, by decide⟩ (some .full) .full
  retries := .full

theorem ofExtremes_comes_back : ofExtremes.trigger.IntervalFits ∧
    (JobRow.ofJob ofExtremes).toJob ofExtremes.id.text = .ok ofExtremes ∧
    Job.ofText? ofExtremes.toJson.render = some ofExtremes ∧
    Trigger.ofText? ofExtremes.trigger.toJson.render = some ofExtremes.trigger :=
  have fits : ofExtremes.trigger.IntervalFits := ⟨by decide, by decide⟩
  ⟨fits, (comes_back fits).1, (comes_back fits).2.1.2, (comes_back fits).2.2.1.2⟩

end Job

end SliceScheduler
