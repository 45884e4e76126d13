import SliceScheduler.Json.Basic
/-!
# From JSON to records

A record is read from an object with a member for each field, or from an array with the fields in
their order. Names that no field has are passed over; a name that repeats is refused.

The parts are read in the order of the text, so that of two faults the first one shows: a text that
is not JSON is told apart from JSON of the wrong shape.
-/
namespace SliceScheduler.Json

/-- Why a value cannot be read: its text is not JSON, or it is JSON of another shape. -/
inductive Fault where
  | unreadable
  | mismatch
deriving DecidableEq, Repr

/-- The result of reading a value. -/
abbrev Decoded := Except Fault

/-- The fault of a value that has the wrong shape. -/
def refuse {α : Type} : Json → Decoded α
  | broken => .error .unreadable
  | _ => .error .mismatch

/-- A text. -/
def asString : Json → Decoded String
  | str s => .ok s
  | v => refuse v

/-- A whole number from `lo` to `hi`. -/
def asIntBetween (lo hi : Int) : Json → Decoded Int
  | int n => if lo ≤ n ∧ n ≤ hi then .ok n else .error .mismatch
  | v => refuse v

/-- A natural number below `bound`. -/
def asNatBelow (bound : Nat) : Json → Decoded Nat
  | int n => if 0 ≤ n ∧ n < bound then .ok n.toNat else .error .mismatch
  | v => refuse v

/-- Null, or a value. -/
def asOption {α : Type} (read : Json → Decoded α) : Json → Decoded (Option α)
  | null => .ok none
  | v => (read v).map some

/-- A value that is passed over. -/
def pass (v : Json) : Decoded Unit :=
  if v.isWhole then .ok () else .error .unreadable

/-- A value as a check of its own, with what it makes of a text. -/
def asParsed {α : Type} (parse : String → Option α) (v : Json) : Decoded α := do
  match parse (← v.asString) with
  | some a => .ok a
  | none => .error .mismatch

/-- The values found for the fields of a record so far, in the order of the fields. -/
abbrev Found := List (String × Option Json)

/-- Notes the value of a member: refuses a name that repeats, passes over one that no field has.
`check` reads the value at once, to find its fault where it stands. -/
def note (check : String → Json → Decoded Unit) (found : Found) (name : String) (v : Json) :
    Decoded Found :=
  match found.find? (·.1 == name) with
  | some (_, some _) => .error .mismatch
  | some (_, none) => do
    check name v
    return found.map fun field => if field.1 == name then (name, some v) else field
  | none => do
    pass v
    return found

/-- The values of the fields of a record, each present or not. An array may leave out fields at the
end and may not go on after the last one. -/
def fields (names : List String) (check : String → Json → Decoded Unit) : Json → Decoded Found
  | obj members =>
    members.foldlM (fun found (name, v) => note check found name v) (names.map (·, none))
  | arr items => do
    (names.zip items).forM fun (name, v) => check name v
    if names.length < items.length then .error .unreadable
    return names.zipIdx.map fun (name, i) => (name, items[i]?)
  | v => refuse v

/-- The value of a field that has to be there. -/
def required {α : Type} (found : Found) (name : String) (read : Json → Decoded α) : Decoded α :=
  match (found.find? (·.1 == name)).bind (·.2) with
  | some v => read v
  | none => .error .mismatch

/-- The value of a field, or what it is when it is not there. -/
def withDefault {α : Type} (found : Found) (name : String) (absent : α)
    (read : Json → Decoded α) : Decoded α :=
  match (found.find? (·.1 == name)).bind (·.2) with
  | some v => read v
  | none => .ok absent

end SliceScheduler.Json
