import SliceScheduler.Json.Basic
/-!
# Results as JSON

A result is shown as its value, and a refusal as an object with its kind and, where it has one, its
wording.
-/
namespace SliceScheduler

open Json

/-- A refusal of a kind, in its wording. -/
def Json.refusal (kind message : String) : Json := obj [("error", str kind), ("message", str message)]

/-- A refusal of a kind alone. -/
def Json.refusalOf (kind : String) : Json := obj [("error", str kind)]

/-- All is well. -/
def Json.well : Json := str "ok"

/-- A value, or the refusal. -/
def Json.ofResult {ε α : Type} (refusal : ε → Json) (value : α → Json) : Except ε α → Json
  | .ok a => value a
  | .error e => refusal e

/-- Nothing but that all is well, or the refusal. -/
def Json.ofCheck {ε : Type} (refusal : ε → Json) : Except ε Unit → Json :=
  ofResult refusal fun _ => well

end SliceScheduler
