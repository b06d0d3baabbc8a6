import SoundRouting.Card.Basic
import SoundRouting.Toml.Decode
/-!
Descriptions of sound cards as TOML documents.

A description gives a card its number, its name and its controls. A control that contradicts itself
is refused; of several, the first one.
-/
namespace SoundRouting

/-- How a control of a description contradicts itself. -/
inductive ControlMisfit where
  | noElements
  | noItems
  | initialItem
  | lowAboveHigh
  | tooMuchData
  deriving DecidableEq, Repr

namespace ControlMisfit

def message : ControlMisfit → String
  | .noElements => "count must be at least 1"
  | .noItems => "enum needs values"
  | .initialItem => "initial enum index out of range"
  | .lowAboveHigh => "min is above max"
  | .tooMuchData => "more data than elements"

end ControlMisfit

inductive DescriptionError where
  | unreadable (file : Location)
  | malformed
  | invalidControl (name : String) (misfit : ControlMisfit)
  deriving DecidableEq, Repr

namespace DescriptionError

def message : DescriptionError → String
  | .unreadable file => "failed to read file '" ++ file.text ++ "'"
  | .malformed => "failed to parse TOML"
  | .invalidControl name misfit => "invalid control '" ++ name ++ "': " ++ misfit.message

end DescriptionError

namespace ControlType

def ofWord? : String → Option ControlType
  | "bool" => some .switch
  | "int" => some .integer
  | "enum" => some .enumerated
  | "byte" => some .bytes
  | "iec958" => some .iec958
  | "int64" => some .integer64
  | _ => none

end ControlType

namespace Control

open Toml

def misfit? (c : Control) : Option ControlMisfit :=
  if c.count = 0 then some .noElements
  else match c.type with
    | .enumerated =>
      if c.items.isEmpty then some .noItems
      else if 0 ≤ c.initial ∧ c.initial < c.items.length then none
      else some .initialItem
    | .integer => if c.high < c.low then some .lowAboveHigh else none
    | .bytes => if c.count < c.data.length then some .tooMuchData else none
    | _ => none

def fieldNames : List String :=
  ["name", "type", "count", "min", "max", "value", "values", "data", "created_by"]

def ofValue? (v : Datum) : Option Control := do
  let r ← v.record? fieldNames
  let name ← r.required? "name" 0 Datum.string?
  let type ← r.required? "type" 1 fun v => v.word? >>= ControlType.ofWord?
  let count ← r.optional? "count" 2 (Datum.unsigned? 32) 1
  let low ← r.optional? "min" 3 Datum.signed32? 0
  let high ← r.optional? "max" 4 Datum.signed32? 0
  let initial ← r.optional? "value" 5 Datum.signed32? 0
  let items ← r.optional? "values" 6 (Datum.list? Datum.string?) []
  let data ← r.optional? "data" 7 (Datum.list? (Datum.unsigned? 8)) []
  let createdBy ← r.optional? "created_by" 8 (fun v => v.string?.map some) none
  return ⟨name, type, count, low, high, initial, items, data.map UInt8.ofNat, createdBy⟩

end Control

namespace Card

open Toml

/-- The number, the name and the controls that a document describes. -/
def fieldsOfDocument? (entries : Entries) : Option (Nat × Option String × List Control) := do
  let r ← (Datum.table .header entries).record? ["card", "id", "control"]
  let number ← r.optional? "card" 0 (Datum.unsigned? 32) 0
  let id ← r.optional? "id" 1 (fun v => v.string?.map some) none
  let controls ← r.optional? "control" 2 (Datum.list? Control.ofValue?) []
  return (number, id, controls)

def firstMisfit? (controls : List Control) : Option (String × ControlMisfit) :=
  controls.findSome? fun c => c.misfit?.map fun misfit => (c.name, misfit)

def ofDescription (text : String) : Except DescriptionError Card :=
  match document? text >>= fieldsOfDocument? with
  | none => .error .malformed
  | some (number, id, controls) =>
    match firstMisfit? controls with
    | some (name, misfit) => .error (.invalidControl name misfit)
    | none => .ok (ofControls number id controls)

def load (disk : Disk) (file : Location) : Except DescriptionError Card :=
  match disk.readText file with
  | .ok text => ofDescription text
  | .error _ => .error (.unreadable file)

end Card

end SoundRouting
