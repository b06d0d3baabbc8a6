import SoundRouting.Toml.Document
/-!
Decoding the values of a document into those of a program.

A decoder takes a value and yields what it stands for, if it is of the right type and in range. A
record is written as a table, whose keys all have to be fields of the record, or as an array of its
fields in order.
-/
namespace SoundRouting.Toml

inductive Record where
  | named (entries : Entries)
  | listed (items : List Datum)

namespace Datum

def string? : Datum → Option String
  | .string text => some text
  | _ => none

def integerIn? (low high : Int) : Datum → Option Int
  | .integer v => if low ≤ v ∧ v ≤ high then some v else none
  | _ => none

def unsigned? (bits : Nat) (v : Datum) : Option Nat :=
  (v.integerIn? 0 (Nat.pow 2 bits - 1)).map Int.toNat

def signed32? (v : Datum) : Option Int :=
  v.integerIn? (-0x80000000) 0x7FFFFFFF

/-- The items of an array, or the tables of a list of tables. -/
def items? : Datum → Option (List Datum)
  | .array items => some items
  | .tables items => some (items.map (.table .header))
  | _ => none

def list? {α : Type} (item : Datum → Option α) (v : Datum) : Option (List α) :=
  v.items? >>= List.mapM item

/-- Whether the value holds nothing: an empty array or table. -/
def isHollow : Datum → Bool
  | .array items => items.isEmpty
  | .table _ entries => entries.isEmpty
  | .tables items => items.isEmpty
  | _ => false

/-- One of several words: written as a string, or as the only key of a table, with nothing in it. -/
def word? : Datum → Option String
  | .string text => some text
  | .table _ [(key, v)] => if v.isHollow then some key else none
  | _ => none

def record? (fields : List String) : Datum → Option Record
  | .table _ entries =>
    if entries.all fun e => fields.contains e.1 then some (.named entries) else none
  | v => v.items?.map .listed

end Datum

namespace Record

/-- The value of a field: the one under its name, or the one at its place. -/
def field? (r : Record) (name : String) (place : Nat) : Option Datum :=
  match r with
  | .named entries => entries.get? name
  | .listed items => items[place]?

def required? {α : Type} (r : Record) (name : String) (place : Nat)
    (decode : Datum → Option α) : Option α :=
  r.field? name place >>= decode

def optional? {α : Type} (r : Record) (name : String) (place : Nat)
    (decode : Datum → Option α) (default : α) : Option α :=
  match r.field? name place with
  | some v => decode v
  | none => some default

end Record

end SoundRouting.Toml
