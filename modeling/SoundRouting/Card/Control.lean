import SoundRouting.Error
/-!
Controls of a sound card: their descriptions, their contents, and the writes they take.

A write either changes the contents of one control or is refused and changes nothing.
-/
namespace SoundRouting

/-- A control as a card describes it. `low`, `high` and `items` matter to the types that have them;
`createdBy` names the control whose first write makes this one appear. -/
structure Control where
  name : String
  type : ControlType
  count : Nat
  low : Int
  high : Int
  initial : Int
  items : List String
  data : List UInt8
  createdBy : Option String
  deriving DecidableEq, Repr, Inhabited

namespace Control

/-- A control of which only name, type and number of elements are told. -/
def ofType (name : String) (type : ControlType) (count : Nat) : Control :=
  ⟨name, type, count, 0, 0, 0, [], [], none⟩

/-- An integer control at the low end of its range. -/
def integer (name : String) (count : Nat) (low high : Int) : Control :=
  { ofType name .integer count with low := low, high := high, initial := low }

def switch (name : String) (count : Nat) : Control :=
  { ofType name .switch count with high := 1 }

/-- A control of one element with these items, at the first. -/
def enumerated (name : String) (items : List String) : Control :=
  { ofType name .enumerated 1 with items := items }

def bytes (name : String) (count : Nat) : Control :=
  ofType name .bytes count

/-- The control, appearing only once `trigger` has been written. -/
def appearingWith (c : Control) (trigger : String) : Control :=
  { c with createdBy := some trigger }

end Control

/-- One write: an element, an enum item by its name, or bytes from the first element on. -/
inductive WriteOp where
  | value (index : Nat) (value : Int)
  | item (name : String)
  | bytes (data : List UInt8)
  deriving DecidableEq, Repr

structure WriteRecord where
  control : String
  op : WriteOp
  deriving DecidableEq, Repr

namespace WriteRecord

def describe (r : WriteRecord) : String :=
  match r.op with
  | .value index value =>
    "'" ++ r.control ++ "'[" ++ toString index ++ "] = " ++ toString value
  | .item name => "'" ++ r.control ++ "' = '" ++ name ++ "'"
  | .bytes data =>
    "'" ++ r.control ++ "' = ["
      ++ Text.joinWith " " (data.map fun b => String.ofList (Text.hexByte b)) ++ "]"

end WriteRecord

/-- A control of a card: its description, whether it exists yet, and what it holds. -/
structure LiveControl where
  spec : Control
  present : Bool
  ints : List Int
  bytes : List UInt8
  deriving DecidableEq, Repr, Inhabited

namespace LiveControl

/-- `data` in front, and behind it what `base` has in the places beyond. -/
def overlay (data base : List UInt8) : List UInt8 :=
  data ++ base.drop data.length

/-- The control as the card starts with it. Only byte controls hold bytes. -/
def start (spec : Control) : LiveControl :=
  let size := if spec.type = .bytes then spec.count else 0
  { spec := spec
    present := spec.createdBy.isNone
    ints := List.replicate spec.count spec.initial
    bytes := overlay (spec.data.take size) (List.replicate size 0) }

/-- The values that an element takes, both ends included. -/
def valueRange (c : LiveControl) : Except ControlFault (Int × Int) :=
  match c.spec.type with
  | .switch => .ok (0, 1)
  | .integer => .ok (c.spec.low, c.spec.high)
  | .enumerated => .ok (0, (c.spec.items.length : Int) - 1)
  | .bytes => .ok (0, 255)
  | .iec958 | .integer64 | .unknown => .error .unsupportedType

def setElement (c : LiveControl) (index : Nat) (value : Int) : LiveControl :=
  if c.spec.type = .bytes then { c with bytes := c.bytes.set index (UInt8.ofNat value.toNat) }
  else { c with ints := c.ints.set index value }

/-- The control after a write, or why it refuses the write. -/
def write (c : LiveControl) : WriteOp → Except ControlFault LiveControl
  | .value index value =>
    if c.spec.count ≤ index then .error (.indexOutOfRange index c.spec.count)
    else match c.valueRange with
      | .error fault => .error fault
      | .ok (low, high) =>
        if low ≤ value ∧ value ≤ high then .ok (c.setElement index value)
        else .error (.valueOutOfRange value low high)
  | .item name =>
    if c.spec.type ≠ .enumerated then .error .notEnumerated
    else match c.spec.items.findIdx? (· == name) with
      | none => .error (.noItem name)
      | some i => .ok { c with ints := c.ints.map fun _ => (i : Int) }
  | .bytes data =>
    if c.spec.type ≠ .bytes then .error .notBytes
    else if c.bytes.length < data.length then .error (.tooManyBytes data.length c.bytes.length)
    else .ok { c with bytes := overlay data c.bytes }

def read (c : LiveControl) (index : Nat) : Except ControlFault Int :=
  if c.spec.count ≤ index then .error (.indexOutOfRange index c.spec.count)
  else if c.spec.type = .bytes then .ok ((c.bytes.getD index 0).toNat : Int)
  else .ok (c.ints.getD index 0)

/-- A buffer after the bytes of the control have been read into it, as far as it reaches. -/
def readBytes (c : LiveControl) (buffer : List UInt8) : Except ControlFault (List UInt8) :=
  if c.spec.type ≠ .bytes then .error .notBytes
  else .ok (overlay (c.bytes.take buffer.length) buffer)

def range (c : LiveControl) : Except ControlFault (Int × Int) :=
  if c.spec.type = .integer then .ok (c.spec.low, c.spec.high) else .error .notInteger

def item? (c : LiveControl) : Option String :=
  match c.ints with
  | [] => none
  | v :: _ => if v < 0 then none else c.spec.items[v.toNat]?

/-- The values that an element takes are a matter of the description. -/
theorem valueRange_of_spec {c d : LiveControl} (h : d.spec = c.spec) : d.valueRange = c.valueRange := by
  rw [valueRange, h]
  rfl

theorem length_overlay (data base : List UInt8) (h : data.length ≤ base.length) :
    (overlay data base).length = base.length := by
  simp only [overlay, List.length_append, List.length_drop]
  omega

/-- The writes that a control takes, each with what it asks for, and the control after it. -/
inductive Takes (c : LiveControl) : WriteOp → LiveControl → Prop where
  | value {index : Nat} {value low high : Int} (hindex : index < c.spec.count)
      (hrange : c.valueRange = .ok (low, high)) (hvalue : low ≤ value ∧ value ≤ high) :
      Takes c (.value index value) (c.setElement index value)
  | item {name : String} {i : Nat} (htype : c.spec.type = .enumerated)
      (hitem : c.spec.items.findIdx? (· == name) = some i) :
      Takes c (.item name) { c with ints := c.ints.map fun _ => (i : Int) }
  | bytes {data : List UInt8} (htype : c.spec.type = .bytes) (hroom : data.length ≤ c.bytes.length) :
      Takes c (.bytes data) { c with bytes := overlay data c.bytes }

theorem write_eq_ok_iff {c d : LiveControl} {op : WriteOp} : c.write op = .ok d ↔ c.Takes op d := by
  constructor
  · intro h
    cases op with
    | value index value =>
      simp only [write] at h
      split at h
      · cases h
      · rename_i hindex
        cases hrange : c.valueRange with
        | error fault => simp [hrange] at h
        | ok range =>
          simp only [hrange] at h
          split at h <;> cases h
          rename_i hvalue
          exact .value (Nat.lt_of_not_le hindex) hrange hvalue
    | item name =>
      simp only [write] at h
      split at h
      · cases h
      · rename_i htype
        cases hitem : c.spec.items.findIdx? (· == name) with
        | none => simp [hitem] at h
        | some i =>
          simp only [hitem, Except.ok.injEq] at h
          subst h
          exact .item (Decidable.not_not.mp htype) hitem
    | bytes data =>
      simp only [write] at h
      split at h
      · cases h
      · rename_i htype
        split at h <;> cases h
        rename_i hroom
        exact .bytes (Decidable.not_not.mp htype) (Nat.le_of_not_lt hroom)
  · rintro (⟨hindex, hrange, hvalue⟩ | ⟨htype, hitem⟩ | ⟨htype, hroom⟩)
    · simp only [write, if_neg (Nat.not_le.mpr hindex), hrange, if_pos hvalue]
    · simp only [write, if_neg (not_not_intro htype), hitem]
    · simp only [write, if_neg (not_not_intro htype), if_neg (Nat.not_lt.mpr hroom)]

/-- A write keeps the description and the existence of the control. -/
theorem spec_write {c d : LiveControl} {op : WriteOp} (h : c.write op = .ok d) :
    d.spec = c.spec ∧ d.present = c.present := by
  rcases write_eq_ok_iff.mp h with ⟨-, -, -⟩ | ⟨-, -⟩ | ⟨-, -⟩
  · rw [setElement]
    split <;> exact ⟨rfl, rfl⟩
  · exact ⟨rfl, rfl⟩
  · exact ⟨rfl, rfl⟩

end LiveControl

end SoundRouting
