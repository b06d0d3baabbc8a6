import SoundRouting.Mixer.Basic
import SoundRouting.Text.Numeral
/-!
Conversion of declared values to the form that a control takes.

A switch or integer control takes an integer, an enumerated control the name of an item, a byte
control a block of bytes at a place of the control. A value that has been converted before is
converted again when it is bound anew, and has to be of the right form already.
-/
namespace SoundRouting

open Text

/-- The greatest number of elements of a byte control that can be bound. -/
def maxByteCount : Nat := 512

namespace Value

/-- The integer that a switch or integer control takes. A text may also be an unsigned literal,
which stands for the integer with the same bits. -/
def toInteger (control : String) : Value → Except Error Int
  | .int v => .ok v
  | .pending text =>
    match Numeral.signed? text with
    | some v => .ok v
    | none => match Numeral.unsigned? text with
      | some v => .ok (Numeral.wrapSigned v)
      | none => .error (.value (.notANumber text))
  | other => .error (.value (.wrongForm other control))

/-- The name of the item that an enumerated control takes; whether it has such an item is seen when
it is written. -/
def toItem (control : String) : Value → Except Error String
  | .item name => .ok name
  | .pending text => .ok text
  | other => .error (.value (.wrongForm other control))

/-- The fields of a list of bytes: what stands between its commas, without empty fields. -/
def byteFields (text : String) : List String :=
  ((pieces (· == ',') text.toList).filter fun field => !field.isEmpty).map String.ofList

def lowBytes : List String → Except Error (List UInt8)
  | [] => .ok []
  | field :: more =>
    match Numeral.unsigned? field with
    | none => .error (.value (.notANumber field))
    | some v => match lowBytes more with
      | .ok others => .ok (UInt8.ofNat v :: others)
      | .error e => .error e

def listedBytes (text : String) (offset count : Nat) : Except Error (List UInt8) :=
  let fields := byteFields text
  if fields.isEmpty then .error (.value .noBytes)
  else if count < offset + fields.length then
    .error (.capacity (.listOverflows offset fields.length count))
  else lowBytes fields

/-- The bytes that a byte control of `count` elements takes at `offset`, and the file they come
from. A file is cut where the control ends; a block that was converted before has to fit. -/
def toBytes (disk : Disk) (control : String) (offset count : Nat) :
    Value → Except Error (List UInt8 × Option Location)
  | .pending text =>
    match listedBytes text offset count with
    | .ok data => .ok (data, none)
    | .error e => .error e
  | .pendingFile file =>
    match disk.read file with
    | .ok data => .ok (data.take (count - offset), some file)
    | .error fault => .error (.unreadable file fault)
  | .bytes block =>
    if block.data.length ≤ count - offset then .ok (block.data, block.source)
    else .error (.capacity (.blockNoLongerFits control offset block.data.length count))
  | other => .error (.value (.wrongForm other control))

end Value

namespace Assignment

def byteValue (disk : Disk) (a : Assignment) (count : Nat) : Except Error Value :=
  let offset := a.index.offset
  if count ≤ offset then .error (.value (.indexOutOfRange offset count))
  else match a.value.toBytes disk a.control offset count with
    | .ok (data, source) => .ok (.bytes ⟨data, List.replicate count 0, source⟩)
    | .error e => .error e

/-- The assignment with its value converted for a control, and the error if that fails. For a byte
control the place of the first byte is settled even if the value turns out not to fit. -/
def convert (disk : Disk) (a : Assignment) (type : ControlType) (count : Nat) :
    Assignment × Except Error Unit :=
  match type with
  | .switch | .integer =>
    match a.value.toInteger a.control with
    | .ok v => ({ a with value := .int v }, .ok ())
    | .error e => (a, .error e)
  | .enumerated =>
    match a.value.toItem a.control with
    | .ok name => ({ a with value := .item name }, .ok ())
    | .error e => (a, .error e)
  | .bytes =>
    if maxByteCount < count then
      (a, .error (.capacity (.controlTooLarge a.control count maxByteCount)))
    else
      let placed := { a with index := .at a.index.offset }
      match placed.byteValue disk count with
      | .ok value => ({ placed with value := value }, .ok ())
      | .error e => (placed, .error e)
  | .iec958 | .integer64 | .unknown => (a, .error (.value (.unsupportedType a.control)))

end Assignment

end SoundRouting
