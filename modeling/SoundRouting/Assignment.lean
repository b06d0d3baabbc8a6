import SoundRouting.Files.Location
import SoundRouting.Text.Quoted
/-!
Assignments: what a configuration declares about mixer controls.

An assignment names a control and says what to write to it. Its value is kept as written until the
control's type is known; binding the assignment to a control of a card converts the value and
remembers the control. Forgetting the binding keeps the converted value.
-/
namespace SoundRouting

inductive ControlType where
  | switch
  | integer
  | enumerated
  | bytes
  | iec958
  | integer64
  | unknown
  deriving DecidableEq, Repr, Inhabited

namespace ControlType

def isInteger : ControlType → Bool
  | .switch | .integer => true
  | _ => false

end ControlType

/-- The elements of a control that an assignment writes: all of them, or one; for bytes, the place
of the first byte. -/
inductive Selector where
  | all
  | at (index : Nat)
  deriving DecidableEq, Repr, Inhabited

namespace Selector

/-- The place where a byte block begins. -/
def offset : Selector → Nat
  | .all => 0
  | .at n => n

end Selector

/-- Bytes to be written at a place of a byte control. `work` has room for the whole control. -/
structure ByteBlock where
  data : List UInt8
  work : List UInt8
  source : Option Location
  deriving DecidableEq, Repr, Inhabited

/-- A value to be written: as declared, as the file that holds it, or in the form that a control of
some type takes. -/
inductive Value where
  | pending (text : String)
  | pendingFile (file : Location)
  | int (value : Int)
  | item (name : String)
  | bytes (block : ByteBlock)
  deriving DecidableEq, Repr

instance : Inhabited Value := ⟨.pending ""⟩

namespace Value

/-- Whether the value has not been converted yet. -/
def isPending : Value → Bool
  | .pending _ | .pendingFile _ => true
  | _ => false

def listBytes (bytes : List UInt8) : String :=
  "[" ++ Text.joinWith ", " (bytes.map fun b => toString b.toNat) ++ "]"

/-- How diagnostics show a value: its form, with texts quoted. -/
def describe : Value → String
  | .pending text => "Pending(" ++ Text.quote text ++ ")"
  | .pendingFile file => "PendingFile(" ++ Text.quoteFile file.text ++ ")"
  | .int value => "Int(" ++ toString value ++ ")"
  | .item name => "Enum(" ++ Text.quote name ++ ")"
  | .bytes block =>
    let source := match block.source with
      | some file => "Some(" ++ Text.quoteFile file.text ++ ")"
      | none => "None"
    "Bytes(ByteBlock \x7b data: " ++ listBytes block.data ++ ", work: " ++ listBytes block.work
      ++ ", source: " ++ source ++ " \x7d)"

end Value

/-- The control that a name was found to mean, with the type it had. -/
inductive Binding where
  | unresolved
  | bound (id : Nat) (type : ControlType)
  deriving DecidableEq, Repr, Inhabited

namespace Binding

def isBound : Binding → Bool
  | .bound _ _ => true
  | .unresolved => false

def id? : Binding → Option Nat
  | .bound id _ => some id
  | .unresolved => none

end Binding

/-- One declared control write. -/
structure Assignment where
  control : String
  index : Selector
  value : Value
  binding : Binding
  deriving DecidableEq, Repr, Inhabited

namespace Assignment

def declared (control : String) (index : Selector) (value : Value) : Assignment :=
  ⟨control, index, value, .unresolved⟩

def unbind (a : Assignment) : Assignment :=
  { a with binding := .unresolved }

end Assignment

/-- A control that sets the volume of a stream, and what it is set to at 0 and at 100 percent. -/
structure VolumeControl where
  control : String
  binding : Binding
  index : Nat
  low : Int
  high : Int
  deriving DecidableEq, Repr, Inhabited

namespace VolumeControl

def unbind (v : VolumeControl) : VolumeControl :=
  { v with binding := .unresolved }

end VolumeControl

end SoundRouting
