import SoundRouting.Script.Words
/-!
The steps of a script, one on a line. Blank lines and comments are no steps.
-/
namespace SoundRouting.Script

/-- An operation of a script. Slots number the streams that it opens. -/
inductive Step where
  | acquire (target : String) (format : Option String)
  | route (slot : Nat) (devices : String)
  | useCase (slot : Nat) (setting caseName : String)
  | volume (slot : Nat) (left right : Int)
  | close (slot : Nat)
  deriving DecidableEq, Repr

def slot (text : String) : Except ScriptFault Nat :=
  match Numeral.plainUnsigned? 0x10000000000000000 text.toList with
  | some n => .ok n
  | none => .error (.notASlot text)

/-- A volume as a script has it; that it is a percentage is checked later. -/
def volume (text : String) : Except ScriptFault Int :=
  match Numeral.plainSigned? text.toList with
  | some n => .ok n
  | none => .error (.notAVolume text)

namespace Step

/-- The step that words stand for, if they are any; `line` is what they come from. -/
def ofWords (line : String) : List String → Except ScriptFault (Option Step)
  | [] => .ok none
  | ["open", target] => .ok (some (.acquire target none))
  | ["open", target, format] => .ok (some (.acquire target (some format)))
  | ["route", s, devices] => do
    let s ← slot s
    return some (.route s devices)
  | ["usecase", s, setting, caseName] => do
    let s ← slot s
    return some (.useCase s setting caseName)
  | ["volume", s, left, right] => do
    let s ← slot s
    let left ← Script.volume left
    let right ← Script.volume right
    return some (.volume s left right)
  | ["close", s] => do
    let s ← slot s
    return some (.close s)
  | _ => .error (.unknownOperation line)

def ofLine (line : List Char) : Except ScriptFault (Option Step) :=
  let text := content line
  match words? text with
  | none => .error (.unterminatedQuote (String.ofList text))
  | some words => ofWords (String.ofList text) words

end Step

end SoundRouting.Script
