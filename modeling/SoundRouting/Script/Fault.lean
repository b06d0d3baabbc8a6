/-!
What can be wrong with a script, as causes.
-/
namespace SoundRouting

inductive ScriptFault where
  | emptyDevice (list : String)
  | unknownDevice (name : String)
  | unknownFormat (text : String)
  | notASlot (text : String)
  | notAVolume (text : String)
  | unterminatedQuote (line : String)
  | unknownOperation (line : String)
  | slotNotOpen (slot : Nat)
  deriving DecidableEq, Repr

namespace ScriptFault

def message : ScriptFault → String
  | .emptyDevice list => "Empty device name in '" ++ list ++ "'"
  | .unknownDevice name =>
    "Unknown device '" ++ name ++ "' (expected a device name or mask)"
  | .unknownFormat text => "Unknown format '" ++ text ++ "'"
  | .notASlot text => "'" ++ text ++ "' is not a slot number"
  | .notAVolume text => "'" ++ text ++ "' is not a volume"
  | .unterminatedQuote line => "Unterminated quote in '" ++ line ++ "'"
  | .unknownOperation line => "Unrecognized operation '" ++ line ++ "'"
  | .slotNotOpen slot => "Slot " ++ toString slot ++ " is not open"

end ScriptFault

end SoundRouting
