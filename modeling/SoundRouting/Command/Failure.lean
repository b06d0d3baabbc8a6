import SoundRouting.Card.Description
import SoundRouting.LoadOptions
import SoundRouting.Script.Fault
/-!
How a command fails: what it was doing, and the cause.
-/
namespace SoundRouting.Command

inductive Cause where
  | loading (e : Error)
  | description (e : DescriptionError)
  | options (e : OptionsError)
  | malformedDefaults
  | unreadable
  | noControls (defaultsFile : Location)
  | script (fault : ScriptFault)
  deriving DecidableEq, Repr

namespace Cause

def message : Cause → String
  | .loading e => e.message
  | .description e => e.message
  | .options (.unreadable file) => "failed to read file '" ++ file.text ++ "'"
  | .options .malformed | .malformedDefaults => "failed to parse TOML"
  | .options .tooLarge => "failed to serialize TOML"
  | .unreadable => "file cannot be read"
  | .noControls file =>
    "No control table given. Pass --controls or set 'controls' in " ++ file.text
  | .script fault => fault.message

end Cause

/-- A failure: what the command was doing, the outermost first, and the cause. -/
structure Failure where
  context : List String
  cause : Cause
  deriving DecidableEq, Repr

namespace Failure

def during (what : String) (cause : Cause) : Failure :=
  ⟨[what], cause⟩

def report (f : Failure) : List String :=
  f.context ++ [f.cause.message]

end Failure

end SoundRouting.Command
