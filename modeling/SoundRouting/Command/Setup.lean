import SoundRouting.Command.Failure
import SoundRouting.Config.Load
import SoundRouting.Manager.Basic
/-!
Setting up what a command works on: a card made from its description, and a configuration loaded on
it.
-/
namespace SoundRouting.Command

/-- The disk, and the folder of the user's settings. -/
structure Environment where
  disk : Disk
  settings : Location

namespace Environment

def userFolder (env : Environment) : Location :=
  env.settings.join ⟨"audioroute"⟩

def defaultsFile (env : Environment) : Location :=
  env.userFolder.join ⟨"cli.toml"⟩

def defaults (env : Environment) : Except Failure Defaults :=
  let file := env.defaultsFile
  if env.disk.holds file then
    match env.disk.readText file with
    | .error _ => .error (.during ("Failed to read " ++ file.text) .unreadable)
    | .ok text => match Defaults.ofDocument? text with
      | some defaults => .ok defaults
      | none => .error (.during ("Invalid CLI defaults in " ++ file.text) .malformedDefaults)
  else .ok .standard

end Environment

/-- What a command is told: the configuration, and perhaps a description of the card and
options. -/
structure Target where
  config : Location
  controls : Option Location
  options : Option Location
  deriving DecidableEq, Repr, Inhabited

namespace Target

def card (t : Target) (env : Environment) (defaults : Defaults) : Except Failure Card :=
  match t.controls <|> defaults.controls with
  | none => .error ⟨[], .noControls env.defaultsFile⟩
  | some file => match Card.load env.disk file with
    | .ok card => .ok card
    | .error e => .error (.during ("Failed to load controls " ++ file.text) (.description e))

def loadOptions (t : Target) (env : Environment) (defaults : Defaults) :
    Except Failure LoadOptions :=
  match t.options with
  | none => .ok defaults.options
  | some file => match LoadOptions.load env.disk file with
    | .ok options => .ok options
    | .error e => .error (.during ("Failed to load options " ++ file.text) (.options e))

def setUp (t : Target) (env : Environment) : Except Failure Manager := do
  let defaults ← env.defaults
  let card ← t.card env defaults
  let _ ← t.loadOptions env defaults
  match Config.load env.disk ⟨[card]⟩ t.config with
  | (.error e, _) => .error (.during ("Failed to load " ++ t.config.text) (.loading e))
  | (.ok loaded, rack) =>
    return ⟨⟨(rack.card? loaded.mixer.card).getD card, loaded.mixer⟩, loaded.model⟩

end Target

end SoundRouting.Command
