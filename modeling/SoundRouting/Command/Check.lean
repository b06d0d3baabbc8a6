import SoundRouting.Command.Setup
import SoundRouting.Text.Hex
/-!
The report of a configuration that loads.
-/
namespace SoundRouting.Command

open Text

def pathCount (m : Model) : Nat :=
  (m.devices.toList.map (·.paths.size)).foldl (· + ·) 0

def summary (config : Location) (m : Manager) : List String :=
  let model := m.model
  [ "Config:       " ++ config.text,
    "Card:         " ++ toString m.desk.mixer.card,
    "Devices:      " ++ toString model.devices.size ++ " (" ++ toString (pathCount model)
      ++ " paths, " ++ toString model.pathAssignmentCount ++ " controls)",
    "Outputs:      " ++ hexWord model.outputs.toNat,
    "Inputs:       " ++ hexWord model.inputs.toNat,
    "Streams:      " ++ toString model.anonymous.size ++ " anonymous, "
      ++ toString model.named.size ++ " named",
    "Setup writes: " ++ toString m.desk.card.log.length,
    "OK" ]

/-- Loads a configuration and summarizes it. -/
def check (env : Environment) (t : Target) : List String × Except Failure Unit :=
  match t.setUp env with
  | .ok m => (summary t.config m, .ok ())
  | .error e => ([], .error e)

end SoundRouting.Command
