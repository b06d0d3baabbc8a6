import SoundRouting.Command.Setup
import SoundRouting.Config.Handlers
import SoundRouting.Text.Hex
/-!
The report of everything that a configuration declares.
-/
namespace SoundRouting.Command

open Text

def valueText : Value → String
  | .pending text => text ++ " (unbound)"
  | .pendingFile file => "<" ++ file.text ++ "> (unbound)"
  | .int v => toString v
  | .item name => name
  | .bytes block =>
    "[" ++ joinWith " " (block.data.map fun b => String.ofList (hexByte b)) ++ "]"

def assignmentText (a : Assignment) : String :=
  let place := match a.index with
    | .all => ""
    | .at i => "[" ++ toString i ++ "]"
  "'" ++ a.control ++ "'" ++ place ++ " = " ++ valueText a.value

def pathText (m : Model) (id : PathId) : String :=
  (m.pathName? id).getD "?"

def pathLines (m : Model) (p : Path) : List String :=
  ("  path " ++ pathText m p.id)
    :: p.assignments.toList.map fun a => "    " ++ assignmentText a

def deviceLines (m : Model) (d : Device) : List String :=
  ("Device " ++ d.mask.name ++ " (" ++ hexNumber d.mask.toNat ++ ")")
    :: d.paths.toList.flatMap (pathLines m)

def textIf (condition : Bool) (text : String) : String :=
  if condition then text else ""

def streamText (s : Stream) : String :=
  let e := s.endpoint
  e.type.describe ++ " card " ++ toString e.card
    ++ (match e.device with
      | some device => " device " ++ toString device
      | none => "")
    ++ textIf (e.rate != 0) (" rate " ++ toString e.rate)
    ++ textIf (e.periodSize != 0 || e.periodCount != 0)
      (" periods " ++ toString e.periodCount ++ "x" ++ toString e.periodSize)
    ++ textIf (s.maxRefCount != Config.unlimitedInstances)
      (" instances " ++ toString s.maxRefCount)

def volumeLines (function : String) (v : Option VolumeControl) : List String :=
  v.toList.map fun v =>
    "  " ++ function ++ " '" ++ v.control ++ "'[" ++ toString v.index ++ "] " ++ toString v.low
      ++ ".." ++ toString v.high

def caseLines (c : Case) : List String :=
  ("    case " ++ c.name) :: c.assignments.toList.map fun a => "      " ++ assignmentText a

def useCaseLines (u : UseCase) : List String :=
  ("  usecase " ++ u.name) :: u.cases.toList.flatMap caseLines

def streamLines (m : Model) (s : Stream) : List String :=
  s.enablePath.toList.map (fun id => "  enable " ++ pathText m id)
    ++ s.disablePath.toList.map (fun id => "  disable " ++ pathText m id)
    ++ volumeLines "leftvol" s.left ++ volumeLines "rightvol" s.right
    ++ s.useCases.toList.flatMap useCaseLines
    ++ s.constants.toList.map fun c => "  set " ++ c.name ++ " = " ++ c.value

/-- The lines of a model: its devices, then its anonymous streams with their places, then the named
ones. -/
def modelLines (m : Model) : List String :=
  m.devices.toList.flatMap (deviceLines m)
    ++ m.anonymous.toList.zipIdx.flatMap (fun (s, i) =>
      ("Stream #" ++ toString i ++ " " ++ streamText s) :: streamLines m s)
    ++ m.named.toList.flatMap fun s =>
      ("Stream '" ++ s.name.getD "" ++ "' " ++ streamText s) :: streamLines m s

def dump (env : Environment) (t : Target) : List String × Except Failure Unit :=
  match t.setUp env with
  | .ok m => (("Card " ++ toString m.desk.mixer.card) :: modelLines m.model, .ok ())
  | .error e => ([], .error e)

end SoundRouting.Command
