import SoundRouting.Config.Grammar
import SoundRouting.Mixer.Binding
import SoundRouting.Model.Basic
/-!
The state of loading a configuration.

Elements act on the state when they begin and when they end. An open element has a frame, which
holds the elements that may still stand in it; the cursor says which parts of the model the open
elements refer to. An action that fails leaves the cards as it has changed them.
-/
namespace SoundRouting.Config

/-- An open element, or the document itself, and what may still stand in it. -/
structure Frame where
  element : Option ElementKind
  children : List ElementKind
  deriving DecidableEq, Repr, Inhabited

/-- The parts of the model that the open elements refer to. -/
structure Cursor where
  device : Option Nat
  path : Option Nat
  stream : Option StreamId
  useCase : Option Nat
  useCaseCase : Option Nat
  deriving DecidableEq, Repr, Inhabited

namespace Cursor

def blank : Cursor :=
  ⟨none, none, none, none, none⟩

end Cursor

structure CodecCase where
  codec : String
  file : Location
  deriving DecidableEq, Repr, Inhabited

/-- A codec probe: the file that names the codec, and the configurations to go on with. -/
structure CodecProbe where
  file : Location
  cases : GranularArray CodecCase
  deriving DecidableEq, Repr, Inhabited

/-- What has been loaded so far. `model`, `mixer`, `card`, `init` and `visited` outlive a file that
hands over to another one; the others belong to the file that is being read. -/
structure State where
  rack : Rack
  model : Model
  mixer : Option Mixer
  card : Nat
  init : GranularArray Assignment
  preInit : GranularArray Assignment
  probe : Option CodecProbe
  file : Location
  visited : List Location
  frames : List Frame
  cursor : Cursor
  deriving Inhabited

namespace State

/-- The path names that every model has: those of the counted paths. -/
def firstNames : GranularArray String :=
  ⟨#["off", "on"], GranularArray.granule⟩

def start (rack : Rack) : State :=
  { rack := rack
    model := { Model.blank with pathNames := firstNames }
    mixer := none
    card := 0
    init := .empty
    preInit := .empty
    probe := none
    file := ⟨""⟩
    visited := []
    frames := []
    cursor := .blank }

def enter (s : State) (file : Location) : State :=
  { s with
    probe := none
    file := file
    visited := s.visited ++ [file]
    frames := [⟨none, Grammar.topLevel⟩]
    cursor := .blank }

def desk? (s : State) : Option Desk := do
  let mixer ← s.mixer
  let card ← s.rack.card? mixer.card
  return ⟨card, mixer⟩

def withDesk (s : State) (desk : Desk) : State :=
  { s with rack := s.rack.setCard desk.card, mixer := some desk.mixer }

def unbind (s : State) : State :=
  { s with model := s.model.unbind, init := s.init.map Assignment.unbind }

end State

/-- An action of loading: it may fail, and keeps what it has done to the state if it does. -/
abbrev LoadM := ExceptT Error (StateM State)

namespace LoadM

def fault {α : Type} (f : ConfigFault) : LoadM α :=
  throw (.ofConfig f)

def need {α : Type} (f : ConfigFault) : Option α → LoadM α
  | some a => pure a
  | none => fault f

def ofResult {α : Type} : Except Error α → LoadM α
  | .ok a => pure a
  | .error e => throw e

/-- Runs an action and gives its fault this line if it has none. -/
def atLine {α : Type} (line : Nat) (action : LoadM α) : LoadM α :=
  tryCatch action fun e => throw (e.atLine line)

end LoadM

end SoundRouting.Config
