import SoundRouting.Command.Setup
import SoundRouting.Manager.Route
import SoundRouting.Manager.Settings
import SoundRouting.Script.Step
import SoundRouting.Text.Hex
/-!
Running a script on a card.

Every stream that a script opens gets the next slot. A slot that was closed is not given again. The
report shows each step with the writes it made.
-/
namespace SoundRouting.Command

open Script Text

/-- A script that is being run: the manager, and the streams that were opened; those that were
closed again are gone from their slots. -/
structure Session where
  manager : Manager
  slots : List (Option Handle)
  deriving DecidableEq, Repr, Inhabited

namespace Session

def stream (s : Session) (slot : Nat) : Except Cause Handle :=
  match s.slots[slot]? with
  | some (some handle) => .ok handle
  | _ => .error (.script (.slotNotOpen slot))

def ofScript {α : Type} : Except ScriptFault α → Except Cause α
  | .ok a => .ok a
  | .error fault => .error (.script fault)

/-- Acquires what the target of a step names: a named stream if there is one, else an anonymous
stream for a device list. -/
def acquire (disk : Disk) (s : Session) (target : String) (formatText : Option String) :
    Except Cause (Manager × Option Handle) :=
  if (s.manager.model.namedPlace? target).isSome then
    .ok (s.manager.acquireNamed disk target)
  else do
    let mask ← ofScript (devices target)
    let word ← match formatText with
      | some text => ofScript (format text)
      | none => pure .pcm16
    return s.manager.acquire disk mask word

/-- Does something with the stream in a slot; a slot that is not open fails the step. -/
def onStream (s : Session) (slot : Nat) (f : Handle → Session × Except Cause String) :
    Session × Except Cause String :=
  match s.stream slot with
  | .error cause => (s, .error cause)
  | .ok h => f h

/-- The session after a request that the manager may refuse. -/
def settle (s : Session) (answer : String) : Manager × Except Error Unit → Session × Except Cause String
  | (m, .ok ()) => ({ s with manager := m }, .ok answer)
  | (m, .error e) => ({ s with manager := m }, .error (.loading e))

def run (disk : Disk) (s : Session) : Step → Session × Except Cause String
  | .acquire target formatText =>
    match s.acquire disk target formatText with
    | .error cause => (s, .error cause)
    | .ok (m, none) => ({ s with manager := m }, .ok "no stream available")
    | .ok (m, some h) =>
      (⟨m, s.slots ++ [some h]⟩, .ok ("slot " ++ toString s.slots.length ++ " = "
        ++ h.endpoint.type.describe ++ " card " ++ toString h.endpoint.card))
  | .route slot list =>
    s.onStream slot fun h =>
      match ofScript (devices list) with
      | .error cause => (s, .error cause)
      | .ok mask =>
        let m := s.manager.route disk h.id mask
        ({ s with manager := m }, .ok ("routes " ++ hexNumber (m.routes h.id).toNat))
  | .useCase slot setting caseName =>
    s.onStream slot fun h =>
      s.settle (setting ++ " = " ++ caseName) (s.manager.applyUseCase disk h.id setting caseName)
  | .volume slot left right =>
    s.onStream slot fun h =>
      s.settle ("volume " ++ toString left ++ "/" ++ toString right)
        (s.manager.setVolume h.id left right)
  | .close slot =>
    s.onStream slot fun h =>
      (⟨s.manager.release disk h.id, s.slots.set slot none⟩,
        .ok ("slot " ++ toString slot ++ " closed"))

/-- The writes since the last report, as lines, and the session without them. -/
def reportWrites (s : Session) : List String × Session :=
  let (log, card) := s.manager.desk.card.drainLog
  let rows := if log.isEmpty then ["    (no writes)"] else log.map fun r => "    " ++ r.describe
  (rows, { s with manager.desk.card := card })

/-- Runs the lines of a script, the first of which has this number, up to the first that fails. -/
def runLines (disk : Disk) (s : Session) (number : Nat) :
    List (List Char) → List String × Session × Except Failure Unit
  | [] => ([], s, .ok ())
  | line :: more =>
    let shown := String.ofList (trim line)
    let failed := fun cause =>
      Failure.during ("line " ++ toString number ++ ": " ++ shown) cause
    match Step.ofLine line with
    | .error fault => ([], s, .error (failed (.script fault)))
    | .ok none => runLines disk s (number + 1) more
    | .ok (some step) =>
      match s.run disk step with
      | (s, .error cause) => ([], s, .error (failed cause))
      | (s, .ok answer) =>
        let (writes, s) := s.reportWrites
        let (rest, s, outcome) := runLines disk s (number + 1) more
        ((shown ++ ": " ++ answer) :: writes ++ rest, s, outcome)

end Session

def readScript (env : Environment) (file : Location) : Except Failure String :=
  match env.disk.readText file with
  | .ok text => .ok text
  | .error _ => .error (.during ("Failed to read " ++ file.text) .unreadable)

def simulate (env : Environment) (t : Target) (script : String) :
    List String × Except Failure Unit :=
  match t.setUp env with
  | .error e => ([], .error e)
  | .ok m =>
    let (setup, s) := (Session.mk m []).reportWrites
    let (rows, _, outcome) := s.runLines env.disk 1 (lines script.toList)
    ("setup" :: setup ++ rows, outcome)

end SoundRouting.Command
