import SoundRouting.Card.Basic
/-!
Mixers: what a program sees of a sound card it has opened.

A mixer knows the controls that existed when it was opened or when it last looked. It finds, shows
and writes only those. Several mixers may be open on one card.
-/
namespace SoundRouting

/-- A mixer open on the card with this number, and the ids of the controls it knows. -/
structure Mixer where
  card : Nat
  known : List Nat
  deriving DecidableEq, Repr, Inhabited

structure ControlInfo where
  id : Nat
  name : String
  type : ControlType
  count : Nat
  deriving DecidableEq, Repr

namespace Mixer

/-- Looks again at which controls of the card exist. -/
def rescan (m : Mixer) (card : Card) : Mixer :=
  { m with known := card.presentIds }

def find? (m : Mixer) (card : Card) (name : String) : Option Nat :=
  m.known.find? fun id => (card.controls[id]?).any (·.spec.name == name)

def info? (m : Mixer) (card : Card) (id : Nat) : Option ControlInfo :=
  if m.known.contains id then
    (card.control? id).map fun c => ⟨id, c.spec.name, c.spec.type, c.spec.count⟩
  else none

def write (m : Mixer) (card : Card) (id : Nat) (op : WriteOp) : Except Error Card :=
  if m.known.contains id then card.write id op
  else .error (.mixer ("#" ++ toString id) .notKnown)

/-- Finds a control by its name, looking again at the card if it is not among the known ones. -/
def lookup (m : Mixer) (card : Card) (name : String) : Mixer × Except Error Nat :=
  match m.find? card name with
  | some id => (m, .ok id)
  | none =>
    let seen := m.rescan card
    match seen.find? card name with
    | some id => (seen, .ok id)
    | none => (seen, .error (.controlNotFound name))

@[simp] theorem card_lookup (m : Mixer) (card : Card) (name : String) :
    (m.lookup card name).1.card = m.card := by
  simp only [lookup]
  split
  · rfl
  · split <;> rfl

/-- A control that is found is known and has the name. -/
theorem find?_eq_some {m : Mixer} {card : Card} {name : String} {id : Nat}
    (h : m.find? card name = some id) :
    id ∈ m.known ∧ ∃ c, card.controls[id]? = some c ∧ c.spec.name = name := by
  have hp := List.find?_some h
  refine ⟨List.mem_of_find?_eq_some h, ?_⟩
  simpa [Option.any_eq_true] using hp

end Mixer

namespace Card

/-- Runs a query on the control with this id and names the control in its fault. -/
def query {α : Type} (card : Card) (id : Nat) (f : LiveControl → Except ControlFault α) :
    Except Error α :=
  match card.control id with
  | .error e => .error e
  | .ok c => match f c with
    | .ok a => .ok a
    | .error fault => .error (.mixer c.spec.name fault)

def range (card : Card) (id : Nat) : Except Error (Int × Int) :=
  card.query id (·.range)

def read (card : Card) (id index : Nat) : Except Error Int :=
  card.query id (·.read index)

def readBytes (card : Card) (id : Nat) (buffer : List UInt8) : Except Error (List UInt8) :=
  card.query id (·.readBytes buffer)

def openMixer (card : Card) : Mixer × Card :=
  (⟨card.number, card.presentIds⟩, { card with opens := card.opens + 1 })

end Card

namespace Rack

def openMixer (rack : Rack) (number : Nat) : Except Error (Mixer × Rack) :=
  match rack.card? number with
  | none => .error (.mixerOpen number .noSuchCard)
  | some card =>
    let (mixer, opened) := card.openMixer
    .ok (mixer, rack.setCard opened)

end Rack

end SoundRouting
