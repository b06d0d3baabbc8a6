import SoundRouting.Manager.Basic
import SoundRouting.Text.Numeral
/-!
Volumes, use-cases and constants of streams.
-/
namespace SoundRouting

/-- The value at a percentage of the way from `low` to `high`. What is not a whole number is cut
off towards `low`. -/
def scaleVolume (low high percent : Int) : Int :=
  if percent = 0 then low
  else if percent = 100 then high
  else Numeral.wrapSigned (low + Int.tdiv ((high - low) * percent) 100)

namespace Manager

/-- Writes a percentage to a volume control. A control that cannot be found, or refuses the value,
is left alone. -/
def writeVolume (desk : Desk) (v : VolumeControl) (percent : Int) : Desk × VolumeControl :=
  let (mixer, v, outcome) := desk.mixer.bindVolume desk.card v
  match outcome with
  | .error _ => (⟨desk.card, mixer⟩, v)
  | .ok id =>
    let value := scaleVolume v.low v.high percent
    (⟨mixer.attempt desk.card id (.value v.index value), mixer⟩, v)

def writeVolume? (desk : Desk) (v : Option VolumeControl) (percent : Int) :
    Desk × Option VolumeControl :=
  match v with
  | none => (desk, none)
  | some v =>
    let (desk, v) := writeVolume desk v percent
    (desk, some v)

def badPercent? (percents : List Int) : Option Int :=
  percents.find? fun p => !decide (0 ≤ p ∧ p ≤ 100)

/-- Sets the volume of a stream. A stream that only has the left control is set to the mean. -/
def setVolume (m : Manager) (id : StreamId) (left right : Int) : Manager × Except Error Unit :=
  match badPercent? [left, right] with
  | some percent => (m, .error (.argument (.percentOutOfRange percent)))
  | none =>
    match m.model.stream? id with
    | none => (m, .error (.argument .unknownStream))
    | some stream =>
      if stream.left.isNone && stream.right.isNone then (m, .error (.notSupported .noVolume))
      else
        let percent := if stream.right.isNone then (left + right) / 2 else left
        let (desk, leftControl) := writeVolume? m.desk stream.left percent
        let (desk, rightControl) := writeVolume? desk stream.right right
        ({ desk := desk
           model := m.model.modifyStream id fun s =>
             { s with left := leftControl, right := rightControl } }, .ok ())

/-- The place of a use-case of some name that has an alternative of some name, and the place of the
alternative. -/
def casePlace? (setting caseName : String) (stream : Stream) : Option (Nat × Nat) :=
  (List.range stream.useCases.size).findSome? fun u => do
    let useCase ← stream.useCases.get? u
    if useCase.name == setting then
      let c ← useCase.casePlace? caseName
      return (u, c)
    else none

def applyUseCase (disk : Disk) (m : Manager) (id : StreamId) (setting caseName : String) :
    Manager × Except Error Unit :=
  let found := do
    let stream ← m.model.stream? id
    let (u, c) ← casePlace? setting caseName stream
    let useCase ← stream.useCases.get? u
    let caseOf ← useCase.cases.get? c
    return (u, c, caseOf.assignments)
  match found with
  | none => (m, .error (.notSupported (.noCase setting caseName)))
  | some (u, c, assignments) =>
    let (m, assignments) := m.apply disk assignments
    (m.modifyStream id fun s =>
      { s with
        useCases := s.useCases.modify u fun uc =>
          { uc with
            cases := uc.cases.modify c fun k => { k with assignments := assignments } } }, .ok ())

def constant (m : Manager) (id : StreamId) (name : String) : Except Error String :=
  match (m.model.stream? id).bind (·.constant? name) with
  | some text => .ok text
  | none => .error (.notFound (.constant name))

def unsignedConstant (m : Manager) (id : StreamId) (name : String) : Except Error Nat :=
  match m.constant id name with
  | .error e => .error e
  | .ok text => match Numeral.unsigned? text with
    | some n => .ok n
    | none => .error (.argument (.constantNotUnsigned name text))

def signedConstant (m : Manager) (id : StreamId) (name : String) : Except Error Int :=
  match m.constant id name with
  | .error e => .error e
  | .ok text => match Numeral.signed? text with
    | some n => .ok n
    | none => .error (.argument (.constantNotInteger name text))

end Manager

end SoundRouting
