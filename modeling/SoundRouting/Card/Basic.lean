import SoundRouting.Card.Control
/-!
Sound cards: a table of controls and a log of the writes they took.

A control keeps its place in the table, and the place is its id. A control that is created by
another appears with the first write to that one. Every write that is not refused is logged.
-/
namespace SoundRouting

/-- A sound card. `opens` counts the mixers opened on it. -/
structure Card where
  number : Nat
  id : Option String
  controls : List LiveControl
  log : List WriteRecord
  opens : Nat
  deriving DecidableEq, Repr, Inhabited

namespace Card

def blank (number : Nat) (id : Option String) : Card :=
  ⟨number, id, [], [], 0⟩

def addControl (card : Card) (spec : Control) : Card :=
  { card with controls := card.controls ++ [LiveControl.start spec] }

def ofControls (number : Nat) (id : Option String) (specs : List Control) : Card :=
  specs.foldl addControl (blank number id)

def control? (card : Card) (id : Nat) : Option LiveControl :=
  (card.controls[id]?).filter (·.present)

/-- The control with this id, or the fault of using an id that means none. -/
def control (card : Card) (id : Nat) : Except Error LiveControl :=
  match card.control? id with
  | some c => .ok c
  | none => .error (.mixer ("#" ++ toString id) .noSuchControl)

def named? (card : Card) (name : String) : Option LiveControl :=
  card.controls.find? (·.spec.name == name)

/-- The ids of the controls that exist, in order. -/
def presentIds (card : Card) : List Nat :=
  (List.range card.controls.length).filter fun id => (card.control? id).isSome

def presentNames (card : Card) : List String :=
  (card.controls.filter (·.present)).map (·.spec.name)

/-- A control after some control named `trigger` has been written: it exists if it did or if that
write creates it. -/
def appear (trigger : String) (c : LiveControl) : LiveControl :=
  { c with present := c.present || c.spec.createdBy == some trigger }

/-- Logs a write and lets the controls appear that it creates. -/
def record (card : Card) (r : WriteRecord) : Card :=
  { card with
    controls := card.controls.map (appear r.control)
    log := card.log ++ [r] }

def write (card : Card) (id : Nat) (op : WriteOp) : Except Error Card :=
  match card.control id with
  | .error e => .error e
  | .ok c => match c.write op with
    | .error fault => .error (.mixer c.spec.name fault)
    | .ok d => .ok ({ card with controls := card.controls.set id d }.record ⟨c.spec.name, op⟩)

/-- A write reaches an existing control, changes it there, and may let others appear. -/
theorem write_eq_ok_iff {card changed : Card} {id : Nat} {op : WriteOp} :
    card.write id op = .ok changed ↔ ∃ c d, card.control? id = some c ∧ c.write op = .ok d
      ∧ changed = ({ card with controls := card.controls.set id d }).record ⟨c.spec.name, op⟩ := by
  simp only [write, control]
  cases card.control? id with
  | none => simp
  | some c =>
    cases hw : c.write op with
    | error fault => simp [hw]
    | ok d => simp [hw, eq_comm]

theorem number_write {card changed : Card} {id : Nat} {op : WriteOp}
    (h : card.write id op = .ok changed) : changed.number = card.number := by
  obtain ⟨c, d, -, -, rfl⟩ := write_eq_ok_iff.mp h
  rfl

def values (card : Card) (name : String) : List Int :=
  ((card.named? name).map (·.ints)).getD []

def bytes (card : Card) (name : String) : List UInt8 :=
  ((card.named? name).map (·.bytes)).getD []

def item? (card : Card) (name : String) : Option String :=
  (card.named? name).bind (·.item?)

/-- Overwrites the first bytes of the control of this name, as far as it reaches; no write is
logged. -/
def presetBytes (card : Card) (name : String) (data : List UInt8) : Card :=
  match card.controls.findIdx? (·.spec.name == name) with
  | none => card
  | some i =>
    { card with
      controls := card.controls.modify i fun c =>
        { c with bytes := LiveControl.overlay (data.take c.bytes.length) c.bytes } }

def drainLog (card : Card) : List WriteRecord × Card :=
  (card.log, { card with log := [] })

end Card

/-- The cards of a machine, in order. -/
structure Rack where
  cards : List Card
  deriving DecidableEq, Repr, Inhabited

namespace Rack

/-- The first card with this number. -/
def card? (rack : Rack) (number : Nat) : Option Card :=
  rack.cards.find? (·.number == number)

/-- Puts a card in the place of the first card with its number. -/
def replace (card : Card) : List Card → List Card
  | [] => []
  | c :: more => if c.number == card.number then card :: more else c :: replace card more

/-- The rack with one card changed, the first with its number. -/
def setCard (rack : Rack) (card : Card) : Rack :=
  ⟨replace card rack.cards⟩

def numberOf? (rack : Rack) (name : String) : Option Nat :=
  (rack.cards.find? (·.id == some name)).map (·.number)

def drainLogs (rack : Rack) : List WriteRecord × Rack :=
  (rack.cards.flatMap (·.log), ⟨rack.cards.map fun card => card.drainLog.2⟩)

/-- The card that is put back is the one found under its number. -/
theorem card?_setCard_same {rack : Rack} {card old : Card}
    (h : rack.card? card.number = some old) :
    (rack.setCard card).card? card.number = some card := by
  obtain ⟨cards⟩ := rack
  simp only [card?, setCard] at h ⊢
  induction cards with
  | nil => cases h
  | cons c more ih =>
    simp only [replace]
    by_cases hc : c.number = card.number
    · simp [hc]
    · have hb : (c.number == card.number) = false := by simpa using hc
      simp only [hb, List.find?_cons] at h ⊢
      simpa [hb] using ih h

theorem number_of_card? {rack : Rack} {number : Nat} {card : Card} (h : rack.card? number = some card) :
    card.number = number := by
  simpa using List.find?_some h

/-- Putting a card back leaves those with other numbers. -/
theorem card?_setCard_other (rack : Rack) {card : Card} {number : Nat} (h : card.number ≠ number) :
    (rack.setCard card).card? number = rack.card? number := by
  obtain ⟨cards⟩ := rack
  simp only [card?, setCard]
  induction cards with
  | nil => rfl
  | cons c more ih =>
    simp only [replace]
    by_cases hc : c.number = card.number
    · have hcard : (card.number == number) = false := by simpa using h
      simp [hc, hcard]
    · have hb : (c.number == card.number) = false := by simpa using hc
      simp only [hb, Bool.false_eq_true, if_false, List.find?_cons, ih]

end Rack

end SoundRouting
