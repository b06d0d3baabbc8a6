import SoundRouting.Mixer.Conversion
/-!
Binding assignments to the controls of a card, and applying them.

Binding looks the control up by its name, converts the value to the control's type and remembers
the control; an assignment that is bound stays as it is. Applying a list binds and writes one
assignment after the other. An assignment that cannot be bound ends the list; a write that the card
refuses does not.
-/
namespace SoundRouting

namespace Mixer

def bind (disk : Disk) (card : Card) (m : Mixer) (a : Assignment) :
    Mixer × Assignment × Except Error Unit :=
  if a.binding.isBound then (m, a, .ok ())
  else
    let (m, found) := m.lookup card a.control
    match found with
    | .error e => (m, a, .error e)
    | .ok id =>
      match m.info? card id with
      | none => (m, a, .error (.controlNotFound a.control))
      | some info =>
        let (converted, outcome) := a.convert disk info.type info.count
        match outcome with
        | .error e => (m, converted, .error e)
        | .ok () => (m, { converted with binding := .bound id info.type }, .ok ())

/-- Binds a volume control, which has to be an integer control, and gives its id. -/
def bindVolume (card : Card) (m : Mixer) (v : VolumeControl) :
    Mixer × VolumeControl × Except Error Nat :=
  match v.binding.id? with
  | some id => (m, v, .ok id)
  | none =>
    let (m, found) := m.lookup card v.control
    match found with
    | .error e => (m, v, .error e)
    | .ok id =>
      if (m.info? card id).any (·.type == .integer) then
        (m, { v with binding := .bound id .integer }, .ok id)
      else (m, v, .error (.value (.controlNotInteger v.control)))

/-- Writes a value to elements of a control, as far as the card takes it. -/
def writeElements (m : Mixer) (card : Card) (id : Nat) (value : Int) : List Nat → Card
  | [] => card
  | index :: more =>
    match m.write card id (.value index value) with
    | .ok card => writeElements m card id value more
    | .error _ => card

def elements (m : Mixer) (card : Card) (id : Nat) : Selector → List Nat
  | .at index => [index]
  | .all => List.range (((m.info? card id).map (·.count)).getD 0)

/-- The card after a write, or as it was if it refuses the write. -/
def attempt (m : Mixer) (card : Card) (id : Nat) (op : WriteOp) : Card :=
  match m.write card id op with
  | .ok card => card
  | .error _ => card

/-- `base` with `data` in the places from `offset` on. -/
def splice (base data : List UInt8) (offset : Nat) : List UInt8 :=
  base.take offset ++ data ++ base.drop (offset + data.length)

theorem length_splice {base data : List UInt8} {offset : Nat}
    (h : offset + data.length ≤ base.length) : (splice base data offset).length = base.length := by
  simp only [splice, List.length_append, List.length_take, List.length_drop]
  omega

/-- The places of `data` hold it, and every other place holds what it did. -/
theorem getElem?_splice {base data : List UInt8} {offset : Nat}
    (h : offset + data.length ≤ base.length) (i : Nat) :
    (splice base data offset)[i]?
      = if offset ≤ i ∧ i < offset + data.length then data[i - offset]? else base[i]? := by
  have ht : (base.take offset).length = offset := by
    simp only [List.length_take]
    omega
  simp only [splice]
  by_cases hi : i < offset
  · rw [List.append_assoc, List.getElem?_append_left (by omega), List.getElem?_take_of_lt hi,
      if_neg (by omega)]
  · rw [List.append_assoc, List.getElem?_append_right (by omega), ht]
    by_cases hd : i < offset + data.length
    · rw [List.getElem?_append_left (by omega), if_pos ⟨by omega, hd⟩]
    · rw [List.getElem?_append_right (by omega), List.getElem?_drop, if_neg (by omega)]
      congr 1
      omega

/-- Writes a block of bytes at `offset`. A block that is the whole control is written as it is;
otherwise the control is read into the block's work buffer, the bytes are put in their place there,
and the buffer is written. -/
def writeBlock (m : Mixer) (card : Card) (id offset : Nat) (block : ByteBlock) :
    Card × ByteBlock :=
  if offset = 0 ∧ block.data.length = block.work.length then
    (m.attempt card id (.bytes block.data), block)
  else match card.readBytes id block.work with
    | .error _ => (card, block)
    | .ok contents =>
      if contents.length < offset + block.data.length then (card, { block with work := contents })
      else
        let work := splice contents block.data offset
        (m.attempt card id (.bytes work), { block with work := work })

def writeValue (m : Mixer) (card : Card) (id : Nat) (index : Selector) : Value → Card × Value
  | .int v => (m.writeElements card id v (m.elements card id index), .int v)
  | .item name => (m.attempt card id (.item name), .item name)
  | .bytes block =>
    let (card, block) := m.writeBlock card id index.offset block
    (card, .bytes block)
  | other => (card, other)

@[simp] theorem card_bind (disk : Disk) (card : Card) (m : Mixer) (a : Assignment) :
    (m.bind disk card a).1.card = m.card := by
  simp only [bind]
  split
  · rfl
  · split
    · simp
    · split
      · simp
      · split <;> simp

end Mixer

/-- A card and a mixer open on it. -/
structure Desk where
  card : Card
  mixer : Mixer
  deriving DecidableEq, Repr, Inhabited

namespace Desk

/-- Binds one assignment and writes it; says whether it could be bound, so that the list goes on. -/
def applyOne (disk : Disk) (desk : Desk) (a : Assignment) : Desk × Assignment × Bool :=
  let (mixer, a, outcome) := desk.mixer.bind disk desk.card a
  match outcome, a.binding.id? with
  | .ok (), some id =>
    let (card, value) := mixer.writeValue desk.card id a.index a.value
    (⟨card, mixer⟩, { a with value := value }, true)
  | _, _ => (⟨desk.card, mixer⟩, a, false)

/-- Applies a list of assignments in order, up to the first that cannot be bound. -/
def apply (disk : Disk) (desk : Desk) : List Assignment → Desk × List Assignment
  | [] => (desk, [])
  | a :: more =>
    let (desk, a, goesOn) := desk.applyOne disk a
    if goesOn then
      let (desk, more) := desk.apply disk more
      (desk, a :: more)
    else (desk, a :: more)

@[simp] theorem apply_nil (disk : Disk) (desk : Desk) : desk.apply disk [] = (desk, []) := rfl

end Desk

end SoundRouting
