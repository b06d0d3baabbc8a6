import SoundRouting.Proofs.Bindings
/-!
Applying assignments means what it says.

The interpreter here knows nothing of bindings, of converted values or of what a mixer has seen. It
takes the assignments in order, and each time finds the control of the name among those that exist
by then. It ends at an assignment that has no control, or no meaning for it, and otherwise performs
the writes, a refused one without effect.
-/
namespace SoundRouting

@[simp] theorem Selector.offset_at (n : Nat) : (Selector.at n).offset = n := rfl

/-- The writes of a value to the elements that a selector means, of a control of `count` elements. -/
def Selector.valueWrites (index : Selector) (count : Nat) (v : Int) : List WriteOp :=
  match index with
  | .all => (List.range count).map fun i => .value i v
  | .at i => [.value i v]

/-- The writes that an assignment stands for at a control, if it makes sense there. -/
def Assignment.writes? (disk : Disk) (a : Assignment) (c : LiveControl) : Option (List WriteOp) :=
  match c.spec.type with
  | .switch | .integer => (a.value.toInteger a.control).toOption.map (a.index.valueWrites c.spec.count)
  | .enumerated => (a.value.toItem a.control).toOption.map fun name => [.item name]
  | .bytes =>
    let offset := a.index.offset
    if maxByteCount < c.spec.count ∨ c.spec.count ≤ offset then none
    else (a.value.toBytes disk a.control offset c.spec.count).toOption.map fun found =>
      [.bytes (Mixer.splice c.bytes found.1 offset)]
  | .iec958 | .integer64 | .unknown => none

namespace Card

def idOf? (card : Card) (name : String) : Option Nat :=
  card.controls.findIdx? fun c => c.present && c.spec.name == name

/-- Performs writes on a control; one that is refused has no effect. -/
def performAll (card : Card) (id : Nat) (ops : List WriteOp) : Card :=
  ops.foldl (fun card op => match card.write id op with
    | .ok changed => changed
    | .error _ => card) card

/-- What an assignment makes of the card, if it has a control and makes sense there. -/
def assign? (disk : Disk) (card : Card) (a : Assignment) : Option Card := do
  let id ← card.idOf? a.control
  let c ← card.controls[id]?
  let ops ← a.writes? disk c
  return card.performAll id ops

/-- What a list of assignments makes of the card. -/
def interpret (disk : Disk) (card : Card) : List Assignment → Card
  | [] => card
  | a :: more => match card.assign? disk a with
    | none => card
    | some changed => changed.interpret disk more

/-- Byte controls hold as many bytes as they have elements. -/
def Sized (card : Card) : Prop :=
  ∀ c ∈ card.controls, c.spec.type = .bytes → c.bytes.length = c.spec.count

def names (card : Card) : List String :=
  card.controls.map (·.spec.name)

theorem assign?_of_idOf? {disk : Disk} {card : Card} {a : Assignment} {id : Nat} {c : LiveControl}
    (hid : card.idOf? a.control = some id) (hc : card.controls[id]? = some c) :
    card.assign? disk a = (a.writes? disk c).map (card.performAll id) := by
  simp only [assign?, hid, hc, Option.bind_eq_bind, Option.bind_some, Option.pure_def]
  cases a.writes? disk c <;> rfl

theorem assign?_of_idOf?_eq_none {disk : Disk} {card : Card} {a : Assignment}
    (hid : card.idOf? a.control = none) : card.assign? disk a = none := by
  simp only [assign?, hid, Option.bind_eq_bind, Option.bind_none]

theorem performAll_cons (card : Card) (id : Nat) (op : WriteOp) (ops : List WriteOp) :
    card.performAll id (op :: ops) = match card.write id op with
      | .ok changed => changed.performAll id ops
      | .error _ => card.performAll id ops := by
  simp only [performAll, List.foldl_cons]
  split <;> rfl

/-- What refuses a write refuses it again. -/
theorem performAll_of_refused {card : Card} {id : Nat} {ops : List WriteOp}
    (h : ∀ op ∈ ops, ∃ e, card.write id op = .error e) : card.performAll id ops = card := by
  induction ops with
  | nil => rfl
  | cons op more ih =>
    rw [List.forall_mem_cons] at h
    obtain ⟨e, he⟩ := h.1
    rw [performAll_cons, he]
    exact ih h.2

/-- The card takes a write exactly if the control does. -/
theorem isOk_write {card : Card} {id : Nat} {c : LiveControl} (hc : card.control? id = some c)
    (op : WriteOp) : (card.write id op).isOk = (c.write op).isOk := by
  simp only [write, control, hc]
  cases c.write op <;> rfl

/-- A write changes nothing but the contents of the control, and keeps it under its id. -/
theorem control?_of_write {card changed : Card} {id : Nat} {c : LiveControl} {op : WriteOp}
    (hc : card.control? id = some c) (h : card.write id op = .ok changed) :
    ∃ d, changed.control? id = some d ∧ d.spec = c.spec :=
  (grows_write h).control? hc

/-- With distinct names, a control that exists is the one that its name finds. -/
theorem idOf?_of_control? {card : Card} (hnames : card.names.Nodup) {id : Nat} {c : LiveControl}
    (hc : card.control? id = some c) : card.idOf? c.spec.name = some id := by
  obtain ⟨hget, hpresent⟩ := control?_eq_some_iff.mp hc
  obtain ⟨hlt, rfl⟩ := List.getElem?_eq_some_iff.mp hget
  rw [idOf?, List.findIdx?_eq_some_iff_getElem]
  refine ⟨hlt, by simp [hpresent], fun j hj => ?_⟩
  have hne := List.pairwise_iff_getElem.mp hnames j id (by simpa [names] using Nat.lt_trans hj hlt)
    (by simpa [names] using hlt) hj
  simp only [names, List.getElem_map] at hne
  simp [hne]

theorem control?_of_idOf? {card : Card} {name : String} {id : Nat} (h : card.idOf? name = some id) :
    ∃ c, card.control? id = some c ∧ c.spec.name = name := by
  obtain ⟨hlt, htest, -⟩ := List.findIdx?_eq_some_iff_getElem.mp h
  rw [Bool.and_eq_true, beq_iff_eq] at htest
  exact ⟨_, control?_eq_some_iff.mpr ⟨List.getElem?_eq_getElem hlt, htest.1⟩, htest.2⟩

end Card

namespace Mixer

variable {m : Mixer} {card : Card} {id : Nat} {c : LiveControl}

theorem write_of_known (hknown : id ∈ m.known) (op : WriteOp) : m.write card id op = card.write id op := by
  rw [write, if_pos (List.contains_iff_mem.mpr hknown)]

theorem attempt_of_known (hknown : id ∈ m.known) (op : WriteOp) :
    m.attempt card id op = card.performAll id [op] := by
  rw [attempt, write_of_known hknown, Card.performAll_cons]
  cases card.write id op <;> rfl

/-- Where a control takes a value in all of some elements or in none, stopping at the first refusal
makes no difference. -/
theorem writeElements_eq (hknown : id ∈ m.known) (hc : card.control? id = some c) {v : Int}
    {indices : List Nat} {accepted : Bool}
    (h : ∀ i ∈ indices, ∀ d : LiveControl, d.spec = c.spec → (d.write (.value i v)).isOk = accepted) :
    m.writeElements card id v indices = card.performAll id (indices.map fun i => .value i v) := by
  induction indices generalizing card c with
  | nil => rfl
  | cons i more ih =>
    have hall := h
    rw [List.forall_mem_cons] at h
    simp only [writeElements, write_of_known hknown, List.map_cons, Card.performAll_cons]
    cases hw : card.write id (.value i v) with
    | ok changed =>
      obtain ⟨d, hd, hspec⟩ := Card.control?_of_write hc hw
      exact ih hd fun j hj d' hd' => h.2 j hj d' (hd'.trans hspec)
    | error e =>
      have hrefused : accepted = false := by
        rw [← h.1 c rfl, ← Card.isOk_write hc, hw]
        rfl
      refine (Card.performAll_of_refused fun op hop => ?_).symm
      obtain ⟨j, hj, rfl⟩ := List.mem_map.mp hop
      have hok := h.2 j hj c rfl
      rw [← Card.isOk_write hc, hrefused] at hok
      cases hwj : card.write id (.value j v) with
      | ok changed =>
        rw [hwj] at hok
        cases hok
      | error e => exact ⟨e, rfl⟩

/-- Whether a control takes a value depends on its description only, and is the same for all of its
elements. -/
theorem isOk_write_value {c d : LiveControl} (hspec : d.spec = c.spec) {i : Nat} (hi : i < c.spec.count) (v : Int) :
    (d.write (.value i v)).isOk = (c.write (.value 0 v)).isOk := by
  have hcount : ¬ d.spec.count ≤ i := by rw [hspec]; omega
  have hzero : ¬ c.spec.count ≤ 0 := by omega
  have hrange := LiveControl.valueRange_of_spec hspec
  simp only [LiveControl.write, if_neg hcount, if_neg hzero, hrange]
  cases c.valueRange with
  | error e => rfl
  | ok range =>
    obtain ⟨low, high⟩ := range
    by_cases hv : low ≤ v ∧ v ≤ high
    · simp only [if_pos hv]
      rfl
    · simp only [if_neg hv]

/-- Writing an integer to the elements that a selector means. -/
theorem writeElements_selected (hknown : id ∈ m.known) (hc : card.control? id = some c)
    (v : Int) (index : Selector) :
    m.writeElements card id v (m.elements card id index)
      = card.performAll id (index.valueWrites c.spec.count v) := by
  cases index with
  | «at» i =>
    simp only [elements, writeElements, write_of_known hknown, Selector.valueWrites, Card.performAll_cons]
    cases card.write id (.value i v) <;> rfl
  | all =>
    have hinfo := Desk.info?_of_known hknown hc
    simp only [elements, hinfo, Option.map_some, Option.getD_some]
    exact writeElements_eq hknown hc fun i hi d hspec => isOk_write_value hspec (List.mem_range.mp hi) v

/-- A byte control that has its size is read into a buffer of its size as it is. -/
theorem readBytes_of_sized (hc : card.control? id = some c) (htype : c.spec.type = .bytes)
    {buffer : List UInt8} (hlength : buffer.length = c.bytes.length) :
    card.readBytes id buffer = .ok c.bytes := by
  have hread : c.readBytes buffer = .ok c.bytes := by
    rw [LiveControl.readBytes, if_neg (not_not_intro htype), hlength, List.take_length,
      LiveControl.overlay, ← hlength, List.drop_length, List.append_nil]
  simp only [Card.readBytes, Card.query, Card.control, hc, hread]

theorem splice_all {base data : List UInt8} (h : data.length = base.length) : splice base data 0 = data := by
  rw [splice, List.take_zero, List.nil_append, Nat.zero_add, h, List.drop_length, List.append_nil]

/-- A block of bytes takes its place among the bytes of the control, whichever way it is written. -/
theorem writeBlock_eq (hknown : id ∈ m.known) (hc : card.control? id = some c)
    (htype : c.spec.type = .bytes) {block : ByteBlock} {offset : Nat}
    (hwork : block.work.length = c.bytes.length) (hend : offset + block.data.length ≤ c.bytes.length) :
    (m.writeBlock card id offset block).1
      = card.performAll id [.bytes (splice c.bytes block.data offset)] := by
  simp only [writeBlock]
  by_cases hwhole : offset = 0 ∧ block.data.length = block.work.length
  · obtain ⟨rfl, hlength⟩ := hwhole
    rw [if_pos ⟨rfl, hlength⟩, splice_all (hlength.trans hwork)]
    exact attempt_of_known hknown _
  · rw [if_neg hwhole, readBytes_of_sized hc htype hwork]
    simp only [if_neg (Nat.not_lt.mpr hend)]
    exact attempt_of_known hknown _

/-- Writing the value of a fitting assignment performs the writes that the assignment stands for. -/
theorem writeValue_eq (disk : Disk) (hknown : id ∈ m.known) (hc : card.control? id = some c)
    (hsized : card.Sized) {a : Assignment} (hfits : a.Fits c.spec) :
    ∃ ops, a.writes? disk c = some ops
      ∧ (m.writeValue card id a.index a.value).1 = card.performAll id ops := by
  obtain ⟨control, index, value, binding⟩ := a
  unfold Assignment.Fits at hfits
  cases htype : c.spec.type <;> simp only [htype] at hfits
  case switch | integer =>
    obtain ⟨v, rfl⟩ := hfits
    simp only [Assignment.writes?, htype]
    exact ⟨_, rfl, writeElements_selected hknown hc v index⟩
  case enumerated =>
    obtain ⟨name, rfl⟩ := hfits
    simp only [Assignment.writes?, htype]
    exact ⟨_, rfl, attempt_of_known hknown _⟩
  case bytes =>
    obtain ⟨block, offset, rfl, rfl, hlt, hend, hwork, hmax⟩ := hfits
    have hbytes : c.bytes.length = c.spec.count :=
      hsized c (List.mem_of_getElem? (Card.control?_eq_some_iff.mp hc).1) htype
    have hgood : ¬ (maxByteCount < c.spec.count ∨ c.spec.count ≤ offset) := by omega
    have hfound : (Value.bytes block).toBytes disk control offset c.spec.count
        = .ok (block.data, block.source) := if_pos (by omega)
    refine ⟨[.bytes (splice c.bytes block.data offset)], ?_, ?_⟩
    · simp only [Assignment.writes?, htype, Selector.offset, if_neg hgood, hfound]
      rfl
    · exact writeBlock_eq hknown hc htype (by omega)
        (show offset + block.data.length ≤ c.bytes.length by omega)

end Mixer

/-- Converting an assignment for a control keeps what it stands for there. -/
theorem Assignment.writes?_convert {disk : Disk} {a converted : Assignment} {c : LiveControl}
    {outcome : Except Error Unit}
    (h : a.convert disk c.spec.type c.spec.count = (converted, outcome)) (l : LiveControl)
    (hl : l.spec = c.spec) :
    converted.writes? disk l = a.writes? disk l ∧ ((a.writes? disk l).isSome = outcome.isOk) := by
  unfold convert at h
  unfold writes?
  cases htype : c.spec.type <;> simp only [htype, hl] at h ⊢
  case switch | integer =>
    split at h <;> rename_i hv <;> cases h <;> rw [hv]
    · exact ⟨rfl, rfl⟩
    · exact ⟨rfl, rfl⟩
  case enumerated =>
    split at h <;> rename_i hv <;> cases h <;> rw [hv]
    · exact ⟨rfl, rfl⟩
    · exact ⟨rfl, rfl⟩
  case bytes =>
    by_cases hmax : maxByteCount < c.spec.count
    · rw [if_pos hmax] at h
      cases h
      rw [if_pos (Or.inl hmax)]
      exact ⟨rfl, rfl⟩
    · rw [if_neg hmax] at h
      simp only [byteValue] at h
      rw [Selector.offset_at] at h
      by_cases hoffset : c.spec.count ≤ a.index.offset
      · simp only [if_pos hoffset] at h
        cases h
        refine ⟨rfl, ?_⟩
        rw [if_pos (Or.inr hoffset)]
        rfl
      · have hgood : ¬ (maxByteCount < c.spec.count ∨ c.spec.count ≤ a.index.offset) := by omega
        simp only [if_neg hoffset] at h
        simp only [if_neg hgood]
        cases hv : a.value.toBytes disk a.control a.index.offset c.spec.count with
        | error e =>
          simp only [hv] at h
          cases h
          simp only [Selector.offset_at, if_neg hgood, hv]
          exact ⟨trivial, rfl⟩
        | ok found =>
          simp only [hv] at h
          cases h
          have hend := Value.length_toBytes (Nat.le_of_lt (Nat.lt_of_not_le hoffset)) hv
          have hblock : ∀ work, (Value.bytes ⟨found.1, work, found.2⟩).toBytes disk a.control a.index.offset
              c.spec.count = .ok (found.1, found.2) :=
            fun _ => if_pos (show found.1.length ≤ c.spec.count - a.index.offset by omega)
          simp only [Selector.offset_at, if_neg hgood, hblock]
          exact ⟨trivial, rfl⟩
  all_goals
    cases h
    exact ⟨trivial, rfl⟩

end SoundRouting
