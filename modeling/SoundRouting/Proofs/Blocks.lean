import SoundRouting.Proofs.Blend
/-!
What an assignment does to a byte control.

A text or a file is turned into a block of bytes when the assignment is bound, and the block has its place in the
control. Each time the assignment is applied the control is written once, as a whole: the block is put over what the
control holds by then. Neither the way in which that is done nor what is left in the work buffer shows.
-/
namespace SoundRouting

namespace Value

/-- Whether a text or a file gives bytes for a control of `count` elements from `offset` on. A list has to have a
field, to end within the control and to consist of literals; of a file as much is taken as there is room. -/
def CanGive (disk : Disk) (offset count : Nat) : Value → Prop
  | .pending text => byteFields text ≠ [] ∧ offset + (byteFields text).length ≤ count
      ∧ ∀ field ∈ byteFields text, (Numeral.unsigned? field).isSome = true
  | .pendingFile file => ∃ contents, disk.read file = .ok contents
  | _ => False

/-- The bytes that a text or a file gives where there is room for `room` of them. -/
def Gives (disk : Disk) (room : Nat) (data : List UInt8) : Value → Prop
  | .pending text => ∃ values : List Nat, (byteFields text).map Numeral.unsigned? = values.map some
      ∧ data.map UInt8.toNat = values.map (· % 256)
  | .pendingFile file => ∃ contents, disk.read file = .ok contents
      ∧ data = contents.take (min contents.length room)
  | _ => False

theorem lowBytes_eq_ok_iff {fields : List String} {data : List UInt8} :
    lowBytes fields = .ok data ↔ ∃ values : List Nat, fields.map Numeral.unsigned? = values.map some
      ∧ data = values.map UInt8.ofNat := by
  induction fields generalizing data with
  | nil =>
    simp only [lowBytes, List.map_nil, Except.ok.injEq, List.nil_eq, List.map_eq_nil_iff, exists_eq_left]
  | cons field more ih =>
    simp only [lowBytes, List.map_cons]
    cases hfield : Numeral.unsigned? field with
    | none =>
      constructor
      · intro h
        cases h
      · rintro ⟨values, hvalues, -⟩
        cases values <;> cases hvalues
    | some v =>
      constructor
      · intro h
        cases hothers : lowBytes more with
        | error e =>
          rw [hothers] at h
          cases h
        | ok others =>
          rw [hothers] at h
          cases h
          obtain ⟨values, hvalues, rfl⟩ := ih.mp hothers
          exact ⟨v :: values, by rw [hvalues, List.map_cons], rfl⟩
      · rintro ⟨values, hvalues, rfl⟩
        cases values with
        | nil => cases hvalues
        | cons w values =>
          rw [List.map_cons, List.cons.injEq, Option.some.injEq] at hvalues
          obtain ⟨rfl, hmore⟩ := hvalues
          rw [ih.mpr ⟨values, hmore, rfl⟩]
          rfl

/-- A list of fields has low bytes if every field is a literal. -/
theorem exists_lowBytes_iff {fields : List String} :
    (∃ data, lowBytes fields = .ok data) ↔ ∀ field ∈ fields, (Numeral.unsigned? field).isSome = true := by
  induction fields with
  | nil => exact ⟨fun _ _ h => absurd h List.not_mem_nil, fun _ => ⟨[], rfl⟩⟩
  | cons field more ih =>
    rw [List.forall_mem_cons, ← ih]
    simp only [lowBytes]
    cases Numeral.unsigned? field with
    | none => simp
    | some v =>
      cases lowBytes more <;> simp

theorem exists_toBytes_iff {disk : Disk} {offset count : Nat} {v : Value} (hpending : v.isPending = true)
    (control : String) :
    (∃ found, v.toBytes disk control offset count = .ok found) ↔ v.CanGive disk offset count := by
  cases v with
  | int | item | bytes => cases hpending
  | pendingFile file =>
    simp only [toBytes, CanGive]
    cases disk.read file <;> simp
  | pending text =>
    simp only [toBytes, CanGive, listedBytes]
    rw [← exists_lowBytes_iff]
    by_cases hempty : byteFields text = []
    · simp [hempty]
    · by_cases hroom : count < offset + (byteFields text).length
      · simp [hempty, hroom, Nat.not_le_of_lt hroom]
      · simp only [List.isEmpty_iff, hempty, if_false, hroom, ne_eq, not_false_eq_true, true_and, Nat.le_of_not_lt hroom]
        cases lowBytes (byteFields text) <;> simp

theorem gives_of_toBytes {disk : Disk} {control : String} {offset count : Nat} {v : Value}
    (hpending : v.isPending = true) {data : List UInt8} {source : Option Location}
    (h : v.toBytes disk control offset count = .ok (data, source)) : v.Gives disk (count - offset) data := by
  cases v with
  | int | item | bytes => cases hpending
  | pendingFile file =>
    simp only [toBytes] at h
    split at h <;> cases h
    rename_i contents hread
    exact ⟨contents, hread, List.take_eq_take_iff.mpr (by omega)⟩
  | pending text =>
    simp only [toBytes, listedBytes] at h
    split at h <;> cases h
    rename_i hlist
    split at hlist
    · cases hlist
    · split at hlist
      · cases hlist
      · obtain ⟨values, hvalues, rfl⟩ := lowBytes_eq_ok_iff.mp hlist
        refine ⟨values, hvalues, ?_⟩
        rw [List.map_map]
        exact List.map_congr_left fun v _ => UInt8.toNat_ofNat'

end Value

/-- `whole` is `base` with `data` in the places from `offset` on. -/
structure Covers (base data : List UInt8) (offset : Nat) (whole : List UInt8) : Prop where
  length : whole.length = base.length
  entries : ∀ i : Nat,
    whole[i]? = if offset ≤ i ∧ i < offset + data.length then data[i - offset]? else base[i]?

/-- The assignment as it is bound to the byte control `id` of `count` elements, with `data` as its bytes. -/
def Assignment.asBlock (a : Assignment) (id count : Nat) (data : List UInt8) (source : Option Location) : Assignment :=
  ⟨a.control, .at a.index.offset, .bytes ⟨data, List.replicate count 0, source⟩, .bound id .bytes⟩

def Assignment.withWork (a : Assignment) (work : List UInt8) : Assignment :=
  match a.value with
  | .bytes block => { a with value := .bytes { block with work := work } }
  | _ => a

/-- A byte control takes bytes for all of it, holds them from then on, and the write is logged. -/
theorem Card.write_whole {card : Card} {id : Nat} {c : LiveControl} (hc : card.control? id = some c)
    (htype : c.spec.type = .bytes) {data : List UInt8} (hlength : data.length = c.bytes.length) :
    ∃ changed, card.write id (.bytes data) = .ok changed ∧ changed.control? id = some { c with bytes := data }
      ∧ changed.log = card.log ++ [⟨c.spec.name, .bytes data⟩] := by
  have hw : c.write (.bytes data) = .ok { c with bytes := data } := by
    have htakes := LiveControl.Takes.bytes htype (Nat.le_of_eq hlength)
    rw [LiveControl.overlay_all hlength] at htakes
    exact LiveControl.write_eq_ok_iff.mpr htakes
  refine ⟨_, write_eq_ok_iff.mpr ⟨c, _, hc, hw, rfl⟩, ?_, rfl⟩
  have hpresent : LiveControl.present { c with bytes := data } = true := (control?_eq_some_iff.mp hc).2
  rw [control?_eq_some_iff, getElem?_write hc, if_pos rfl, Option.map_some, appear_of_present hpresent]
  exact ⟨rfl, hpresent⟩

/-- Writing a block changes at most its work buffer, which keeps its length. -/
theorem Mixer.exists_work_writeBlock (m : Mixer) {card : Card} {id : Nat} {c : LiveControl}
    (hc : card.control? id = some c) (htype : c.spec.type = .bytes) {block : ByteBlock} {offset : Nat}
    (hwork : block.work.length = c.bytes.length) (hend : offset + block.data.length ≤ c.bytes.length) :
    ∃ work, work.length = c.bytes.length ∧ (m.writeBlock card id offset block).2 = { block with work := work } := by
  simp only [writeBlock]
  split
  · exact ⟨block.work, hwork, rfl⟩
  · rw [readBytes_of_sized hc htype hwork]
    simp only [if_neg (Nat.not_lt.mpr hend)]
    exact ⟨_, length_splice hend, rfl⟩

namespace Desk

/-- Binding a text or a file to a byte control gives a block, if the place is in the control and the value can be
made into bytes there, and fails otherwise. -/
theorem bind_block {desk : Desk} (disk : Disk) {a : Assignment} (ha : a.binding = .unresolved)
    (hpending : a.value.isPending = true) {id : Nat}
    (hfound : (desk.mixer.lookup desk.card a.control).2 = .ok id) {c : LiveControl}
    (hc : desk.card.control? id = some c) (htype : c.spec.type = .bytes) (hmax : c.spec.count ≤ maxByteCount) :
    ((a.index.offset < c.spec.count ∧ a.value.CanGive disk a.index.offset c.spec.count)
        ∧ ∃ data source, a.value.Gives disk (c.spec.count - a.index.offset) data
          ∧ a.index.offset + data.length ≤ c.spec.count
          ∧ (desk.mixer.bind disk desk.card a).2 = (a.asBlock id c.spec.count data source, .ok ()))
      ∨ (¬ (a.index.offset < c.spec.count ∧ a.value.CanGive disk a.index.offset c.spec.count)
        ∧ ∃ b e, (desk.mixer.bind disk desk.card a).2 = (b, .error e)) := by
  rw [bind_of_found disk ha hfound hc, htype]
  simp only [Assignment.convert, if_neg (Nat.not_lt.mpr hmax), Assignment.byteValue]
  rw [Selector.offset_at, ← Value.exists_toBytes_iff hpending a.control]
  by_cases hoffset : c.spec.count ≤ a.index.offset
  · simp only [if_pos hoffset]
    exact Or.inr ⟨fun h => Nat.not_lt.mpr hoffset h.1, _, _, rfl⟩
  · simp only [if_neg hoffset]
    cases hv : a.value.toBytes disk a.control a.index.offset c.spec.count with
    | error e =>
      refine Or.inr ⟨?_, _, _, rfl⟩
      rintro ⟨-, found, h⟩
      cases h
    | ok found =>
      obtain ⟨data, source⟩ := found
      have hlt := Nat.lt_of_not_le hoffset
      exact Or.inl ⟨⟨hlt, _, rfl⟩, data, source, Value.gives_of_toBytes hpending hv,
        Value.length_toBytes (Nat.le_of_lt hlt) hv, rfl⟩

/-- Applying the assignment adds one record to the log, of a write of all that the byte control `id` holds, and the
control holds that from then on. Of the assignment only the work buffer changes. -/
def PutsBlock (disk : Disk) (desk : Desk) (a : Assignment) (id : Nat) (c : LiveControl) (offset : Nat)
    (data : List UInt8) : Prop :=
  ∃ card work whole, desk.applyOne disk a = (⟨card, desk.mixer⟩, a.withWork work, true)
    ∧ work.length = c.bytes.length ∧ Covers c.bytes data offset whole
    ∧ card.log = desk.card.log ++ [⟨c.spec.name, .bytes whole⟩]
    ∧ card.control? id = some { c with bytes := whole }

/-- A block that is bound to a byte control is put over what the control holds, whichever way it is written and
whatever its work buffer holds. -/
theorem putsBlock_of_bound (disk : Disk) {desk : Desk} {id : Nat} (hknown : id ∈ desk.mixer.known) {c : LiveControl}
    (hc : desk.card.control? id = some c) (htype : c.spec.type = .bytes) {a : Assignment} {block : ByteBlock}
    (hb : a.binding = .bound id .bytes) (hvalue : a.value = .bytes block)
    (hend : a.index.offset + block.data.length ≤ c.bytes.length) (hwork : block.work.length = c.bytes.length) :
    desk.PutsBlock disk a id c a.index.offset block.data := by
  obtain ⟨changed, hw, hcontrol, hlog⟩ := Card.write_whole hc htype (Mixer.length_splice hend)
  have hcard : (desk.mixer.writeBlock desk.card id a.index.offset block).1 = changed := by
    rw [Mixer.writeBlock_eq hknown hc htype hwork hend, Card.performAll_cons, hw]
    rfl
  obtain ⟨work, hlength, hblock⟩ := Mixer.exists_work_writeBlock desk.mixer hc htype hwork hend
  refine ⟨changed, work, _, ?_, hlength, ⟨Mixer.length_splice hend, Mixer.getElem?_splice hend⟩, hlog, hcontrol⟩
  rw [applyOne_of_bound disk desk hb, hvalue, Assignment.withWork, hvalue]
  simp only [Mixer.writeValue, hcard, hblock]

/-- A text or a file for a byte control that is found can be bound exactly if its place is in the control and it
gives bytes there. From then on, whenever the assignment is applied, with whatever in its work buffer and to whatever
the control holds, the control is written once, and as a whole, with those bytes in their places. -/
theorem bound_block_writes {desk : Desk} (disk : Disk) {a : Assignment} (ha : a.binding = .unresolved)
    (hpending : a.value.isPending = true) {id : Nat}
    (hfound : (desk.mixer.lookup desk.card a.control).2 = .ok id) {c : LiveControl}
    (hc : desk.card.control? id = some c) (htype : c.spec.type = .bytes) (hmax : c.spec.count ≤ maxByteCount) :
    ((desk.mixer.bind disk desk.card a).2.2 = .ok ()
        ↔ a.index.offset < c.spec.count ∧ a.value.CanGive disk a.index.offset c.spec.count)
      ∧ ((desk.mixer.bind disk desk.card a).2.2 = .ok () → ∃ data,
        a.value.Gives disk (c.spec.count - a.index.offset) data ∧ ∀ (later : Desk) (d : LiveControl) (work : List UInt8),
          id ∈ later.mixer.known → later.card.control? id = some d → d.spec = c.spec →
          d.bytes.length = c.spec.count → work.length = c.spec.count →
            later.PutsBlock disk ((desk.mixer.bind disk desk.card a).2.1.withWork work) id d a.index.offset data) := by
  rcases bind_block disk ha hpending hfound hc htype hmax with
    ⟨hgood, data, source, hgives, hend, hbind⟩ | ⟨hbad, b, e, hbind⟩
  · rw [hbind]
    refine ⟨iff_of_true rfl hgood, fun _ => ⟨data, hgives, fun later d work hknown hd hspec hlength hwork => ?_⟩⟩
    rw [← hlength] at hend hwork
    have htype' : d.spec.type = .bytes := by rw [hspec, htype]
    have hbound : ((a.asBlock id c.spec.count data source).withWork work).binding = .bound id .bytes := rfl
    exact putsBlock_of_bound disk hknown hd htype' hbound rfl hend hwork
  · rw [hbind]
    exact ⟨iff_of_false (fun h => by cases h) hbad, fun h => by cases h⟩

def coeffDesk : Desk :=
  let card := (Card.ofControls 0 none [.bytes "Coeffs" 3]).presetBytes "Coeffs" [1, 2, 3]
  ⟨card.openMixer.2, card.openMixer.1⟩

/-- Two bytes from the second place on, the second of them given by a number that is too large. -/
theorem bound_block_writes_coeffs :
    let disk : Disk := ⟨default, ⟨""⟩⟩
    let a := Assignment.declared "Coeffs" (.at 1) (.pending "7,,300")
    let bound := (coeffDesk.mixer.bind disk coeffDesk.card a).2
    ∃ c, (coeffDesk.mixer.lookup coeffDesk.card a.control).2 = .ok 0 ∧ coeffDesk.card.control? 0 = some c
      ∧ c.spec.type = .bytes ∧ c.spec.count ≤ maxByteCount ∧ bound.2 = .ok ()
      ∧ (∃ data, a.value.Gives disk 2 data ∧ coeffDesk.PutsBlock disk (bound.1.withWork [9, 9, 9]) 0 c 1 data)
      ∧ (coeffDesk.applyOne disk bound.1).1.card.log = [⟨"Coeffs", .bytes [1, 7, 44]⟩] := by
  intro disk a bound
  have hfound : (coeffDesk.mixer.lookup coeffDesk.card a.control).2 = .ok 0 := rfl
  have hspec := bound_block_writes disk (a := a) rfl rfl hfound
    (c := ⟨.bytes "Coeffs" 3, true, [0, 0, 0], [1, 2, 3]⟩) rfl rfl (by decide)
  have hbound : bound.2 = .ok () := rfl
  obtain ⟨data, hgives, hputs⟩ := hspec.2 hbound
  exact ⟨_, hfound, rfl, rfl, by decide, hbound,
    ⟨data, hgives, hputs coeffDesk _ [9, 9, 9] (by decide) rfl rfl rfl rfl⟩, by decide⟩

end Desk

end SoundRouting
