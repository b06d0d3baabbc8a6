import SoundRouting.Proofs.Refinement
/-!
Switches, and the assignments that set them.

A switch that shares its name with no other control is found by that name, whatever a mixer has seen of
the card. An assignment that sets it does so each time it is applied, and no assignment to another name
touches it.
-/
namespace SoundRouting

namespace Card

/-- Under this name the card has a switch of one element and no other control, and the switch has this
value. -/
def Shows (card : Card) (name : String) (value : Int) : Prop :=
  ∃ id c, card.control? id = some c ∧ c.spec.name = name ∧ c.spec.type = .switch ∧ c.spec.count = 1
    ∧ c.ints = [value] ∧ ∀ j, card.names[j]? = some name → j = id

variable {card changed : Card} {name : String} {value : Int}

theorem getElem?_names {id : Nat} {c : LiveControl} (h : card.controls[id]? = some c) :
    card.names[id]? = some c.spec.name := by
  rw [names, List.getElem?_map, h, Option.map_some]

/-- Any control of the name is the switch. -/
theorem Shows.of_name (h : card.Shows name value) {id : Nat} {c : LiveControl} (hc : card.controls[id]? = some c)
    (hname : c.spec.name = name) : c.spec.type = .switch ∧ c.spec.count = 1 ∧ c.ints = [value] := by
  obtain ⟨i, k, hk, -, htype, hcount, hints, hunique⟩ := h
  obtain rfl : id = i := hunique id (by rw [getElem?_names hc, hname])
  obtain rfl : c = k := Option.some.inj (hc.symm.trans (control?_eq_some_iff.mp hk).1)
  exact ⟨htype, hcount, hints⟩

theorem Shows.values_eq (h : card.Shows name value) : card.values name = [value] := by
  have hshown := h
  obtain ⟨id, c, hc, hname, -⟩ := hshown
  have hmem := List.mem_of_getElem? (control?_eq_some_iff.mp hc).1
  cases hfind : card.named? name with
  | none =>
    have hnot := List.find?_eq_none.mp hfind c hmem
    exact absurd (beq_iff_eq.mpr hname) hnot
  | some k =>
    have hfound : card.controls.find? (·.spec.name == name) = some k := hfind
    obtain ⟨j, hj⟩ := List.mem_iff_getElem?.mp (List.mem_of_find?_eq_some hfound)
    obtain ⟨-, -, hints⟩ := h.of_name hj (by simpa using List.find?_some hfound)
    rw [values, hfind, Option.map_some, Option.getD_some, hints]

/-- Cards with the same controls show the same. -/
theorem Shows.of_controls (h : card.Shows name value) (hsame : changed.controls = card.controls) :
    changed.Shows name value := by
  simpa only [Shows, control?, names, hsame] using h

/-- Writing to a control that is of another name, or is no switch, leaves what the switch shows. -/
theorem Shows.write_other (h : card.Shows name value) {id : Nat} {op : WriteOp}
    (hw : card.write id op = .ok changed)
    (hother : ∀ c, card.control? id = some c → c.spec.name = name → c.spec.type ≠ .switch) :
    changed.Shows name value := by
  have hnames := names_write hw
  obtain ⟨i, k, hk, hname, htype, hcount, hints, hunique⟩ := h
  obtain ⟨c, d, hc, -, rfl⟩ := write_eq_ok_iff.mp hw
  have hne : i ≠ id := by
    rintro rfl
    obtain rfl : k = c := Option.some.inj (hk.symm.trans hc)
    exact hother k hc hname htype
  obtain ⟨hget, hpresent⟩ := control?_eq_some_iff.mp hk
  refine ⟨i, k, control?_eq_some_iff.mpr ⟨?_, hpresent⟩, hname, htype, hcount, hints, ?_⟩
  · rw [getElem?_write hc, if_neg hne, hget, Option.map_some, appear_of_present hpresent]
  · rwa [hnames]

/-- A switch takes its values. -/
theorem Shows.write_value (h : card.Shows name value) {id : Nat} {c : LiveControl}
    (hc : card.control? id = some c) (hname : c.spec.name = name) {v : Int} (hv : 0 ≤ v ∧ v ≤ 1) :
    ∃ changed, card.write id (.value 0 v) = .ok changed ∧ changed.Shows name v := by
  obtain ⟨htype, hcount, hints⟩ := h.of_name (control?_eq_some_iff.mp hc).1 hname
  have hcontrol : c.write (.value 0 v) = .ok { c with ints := [v] } := by
    simp [LiveControl.write, LiveControl.valueRange, LiveControl.setElement, htype, hcount, hints, hv]
  have hw := write_eq_ok_iff.mpr ⟨c, _, hc, hcontrol, rfl⟩
  refine ⟨_, hw, ?_⟩
  obtain ⟨i, k, hk, -, -, -, -, hunique⟩ := h
  obtain rfl : id = i := hunique id (by rw [getElem?_names (control?_eq_some_iff.mp hc).1, hname])
  refine ⟨id, { c with ints := [v] }, control?_eq_some_iff.mpr ⟨?_, ?_⟩, hname, htype, hcount, rfl, ?_⟩
  · rw [getElem?_write hc, if_pos rfl, Option.map_some]
    exact congrArg some (appear_of_present (control?_eq_some_iff.mp hc).2)
  · exact (control?_eq_some_iff.mp hc).2
  · rwa [names_write hw]

end Card

structure Assignment.Sets (name : String) (v : Int) (a : Assignment) : Prop where
  control : a.control = name
  index : a.index = .all
  value : a.value.toInteger name = .ok v

namespace Desk

variable {desk : Desk} {name : String} {old v : Int}

/-- A control that exists is found, whatever the mixer has seen. -/
theorem lookup_of_present {id : Nat} {c : LiveControl} (hc : desk.card.control? id = some c)
    (hname : c.spec.name = name) (e : Error) : (desk.mixer.lookup desk.card name).2 ≠ .error e := by
  obtain ⟨hget, -⟩ := Card.control?_eq_some_iff.mp hc
  intro hlookup
  simp only [Mixer.lookup] at hlookup
  split at hlookup
  · cases hlookup
  · split at hlookup
    · cases hlookup
    · rename_i hfind
      have hpresent := Card.mem_presentIds.mpr (Option.isSome_iff_exists.mpr ⟨c, hc⟩)
      have hnot := List.find?_eq_none.mp hfind id hpresent
      simp [hget, hname] at hnot

/-- An assignment that sets a switch is bound to it, with its value converted. -/
theorem bind_sets (hsound : desk.Sound) (disk : Disk) (hshows : desk.card.Shows name old) {a : Assignment}
    (ha : a.Settled desk) (hsets : a.Sets name v) :
    ∃ m id c, desk.mixer.bind disk desk.card a
        = (m, { a with value := .int v, binding := .bound id .switch }, .ok ())
      ∧ id ∈ m.known ∧ desk.card.control? id = some c ∧ c.spec.name = name := by
  obtain ⟨control, index, value, binding⟩ := a
  obtain rfl : control = name := hsets.control
  have hvalue : value.toInteger control = .ok v := hsets.value
  cases binding with
  | bound id type =>
    obtain ⟨hknown, c, hc, hname, htype, hfits⟩ := ha id type rfl
    obtain ⟨hswitch, -⟩ := hshows.of_name (Card.control?_eq_some_iff.mp hc).1 hname
    simp only [Assignment.Fits, hswitch] at hfits
    obtain ⟨w, rfl⟩ := hfits
    obtain rfl : w = v := Except.ok.inj hvalue
    obtain rfl : type = .switch := htype.symm.trans hswitch
    exact ⟨desk.mixer, id, c, rfl, hknown, hc, hname⟩
  | unresolved =>
    obtain ⟨m, -, ⟨e, he, -⟩ | ⟨id, c, converted, outcome, -, hknown, hc, hname, hconvert, he⟩⟩ :=
      bind_of_unresolved hsound disk (a := ⟨control, index, value, .unresolved⟩) rfl
    · obtain ⟨i, k, hk, hkname, -⟩ := hshows
      exact absurd he (lookup_of_present hk hkname e)
    · obtain ⟨hswitch, -⟩ := hshows.of_name (Card.control?_eq_some_iff.mp hc).1 hname
      simp only [Assignment.convert, hswitch, hvalue, Prod.mk.injEq] at hconvert
      obtain ⟨rfl, rfl⟩ := hconvert
      exact ⟨m, id, c, by rw [he, hswitch], hknown, hc, hname⟩

/-- An assignment that sets a switch sets it when it is applied, and will do so again. -/
theorem apply_sets (hsound : desk.Sound) (disk : Disk) (hshows : desk.card.Shows name old) {a : Assignment}
    (ha : a.Settled desk) (hsets : a.Sets name v) (hv : 0 ≤ v ∧ v ≤ 1) :
    (desk.apply disk [a]).1.card.Shows name v
      ∧ ∃ b, (desk.apply disk [a]).2 = [b] ∧ b.Sets name v := by
  obtain ⟨m, id, c, hbind, hknown, hc, hname⟩ := bind_sets hsound disk hshows ha hsets
  obtain ⟨-, hcount, -⟩ := hshows.of_name (Card.control?_eq_some_iff.mp hc).1 hname
  obtain ⟨changed, hw, hchanged⟩ := hshows.write_value hc hname hv
  have hwritten : m.writeElements desk.card id v (m.elements desk.card id a.index) = changed := by
    have helements : m.elements desk.card id a.index = [0] := by
      rw [hsets.index, Mixer.elements, info?_of_known hknown hc, Option.map_some, Option.getD_some, hcount]
      rfl
    simp only [helements, Mixer.writeElements, Mixer.write_of_known hknown, hw]
  simp only [apply, applyOne, hbind, Binding.id?, Mixer.writeValue, hwritten, if_true]
  exact ⟨hchanged, _, rfl, hsets.control, hsets.index, rfl⟩

/-- Assignments to other names leave what a switch shows. -/
theorem shows_apply_other (hsound : desk.Sound) (disk : Disk) {list : List Assignment}
    (hlist : ∀ a ∈ list, a.Settled desk) (hother : ∀ a ∈ list, a.control ≠ name)
    (hshows : desk.card.Shows name v) : (desk.apply disk list).1.card.Shows name v := by
  refine apply_induction (I := fun card => card.Shows name v) disk hsound hlist ?_ hshows
  intro card changed id c op _ hc hmem hcard hw
  refine hcard.write_other hw fun k hk hname => ?_
  obtain rfl : c = k := Option.some.inj (hc.symm.trans hk)
  obtain ⟨a, ha, hcontrol⟩ := List.mem_map.mp hmem
  exact absurd (hcontrol.trans hname) (hother a ha)

end Desk

end SoundRouting
