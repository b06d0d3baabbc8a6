import SoundRouting.Mixer.Binding
/-!
Cards grow.

A control keeps its id, its name and its type, and once it exists it stays. What a mixer knows of
a card exists, so it only ever learns more.
-/
namespace SoundRouting

namespace Card

/-- A later state of a card: every control is still there and is what it was. -/
structure Grows (c d : Card) : Prop where
  number : d.number = c.number
  controls : ∀ (id : Nat) (k : LiveControl), c.controls[id]? = some k →
    ∃ l, d.controls[id]? = some l ∧ l.spec = k.spec ∧ (k.present = true → l.present = true)

theorem Grows.refl (c : Card) : Grows c c :=
  ⟨rfl, fun _ k h => ⟨k, h, rfl, fun h => h⟩⟩

theorem Grows.trans {a b c : Card} (hab : Grows a b) (hbc : Grows b c) : Grows a c := by
  refine ⟨hbc.number.trans hab.number, fun id k hk => ?_⟩
  obtain ⟨l, hl, hspec, hpresent⟩ := hab.controls id k hk
  obtain ⟨l', hl', hspec', hpresent'⟩ := hbc.controls id l hl
  exact ⟨l', hl', hspec'.trans hspec, fun h => hpresent' (hpresent h)⟩

theorem control?_eq_some_iff {card : Card} {id : Nat} {c : LiveControl} :
    card.control? id = some c ↔ card.controls[id]? = some c ∧ c.present = true :=
  Option.filter_eq_some_iff

theorem Grows.control? {c d : Card} (h : Grows c d) {id : Nat} {k : LiveControl}
    (hk : c.control? id = some k) : ∃ l, d.control? id = some l ∧ l.spec = k.spec := by
  obtain ⟨hget, hpresent⟩ := control?_eq_some_iff.mp hk
  obtain ⟨l, hl, hspec, hl'⟩ := h.controls id k hget
  exact ⟨l, control?_eq_some_iff.mpr ⟨hl, hl' hpresent⟩, hspec⟩

theorem mem_presentIds {card : Card} {id : Nat} :
    id ∈ card.presentIds ↔ (card.control? id).isSome = true := by
  rw [presentIds, List.mem_filter, List.mem_range, and_iff_right_iff_imp]
  intro h
  obtain ⟨c, hc⟩ := Option.isSome_iff_exists.mp h
  exact (List.getElem?_eq_some_iff.mp (control?_eq_some_iff.mp hc).1).1

@[simp] theorem spec_appear (trigger : String) (c : LiveControl) : (appear trigger c).spec = c.spec := rfl

theorem appear_of_present {trigger : String} {c : LiveControl} (h : c.present = true) :
    appear trigger c = c := by
  obtain ⟨spec, present, ints, bytes⟩ := c
  obtain rfl : present = true := h
  rfl

/-- What a write makes of each control. -/
theorem getElem?_write {card : Card} {id : Nat} {c d : LiveControl} {r : WriteRecord}
    (hc : card.control? id = some c) (j : Nat) :
    (({ card with controls := card.controls.set id d }).record r).controls[j]?
      = (if j = id then some d else card.controls[j]?).map (appear r.control) := by
  have hlt := (List.getElem?_eq_some_iff.mp (control?_eq_some_iff.mp hc).1).1
  simp only [record, List.getElem?_map, List.getElem?_set]
  by_cases hj : j = id
  · subst hj
    simp [hlt]
  · simp [hj, Ne.symm hj]

/-- What neither a write changes in its control nor an appearance in any other, a write leaves as it is. -/
theorem map_controls_write {α : Type} {view : LiveControl → α}
    (happear : ∀ trigger c, view (appear trigger c) = view c)
    (hview : ∀ c d op, c.write op = .ok d → view d = view c) {card changed : Card} {id : Nat} {op : WriteOp}
    (h : card.write id op = .ok changed) : changed.controls.map view = card.controls.map view := by
  obtain ⟨c, d, hc, hd, rfl⟩ := write_eq_ok_iff.mp h
  refine List.ext_getElem? fun j => ?_
  rw [List.getElem?_map, List.getElem?_map, getElem?_write hc]
  by_cases hj : j = id
  · subst hj
    rw [if_pos rfl, (control?_eq_some_iff.mp hc).1]
    simp only [Option.map_some, happear, hview c d op hd]
  · rw [if_neg hj, Option.map_map]
    exact Option.map_congr fun k _ => happear _ k

/-- Behind a write, a control exists if it did before or if the record creates it. -/
theorem present_write {card changed : Card} {id : Nat} {op : WriteOp} (h : card.write id op = .ok changed) :
    ∃ r, changed.log = card.log ++ [r] ∧ ∀ (j : Nat) (c : LiveControl), card.controls[j]? = some c →
      ∃ d, changed.controls[j]? = some d ∧ d.spec = c.spec
        ∧ (d.present = true ↔ c.present = true ∨ c.spec.createdBy = some r.control) := by
  obtain ⟨k, l, hk, hl, rfl⟩ := write_eq_ok_iff.mp h
  obtain ⟨hspec, hpresent⟩ := LiveControl.spec_write hl
  refine ⟨⟨k.spec.name, op⟩, rfl, fun j c hc => ?_⟩
  rw [getElem?_write hk]
  by_cases hj : j = id
  · subst hj
    obtain rfl := Option.some.inj ((control?_eq_some_iff.mp hk).1.symm.trans hc)
    refine ⟨appear k.spec.name l, by rw [if_pos rfl, Option.map_some], hspec, ?_⟩
    simp only [appear, hspec, hpresent, Bool.or_eq_true, beq_iff_eq]
  · refine ⟨appear k.spec.name c, by rw [if_neg hj, hc, Option.map_some], rfl, ?_⟩
    simp only [appear, Bool.or_eq_true, beq_iff_eq]

theorem grows_write {card changed : Card} {id : Nat} {op : WriteOp}
    (h : card.write id op = .ok changed) : Grows card changed := by
  obtain ⟨r, -, hcontrols⟩ := present_write h
  refine ⟨number_write h, fun j k hk => ?_⟩
  obtain ⟨l, hl, hspec, hpresent⟩ := hcontrols j k hk
  exact ⟨l, hl, hspec, fun hexists => hpresent.mpr (Or.inl hexists)⟩

/-- A write opens nothing. -/
theorem opens_write {card changed : Card} {id : Nat} {op : WriteOp} (h : card.write id op = .ok changed) :
    changed.opens = card.opens := by
  obtain ⟨c, d, -, -, rfl⟩ := write_eq_ok_iff.mp h
  rfl

end Card

namespace Mixer

theorem attempt_cases (m : Mixer) (card : Card) (id : Nat) (op : WriteOp) :
    m.attempt card id op = card ∨ card.write id op = .ok (m.attempt card id op) := by
  simp only [attempt, write]
  by_cases hid : m.known.contains id = true
  · rw [if_pos hid]
    cases card.write id op with
    | ok changed => exact Or.inr rfl
    | error e => exact Or.inl rfl
  · rw [if_neg hid]
    exact Or.inl rfl

/-- Writing to the elements one by one is writing to each as far as it goes. -/
theorem writeElements_induction {I : Card → Prop} {m : Mixer} {id : Nat} {value : Int}
    (hwrite : ∀ card changed index, I card → card.write id (.value index value) = .ok changed → I changed)
    (indices : List Nat) {card : Card} (h : I card) : I (m.writeElements card id value indices) := by
  induction indices generalizing card with
  | nil => exact h
  | cons index more ih =>
    simp only [writeElements, write]
    by_cases hid : m.known.contains id = true
    · rw [if_pos hid]
      cases hw : card.write id (.value index value) with
      | ok changed => exact ih (hwrite _ _ _ h hw)
      | error e => exact h
    · rw [if_neg hid]
      exact h

/-- What every write to a control keeps, writing an assignment's value to it keeps. -/
theorem writeValue_induction {I : Card → Prop} {m : Mixer} {id : Nat}
    (hwrite : ∀ card changed op, I card → card.write id op = .ok changed → I changed) {card : Card}
    (h : I card) (index : Selector) (value : Value) : I (m.writeValue card id index value).1 := by
  have hattempt : ∀ op, I (m.attempt card id op) := by
    intro op
    rcases m.attempt_cases card id op with he | he
    · rwa [he]
    · exact hwrite _ _ _ h he
  cases value with
  | pending | pendingFile => exact h
  | int v => exact writeElements_induction (fun _ _ _ => hwrite _ _ _) _ h
  | item name => exact hattempt _
  | bytes block =>
    simp only [writeValue, writeBlock]
    split
    · exact hattempt _
    · split
      · exact h
      · split
        · exact h
        · exact hattempt _

end Mixer

namespace Desk

/-- A mixer knows controls that exist. -/
def Sound (desk : Desk) : Prop :=
  ∀ id ∈ desk.mixer.known, (desk.card.control? id).isSome = true

/-- A later state of a card and a mixer that is open on it. -/
structure Grows (a b : Desk) : Prop where
  card : Card.Grows a.card b.card
  number : b.mixer.card = a.mixer.card
  known : ∀ id ∈ a.mixer.known, id ∈ b.mixer.known

theorem Grows.refl (desk : Desk) : Grows desk desk :=
  ⟨Card.Grows.refl _, rfl, fun _ h => h⟩

theorem Grows.trans {a b c : Desk} (hab : Grows a b) (hbc : Grows b c) : Grows a c :=
  ⟨hab.card.trans hbc.card, hbc.number.trans hab.number, fun id h => hbc.known id (hab.known id h)⟩

/-- A mixer that is sound stays sound when its card grows. -/
theorem sound_of_grows {desk : Desk} (h : desk.Sound) {card : Card} (hgrows : Card.Grows desk.card card) :
    Sound ⟨card, desk.mixer⟩ := by
  intro id hid
  obtain ⟨c, hc⟩ := Option.isSome_iff_exists.mp (h id hid)
  obtain ⟨l, hl, -⟩ := hgrows.control? hc
  exact Option.isSome_iff_exists.mpr ⟨l, hl⟩

/-- Looking for a control leaves the mixer sound, and it forgets nothing. -/
theorem lookup_spec {desk : Desk} (h : desk.Sound) (name : String) :
    Sound ⟨desk.card, (desk.mixer.lookup desk.card name).1⟩
      ∧ Grows desk ⟨desk.card, (desk.mixer.lookup desk.card name).1⟩ := by
  have hrescan : Sound ⟨desk.card, desk.mixer.rescan desk.card⟩ := fun id hid => Card.mem_presentIds.mp hid
  have hgrows : Grows desk ⟨desk.card, desk.mixer.rescan desk.card⟩ :=
    ⟨Card.Grows.refl _, rfl, fun id hid => Card.mem_presentIds.mpr (h id hid)⟩
  simp only [Mixer.lookup]
  split
  · exact ⟨h, Grows.refl desk⟩
  · split
    · exact ⟨hrescan, hgrows⟩
    · exact ⟨hrescan, hgrows⟩

/-- What every write keeps, applying assignments keeps, whatever the mixer is. -/
theorem card_apply_induction {I : Card → Prop}
    (hwrite : ∀ card changed id op, I card → card.write id op = .ok changed → I changed) (disk : Disk) {desk : Desk}
    (h : I desk.card) (list : List Assignment) : I (desk.apply disk list).1.card := by
  induction list generalizing desk with
  | nil => exact h
  | cons a more ih =>
    have hone : I (desk.applyOne disk a).1.card := by
      simp only [applyOne]
      split
      · exact Mixer.writeValue_induction (fun _ _ _ => hwrite _ _ _ _) h _ _
      · exact h
    simp only [apply]
    split
    · exact ih hone
    · exact hone

theorem number_apply (disk : Disk) (desk : Desk) (list : List Assignment) :
    (desk.apply disk list).1.card.number = desk.card.number :=
  card_apply_induction (I := fun card => card.number = desk.card.number)
    (fun _ _ _ _ h hw => (Card.number_write hw).trans h) disk rfl list

end Desk

end SoundRouting
