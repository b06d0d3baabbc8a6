import SoundRouting.Proofs.Growth
/-!
Bound assignments stay sound.

A bound assignment means an existing control that its mixer knows, of its name and of the type it
was bound with, and its value has the form that such a control takes. Binding establishes this,
nothing that happens to the card or the mixer later breaks it, and writing the value keeps it.
-/
namespace SoundRouting

namespace Value

theorem length_lowBytes {fields : List String} {data : List UInt8} (h : lowBytes fields = .ok data) :
    data.length = fields.length := by
  induction fields generalizing data with
  | nil =>
    cases h
    rfl
  | cons field more ih =>
    simp only [lowBytes] at h
    split at h
    · cases h
    · split at h <;> cases h
      rename_i others hothers
      rw [List.length_cons, ih hothers, List.length_cons]

/-- The bytes that a control takes end where it ends. -/
theorem length_toBytes {disk : Disk} {control : String} {offset count : Nat} {v : Value}
    {data : List UInt8} {source : Option Location} (hoffset : offset ≤ count)
    (h : v.toBytes disk control offset count = .ok (data, source)) : offset + data.length ≤ count := by
  cases v with
  | pending text =>
    simp only [toBytes, listedBytes] at h
    split at h <;> cases h
    rename_i hlist
    split at hlist
    · cases hlist
    · split at hlist
      · cases hlist
      · rw [length_lowBytes hlist]
        omega
  | pendingFile file =>
    simp only [toBytes] at h
    split at h <;> cases h
    rw [List.length_take]
    omega
  | int | item => cases h
  | bytes block =>
    simp only [toBytes] at h
    split at h <;> cases h
    omega

end Value

namespace Assignment

/-- The value has the form that a control takes; a block of bytes has its place within the control
and a buffer as long as that. -/
def Fits (a : Assignment) (c : Control) : Prop :=
  match c.type with
  | .switch | .integer => ∃ v, a.value = .int v
  | .enumerated => ∃ name, a.value = .item name
  | .bytes => ∃ block offset, a.value = .bytes block ∧ a.index = .at offset ∧ offset < c.count
    ∧ offset + block.data.length ≤ c.count ∧ block.work.length = c.count ∧ c.count ≤ maxByteCount
  | .iec958 | .integer64 | .unknown => False

/-- If the assignment is bound, it is to an existing control that the mixer knows, and fits it. -/
def Settled (desk : Desk) (a : Assignment) : Prop :=
  ∀ id type, a.binding = .bound id type → id ∈ desk.mixer.known
    ∧ ∃ c, desk.card.control? id = some c ∧ c.spec.name = a.control ∧ c.spec.type = type ∧ a.Fits c.spec

theorem settled_of_unresolved {a : Assignment} (h : a.binding = .unresolved) (desk : Desk) : a.Settled desk := by
  intro id type hb
  rw [h] at hb
  cases hb

theorem Settled.of_grows {a : Assignment} {desk later : Desk} (h : a.Settled desk)
    (hgrows : Desk.Grows desk later) : a.Settled later := by
  intro id type hb
  obtain ⟨hknown, c, hc, hname, htype, hfits⟩ := h id type hb
  obtain ⟨l, hl, hspec⟩ := hgrows.card.control? hc
  exact ⟨hgrows.known id hknown, l, hl, by rw [hspec, hname], by rw [hspec, htype], by rwa [hspec]⟩

/-- A converted assignment fits every control of the type and the size it was converted for. -/
theorem fits_of_convert {disk : Disk} {a converted : Assignment} {c : Control}
    (h : a.convert disk c.type c.count = (converted, .ok ())) : converted.Fits c := by
  unfold convert at h
  unfold Fits
  cases ht : c.type <;> simp only [ht] at h ⊢
  case switch | integer =>
    split at h <;> cases h
    exact ⟨_, rfl⟩
  case enumerated =>
    split at h <;> cases h
    exact ⟨_, rfl⟩
  case bytes =>
    split at h
    · cases h
    · rename_i hmax
      split at h <;> cases h
      rename_i value hvalue
      simp only [byteValue] at hvalue
      split at hvalue
      · cases hvalue
      · rename_i hoffset
        split at hvalue <;> cases hvalue
        rename_i data source hdata
        have hlt := Nat.lt_of_not_le hoffset
        exact ⟨_, _, rfl, rfl, hlt, Value.length_toBytes (Nat.le_of_lt hlt) hdata,
          List.length_replicate, Nat.le_of_not_lt hmax⟩
  all_goals cases h

def placed (a : Assignment) : Assignment :=
  { a with index := .at a.index.offset }

theorem placed_placed (a : Assignment) : a.placed.placed = a.placed := rfl

theorem index_placed_eq_iff {a : Assignment} : a.placed.index = a.index ↔ a.index ≠ .all := by
  rw [placed]
  cases a.index with
  | all => exact iff_of_false nofun (not_not_intro rfl)
  | «at» n => exact iff_of_true rfl nofun

/-- An assignment that cannot be converted is left as it was, unless it was for a byte control that is not too
large. -/
theorem convert_error {disk : Disk} {a b : Assignment} {type : ControlType} {count : Nat} {e : Error}
    (h : a.convert disk type count = (b, .error e)) :
    b = if type = .bytes ∧ count ≤ maxByteCount then a.placed else a := by
  cases type <;> simp only [convert] at h
  case switch | integer | enumerated =>
    split at h <;> cases h
    rfl
  case bytes =>
    by_cases hmax : maxByteCount < count
    · rw [if_pos hmax] at h
      cases h
      rw [if_neg fun hsmall => Nat.not_le.mpr hmax hsmall.2]
    · rw [if_neg hmax] at h
      rw [if_pos ⟨rfl, Nat.le_of_not_lt hmax⟩]
      split at h <;> cases h
      rfl
  case iec958 | integer64 | unknown =>
    cases h
    rfl

theorem control_convert (disk : Disk) (a : Assignment) (type : ControlType) (count : Nat) :
    (a.convert disk type count).1.control = a.control ∧ (a.convert disk type count).1.binding = a.binding := by
  cases type <;> simp only [convert]
  case switch | integer | enumerated => split <;> exact ⟨rfl, rfl⟩
  case bytes =>
    split
    · exact ⟨rfl, rfl⟩
    · split <;> exact ⟨rfl, rfl⟩
  all_goals exact ⟨trivial, trivial⟩

end Assignment

namespace Desk

/-- Looking for a control is done by its name. -/
theorem lookup_eq_ok {desk : Desk} {name : String} {id : Nat} {m : Mixer}
    (h : desk.mixer.lookup desk.card name = (m, .ok id)) :
    id ∈ m.known ∧ ∃ c, desk.card.controls[id]? = some c ∧ c.spec.name = name := by
  simp only [Mixer.lookup] at h
  split at h
  · rename_i hfind
    cases h
    exact Mixer.find?_eq_some hfind
  · split at h <;> cases h
    rename_i hfind
    exact Mixer.find?_eq_some hfind

theorem info?_of_known {m : Mixer} {card : Card} {id : Nat} {c : LiveControl} (hknown : id ∈ m.known)
    (hc : card.control? id = some c) :
    m.info? card id = some ⟨id, c.spec.name, c.spec.type, c.spec.count⟩ := by
  rw [Mixer.info?, if_pos (List.contains_iff_mem.mpr hknown), hc, Option.map_some]

variable {desk : Desk}

/-- Binding an assignment to the control that is found comes to converting its value. -/
theorem bind_of_found (disk : Disk) {a : Assignment} (ha : a.binding = .unresolved) {id : Nat}
    (hfound : (desk.mixer.lookup desk.card a.control).2 = .ok id) {c : LiveControl}
    (hc : desk.card.control? id = some c) :
    (desk.mixer.bind disk desk.card a).2 = match a.convert disk c.spec.type c.spec.count with
      | (converted, .ok ()) => ({ converted with binding := .bound id c.spec.type }, .ok ())
      | (converted, .error e) => (converted, .error e) := by
  cases hl : desk.mixer.lookup desk.card a.control with
  | mk m found =>
    rw [hl] at hfound
    obtain rfl : found = .ok id := hfound
    have hinfo := info?_of_known (lookup_eq_ok hl).1 hc
    simp only [Mixer.bind, ha, Binding.isBound, Bool.false_eq_true, if_false, hl, hinfo]
    cases a.convert disk c.spec.type c.spec.count with
    | mk converted outcome => cases outcome <;> rfl

/-- What binding an assignment that is not bound comes to: the control is not there, or the value
cannot be converted for it, or the assignment is bound to it. -/
theorem bind_of_unresolved (hsound : desk.Sound) (disk : Disk) {a : Assignment}
    (ha : a.binding = .unresolved) :
    ∃ m, m = (desk.mixer.lookup desk.card a.control).1 ∧
      ((∃ e, (desk.mixer.lookup desk.card a.control).2 = .error e
          ∧ desk.mixer.bind disk desk.card a = (m, a, .error e))
      ∨ ∃ id c converted outcome, (desk.mixer.lookup desk.card a.control).2 = .ok id ∧ id ∈ m.known
        ∧ desk.card.control? id = some c ∧ c.spec.name = a.control
        ∧ a.convert disk c.spec.type c.spec.count = (converted, outcome)
        ∧ desk.mixer.bind disk desk.card a = match outcome with
          | .error e => (m, converted, .error e)
          | .ok () => (m, { converted with binding := .bound id c.spec.type }, .ok ())) := by
  obtain ⟨hsound', -⟩ := lookup_spec hsound a.control
  refine ⟨_, rfl, ?_⟩
  cases hl : desk.mixer.lookup desk.card a.control with
  | mk m found =>
    rw [hl] at hsound'
    simp only [Mixer.bind, ha, Binding.isBound, Bool.false_eq_true, if_false, hl]
    cases found with
    | error e => exact Or.inl ⟨e, rfl, rfl⟩
    | ok id =>
      right
      obtain ⟨hknown, c, hget, hname⟩ := lookup_eq_ok hl
      obtain ⟨d, hd⟩ := Option.isSome_iff_exists.mp (hsound' id hknown)
      obtain rfl : d = c := Option.some.inj ((Card.control?_eq_some_iff.mp hd).1.symm.trans hget)
      have hinfo := info?_of_known hknown hd
      simp only [hinfo]
      cases hconvert : a.convert disk d.spec.type d.spec.count with
      | mk converted outcome =>
        refine ⟨id, d, converted, outcome, rfl, hknown, hd, hname, hconvert, ?_⟩
        cases outcome <;> rfl

/-- Binding leaves the mixer sound; the assignment keeps its name and is sound if it was. -/
theorem bind_spec (hsound : desk.Sound) (disk : Disk) {a : Assignment} (ha : a.Settled desk)
    {m : Mixer} {b : Assignment} {outcome : Except Error Unit}
    (h : desk.mixer.bind disk desk.card a = (m, b, outcome)) :
    Sound ⟨desk.card, m⟩ ∧ Grows desk ⟨desk.card, m⟩ ∧ b.control = a.control
      ∧ b.Settled ⟨desk.card, m⟩ ∧ (outcome = .ok () → b.binding.isBound = true) := by
  cases hb : a.binding with
  | bound id type =>
    simp only [Mixer.bind, hb, Binding.isBound, if_true, Prod.mk.injEq] at h
    obtain ⟨rfl, rfl, -⟩ := h
    exact ⟨hsound, Grows.refl desk, rfl, ha, fun _ => by rw [hb]; rfl⟩
  | unresolved =>
    obtain ⟨hsound', hgrows⟩ := lookup_spec hsound a.control
    obtain ⟨m', rfl, hcases⟩ := bind_of_unresolved hsound disk hb
    rcases hcases with ⟨e, -, he⟩ | ⟨id, c, converted, o, -, hknown, hc, hname, hconvert, he⟩
    · rw [he] at h
      cases h
      exact ⟨hsound', hgrows, rfl, Assignment.settled_of_unresolved hb _, fun hok => by cases hok⟩
    · obtain ⟨hcontrol, hbinding⟩ := Assignment.control_convert disk a c.spec.type c.spec.count
      rw [hconvert] at hcontrol hbinding
      rw [he] at h
      cases o with
      | error e =>
        cases h
        exact ⟨hsound', hgrows, hcontrol, Assignment.settled_of_unresolved (hbinding.trans hb) _,
          fun hok => by cases hok⟩
      | ok u =>
        cases h
        refine ⟨hsound', hgrows, hcontrol, fun id' type' hb' => ?_, fun _ => rfl⟩
        cases hb'
        have hfits : converted.Fits c.spec := Assignment.fits_of_convert hconvert
        exact ⟨hknown, c, hc, by rw [hname, hcontrol], rfl, hfits⟩

end Desk

namespace VolumeControl

/-- If the volume control is bound, it is to an existing integer control that the mixer knows. -/
def Settled (desk : Desk) (v : VolumeControl) : Prop :=
  ∀ id type, v.binding = .bound id type → id ∈ desk.mixer.known
    ∧ ∃ c, desk.card.control? id = some c ∧ c.spec.name = v.control ∧ c.spec.type = .integer

theorem settled_of_unresolved {v : VolumeControl} (h : v.binding = .unresolved) (desk : Desk) : v.Settled desk := by
  intro id type hb
  rw [h] at hb
  cases hb

theorem Settled.of_grows {v : VolumeControl} {desk later : Desk} (h : v.Settled desk)
    (hgrows : Desk.Grows desk later) : v.Settled later := by
  intro id type hb
  obtain ⟨hknown, c, hc, hname, htype⟩ := h id type hb
  obtain ⟨l, hl, hspec⟩ := hgrows.card.control? hc
  exact ⟨hgrows.known id hknown, l, hl, by rw [hspec, hname], by rw [hspec, htype]⟩

end VolumeControl

/-- Binding a volume control leaves the mixer sound, and finds an integer control or none. -/
theorem Desk.bindVolume_spec {desk : Desk} (hsound : desk.Sound) {v : VolumeControl} (hv : v.Settled desk)
    {m : Mixer} {bound : VolumeControl} {outcome : Except Error Nat}
    (h : desk.mixer.bindVolume desk.card v = (m, bound, outcome)) :
    Sound ⟨desk.card, m⟩ ∧ Grows desk ⟨desk.card, m⟩ ∧ bound.control = v.control
      ∧ bound.Settled ⟨desk.card, m⟩
      ∧ ∀ id, outcome = .ok id → ∃ c, desk.card.control? id = some c ∧ c.spec.type = .integer := by
  cases hb : v.binding with
  | bound id type =>
    simp only [Mixer.bindVolume, hb, Binding.id?, Prod.mk.injEq] at h
    obtain ⟨rfl, rfl, rfl⟩ := h
    obtain ⟨-, c, hc, -, htype⟩ := hv id type hb
    refine ⟨hsound, Grows.refl desk, rfl, hv, ?_⟩
    rintro _ ⟨⟩
    exact ⟨c, hc, htype⟩
  | unresolved =>
    obtain ⟨hsound', hgrows⟩ := lookup_spec hsound v.control
    simp only [Mixer.bindVolume, hb, Binding.id?] at h
    cases hl : desk.mixer.lookup desk.card v.control with
    | mk seen found =>
      rw [hl] at hsound' hgrows
      simp only [hl] at h
      cases found with
      | error e =>
        cases h
        exact ⟨hsound', hgrows, rfl, VolumeControl.settled_of_unresolved hb _, nofun⟩
      | ok id =>
        obtain ⟨hknown, c, hget, hname⟩ := lookup_eq_ok hl
        obtain ⟨d, hd⟩ := Option.isSome_iff_exists.mp (hsound' id hknown)
        obtain rfl : d = c := Option.some.inj ((Card.control?_eq_some_iff.mp hd).1.symm.trans hget)
        have hinfo := info?_of_known hknown hd
        simp only [hinfo, Option.any_some, beq_iff_eq] at h
        by_cases htype : d.spec.type = .integer
        · rw [if_pos htype] at h
          cases h
          refine ⟨hsound', hgrows, rfl, ?_, ?_⟩
          · rintro _ _ ⟨⟩
            exact ⟨hknown, d, hd, hname, htype⟩
          · rintro _ ⟨⟩
            exact ⟨d, hd, htype⟩
        · rw [if_neg htype] at h
          cases h
          exact ⟨hsound', hgrows, rfl, VolumeControl.settled_of_unresolved hb _, nofun⟩

theorem Card.length_readBytes {card : Card} {id : Nat} {buffer contents : List UInt8}
    (h : card.readBytes id buffer = .ok contents) : contents.length = buffer.length := by
  simp only [readBytes, query] at h
  split at h
  · cases h
  · split at h <;> cases h
    rename_i hread
    simp only [LiveControl.readBytes] at hread
    split at hread <;> cases hread
    rw [LiveControl.length_overlay]
    rw [List.length_take]
    omega

/-- Writing the value of a fitting assignment changes at most the contents of its buffer. -/
theorem Assignment.fits_writeValue {a : Assignment} {c : Control} (h : a.Fits c) (m : Mixer) (card : Card)
    (id : Nat) : Assignment.Fits { a with value := (m.writeValue card id a.index a.value).2 } c := by
  obtain ⟨control, index, value, binding⟩ := a
  unfold Fits at h ⊢
  cases ht : c.type <;> simp only [ht] at h ⊢
  case switch | integer =>
    obtain ⟨v, rfl⟩ := h
    exact ⟨v, rfl⟩
  case enumerated =>
    obtain ⟨name, rfl⟩ := h
    exact ⟨name, rfl⟩
  case bytes =>
    obtain ⟨block, offset, rfl, rfl, hlt, hend, hwork, hmax⟩ := h
    simp only [Mixer.writeValue, Mixer.writeBlock]
    split
    · exact ⟨block, offset, rfl, rfl, hlt, hend, hwork, hmax⟩
    · split
      · exact ⟨block, offset, rfl, rfl, hlt, hend, hwork, hmax⟩
      · rename_i contents hread
        have hlength := Card.length_readBytes hread
        split
        · exact ⟨_, offset, rfl, rfl, hlt, hend, hlength.trans hwork, hmax⟩
        · rename_i hroom
          refine ⟨_, offset, rfl, rfl, hlt, hend, ?_, hmax⟩
          rw [← hwork, ← hlength]
          exact Mixer.length_splice (Nat.le_of_not_lt hroom)

namespace Desk

variable {desk : Desk}

/-- An assignment that is bound is written as it is. -/
theorem applyOne_of_bound (disk : Disk) (desk : Desk) {a : Assignment} {id : Nat} {type : ControlType}
    (hb : a.binding = .bound id type) :
    desk.applyOne disk a = (⟨(desk.mixer.writeValue desk.card id a.index a.value).1, desk.mixer⟩,
      { a with value := (desk.mixer.writeValue desk.card id a.index a.value).2 }, true) := by
  simp only [applyOne, Mixer.bind, hb, Binding.isBound, if_true, Binding.id?]

/-- Applying an assignment binds it; then it ends the list, or its value is written to its control. -/
theorem applyOne_cases (hsound : desk.Sound) (disk : Disk) {a : Assignment} (ha : a.Settled desk) :
    ∃ m b outcome, desk.mixer.bind disk desk.card a = (m, b, outcome) ∧ Sound ⟨desk.card, m⟩
      ∧ Grows desk ⟨desk.card, m⟩ ∧ b.control = a.control ∧ b.Settled ⟨desk.card, m⟩
      ∧ (desk.applyOne disk a = (⟨desk.card, m⟩, b, false)
        ∨ ∃ id c type, b.binding = .bound id type ∧ desk.card.control? id = some c ∧ c.spec.name = a.control
          ∧ desk.applyOne disk a = (⟨(m.writeValue desk.card id b.index b.value).1, m⟩,
            { b with value := (m.writeValue desk.card id b.index b.value).2 }, true)) := by
  cases hb : desk.mixer.bind disk desk.card a with
  | mk m rest =>
    obtain ⟨b, outcome⟩ := rest
    obtain ⟨hsound', hgrows, hcontrol, hsettled, -⟩ := bind_spec hsound disk ha hb
    refine ⟨m, b, outcome, rfl, hsound', hgrows, hcontrol, hsettled, ?_⟩
    simp only [applyOne, hb]
    cases outcome with
    | error e => exact Or.inl rfl
    | ok u =>
      cases hbinding : b.binding with
      | unresolved => exact Or.inl rfl
      | bound id type =>
        obtain ⟨-, c, hc, hname, -⟩ := hsettled id type hbinding
        exact Or.inr ⟨id, c, type, rfl, hc, by rw [hname, hcontrol], rfl⟩

/-- Applying an assignment changes the card only by writes to the control of its name. -/
theorem applyOne_induction {I : Card → Prop} (hsound : desk.Sound) (disk : Disk) {a : Assignment}
    (ha : a.Settled desk)
    (hwrite : ∀ card changed id c op, Card.Grows desk.card card → card.control? id = some c →
      c.spec.name = a.control → I card → card.write id op = .ok changed → I changed)
    (h : I desk.card) : I (desk.applyOne disk a).1.card := by
  obtain ⟨m, b, -, -, -, -, -, -, he | ⟨id, c, type, -, hc, hname, he⟩⟩ := applyOne_cases hsound disk ha
  · rwa [he]
  · rw [he]
    refine (Mixer.writeValue_induction (I := fun card => Card.Grows desk.card card ∧ I card) ?_
      ⟨Card.Grows.refl _, h⟩ _ _).2
    intro card changed op hcard hw
    obtain ⟨l, hl, hspec⟩ := hcard.1.control? hc
    exact ⟨hcard.1.trans (Card.grows_write hw),
      hwrite card changed id l op hcard.1 hl (by rw [hspec, hname]) hcard.2 hw⟩

theorem applyOne_spec (hsound : desk.Sound) (disk : Disk) {a : Assignment} (ha : a.Settled desk) :
    (desk.applyOne disk a).1.Sound ∧ Grows desk (desk.applyOne disk a).1
      ∧ (desk.applyOne disk a).2.1.control = a.control
      ∧ (desk.applyOne disk a).2.1.Settled (desk.applyOne disk a).1 := by
  have hcard : Card.Grows desk.card (desk.applyOne disk a).1.card :=
    applyOne_induction hsound disk ha (fun _ _ _ _ _ _ _ _ h hw => h.trans (Card.grows_write hw))
      (Card.Grows.refl _)
  obtain ⟨m, b, -, -, hsound', hgrows, hcontrol, hsettled, he | ⟨id, c, type, hbinding, hc, -, he⟩⟩ :=
    applyOne_cases hsound disk ha
  · rw [he]
    exact ⟨hsound', hgrows, hcontrol, hsettled⟩
  · rw [he] at hcard ⊢
    have hlater : Grows ⟨desk.card, m⟩ ⟨(m.writeValue desk.card id b.index b.value).1, m⟩ :=
      ⟨hcard, rfl, fun _ h => h⟩
    refine ⟨sound_of_grows hsound' hcard, hgrows.trans hlater, hcontrol, fun id' type' hb' => ?_⟩
    obtain ⟨hknown, d, hd, hname, htype, hfits⟩ := hsettled.of_grows hlater id' type' hb'
    exact ⟨hknown, d, hd, hname, htype, Assignment.fits_writeValue hfits m desk.card id⟩

/-- Applying a list leaves the mixer and every assignment of the list sound. -/
theorem apply_spec (disk : Disk) {list : List Assignment} (hsound : desk.Sound)
    (hlist : ∀ a ∈ list, a.Settled desk) :
    (desk.apply disk list).1.Sound ∧ Grows desk (desk.apply disk list).1
      ∧ (desk.apply disk list).2.map (·.control) = list.map (·.control)
      ∧ ∀ a ∈ (desk.apply disk list).2, a.Settled (desk.apply disk list).1 := by
  induction list generalizing desk with
  | nil => exact ⟨hsound, Grows.refl desk, rfl, by simp⟩
  | cons a more ih =>
    rw [List.forall_mem_cons] at hlist
    obtain ⟨hsound', hgrows, hcontrol, hsettled⟩ := applyOne_spec hsound disk hlist.1
    have hmore : ∀ b ∈ more, b.Settled (desk.applyOne disk a).1 :=
      fun b hb => (hlist.2 b hb).of_grows hgrows
    simp only [apply]
    split
    · obtain ⟨hs, hg, hc, hall⟩ := ih hsound' hmore
      refine ⟨hs, hgrows.trans hg, by simp only [List.map_cons, hcontrol, hc], ?_⟩
      rw [List.forall_mem_cons]
      exact ⟨hsettled.of_grows hg, hall⟩
    · refine ⟨hsound', hgrows, by simp only [List.map_cons, hcontrol], ?_⟩
      rw [List.forall_mem_cons]
      exact ⟨hsettled, hmore⟩

/-- Applying a list changes the card only by writes to the controls that it names. -/
theorem apply_induction {I : Card → Prop} (disk : Disk) {list : List Assignment} (hsound : desk.Sound)
    (hlist : ∀ a ∈ list, a.Settled desk)
    (hwrite : ∀ card changed id c op, Card.Grows desk.card card → card.control? id = some c →
      c.spec.name ∈ list.map (·.control) → I card → card.write id op = .ok changed → I changed)
    (h : I desk.card) : I (desk.apply disk list).1.card := by
  induction list generalizing desk with
  | nil => exact h
  | cons a more ih =>
    rw [List.forall_mem_cons] at hlist
    obtain ⟨hsound', hgrows, -, -⟩ := applyOne_spec hsound disk hlist.1
    have hmore : ∀ b ∈ more, b.Settled (desk.applyOne disk a).1 :=
      fun b hb => (hlist.2 b hb).of_grows hgrows
    have hone : I (desk.applyOne disk a).1.card :=
      applyOne_induction hsound disk hlist.1 (fun card changed id c op hg hc hname =>
        hwrite card changed id c op hg hc (by rw [hname]; exact List.mem_cons_self)) h
    simp only [apply]
    split
    · exact ih hsound' hmore (fun card changed id c op hg hc hname =>
        hwrite card changed id c op (hgrows.card.trans hg) hc (List.mem_cons_of_mem _ hname)) hone
    · exact hone

end Desk

end SoundRouting
