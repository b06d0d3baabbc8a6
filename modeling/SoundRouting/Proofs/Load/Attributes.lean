import SoundRouting.Proofs.Load.Faults
/-!
The check of attributes.

An element is given a list of attributes, in any order and with repetitions. The check takes them over one after the
other, stops at the first one that the element may not have, and says in the end which ones are missing.
-/
namespace SoundRouting

def ElementKind.Allows (element : ElementKind) (name : String) : Prop :=
  ∃ kind ∈ element.attributes, kind.text = name

namespace AttributeValues

def LastValue (written : List (String × String)) (name value : String) : Prop :=
  ∃ before after, written = before ++ (name, value) :: after ∧ ∀ entry ∈ after, entry.1 ≠ name

/-- The attributes that the element must have and that are not written, as the table lists them. -/
def unwritten (element : ElementKind) (written : List (String × String)) : List AttributeKind :=
  AttributeKind.all.filter fun kind => element.required.contains kind && !written.any fun entry => entry.1 == kind.text

variable {element : ElementKind} {a b : AttributeValues} {written : List (String × String)}

theorem kindOf?_eq_some_iff {name : String} {kind : AttributeKind} :
    kindOf? element name = some kind ↔ kind ∈ element.attributes ∧ kind.text = name := by
  constructor
  · intro h
    simpa using List.find?_some h
  · rintro ⟨hkind, rfl⟩
    have hfound : (kindOf? element kind.text).isSome = true :=
      List.find?_isSome.mpr ⟨kind, AttributeKind.mem_all kind, by simpa using hkind⟩
    obtain ⟨other, hother⟩ := Option.isSome_iff_exists.mp hfound
    have hmatch := List.find?_some (p := fun a => element.attributes.contains a && a.text == kind.text) hother
    rw [hother, AttributeKind.text_injective (eq_of_beq (Bool.and_eq_true_iff.mp hmatch).2)]

theorem kindOf?_eq_none_iff {name : String} : kindOf? element name = none ↔ ¬ element.Allows name := by
  rw [Option.eq_none_iff_forall_ne_some]
  exact ⟨fun h ⟨kind, hkind⟩ => h kind (kindOf?_eq_some_iff.mpr hkind),
    fun h kind hkind => h ⟨kind, kindOf?_eq_some_iff.mp hkind⟩⟩

/-- The check goes on as long as the element may have what is written. -/
theorem exists_collect_iff : (∃ b, collect element a written = .ok b) ↔ ∀ entry ∈ written, element.Allows entry.1 := by
  induction written generalizing a with
  | nil => simp [collect]
  | cons entry more ih =>
    obtain ⟨name, value⟩ := entry
    rw [List.forall_mem_cons]
    cases hkind : kindOf? element name with
    | some kind =>
      simp only [collect, hkind, ih]
      exact (and_iff_right ⟨kind, kindOf?_eq_some_iff.mp hkind⟩).symm
    | none =>
      simp only [collect, hkind]
      refine iff_of_false ?_ fun h => kindOf?_eq_none_iff.mp hkind h.1
      rintro ⟨_, ⟨⟩⟩

/-- An attribute has the value written last, or else the one it had. -/
theorem get?_collect (h : collect element a written = .ok b) (kind : AttributeKind) :
    b.get? kind = (written.reverse.lookup kind.text).or (a.get? kind) := by
  induction written generalizing a with
  | nil =>
    cases h
    rfl
  | cons entry more ih =>
    obtain ⟨name, value⟩ := entry
    cases hfound : kindOf? element name with
    | none => simp [collect, hfound] at h
    | some found =>
      simp only [collect, hfound] at h
      obtain ⟨-, rfl⟩ := kindOf?_eq_some_iff.mp hfound
      rw [ih h, List.reverse_cons, List.lookup_append, Option.or_assoc]
      congr 1
      by_cases hsame : found = kind
      · subst hsame
        simp
      · have htext : (kind.text == found.text) = false :=
          beq_eq_false_iff_ne.mpr fun ht => hsame (AttributeKind.text_injective ht).symm
        rw [get?_set_other a value hsame, List.lookup_cons, htext]
        rfl

/-- The check stops at the first attribute that the element may not have. -/
theorem collect_eq_error_iff {e : Error} :
    collect element a written = .error e ↔
      ∃ before name value after, written = before ++ (name, value) :: after ∧
        (∀ entry ∈ before, element.Allows entry.1) ∧ ¬ element.Allows name ∧
        e = .ofConfig (.attributeNotAllowed name) := by
  constructor
  · intro h
    induction written generalizing a with
    | nil => cases h
    | cons entry more ih =>
      obtain ⟨name, value⟩ := entry
      cases hkind : kindOf? element name with
      | none =>
        simp only [collect, hkind] at h
        cases h
        exact ⟨[], name, value, more, rfl, fun _ h => absurd h List.not_mem_nil, kindOf?_eq_none_iff.mp hkind, rfl⟩
      | some kind =>
        simp only [collect, hkind] at h
        obtain ⟨before, other, value', after, rfl, hbefore, hother, he⟩ := ih h
        refine ⟨(name, value) :: before, other, value', after, rfl, ?_, hother, he⟩
        exact List.forall_mem_cons.mpr ⟨⟨kind, kindOf?_eq_some_iff.mp hkind⟩, hbefore⟩
  · rintro ⟨before, name, value, after, rfl, hbefore, hname, rfl⟩
    induction before generalizing a with
    | nil => simp only [List.nil_append, collect, kindOf?_eq_none_iff.mpr hname]
    | cons entry more ih =>
      obtain ⟨other, value'⟩ := entry
      obtain ⟨⟨kind, hkind⟩, hmore⟩ := List.forall_mem_cons.mp hbefore
      simp only [List.cons_append, collect, kindOf?_eq_some_iff.mpr hkind]
      exact ih hmore

theorem lastValue_iff_lookup {name value : String} :
    LastValue written name value ↔ written.reverse.lookup name = some value := by
  rw [List.lookup_eq_some_iff]
  constructor
  · rintro ⟨before, after, rfl, hafter⟩
    refine ⟨after.reverse, before.reverse, by simp, fun entry hentry => ?_⟩
    exact bne_iff_ne.mpr (hafter entry (List.mem_reverse.mp hentry)).symm
  · rintro ⟨after, before, hwritten, hafter⟩
    refine ⟨before.reverse, after.reverse, ?_, fun entry hentry => ?_⟩
    · rw [← List.reverse_reverse written, hwritten]
      simp
    · exact (bne_iff_ne.mp (hafter entry (List.mem_reverse.mp hentry))).symm

theorem lookup_reverse_eq_none_iff {name : String} :
    written.reverse.lookup name = none ↔ ∀ entry ∈ written, entry.1 ≠ name := by
  simp only [List.lookup_eq_none_iff, List.mem_reverse, bne_iff_ne, ne_comm]

/-! ### The whole check -/

/-- After the check has gone through, an attribute has the value written last. -/
theorem get?_collect_blank (h : collect element blank written = .ok b) (kind : AttributeKind) :
    b.get? kind = written.reverse.lookup kind.text := by
  rw [get?_collect h, get?_blank, Option.or_none]

/-- What is missing after the check has gone through is what has not been written. -/
theorem missing_eq_unwritten (h : collect element blank written = .ok b) :
    missing element b = unwritten element written := by
  refine List.filter_congr fun kind _ => ?_
  congr 1
  rw [get?_collect_blank h, Bool.eq_iff_iff, Option.isNone_iff_eq_none, lookup_reverse_eq_none_iff]
  simp

theorem unwritten_eq_nil_iff :
    unwritten element written = [] ↔ ∀ kind ∈ element.required, ∃ entry ∈ written, entry.1 = kind.text := by
  simp [unwritten, List.filter_eq_nil_iff, AttributeKind.mem_all]

/-- The check passes when it goes through and nothing is missing. -/
theorem ofWritten_eq_ok_iff :
    ofWritten element written = .ok a ↔ collect element blank written = .ok a ∧ unwritten element written = [] := by
  cases hcollect : collect element blank written with
  | error e => simp [ofWritten, hcollect]
  | ok b =>
    simp only [ofWritten, hcollect, missing_eq_unwritten hcollect]
    cases unwritten element written with
    | nil => simp
    | cons kind kinds => simp

/-- The check fails as it stops, or else for what is missing. -/
theorem ofWritten_eq_error_iff {e : Error} :
    ofWritten element written = .error e ↔
      collect element blank written = .error e ∨
        (∃ b, collect element blank written = .ok b) ∧ unwritten element written ≠ [] ∧
          e = .ofConfig (.attributesRequired ((unwritten element written).map AttributeKind.text)) := by
  cases hcollect : collect element blank written with
  | error cause => simp [ofWritten, hcollect]
  | ok b =>
    simp only [ofWritten, hcollect, missing_eq_unwritten hcollect]
    cases unwritten element written with
    | nil => simp
    | cons kind kinds => simp [eq_comm]

/-- An element that has passed the check has every attribute that it must have. -/
theorem complete_of_ofWritten (h : ofWritten element written = .ok a) : a.Complete element := by
  intro kind hkind
  obtain ⟨hcollect, hunwritten⟩ := ofWritten_eq_ok_iff.mp h
  obtain ⟨entry, hentry, hname⟩ := unwritten_eq_nil_iff.mp hunwritten kind hkind
  rw [get?_collect_blank hcollect, Option.isSome_iff_ne_none, ne_eq, lookup_reverse_eq_none_iff]
  exact fun h => h entry hentry hname

/-- The check of the attributes of an element passes exactly when the element may have each of them and none that it
must have is left out. Each attribute then has the value written last, those that are not written are absent, and no
attribute is found missing when the element begins. Otherwise the fault names the first attribute that the element
may not have, or, if it may have all of them, exactly those that it must have and that are left out, as the table
lists them. -/
theorem ofWritten_exactly (element : ElementKind) (written : List (String × String)) :
    ((∃ a, ofWritten element written = .ok a) ↔
      (∀ entry ∈ written, element.Allows entry.1) ∧
        ∀ kind ∈ element.required, ∃ entry ∈ written, entry.1 = kind.text) ∧
    (∀ a, ofWritten element written = .ok a →
      (∀ kind value, a.get? kind = some value ↔ LastValue written kind.text value) ∧
      (∀ kind, a.get? kind = none ↔ ∀ entry ∈ written, entry.1 ≠ kind.text) ∧
      (∀ kind ∈ element.required, ∃ value, a.required kind = .ok value) ∧
      ∀ disk parent s e t, (Config.beginElement disk parent a element).run.run s = (.error e, t) →
        ∀ line names, e ≠ .config line (.attributesRequired names)) ∧
    ∀ e, ofWritten element written = .error e ↔
      (∃ before name value after, written = before ++ (name, value) :: after ∧
        (∀ entry ∈ before, element.Allows entry.1) ∧ ¬ element.Allows name ∧
        e = .ofConfig (.attributeNotAllowed name)) ∨
      (∀ entry ∈ written, element.Allows entry.1) ∧ unwritten element written ≠ [] ∧
        e = .ofConfig (.attributesRequired ((unwritten element written).map AttributeKind.text)) := by
  refine ⟨?_, fun a ha => ?_, fun e => ?_⟩
  · simp only [ofWritten_eq_ok_iff, exists_and_right, exists_collect_iff, unwritten_eq_nil_iff]
  · obtain ⟨hcollect, -⟩ := ofWritten_eq_ok_iff.mp ha
    have hcomplete := complete_of_ofWritten ha
    refine ⟨fun kind value => ?_, fun kind => ?_, fun kind hkind => ?_, fun disk parent s e t hrun => ?_⟩
    · rw [get?_collect_blank hcollect, lastValue_iff_lookup]
    · rw [get?_collect_blank hcollect, lookup_reverse_eq_none_iff]
    · obtain ⟨value, hvalue⟩ := Option.isSome_iff_exists.mp (hcomplete kind hkind)
      exact ⟨value, required_eq_ok hvalue⟩
    · exact (Config.failsPlain_beginElement disk parent hcomplete s e t hrun).ne_attributesRequired
  · rw [ofWritten_eq_error_iff, collect_eq_error_iff, exists_collect_iff]

/-- A constant has the value written last; one with a value only lacks its name, and one with a function is stopped
there although its name is missing too. -/
theorem ofWritten_exactly_constant :
    (∃ a, ofWritten .constant [("val", "1"), ("name", "gain"), ("val", "2")] = .ok a ∧
      a.get? .value = some "2" ∧ a.get? .index = none ∧ ∃ value, a.required .name = .ok value) ∧
    ofWritten .constant [("val", "1")] = .error (.ofConfig (.attributesRequired ["name"])) ∧
    ofWritten .constant [("val", "1"), ("function", "leftvol")] =
      .error (.ofConfig (.attributeNotAllowed "function")) := by
  have hallowed : ∀ entry ∈ [("val", "1"), ("name", "gain"), ("val", "2")], ElementKind.constant.Allows entry.1 := by
    simp [ElementKind.Allows, ElementKind.attributes, AttributeKind.text]
  have hvalue : ElementKind.constant.Allows "val" := ⟨.value, by decide, rfl⟩
  have hfunction : ¬ ElementKind.constant.Allows "function" := by
    simp [ElementKind.Allows, ElementKind.attributes, AttributeKind.text]
  refine ⟨?_, ?_, ?_⟩
  · obtain ⟨a, ha⟩ := (ofWritten_exactly .constant _).1.mpr ⟨hallowed, by decide⟩
    obtain ⟨hget, habsent, hrequired, -⟩ := (ofWritten_exactly .constant _).2.1 a ha
    refine ⟨a, ha, (hget .value "2").mpr ⟨[("val", "1"), ("name", "gain")], [], rfl, nofun⟩, ?_, ?_⟩
    · exact (habsent .index).mpr (by decide)
    · exact hrequired .name (by decide)
  · refine ((ofWritten_exactly .constant _).2.2 _).mpr (.inr ⟨?_, by decide, by decide⟩)
    exact List.forall_mem_singleton.mpr hvalue
  · refine ((ofWritten_exactly .constant _).2.2 _).mpr (.inl ⟨[("val", "1")], "function", "leftvol", [], rfl, ?_, ?_⟩)
    · exact List.forall_mem_singleton.mpr hvalue
    · exact ⟨hfunction, rfl⟩

end AttributeValues

end SoundRouting
