import SoundRouting.Proofs.Interpreter
/-!
Applying assignments refines their interpretation.

A mixer may have been open for any time, controls may have appeared since, and assignments may have
been bound and applied before. None of this shows: what a list makes of the card is what the
interpreter makes of it, both from the assignments as they are now and as they were declared.
-/
namespace SoundRouting

namespace Card

theorem names_write {card changed : Card} {id : Nat} {op : WriteOp} (h : card.write id op = .ok changed) :
    changed.names = card.names :=
  map_controls_write (fun _ _ => rfl) (fun _ _ _ hd => congrArg Control.name (LiveControl.spec_write hd).1) h

theorem bytes_write {c d : LiveControl} {op : WriteOp} (h : c.write op = .ok d) :
    d.bytes.length = c.bytes.length := by
  rcases LiveControl.write_eq_ok_iff.mp h with ⟨-, -, -⟩ | ⟨-, -⟩ | ⟨-, hroom⟩
  · rw [LiveControl.setElement]
    split
    · exact List.length_set
    · rfl
  · rfl
  · exact LiveControl.length_overlay _ _ hroom

theorem sized_write {card changed : Card} {id : Nat} {op : WriteOp} (hsized : card.Sized)
    (h : card.write id op = .ok changed) : changed.Sized := by
  have hview : changed.controls.map (fun c => (c.spec, c.bytes.length))
      = card.controls.map fun c => (c.spec, c.bytes.length) :=
    map_controls_write (fun _ _ => rfl) (fun c d op hd => Prod.ext (LiveControl.spec_write hd).1 (bytes_write hd)) h
  intro l hl htype
  have hmem : (l.spec, l.bytes.length) ∈ card.controls.map fun c => (c.spec, c.bytes.length) :=
    hview ▸ List.mem_map_of_mem hl
  obtain ⟨k, hk, hkl⟩ := List.mem_map.mp hmem
  obtain ⟨hspec, hlength⟩ := Prod.mk.inj hkl
  rw [← hlength, ← hspec]
  exact hsized k hk (hspec ▸ htype)

/-- A control that exists on an earlier state of the card is found by its name on a later one. -/
theorem Grows.nodup_names {c d : Card} (h : Grows c d) (hnames : d.names.Nodup) : c.names.Nodup := by
  refine List.pairwise_iff_getElem.mpr fun i j hi hj hij => ?_
  simp only [names, List.length_map] at hi hj
  obtain ⟨k, hk, hkspec, -⟩ := h.controls i _ (List.getElem?_eq_getElem hi)
  obtain ⟨l, hl, hlspec, -⟩ := h.controls j _ (List.getElem?_eq_getElem hj)
  obtain ⟨hi', rfl⟩ := List.getElem?_eq_some_iff.mp hk
  obtain ⟨hj', rfl⟩ := List.getElem?_eq_some_iff.mp hl
  have hne := List.pairwise_iff_getElem.mp hnames i j (by simpa [names] using hi')
    (by simpa [names] using hj') hij
  simpa [names, hkspec, hlspec] using hne

end Card

namespace Desk

variable {desk : Desk}

/-- A sound mixer finds a control by its name exactly if it exists. -/
theorem lookup_eq (hsound : desk.Sound) (hnames : desk.card.names.Nodup) (name : String) :
    (desk.mixer.lookup desk.card name).2 = match desk.card.idOf? name with
      | some id => .ok id
      | none => .error (.controlNotFound name) := by
  obtain ⟨hsound', -⟩ := lookup_spec hsound name
  cases hl : desk.mixer.lookup desk.card name with
  | mk m found =>
    rw [hl] at hsound'
    cases found with
    | ok id =>
      obtain ⟨hknown, c, hget, rfl⟩ := lookup_eq_ok hl
      obtain ⟨d, hd⟩ := Option.isSome_iff_exists.mp (hsound' id hknown)
      obtain rfl : d = c := Option.some.inj ((Card.control?_eq_some_iff.mp hd).1.symm.trans hget)
      rw [Card.idOf?_of_control? hnames hd]
    | error e =>
      simp only [Mixer.lookup] at hl
      split at hl
      · cases hl
      · split at hl <;> cases hl
        rename_i hnone
        cases hid : desk.card.idOf? name with
        | none => rfl
        | some id =>
          obtain ⟨c, hc, rfl⟩ := Card.control?_of_idOf? hid
          have hmem : id ∈ desk.card.presentIds := Card.mem_presentIds.mpr (by rw [hc]; rfl)
          have htest := List.find?_eq_none.mp hnone id hmem
          rw [(Card.control?_eq_some_iff.mp hc).1] at htest
          simp at htest

/-- Applying one assignment is what the interpreter makes of it. -/
theorem applyOne_eq_assign? (hsound : desk.Sound) (hsized : desk.card.Sized) (hnames : desk.card.names.Nodup)
    (disk : Disk) {a : Assignment} (ha : a.Settled desk) :
    desk.card.assign? disk a
        = (if (desk.applyOne disk a).2.2 then some (desk.applyOne disk a).1.card else none)
      ∧ ((desk.applyOne disk a).2.2 = false → (desk.applyOne disk a).1.card = desk.card) := by
  cases hb : a.binding with
  | bound id type =>
    obtain ⟨hknown, c, hc, hname, -, hfits⟩ := ha id type hb
    obtain ⟨ops, hops, hwrite⟩ := Mixer.writeValue_eq disk hknown hc hsized hfits
    have hid := Card.idOf?_of_control? hnames hc
    rw [hname] at hid
    rw [applyOne_of_bound disk desk hb, Card.assign?_of_idOf? hid (Card.control?_eq_some_iff.mp hc).1, hops]
    refine ⟨?_, fun hstops => by cases hstops⟩
    rw [if_pos rfl, hwrite, Option.map_some]
  | unresolved =>
    have hlookup := lookup_eq hsound hnames a.control
    obtain ⟨hsound', hgrows⟩ := lookup_spec hsound a.control
    obtain ⟨m, rfl, ⟨e, he, hbind⟩ | ⟨id, c, converted, outcome, hid, hknown, hc, hname, hconvert, hbind⟩⟩ :=
      bind_of_unresolved hsound disk hb
    · have hnone : desk.card.idOf? a.control = none := by
        cases hid : desk.card.idOf? a.control with
        | none => rfl
        | some id =>
          rw [hid, he] at hlookup
          cases hlookup
      rw [Card.assign?_of_idOf?_eq_none hnone]
      simp only [applyOne, hbind]
      exact ⟨rfl, fun _ => trivial⟩
    · have hid' := Card.idOf?_of_control? hnames hc
      rw [hname] at hid'
      obtain ⟨hwrites, hsome⟩ := Assignment.writes?_convert hconvert c rfl
      rw [Card.assign?_of_idOf? hid' (Card.control?_eq_some_iff.mp hc).1]
      cases outcome with
      | error e =>
        simp only [applyOne, hbind]
        cases hw : a.writes? disk c with
        | none => exact ⟨rfl, fun _ => trivial⟩
        | some ops =>
          rw [hw] at hsome
          cases hsome
      | ok u =>
        have hfits : converted.Fits c.spec := Assignment.fits_of_convert hconvert
        obtain ⟨ops, hops, hwrite⟩ := Mixer.writeValue_eq disk hknown hc hsized hfits
        simp only [applyOne, hbind, Binding.id?]
        refine ⟨?_, fun hstops => by cases hstops⟩
        rw [← hwrites, hops, if_pos trivial, hwrite, Option.map_some]

/-- Applying a list is what the interpreter makes of it. -/
theorem apply_eq_interpret_of_settled (disk : Disk) {list : List Assignment} (hsound : desk.Sound)
    (hsized : desk.card.Sized) (hnames : desk.card.names.Nodup) (hlist : ∀ a ∈ list, a.Settled desk) :
    (desk.apply disk list).1.card = desk.card.interpret disk list := by
  induction list generalizing desk with
  | nil => rfl
  | cons a more ih =>
    rw [List.forall_mem_cons] at hlist
    obtain ⟨hassign, hstop⟩ := applyOne_eq_assign? hsound hsized hnames disk hlist.1
    obtain ⟨hsound', hgrows, -, -⟩ := applyOne_spec hsound disk hlist.1
    have hsized' : (desk.applyOne disk a).1.card.Sized :=
      applyOne_induction hsound disk hlist.1 (fun _ _ _ _ _ _ _ _ h hw => Card.sized_write h hw) hsized
    have hnames' : (desk.applyOne disk a).1.card.names = desk.card.names :=
      applyOne_induction (I := fun card => card.names = desk.card.names) hsound disk hlist.1
        (fun _ _ _ _ _ _ _ _ h hw => (Card.names_write hw).trans h) rfl
    simp only [apply, Card.interpret, hassign]
    by_cases hgoes : (desk.applyOne disk a).2.2 = true
    · simp only [if_pos hgoes]
      exact ih hsound' hsized' (by rwa [hnames']) fun b hb => (hlist.2 b hb).of_grows hgrows
    · simp only [if_neg hgoes]
      exact hstop (by simpa using hgoes)

end Desk

end SoundRouting
