import SoundRouting.Proofs.Bindings
/-!
Assignments that could not be bound.

Such an assignment is tried again whenever its list is applied, perhaps on a card where its name means another
control. It still has its name and its value then, and is not bound. But the place of its first byte is settled before
it is known whether the value can be made into bytes: an assignment to all elements that was tried on a byte control
is one to the first element from then on.
-/
namespace SoundRouting

namespace Desk

def FindsBytes (desk : Desk) (name : String) : Prop :=
  ∃ id c, (desk.mixer.lookup desk.card name).2 = .ok id ∧ desk.card.control? id = some c ∧ c.spec.type = .bytes
    ∧ c.spec.count ≤ maxByteCount

variable {desk : Desk} {disk : Disk} {a b : Assignment} {m : Mixer} {e : Error}

theorem unresolved_of_bind_error (h : desk.mixer.bind disk desk.card a = (m, b, .error e)) :
    a.binding = .unresolved := by
  cases hb : a.binding with
  | unresolved => rfl
  | bound id type =>
    simp only [Mixer.bind, hb, Binding.isBound, if_true] at h
    cases h

/-- If the name finds no control that exists, the assignment cannot be bound and is left as it was. -/
theorem bind_of_missing (disk : Disk) (ha : a.binding = .unresolved)
    (hmissing : ∀ id c, (desk.mixer.lookup desk.card a.control).2 = .ok id → desk.card.control? id ≠ some c) :
    ∃ e, (desk.mixer.bind disk desk.card a).2 = (a, .error e) := by
  cases hl : desk.mixer.lookup desk.card a.control with
  | mk m found =>
    rw [hl] at hmissing
    simp only [Mixer.bind, ha, Binding.isBound, Bool.false_eq_true, if_false, hl]
    cases found with
    | error e => exact ⟨e, rfl⟩
    | ok id =>
      have hnone : m.info? desk.card id = none := by
        rw [Mixer.info?, Option.eq_none_iff_forall_ne_some.mpr fun c => hmissing id c rfl, Option.map_none, ite_self]
      simp only [hnone]
      exact ⟨_, rfl⟩

open Classical in
/-- What a failure leaves: the assignment, with the place of its first byte settled if a byte control was found. -/
theorem bind_error (h : desk.mixer.bind disk desk.card a = (m, b, .error e)) :
    b = if desk.FindsBytes a.control then a.placed else a := by
  have ha := unresolved_of_bind_error h
  by_cases hfound : ∃ id c, (desk.mixer.lookup desk.card a.control).2 = .ok id ∧ desk.card.control? id = some c
  · obtain ⟨id, c, hid, hc⟩ := hfound
    have hbind := bind_of_found disk ha hid hc
    rw [h] at hbind
    have hconvert : a.convert disk c.spec.type c.spec.count = (b, .error e) := by
      cases hconvert : a.convert disk c.spec.type c.spec.count with
      | mk converted outcome =>
        rw [hconvert] at hbind
        cases outcome <;> cases hbind
        rfl
    have hiff : desk.FindsBytes a.control ↔ c.spec.type = .bytes ∧ c.spec.count ≤ maxByteCount := by
      constructor
      · rintro ⟨id', c', hid', hc', hbytes⟩
        obtain rfl : id = id' := Except.ok.inj (hid.symm.trans hid')
        obtain rfl : c = c' := Option.some.inj (hc.symm.trans hc')
        exact hbytes
      · exact fun hbytes => ⟨id, c, hid, hc, hbytes⟩
    rw [Assignment.convert_error hconvert]
    simp only [hiff]
  · have hmissing : ∀ id c, (desk.mixer.lookup desk.card a.control).2 = .ok id →
        desk.card.control? id ≠ some c := fun id c hid hc => hfound ⟨id, c, hid, hc⟩
    obtain ⟨e', he⟩ := bind_of_missing disk ha hmissing
    rw [h] at he
    rw [if_neg fun ⟨id, c, hid, hc, _⟩ => hmissing id c hid hc]
    exact (Prod.mk.inj he).1

/-- An assignment fails to be bound on one desk after the other, and this is left of it. -/
inductive Failing (disk : Disk) (a : Assignment) : List Desk → Assignment → Prop
  | none : Failing disk a [] a
  | again {desks : List Desk} {b c : Assignment} {m : Mixer} {e : Error} (h : Failing disk a desks b) (desk : Desk)
      (hbind : desk.mixer.bind disk desk.card b = (m, c, .error e)) : Failing disk a (desks ++ [desk]) c

open Classical in
/-- After any number of failures no more has changed than after the first on a byte control. -/
theorem Failing.eq {desks : List Desk} (h : Failing disk a desks b) :
    b = if ∃ desk ∈ desks, desk.FindsBytes a.control then a.placed else a := by
  induction h with
  | none => rw [if_neg fun ⟨_, hmem, _⟩ => List.not_mem_nil hmem]
  | @again desks b c _ _ _ desk hbind ih =>
    have hcontrol : b.control = a.control := by
      rw [ih]
      split <;> rfl
    rw [bind_error hbind, hcontrol]
    simp only [List.mem_append, List.mem_singleton, or_and_right, exists_or, exists_eq_left]
    by_cases hbefore : ∃ desk ∈ desks, desk.FindsBytes a.control
    · rw [if_pos hbefore] at ih
      rw [ih, Assignment.placed_placed, ite_self, if_pos (Or.inl hbefore)]
    · rw [if_neg hbefore] at ih
      simp only [ih, or_iff_right hbefore]

/-- An assignment that cannot be bound keeps its name, its value and its binding. It keeps its index too, unless that
means all elements and the name finds a byte control; then it means the first element. -/
theorem kept_of_bind_error (h : desk.mixer.bind disk desk.card a = (m, b, .error e)) :
    b.control = a.control ∧ b.value = a.value ∧ b.binding = a.binding
      ∧ (b.index = a.index ↔ ¬ (a.index = .all ∧ desk.FindsBytes a.control))
      ∧ (a.index = .all ∧ desk.FindsBytes a.control → b.index = .at 0) := by
  have hb := bind_error h
  by_cases hbytes : desk.FindsBytes a.control
  · rw [if_pos hbytes] at hb
    subst hb
    refine ⟨rfl, rfl, rfl, ?_, ?_⟩
    · rw [and_iff_left hbytes]
      exact Assignment.index_placed_eq_iff
    · rintro ⟨hall, -⟩
      rw [Assignment.placed, hall]
      rfl
  · rw [if_neg hbytes] at hb
    subst hb
    exact ⟨rfl, rfl, rfl, iff_of_true rfl fun h => hbytes h.2, fun h => absurd h.2 hbytes⟩

/-- A card with a byte control, and with a control of two elements and the same name that a switch creates, and a
mixer open on it. -/
def gainDesk : Desk :=
  let card := Card.ofControls 0 none
    [(Control.integer "Gain" 2 (-9) 9).appearingWith "Mode", .switch "Mode" 1, .bytes "Gain" 4]
  ⟨card.openMixer.2, card.openMixer.1⟩

def laterGainDesk : Desk :=
  let card := gainDesk.mixer.attempt gainDesk.card 1 (.value 0 1)
  ⟨card, gainDesk.mixer.rescan card⟩

def gainAssignment : Assignment :=
  .declared "Gain" .all (.pending "-5")

/-- A negative number is not one for a byte. -/
theorem kept_of_bind_error_gain :
    let disk : Disk := ⟨default, ⟨""⟩⟩
    let b := (gainDesk.mixer.bind disk gainDesk.card gainAssignment).2.1
    gainDesk.mixer.bind disk gainDesk.card gainAssignment
        = (gainDesk.mixer, b, .error (.value (.notANumber "-5")))
      ∧ b.control = "Gain" ∧ b.value = .pending "-5" ∧ b.binding = .unresolved ∧ b.index = .at 0 := by
  intro disk b
  have hbind : gainDesk.mixer.bind disk gainDesk.card gainAssignment
      = (gainDesk.mixer, b, .error (.value (.notANumber "-5"))) := rfl
  obtain ⟨hcontrol, hvalue, hbinding, -, hindex⟩ := kept_of_bind_error hbind
  have hfinds : gainDesk.FindsBytes "Gain" := ⟨2, _, rfl, rfl, rfl, by decide⟩
  exact ⟨hbind, hcontrol, hvalue, hbinding, hindex ⟨rfl, hfinds⟩⟩

/-- After it failed to be bound to the byte control, the assignment sets one element of the other control. As it was
declared it sets both. -/
theorem narrowed_by_failure :
    let disk : Disk := ⟨default, ⟨""⟩⟩
    let failed := (gainDesk.mixer.bind disk gainDesk.card gainAssignment).2
    failed.2 = .error (.value (.notANumber "-5")) ∧ gainAssignment.index = .all ∧ failed.1.index = .at 0
      ∧ ((laterGainDesk.applyOne disk failed.1).1.card.control? 0).map (·.ints) = some [-5, -9]
      ∧ ((laterGainDesk.applyOne disk gainAssignment).1.card.control? 0).map (·.ints) = some [-5, -5] :=
  ⟨rfl, rfl, rfl, by decide +kernel, by decide +kernel⟩

end Desk

end SoundRouting
