import SoundRouting.Proofs.Blend
import SoundRouting.Proofs.History
/-!
Applying a list of assignments once more.

The second time the assignments come bound and with converted values, and the card with what the first time has
written. It is a blend of what it was before each assignment and of what it came to be, so that the assignment
makes of it a blend of what it was after it; behind the last one, nothing is left to blend.
-/
namespace SoundRouting

/-- Where an assignment cannot be converted, what is left of it cannot be converted either. -/
theorem Assignment.convert_again {disk : Disk} {a converted : Assignment} {type : ControlType} {count : Nat} {e : Error}
    (h : a.convert disk type count = (converted, .error e)) : converted.convert disk type count = (converted, .error e) := by
  have h' := h
  unfold convert at h
  cases type <;> simp only at h
  case bytes =>
    split at h
    · cases h
      exact h'
    · rename_i hcount
      split at h
      · cases h
      · rename_i hvalue
        cases h
        simp only [convert, if_neg hcount, Selector.offset_at, hvalue]
  case switch | integer | enumerated =>
    split at h <;> cases h
    exact h'
  all_goals
    cases h
    exact h'

/-- Looked for once more, a name is found to mean what it meant. -/
theorem Mixer.lookup_again (m : Mixer) {card later : Card} (h : later.controls = card.controls) (name : String) :
    ((m.lookup card name).1.lookup later name).2 = (m.lookup card name).2 := by
  have hfind : ∀ n : Mixer, n.find? later name = n.find? card name := by
    intro n
    simp only [find?, h]
  have hpresent : later.presentIds = card.presentIds := by
    simp only [Card.presentIds, Card.control?, h]
  cases hfirst : m.find? card name with
  | some id => simp only [lookup, hfirst, hfind]
  | none =>
    have hrescan : (m.rescan card).rescan later = m.rescan card := by
      simp only [rescan, hpresent]
    cases hsecond : (m.rescan card).find? card name with
    | some id => simp only [lookup, hfirst, hsecond, hfind]
    | none => simp only [lookup, hfirst, hsecond, hfind, hrescan]

namespace Desk

def taken (disk : Disk) (desk : Desk) : List Assignment → Nat
  | [] => 0
  | a :: more =>
    let (later, _, goesOn) := desk.applyOne disk a
    if goesOn then taken disk later more + 1 else 0

variable {disk : Disk} {desk : Desk}

/-- Applying a list gets as far as the first assignment that is not written, and leaves those behind it alone. -/
theorem apply_eq_take (disk : Disk) (desk : Desk) (list : List Assignment) :
    desk.apply disk list = ((desk.apply disk (list.take (desk.taken disk list + 1))).1,
      (desk.apply disk (list.take (desk.taken disk list + 1))).2 ++ list.drop (desk.taken disk list + 1)) := by
  induction list generalizing desk with
  | nil => rfl
  | cons a more ih =>
    simp only [apply, taken, List.take_succ_cons, List.drop_succ_cons]
    cases hgoes : (desk.applyOne disk a).2.2 with
    | true =>
      simp only [if_true]
      rw [ih]
      rfl
    | false => simp

theorem applyOne_of_error {a b : Assignment} {m : Mixer} {e : Error}
    (h : desk.mixer.bind disk desk.card a = (m, b, .error e)) : desk.applyOne disk a = (⟨desk.card, m⟩, b, false) := by
  simp only [applyOne, h]

theorem card_of_stop {a : Assignment} (h : (desk.applyOne disk a).2.2 = false) :
    (desk.applyOne disk a).1.card = desk.card := by
  simp only [applyOne] at h ⊢
  split
  next hok hid =>
    simp only [hok, hid] at h
    cases h
  next => rfl

/-- An assignment that ends a list ends it again, as it was left, while the card has the same controls. -/
theorem applyOne_again (hsound : desk.Sound) {a b : Assignment} {later : Desk}
    (h : desk.applyOne disk a = (later, b, false)) {card : Card} (hcard : card.controls = desk.card.controls) :
    ∃ m c, applyOne disk ⟨card, later.mixer⟩ b = (⟨card, m⟩, c, false) := by
  have hcontrol : ∀ id, card.control? id = desk.card.control? id := by
    intro id
    simp only [Card.control?, hcard]
  have hlater : Sound ⟨card, (desk.mixer.lookup desk.card a.control).1⟩ := by
    intro id hid
    rw [hcontrol]
    exact (lookup_spec hsound a.control).1 id hid
  have hagain := desk.mixer.lookup_again hcard a.control
  cases hb : a.binding with
  | bound id type =>
    rw [applyOne_of_bound disk desk hb] at h
    cases h
  | unresolved =>
    obtain ⟨m, rfl, ⟨e, hlookup, hbind⟩ | ⟨id, c, converted, outcome, hlookup, -, hc, -, hconvert, hbind⟩⟩ :=
      bind_of_unresolved hsound disk hb
    · rw [applyOne_of_error hbind] at h
      cases h
      obtain ⟨n, -, ⟨e', -, hbind'⟩ | ⟨id, c, _, _, hlookup', -⟩⟩ := bind_of_unresolved hlater disk hb
      · exact ⟨n, _, applyOne_of_error hbind'⟩
      · rw [hagain, hlookup] at hlookup'
        cases hlookup'
    · cases outcome with
      | ok u =>
        simp only [applyOne, hbind, Binding.id?] at h
        cases h
      | error e =>
        rw [applyOne_of_error hbind] at h
        cases h
        obtain ⟨hname, hbinding⟩ := Assignment.control_convert disk a c.spec.type c.spec.count
        rw [hconvert] at hname hbinding
        obtain ⟨n, -, ⟨e', -, hbind'⟩ | ⟨id', c', _, _, hlookup', -, hc', -, hconvert', hbind'⟩⟩ :=
          bind_of_unresolved hlater disk (hbinding.trans hb)
        · exact ⟨n, _, applyOne_of_error hbind'⟩
        · rw [hname, hagain, hlookup] at hlookup'
          cases hlookup'
          obtain rfl : c = c' := Option.some.inj ((hc.symm.trans (hcontrol id).symm).trans hc')
          rw [Assignment.convert_again hconvert] at hconvert'
          cases hconvert'
          exact ⟨n, _, applyOne_of_error hbind'⟩

/-- What an assignment has been left as does to a blend what the assignment did to the card. -/
theorem blend_applyOne (hsound : desk.Sound) (hsized : desk.card.Sized) {a : Assignment} (ha : a.Settled desk)
    (hgoes : (desk.applyOne disk a).2.2 = true) {last card : Card} (hblend : Card.Blend desk.card last card)
    (hcard : card.Sized) {m : Mixer} (hleft : (desk.applyOne disk a).2.1.Settled ⟨card, m⟩) :
    ∃ changed b, applyOne disk ⟨card, m⟩ (desk.applyOne disk a).2.1 = (⟨changed, m⟩, b, true)
      ∧ Card.Blend (desk.applyOne disk a).1.card last changed := by
  obtain ⟨n, b, outcome, -, -, -, -, hsettled, he | ⟨id, c, type, hbinding, hc, -, he⟩⟩ :=
    applyOne_cases hsound disk ha
  · rw [he] at hgoes
    cases hgoes
  · rw [he] at hleft ⊢
    obtain ⟨hknown, c', hc', -, -, hfits⟩ := hsettled id type hbinding
    obtain rfl : c = c' := Option.some.inj (hc.symm.trans hc')
    obtain ⟨hknown', d, hd, -, -, hfits'⟩ := hleft id type hbinding
    obtain ⟨ops, hops, hwrite⟩ := Mixer.writeValue_eq disk hknown hc hsized hfits
    obtain ⟨ops', hops', hwrite'⟩ := Mixer.writeValue_eq disk hknown' hd hcard hfits'
    rw [Assignment.writes?_writeValue] at hops'
    refine ⟨_, _, applyOne_of_bound disk _ hbinding, ?_⟩
    rw [hwrite, hwrite']
    exact Assignment.blend_writes hblend hsized hc hd hops hops'

/-- On a blend of the card before a list and after it, the assignments that the list has left make the card after
it of that, and end where the list has ended. -/
theorem apply_again {list : List Assignment} (hsound : desk.Sound) (hsized : desk.card.Sized)
    (hlist : ∀ a ∈ list, a.Settled desk) {card : Card}
    (hblend : Card.Blend desk.card (desk.apply disk list).1.card card)
    (hgrows : Card.Grows (desk.apply disk list).1.card card) (hcard : card.Sized) :
    (apply disk ⟨card, (desk.apply disk list).1.mixer⟩ (desk.apply disk list).2).1.card.controls
        = (desk.apply disk list).1.card.controls
      ∧ taken disk ⟨card, (desk.apply disk list).1.mixer⟩ (desk.apply disk list).2 = desk.taken disk list := by
  induction list generalizing desk card with
  | nil => exact ⟨hblend.self, rfl⟩
  | cons a more ih =>
    rw [List.forall_mem_cons] at hlist
    obtain ⟨hsound', hlater, -, hleft⟩ := applyOne_spec hsound disk hlist.1
    by_cases hgoes : (desk.applyOne disk a).2.2 = true
    · have hmore : ∀ b ∈ more, b.Settled (desk.applyOne disk a).1 := fun b hb => (hlist.2 b hb).of_grows hlater
      have hsized' : (desk.applyOne disk a).1.card.Sized :=
        applyOne_induction hsound disk hlist.1 (fun _ _ _ _ _ _ _ _ h hw => Card.sized_write h hw) hsized
      obtain ⟨hlast, hrest, -, -⟩ := apply_spec disk hsound' hmore
      simp only [apply, taken, if_pos hgoes] at hblend hgrows ⊢
      have hgrown : Grows ((desk.applyOne disk a).1.apply disk more).1
          ⟨card, ((desk.applyOne disk a).1.apply disk more).1.mixer⟩ := ⟨hgrows, rfl, fun _ h => h⟩
      have hagain := hleft.of_grows (hrest.trans hgrown)
      obtain ⟨changed, b, hb, hblend'⟩ := blend_applyOne hsound hsized hlist.1 hgoes hblend hcard hagain
      have hcardSound := sound_of_grows hlast hgrows
      obtain ⟨-, hchanged, -, -⟩ := applyOne_spec hcardSound disk hagain
      have hchangedSized : (applyOne disk ⟨card, _⟩ (desk.applyOne disk a).2.1).1.card.Sized :=
        applyOne_induction hcardSound disk hagain (fun _ _ _ _ _ _ _ _ h hw => Card.sized_write h hw) hcard
      simp only [hb, if_true] at hchanged hchangedSized ⊢
      obtain ⟨hcontrols, htaken⟩ := ih hsound' hsized' hmore hblend' (hgrows.trans hchanged.card) hchangedSized
      exact ⟨hcontrols, by rw [htaken]⟩
    · -- The list ends here, so that the card is what it was and nothing is left to blend.
      have hstop : (desk.applyOne disk a).2.2 = false := Bool.not_eq_true _ ▸ hgoes
      have hkept := card_of_stop hstop
      simp only [apply, taken, hstop, hkept, Bool.false_eq_true, if_false] at hblend ⊢
      obtain ⟨n, c, hc⟩ := applyOne_again hsound (Prod.ext rfl (Prod.ext rfl hstop)) hblend.self
      simp only [hc, Bool.false_eq_true, if_false]
      exact ⟨hblend.self, trivial⟩

/-- Applying a list twice leaves the controls of the card as applying it once does, and both times it ends at the
same place. Names may repeat, controls may appear on the way, and whatever has happened to the card and the mixer
before, the files need to be the same only in the two runs. -/
theorem apply_twice {before : Disk} {desk : Desk} {earlier : List (Assignment × Assignment)}
    (hhistory : History before desk earlier) {list : List Assignment} (hlist : ∀ a ∈ list, a.binding = .unresolved)
    (disk : Disk) :
    let once := desk.apply disk list
    let twice := once.1.apply disk once.2
    twice.1.card.controls = once.1.card.controls ∧ once.1.taken disk once.2 = desk.taken disk list := by
  obtain ⟨hsound, hsized, -⟩ := hhistory.sound
  have hsettled : ∀ a ∈ list, a.Settled desk := fun a ha => Assignment.settled_of_unresolved (hlist a ha) desk
  have hsized' : (desk.apply disk list).1.card.Sized :=
    apply_induction disk hsound hsettled (fun _ _ _ _ _ _ _ _ h hw => Card.sized_write h hw) hsized
  have hshape : (desk.apply disk list).1.card.shape = desk.card.shape :=
    card_apply_induction (I := fun card => card.shape = desk.card.shape)
      (fun _ _ _ _ h hw => (Card.shape_write hw).trans h) disk rfl list
  exact apply_again hsound hsized hsettled (.of_shape hshape) (Card.Grows.refl _) hsized'

/-- Two levels of one name, the first of which appears with the switch, and a block of bytes. -/
def twinCard : Card :=
  .ofControls 0 none
    [.switch "Power" 1, (Control.integer "Level" 2 0 7).appearingWith "Power", .integer "Level" 1 0 7, .bytes "Eq" 4]

/-- Of these the first is refused, and the fifth ends the list. -/
def twinList : List Assignment :=
  [.declared "Level" (.at 0) (.pending "9"), .declared "Power" .all (.pending "1"),
    .declared "Level" .all (.pending "5"), .declared "Eq" (.at 1) (.pending "7,8"),
    .declared "Gone" .all (.pending "1"), .declared "Power" .all (.pending "0")]

theorem apply_twice_twin :
    let disk : Disk := ⟨default, ⟨""⟩⟩
    let once := apply disk ⟨twinCard.openMixer.2, twinCard.openMixer.1⟩ twinList
    let twice := once.1.apply disk once.2
    twice.1.card.controls = once.1.card.controls ∧ once.1.taken disk once.2 = 4
      ∧ once.1.card.controls.map (·.present) = [true, true, true, true]
      ∧ once.1.card.controls.map (·.ints) = [[1], [0, 0], [5], [0, 0, 0, 0]] ∧ once.1.card.bytes "Eq" = [0, 7, 8, 0] := by
  have hbuilt : twinCard.Built :=
    .event (.event (.event (.event (.blank 0 none) (.added _ _)) (.added _ _)) (.added _ _)) (.added _ _)
  have hlist : ∀ a ∈ twinList, a.binding = .unresolved := by decide
  have hopened : History ⟨default, ⟨""⟩⟩ ⟨twinCard.openMixer.2, twinCard.openMixer.1⟩ [] := .opened hbuilt
  obtain ⟨hcontrols, htaken⟩ := apply_twice hopened hlist ⟨default, ⟨""⟩⟩
  refine ⟨hcontrols, htaken.trans ?_, ?_, ?_, ?_⟩ <;> decide +kernel

end Desk

end SoundRouting
