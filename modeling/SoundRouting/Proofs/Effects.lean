import SoundRouting.Proofs.Growth
/-!
What is done to the cards of a machine.

A mixer is opened on a card, or it applies assignments to one. Either changes one card, the first with its
number, and every other card stays what it was.
-/
namespace SoundRouting

/-- Something that is done to a card: a mixer is opened on it, or one that is open applies assignments. -/
inductive Effect where
  | opened (number : Nat)
  | applied (mixer : Mixer) (list : List Assignment)
  deriving DecidableEq, Repr

namespace Effect

def number : Effect → Nat
  | opened number => number
  | applied mixer _ => mixer.card

def change (disk : Disk) (card : Card) : Effect → Card
  | opened _ => card.openMixer.2
  | applied mixer list => (Desk.apply disk ⟨card, mixer⟩ list).1.card

/-- What becomes of the cards; without a card of that number, nothing does. -/
def perform (disk : Disk) (rack : Rack) (effect : Effect) : Rack :=
  match rack.card? effect.number with
  | none => rack
  | some card => rack.setCard (effect.change disk card)

theorem number_change (disk : Disk) (card : Card) (effect : Effect) :
    (effect.change disk card).number = card.number := by
  cases effect with
  | opened => rfl
  | applied mixer list => exact Desk.number_apply disk ⟨card, mixer⟩ list

end Effect

namespace Rack

def place? (rack : Rack) (number : Nat) : Option Nat :=
  rack.cards.findIdx? (·.number == number)

/-- Nothing has been written to the card at this place; mixers may have been opened on it. -/
def Unwritten (before after : Rack) (i : Nat) : Prop :=
  ∀ card, before.cards[i]? = some card → ∃ n, after.cards[i]? = some { card with opens := n }

theorem place?_of_card? {rack : Rack} {number : Nat} {card : Card} (h : rack.card? number = some card) :
    ∃ i, rack.place? number = some i ∧ rack.cards[i]? = some card := by
  obtain ⟨hnumber, i, hi, hcard, hfirst⟩ := List.find?_eq_some_iff_getElem.mp h
  refine ⟨i, List.findIdx?_eq_some_iff_getElem.mpr ⟨hi, ?_, fun j hj => ?_⟩, List.getElem?_eq_some_iff.mpr ⟨hi, hcard⟩⟩
  · rwa [hcard]
  · simpa using hfirst j hj

theorem place?_of_card?_eq_none {rack : Rack} {number : Nat} (h : rack.card? number = none) :
    rack.place? number = none :=
  List.findIdx?_eq_none_iff.mpr fun card hcard => by simpa using List.find?_eq_none.mp h card hcard

/-- A card is put in the place of the first one with its number. -/
theorem cards_setCard {rack : Rack} {card : Card} {i : Nat} (h : rack.place? card.number = some i) :
    (rack.setCard card).cards = rack.cards.set i card := by
  obtain ⟨cards⟩ := rack
  simp only [place?, setCard] at h ⊢
  induction cards generalizing i with
  | nil => cases h
  | cons c more ih =>
    rw [List.findIdx?_cons] at h
    rw [replace]
    split at h
    · rename_i hc
      cases h
      rw [if_pos hc, List.set_cons_zero]
    · rename_i hc
      obtain ⟨j, hj, rfl⟩ := Option.map_eq_some_iff.mp h
      rw [if_neg hc, ih hj, List.set_cons_succ]

theorem place?_setCard (rack : Rack) (card : Card) (number : Nat) :
    (rack.setCard card).place? number = rack.place? number := by
  obtain ⟨cards⟩ := rack
  simp only [place?, setCard]
  induction cards with
  | nil => rfl
  | cons c more ih =>
    rw [replace]
    split
    · rename_i hc
      rw [List.findIdx?_cons, List.findIdx?_cons, beq_iff_eq.mp hc]
    · rw [List.findIdx?_cons, List.findIdx?_cons, ih]

end Rack

namespace Effect

variable {disk : Disk} {rack : Rack}

theorem place?_perform (effect : Effect) (number : Nat) :
    (effect.perform disk rack).place? number = rack.place? number := by
  rw [perform]
  split
  · rfl
  · exact Rack.place?_setCard _ _ _

/-- What becomes of the card at a place. -/
theorem getElem?_perform (effect : Effect) {i : Nat} {card : Card} (h : rack.cards[i]? = some card) :
    (effect.perform disk rack).cards[i]?
      = some (if rack.place? effect.number = some i then effect.change disk card else card) := by
  rw [perform]
  cases hcard : rack.card? effect.number with
  | none => simpa only [Rack.place?_of_card?_eq_none hcard, reduceCtorEq, if_false] using h
  | some old =>
    obtain ⟨j, hplace, hold⟩ := Rack.place?_of_card? hcard
    have hnumber : (effect.change disk old).number = effect.number :=
      (number_change disk old effect).trans (Rack.number_of_card? hcard)
    dsimp only
    rw [Rack.cards_setCard (by rwa [hnumber]), List.getElem?_set, hplace]
    by_cases hij : j = i
    · subst hij
      obtain rfl : old = card := Option.some.inj (hold.symm.trans h)
      obtain ⟨hlt, -⟩ := List.getElem?_eq_some_iff.mp h
      rw [if_pos rfl, if_pos hlt, if_pos rfl]
    · rw [if_neg hij, if_neg fun heq => hij (Option.some.inj heq), h]

/-- Only assignments that are applied to a card are written to it. -/
theorem unwritten_performAll {effects : List Effect} {i : Nat}
    (h : ∀ mixer list, applied mixer list ∈ effects → rack.place? mixer.card ≠ some i) :
    rack.Unwritten (effects.foldl (perform disk) rack) i := by
  induction effects generalizing rack with
  | nil => exact fun card hcard => ⟨card.opens, hcard⟩
  | cons effect more ih =>
    have hmore : (effect.perform disk rack).Unwritten ((effect :: more).foldl (perform disk) rack) i := by
      refine ih fun mixer list hmem => ?_
      rw [place?_perform]
      exact h mixer list (List.mem_cons_of_mem _ hmem)
    intro card hcard
    have hone : (effect.perform disk rack).cards[i]? = _ := getElem?_perform effect hcard
    cases effect with
    | opened number =>
      split at hone
      · exact hmore card.openMixer.2 hone
      · exact hmore card hone
    | applied mixer list =>
      have hother : rack.place? (applied mixer list).number ≠ some i := h mixer list List.mem_cons_self
      rw [if_neg hother] at hone
      exact hmore card hone

end Effect

/-- Opening a mixer on a rack, as what is done to the cards. -/
theorem Rack.perform_opened {disk : Disk} {rack opened : Rack} {number : Nat} {mixer : Mixer}
    (h : rack.openMixer number = .ok (mixer, opened)) : (Effect.opened number).perform disk rack = opened := by
  cases hcard : rack.card? number with
  | none =>
    rw [openMixer, hcard] at h
    cases h
  | some card =>
    rw [openMixer, hcard] at h
    cases h
    have hperform : (Effect.opened number).perform disk rack = rack.setCard card.openMixer.2 := by
      simp only [Effect.perform, Effect.number, hcard, Effect.change]
    exact hperform

end SoundRouting
