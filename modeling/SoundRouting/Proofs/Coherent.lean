import SoundRouting.Proofs.History
import SoundRouting.Proofs.Refusals
import SoundRouting.Proofs.Served
/-!
Values are converted where they are bound, and nowhere else.

Binding an assignment converts its value, and a value that cannot be converted is kept as it was declared.
So whatever a manager is asked for, and whatever happens to its card in between, the assignments of its model
have the values that go with their bindings.
-/
namespace SoundRouting

namespace Assignment

/-- The value is as it was declared exactly if the assignment is not bound. -/
def Coherent (a : Assignment) : Prop :=
  a.value.isPending = true ↔ a.binding = .unresolved

theorem coherent_declared {a : Assignment} (hb : a.binding = .unresolved) (hvalue : a.value.isPending = true) :
    a.Coherent :=
  ⟨fun _ => hb, fun _ => hvalue⟩

theorem value_of_convert_error {disk : Disk} {a converted : Assignment} {type : ControlType} {count : Nat} {e : Error}
    (h : a.convert disk type count = (converted, .error e)) : converted.value = a.value := by
  rw [convert_error h]
  split <;> rfl

/-- Writing a value converts nothing back. -/
theorem isPending_writeValue (m : Mixer) (card : Card) (id : Nat) (index : Selector) (value : Value) :
    (m.writeValue card id index value).2.isPending = value.isPending := by
  cases value <;> rfl

end Assignment

/-- Binding an assignment leaves it coherent. -/
theorem Mixer.coherent_bind {disk : Disk} {card : Card} {m n : Mixer} {a b : Assignment} {outcome : Except Error Unit}
    (h : a.Coherent) (hbind : m.bind disk card a = (n, b, outcome)) : b.Coherent := by
  rw [bind] at hbind
  split at hbind
  · cases hbind
    exact h
  · rename_i hnot
    have hb : a.binding = .unresolved := by
      cases hbinding : a.binding with
      | unresolved => rfl
      | bound id type =>
        rw [hbinding] at hnot
        exact absurd rfl hnot
    dsimp only at hbind
    split at hbind
    · cases hbind
      exact h
    · split at hbind
      · cases hbind
        exact h
      · rename_i info _
        cases hconvert : a.convert disk info.type info.count with
        | mk converted result =>
          obtain ⟨-, hbinding⟩ := Assignment.control_convert disk a info.type info.count
          rw [hconvert] at hbind hbinding
          cases result with
          | error e =>
            cases hbind
            refine Assignment.coherent_declared (hbinding.trans hb) ?_
            rw [Assignment.value_of_convert_error hconvert]
            exact h.mpr hb
          | ok u =>
            cases hbind
            have hfits := Assignment.fits_of_convert (c := .ofType info.name info.type info.count) hconvert
            refine ⟨fun hpending => ?_, fun hunresolved => ?_⟩
            · exact absurd (hfits.isPending.symm.trans hpending) (by decide)
            · cases hunresolved

namespace Desk

theorem coherent_applyOne {disk : Disk} {desk : Desk} {a : Assignment} (h : a.Coherent) :
    (desk.applyOne disk a).2.1.Coherent := by
  cases hbind : desk.mixer.bind disk desk.card a with
  | mk m rest =>
    obtain ⟨b, outcome⟩ := rest
    have hb := Mixer.coherent_bind h hbind
    simp only [applyOne, hbind]
    split
    · rw [Assignment.Coherent, Assignment.isPending_writeValue]
      exact hb
    · exact hb

/-- Applying a list leaves every assignment of it coherent. -/
theorem coherent_apply {disk : Disk} {desk : Desk} {list : List Assignment} (h : ∀ a ∈ list, a.Coherent) :
    ∀ a ∈ (desk.apply disk list).2, a.Coherent := by
  induction list generalizing desk with
  | nil => exact h
  | cons a more ih =>
    rw [List.forall_mem_cons] at h
    simp only [apply]
    split
    · rw [List.forall_mem_cons]
      exact ⟨coherent_applyOne h.1, ih h.2⟩
    · rw [List.forall_mem_cons]
      exact ⟨coherent_applyOne h.1, h.2⟩

end Desk

namespace Manager

/-- What has been found to be the control of a volume stays that. -/
theorem isBound_writeVolume {desk : Desk} {v : VolumeControl} (h : v.binding.isBound = true) (percent : Int) :
    (writeVolume desk v percent).2.binding.isBound = true := by
  cases hb : v.binding with
  | unresolved =>
    rw [hb] at h
    cases h
  | bound id type => simp only [writeVolume, Mixer.bindVolume, hb, Binding.id?, Binding.isBound]

theorem isBound_writeVolume? {desk : Desk} {v : Option VolumeControl}
    (h : ∀ w, v = some w → w.binding.isBound = true) (percent : Int) :
    ∀ w, (writeVolume? desk v percent).2 = some w → w.binding.isBound = true := by
  cases v with
  | none => exact nofun
  | some v =>
    rintro _ ⟨⟩
    exact isBound_writeVolume (h v rfl) percent

end Manager

/-- All assignments of the model are coherent, and all volume controls are bound. -/
def Model.Coherent (m : Model) : Prop :=
  m.Holds Assignment.Coherent (·.binding.isBound = true)

namespace Manager

variable {disk : Disk} {m n : Manager}

theorem coherent_applyPath (h : m.model.Coherent) (disk : Disk) (p : PlannedPath) :
    (m.applyPath disk p).model.Coherent := by
  cases hid : m.model.idAt p with
  | none => rwa [(applyPath_of_idAt_eq_none disk hid).1]
  | some id =>
    obtain ⟨d, path, hd, hp, -⟩ := Model.idAt_eq_some_iff.mp hid
    have hdevice := h.devices d (GranularArray.mem_of_get? hd)
    rw [applyPath_eq disk hd hp]
    by_cases happlies : (PathId.count path.id d.useCount).2 = true
    · rw [if_pos happlies]
      refine Model.Holds.modifyDevice h fun _ _ => ?_
      refine Device.Holds.modifyPath (by exact hdevice) p.path ?_
      rw [GranularArray.toList_withItems]
      exact Desk.coherent_apply (hdevice path (GranularArray.mem_of_get? hp))
    · rw [if_neg happlies]
      exact Model.Holds.modifyDevice h fun _ _ => hdevice

/-- Serving keeps a model coherent. -/
theorem coherent_move {mask? : Option DeviceMask} (hmove : Move disk mask? m n) (h : m.model.Coherent) :
    n.model.Coherent := by
  cases hmove with
  | path p => exact coherent_applyPath h disk p
  | noted _ _ hf =>
    exact Model.Holds.modifyStream h fun s hs => (hf s).holds (h.streams s (Model.mem_of_stream? hs))
  | @volume id s first second left right hs hfirst hsecond =>
    have hstream := h.streams s (Model.mem_of_stream? hs)
    refine Model.Holds.modifyStream h fun t ht => ?_
    obtain rfl : s = t := Option.some.inj (hs.symm.trans ht)
    rw [hsecond, hfirst]
    exact ⟨hstream.cases, isBound_writeVolume? hstream.left left, isBound_writeVolume? hstream.right right⟩
  | @useCase id s u c useCase caseOf done hs hu hc hdone =>
    have hcases := (h.streams s (Model.mem_of_stream? hs)).cases useCase (GranularArray.mem_of_get? hu) caseOf
      (GranularArray.mem_of_get? hc)
    refine Model.Holds.modifyStream h fun t ht => ?_
    refine (h.streams t (Model.mem_of_stream? ht)).modifyCase u c ?_
    rw [GranularArray.toList_withItems, hdone]
    exact Desk.coherent_apply hcases

/-- What a manager comes to: it serves requests, of the last one perhaps only a part so far, and in between
whatever happens to its card happens. -/
inductive ComesTo (start : Manager) : Manager → Prop
  | start : ComesTo start start
  | served {m : Manager} (h : ComesTo start m) (disk : Disk) (r : Request) : ComesTo start (m.serve disk r)
  | moved {m n : Manager} (h : ComesTo start m) {disk : Disk} {mask? : Option DeviceMask}
      (hmove : Move disk mask? m n) : ComesTo start n
  | event {m : Manager} (h : ComesTo start m) {card : Card} (he : Card.Event m.desk.card card) :
      ComesTo start ⟨⟨card, m.desk.mixer⟩, m.model⟩

/-- What single moves and events keep holds of all that a manager comes to. -/
theorem ComesTo.induction {I : Manager → Prop} {start : Manager} (h : start.ComesTo m) (hstart : I start)
    (hmove : ∀ disk mask? m n, Move disk mask? m n → I m → I n)
    (hevent : ∀ m card, Card.Event m.desk.card card → I m → I ⟨⟨card, m.desk.mixer⟩, m.model⟩) : I m := by
  induction h with
  | start => exact hstart
  | served _ disk r ih => exact serve_moves (fun m n => hmove disk r.mask? m n) ih
  | moved _ h ih => exact hmove _ _ _ _ h ih
  | event _ he ih => exact hevent _ _ he ih

/-- The mixer and what is bound to it are sound, values are converted where they are bound, and byte controls
have their size. -/
structure InOrder (m : Manager) : Prop where
  settled : m.Settled
  coherent : m.model.Coherent
  sized : m.desk.card.Sized

/-- Whatever a manager comes to, it stays in order. -/
theorem ComesTo.inOrder {start : Manager} (h : start.ComesTo m) (hstart : start.InOrder) : m.InOrder := by
  refine h.induction hstart (fun disk mask? m n hmove hm => ?_) fun m card he hm => ?_
  · refine ⟨hm.settled.move hmove, coherent_move hmove hm.coherent, ?_⟩
    exact hm.settled.card_move (fun _ _ _ _ hsized hw => Card.sized_write hsized hw) hmove hm.sized
  · have hgrows : Desk.Grows m.desk ⟨card, m.desk.mixer⟩ := ⟨he.grows, rfl, fun _ hid => hid⟩
    exact ⟨⟨Desk.sound_of_grows hm.settled.sound he.grows, hm.settled.later hgrows⟩, hm.coherent, he.sized hm.sized⟩

/-- In a manager that is in order, every list is applied without harm. -/
theorem InOrder.deliversAll (h : m.InOrder) (disk : Disk) {list : List Assignment} (hlist : m.model.HasList list) :
    m.desk.DeliversAll disk list :=
  Desk.deliversAll_of_settled h.settled.sound h.sized (h.settled.model.hasList hlist)

end Manager

end SoundRouting
