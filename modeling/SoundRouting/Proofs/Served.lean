import SoundRouting.Proofs.Contents
import SoundRouting.Proofs.Bindings
import SoundRouting.Proofs.Request
/-!
The mixer and the bindings of a manager.

Whatever a request is made of, paths and use-cases that are applied or volumes that are written, it leaves
the mixer sound, and with it what the model has bound.
-/
namespace SoundRouting

theorem Stream.SameSettings.holds {P : Assignment → Prop} {V : VolumeControl → Prop} {s t : Stream}
    (h : s.SameSettings t) (hs : s.Holds P V) : t.Holds P V := by
  obtain ⟨hcases, hleft, hright⟩ := h
  exact ⟨by rw [hcases]; exact hs.cases, by rw [hleft]; exact hs.left, by rw [hright]; exact hs.right⟩

namespace Manager

section Volume

variable {desk : Desk} (hsound : desk.Sound)

include hsound

theorem writeVolume_cases {v : VolumeControl} (hv : v.Settled desk) (percent : Int) :
    ∃ m bound, Desk.Sound ⟨desk.card, m⟩ ∧ Desk.Grows desk ⟨desk.card, m⟩ ∧ bound.Settled ⟨desk.card, m⟩
      ∧ (writeVolume desk v percent = (⟨desk.card, m⟩, bound)
        ∨ ∃ id c op, desk.card.control? id = some c ∧ c.spec.type = .integer
          ∧ writeVolume desk v percent = (⟨m.attempt desk.card id op, m⟩, bound)) := by
  cases hb : desk.mixer.bindVolume desk.card v with
  | mk m rest =>
    obtain ⟨bound, outcome⟩ := rest
    obtain ⟨hsound', hgrows, -, hsettled, hinteger⟩ := Desk.bindVolume_spec hsound hv hb
    refine ⟨m, bound, hsound', hgrows, hsettled, ?_⟩
    simp only [writeVolume, hb]
    cases outcome with
    | error e => exact Or.inl rfl
    | ok id =>
      obtain ⟨c, hc, htype⟩ := hinteger id rfl
      exact Or.inr ⟨id, c, _, hc, htype, rfl⟩

/-- Writing a volume changes the card only by a write to an integer control. -/
theorem writeVolume_induction {I : Card → Prop} {v : VolumeControl} (hv : v.Settled desk) (percent : Int)
    (hwrite : ∀ changed id c op, desk.card.control? id = some c → c.spec.type = .integer →
      desk.card.write id op = .ok changed → I changed)
    (h : I desk.card) : I (writeVolume desk v percent).1.card := by
  obtain ⟨m, bound, -, -, -, he | ⟨id, c, op, hc, htype, he⟩⟩ := writeVolume_cases hsound hv percent
  · rwa [he]
  · rw [he]
    rcases m.attempt_cases desk.card id op with hsame | hw
    · rwa [hsame]
    · exact hwrite _ id c op hc htype hw

theorem writeVolume_spec {v : VolumeControl} (hv : v.Settled desk) (percent : Int) :
    (writeVolume desk v percent).1.Sound ∧ Desk.Grows desk (writeVolume desk v percent).1
      ∧ (writeVolume desk v percent).2.Settled (writeVolume desk v percent).1 := by
  have hcard : Card.Grows desk.card (writeVolume desk v percent).1.card :=
    writeVolume_induction hsound hv percent (fun _ _ _ _ _ _ hw => Card.grows_write hw) (Card.Grows.refl _)
  obtain ⟨m, bound, hsound', hgrows, hsettled, he | ⟨id, c, op, -, -, he⟩⟩ :=
    writeVolume_cases hsound hv percent
  · rw [he]
    exact ⟨hsound', hgrows, hsettled⟩
  · rw [he] at hcard ⊢
    have hlater : Desk.Grows ⟨desk.card, m⟩ ⟨m.attempt desk.card id op, m⟩ := ⟨hcard, rfl, fun _ h => h⟩
    exact ⟨Desk.sound_of_grows hsound' hcard, hgrows.trans hlater, hsettled.of_grows hlater⟩

/-- The same for a volume control that there may be. -/
theorem writeVolume?_spec {v : Option VolumeControl} (hv : ∀ w, v = some w → w.Settled desk) (percent : Int) :
    (writeVolume? desk v percent).1.Sound ∧ Desk.Grows desk (writeVolume? desk v percent).1
      ∧ ∀ w, (writeVolume? desk v percent).2 = some w → w.Settled (writeVolume? desk v percent).1 := by
  cases v with
  | none => exact ⟨hsound, Desk.Grows.refl desk, nofun⟩
  | some w =>
    obtain ⟨hsound', hgrows, hsettled⟩ := writeVolume_spec hsound (hv w rfl) percent
    refine ⟨hsound', hgrows, ?_⟩
    rintro _ ⟨⟩
    exact hsettled

theorem writeVolume?_induction {I : Card → Prop} {v : Option VolumeControl}
    (hv : ∀ w, v = some w → w.Settled desk) (percent : Int)
    (hwrite : ∀ changed id c op, desk.card.control? id = some c → c.spec.type = .integer →
      desk.card.write id op = .ok changed → I changed)
    (h : I desk.card) : I (writeVolume? desk v percent).1.card := by
  cases v with
  | none => exact h
  | some w => exact writeVolume_induction hsound (hv w rfl) percent hwrite h

end Volume

/-- The mixer is sound, and so is everything that the model has bound to it. -/
structure Settled (m : Manager) : Prop where
  sound : m.desk.Sound
  model : m.model.Holds (·.Settled m.desk) (·.Settled m.desk)

namespace Settled

variable {disk : Disk} {m : Manager}

theorem path (h : m.Settled) {i j : Nat} {d : Device} {p : Path} (hd : m.model.devices.get? i = some d)
    (hp : d.paths.get? j = some p) : ∀ a ∈ p.assignments.toList, a.Settled m.desk :=
  h.model.devices d (GranularArray.mem_of_get? hd) p (GranularArray.mem_of_get? hp)

theorem stream (h : m.Settled) {id : StreamId} {s : Stream} (hs : m.model.stream? id = some s) :
    s.Holds (·.Settled m.desk) (·.Settled m.desk) :=
  h.model.streams s (Model.mem_of_stream? hs)

/-- What was bound stays bound while the desk grows. -/
theorem later (h : m.Settled) {desk : Desk} (hgrows : Desk.Grows m.desk desk) :
    m.model.Holds (·.Settled desk) (·.Settled desk) :=
  h.model.mono (fun _ ha => ha.of_grows hgrows) fun _ hv => hv.of_grows hgrows

theorem applyPath (h : m.Settled) (disk : Disk) (p : PlannedPath) : (m.applyPath disk p).Settled := by
  cases hid : m.model.idAt p with
  | none => rwa [(applyPath_of_idAt_eq_none disk hid).1]
  | some id =>
    obtain ⟨d, path, hd, hp, -⟩ := Model.idAt_eq_some_iff.mp hid
    rw [applyPath_eq disk hd hp]
    have hdevice := h.model.devices d (GranularArray.mem_of_get? hd)
    by_cases happlies : (PathId.count path.id d.useCount).2 = true
    · obtain ⟨hsound, hgrows, -, hsettled⟩ := Desk.apply_spec disk h.sound (h.path hd hp)
      rw [if_pos happlies]
      refine ⟨hsound, (h.later hgrows).modifyDevice fun _ _ => ?_⟩
      have hpaths : d.Holds (·.Settled (m.desk.apply disk path.assignments.toList).1) :=
        fun q hq a ha => (hdevice q hq a ha).of_grows hgrows
      refine hpaths.modifyPath p.path ?_
      rwa [GranularArray.toList_withItems]
    · rw [if_neg happlies]
      exact ⟨h.sound, h.model.modifyDevice fun _ _ => hdevice⟩

/-- Serving leaves the mixer sound, with what the model has bound. -/
theorem move {mask? : Option DeviceMask} {n : Manager} (hmove : Move disk mask? m n) (h : m.Settled) : n.Settled := by
  cases hmove with
  | path p => exact h.applyPath disk p
  | noted _ _ hf => exact ⟨h.sound, h.model.modifyStream fun s hs => (hf s).holds (h.stream hs)⟩
  | @volume id s first second left right hs hfirst hsecond =>
    obtain ⟨hsound, hgrows, hleft⟩ := writeVolume?_spec h.sound (h.stream hs).left left
    rw [← hfirst] at hsound hgrows hleft
    have hholds := (h.later hgrows).streams s (Model.mem_of_stream? hs)
    obtain ⟨hsound', hgrows', hright⟩ := writeVolume?_spec hsound hholds.right right
    rw [← hsecond] at hsound' hgrows' hright
    refine ⟨hsound', (h.later (hgrows.trans hgrows')).modifyStream fun t ht => ?_⟩
    obtain rfl : s = t := Option.some.inj (hs.symm.trans ht)
    have hlater := (h.later (hgrows.trans hgrows')).streams s (Model.mem_of_stream? hs)
    exact ⟨hlater.cases, fun w hw => (hleft w hw).of_grows hgrows', hright⟩
  | @useCase id s u c useCase caseOf done hs hu hc hdone =>
    have hlist := (h.stream hs).cases useCase (GranularArray.mem_of_get? hu) caseOf
      (GranularArray.mem_of_get? hc)
    obtain ⟨hsound, hgrows, -, hsettled⟩ := Desk.apply_spec disk h.sound hlist
    rw [← hdone] at hsound hgrows hsettled
    refine ⟨hsound, (h.later hgrows).modifyStream fun t ht => ?_⟩
    have hlater := (h.later hgrows).streams t (Model.mem_of_stream? ht)
    exact hlater.modifyCase u c (by rwa [GranularArray.toList_withItems])

/-- What every write to the card keeps, serving keeps. -/
theorem card_move {I : Card → Prop} (hwrite : ∀ card changed id op, I card → card.write id op = .ok changed → I changed)
    {mask? : Option DeviceMask} {n : Manager} (hmove : Move disk mask? m n) (h : m.Settled) (hcard : I m.desk.card) :
    I n.desk.card := by
  have happly : ∀ list, (∀ a ∈ list, a.Settled m.desk) → I (m.desk.apply disk list).1.card := fun list hlist =>
    Desk.apply_induction disk h.sound hlist (fun _ _ _ _ _ _ _ _ hi hw => hwrite _ _ _ _ hi hw) hcard
  cases hmove with
  | path p =>
    cases hid : m.model.idAt p with
    | none => rwa [(applyPath_of_idAt_eq_none disk hid).1]
    | some id =>
      obtain ⟨d, path, hd, hp, -⟩ := Model.idAt_eq_some_iff.mp hid
      rw [applyPath_eq disk hd hp]
      split
      · exact happly _ (h.path hd hp)
      · exact hcard
  | noted => exact hcard
  | @volume id s first second left right hs hfirst hsecond =>
    have hstream := h.stream hs
    have hone : I first.1.card := by
      rw [hfirst]
      exact writeVolume?_induction h.sound hstream.left left (fun _ _ _ _ _ _ hw => hwrite _ _ _ _ hcard hw) hcard
    obtain ⟨hsound, hgrows, -⟩ := writeVolume?_spec h.sound hstream.left left
    rw [← hfirst] at hsound hgrows
    have hright := ((h.later hgrows).streams s (Model.mem_of_stream? hs)).right
    rw [hsecond]
    exact writeVolume?_induction hsound hright right (fun _ _ _ _ _ _ hw => hwrite _ _ _ _ hone hw) hone
  | @useCase id s u c useCase caseOf done hs hu hc hdone =>
    rw [hdone]
    exact happly _ ((h.stream hs).cases useCase (GranularArray.mem_of_get? hu) caseOf (GranularArray.mem_of_get? hc))

end Settled

end Manager

end SoundRouting
