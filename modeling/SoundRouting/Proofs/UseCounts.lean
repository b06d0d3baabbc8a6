import SoundRouting.Proofs.Traffic
/-!
The use count of a device is the number of streams that are routed to it.

Nothing ever computes that number. It is kept up by the changes of routing, which ask a device for
`off` when a stream leaves it and for `on` when a stream enters it, and by the last release of a
stream. Requests that take devices as a whole keep the two in step.
-/
namespace SoundRouting

namespace PathId

/-- What is asked of a device while the number of streams that hold it goes from one value to
another. -/
inductive Switching : List PathId → Nat → Nat → Prop
  | idle (n : Nat) : Switching [] n n
  | leaves {asked : List PathId} (n : Nat) (hoff : asked.count off = 1) (hon : on ∉ asked) :
      Switching asked (n + 1) n
  | enters {asked : List PathId} (n : Nat) (hon : asked.count on = 1) (hoff : off ∉ asked) :
      Switching asked n (n + 1)

/-- To a device with both counted paths, that is what its holders make it be asked for. -/
theorem switching_iff_traffic {o : DeviceOutline} (hdeclares : o.declares on = true ∧ o.declares off = true)
    {asked : List PathId} {before after : Nat} : Switching asked before after ↔ o.Traffic asked before after := by
  have hdeclaresOn : (o.declares on).toNat = 1 := by rw [hdeclares.1, Bool.toNat_true]
  have hdeclaresOff : (o.declares off).toNat = 1 := by rw [hdeclares.2, Bool.toNat_true]
  constructor
  · rintro (_ | ⟨_, hoff, hon⟩ | ⟨_, hon, hoff⟩)
    · exact .idle _
    · exact .leaves _ (hoff.trans hdeclaresOff.symm) hon
    · exact .enters _ (hon.trans hdeclaresOn.symm) hoff
  · rintro (_ | ⟨_, hoff, hon⟩ | ⟨_, hon, hoff⟩)
    · exact .idle _
    · exact .leaves _ (hoff.trans hdeclaresOff) hon
    · exact .enters _ (hon.trans hdeclaresOn) hoff

/-- Counting follows the number of streams, and the counted paths are applied exactly when it
becomes positive and when it returns to zero. -/
theorem tally_of_switching {asked : List PathId} {before after : Nat} (h : Switching asked before after) :
    (tally before asked).1 = after
      ∧ (tally before asked).2.count on = (if before = 0 ∧ 0 < after then 1 else 0)
      ∧ (tally before asked).2.count off = (if 0 < before ∧ after = 0 then 1 else 0) := by
  have hdeclares : DeviceOutline.declares ⟨.nothing, [off, on]⟩ on = true
    ∧ DeviceOutline.declares ⟨.nothing, [off, on]⟩ off = true := by decide
  have htraffic := (switching_iff_traffic hdeclares).mp h
  have hclose := htraffic.close
  obtain ⟨huse, hon, hoff⟩ := htraffic.tally before
  have hfirst : (before < after ∧ before = 0) ↔ (before = 0 ∧ 0 < after) := by omega
  have hlast : (after < before ∧ before ≤ 1) ↔ (0 < before ∧ after = 0) := by omega
  rw [huse, hon, hoff, hdeclares.1, hdeclares.2, Bool.toNat_true]
  simp only [hfirst, hlast, and_self, and_true]
  split
  · omega
  · split <;> omega

end PathId

open DeviceMask

/-- The devices of a configuration as counting needs them: listed masks without common bits, and both
counted paths for every device but the global one. -/
structure Counting (os : List DeviceOutline) : Prop where
  listed : ∀ o ∈ os, o.mask.IsListed
  separate : os.Pairwise fun a b => a.mask.reaches b.mask = false
  declared : ∀ o ∈ os, o.mask ≠ nothing → o.declares .on = true ∧ o.declares .off = true

/-- A model in which every count is the number of streams that hold the device. -/
structure Model.Counted (m : Model) : Prop where
  devices : Counting m.outlines
  streams : ∀ s ∈ m.streams, s.Regular m.outlines
  uses : ∀ i d, m.devices.get? i = some d → d.isGlobal = false → d.useCount = m.holders d.mask

theorem Model.Counted.regular {m : Model} (h : m.Counted) : m.Regular :=
  ⟨h.devices.listed, h.devices.separate, h.streams⟩

theorem Model.Counted.declares {m : Model} (h : m.Counted) {i : Nat} {d : Device}
    (hd : m.devices.get? i = some d) (hglobal : d.isGlobal = false) :
    d.outline.declares .on = true ∧ d.outline.declares .off = true :=
  h.devices.declared _ (Device.outline_mem hd) (beq_eq_false_iff_ne.mp hglobal)

namespace Manager

variable {m : Manager} {i : Nat} {d : Device}

/-- What a request asks of a device is what becomes of the number of its holders. -/
theorem switching_serve (disk : Disk) (hm : m.model.Counted) {r : Request} (hr : r.Whole m.model.outlines)
    (hd : m.model.devices.get? i = some d) (hglobal : d.isGlobal = false) :
    PathId.Switching (idsOf i (m.model.asks (m.planOf disk r))) (m.model.holders d.mask)
      ((m.serve disk r).model.holders d.mask) :=
  (PathId.switching_iff_traffic (hm.declares hd hglobal)).mpr (traffic_serve disk hm.regular hr hd hglobal)

/-- A device that a request asks for what becomes of a number counts that number on, and its counted paths are
applied exactly when the number becomes positive and when it returns to zero. -/
theorem serve_of_switching (disk : Disk) {r : Request} (hd : m.model.devices.get? i = some d) {after : Nat}
    (hswitch : PathId.Switching (idsOf i (m.model.asks (m.planOf disk r))) d.useCount after) :
    (∃ e, (m.serve disk r).model.devices.get? i = some e ∧ e.outline = d.outline ∧ e.useCount = after)
      ∧ (m.appliedBy disk r).count (i, .on) = (if d.useCount = 0 ∧ 0 < after then 1 else 0)
      ∧ (m.appliedBy disk r).count (i, .off) = if 0 < d.useCount ∧ after = 0 then 1 else 0 := by
  obtain ⟨e, he, houtline, htally⟩ := tally_serve disk hd r
  obtain ⟨huse, hon, hoff⟩ := PathId.tally_of_switching hswitch
  rw [htally] at huse hon hoff
  rw [← count_idsOf, ← count_idsOf]
  exact ⟨⟨e, he, houtline, huse⟩, hon, hoff⟩

/-- Whole requests keep every count the number of streams that hold the device. -/
theorem counted_serve (disk : Disk) (hm : m.model.Counted) {r : Request} (hr : r.Whole m.model.outlines) :
    (m.serve disk r).model.Counted := by
  have houtlines := outlines_serve disk m r
  refine ⟨houtlines ▸ hm.devices, (regular_serve disk hm.regular hr).streams, fun i e he hglobal => ?_⟩
  obtain ⟨d, hd, houtline⟩ := Model.exists_of_outlines (outlines_serve disk m r) he
  have hglobal' : d.isGlobal = false := (Device.isGlobal_of_outline houtline).symm.trans hglobal
  have hswitch := switching_serve disk hm hr hd hglobal'
  rw [← hm.uses i d hd hglobal'] at hswitch
  obtain ⟨⟨e', he', -, huse⟩, -, -⟩ := serve_of_switching disk hd hswitch
  obtain rfl : e' = e := Option.some.inj (he'.symm.trans he)
  rw [huse, show e'.mask = d.mask from congrArg DeviceOutline.mask houtline]

theorem counted_serveAll {requests : List (Disk × Request)} (hm : m.model.Counted)
    (hr : ∀ e ∈ requests, e.2.Whole m.model.outlines) :
    (m.serveAll requests).model.Counted ∧ (m.serveAll requests).model.outlines = m.model.outlines :=
  serveAll_induction_of_whole (I := fun n => n.model.Counted) (fun _ disk _ hwhole hn => counted_serve disk hn hwhole)
    hm hr

end Manager

end SoundRouting
