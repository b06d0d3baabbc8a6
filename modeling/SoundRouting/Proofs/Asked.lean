import SoundRouting.Proofs.Tally
/-!
What the plans of a manager ask of a device.

A plan for a mask asks the same of every device that the mask reaches, and nothing of the others. A
change of routing asks a device to be left if it loses a bit, and to be entered if it gains one.
-/
namespace SoundRouting

namespace DeviceOutline

/-- The ids that are asked of a device which takes part: those of two that it has paths for, in this
order. -/
def idsFor (o : DeviceOutline) (first second : Option PathId) : List PathId :=
  (first.filter o.declares).toList
    ++ (if first = second then none else second.filter o.declares).toList

theorem mem_of_mem_idsFor {o : DeviceOutline} {first second : Option PathId} {id : PathId}
    (h : id ∈ o.idsFor first second) : some id = first ∨ some id = second := by
  rcases List.mem_append.mp h with h | h
  · rw [Option.mem_toList] at h
    exact Or.inl (Option.mem_filter_iff.mp h).1.symm
  · split at h
    · simp at h
    · rw [Option.mem_toList] at h
      exact Or.inr (Option.mem_filter_iff.mp h).1.symm

/-- A path that is one of the two is asked for once if the device declares it. -/
theorem count_idsFor (o : DeviceOutline) {first second : Option PathId} {id : PathId}
    (h : first = some id ∨ second = some id) : (o.idsFor first second).count id = (o.declares id).toNat := by
  have hone : (((some id).filter o.declares).toList).count id = (o.declares id).toNat := by
    rw [Option.filter_some]
    cases o.declares id <;> simp
  simp only [idsFor, List.count_append]
  by_cases hsame : first = second
  · subst hsame
    rw [if_pos rfl, or_self_iff.mp h, hone]
    rfl
  · rw [if_neg hsame]
    rcases h with rfl | rfl
    · have hs : id ∉ (second.filter o.declares).toList := by
        rw [Option.mem_toList]
        exact fun h => hsame (Option.mem_filter_iff.mp h).1.symm
      rw [List.count_eq_zero.mpr hs, hone, Nat.add_zero]
    · have hf : id ∉ (first.filter o.declares).toList := by
        rw [Option.mem_toList]
        exact fun h => hsame (Option.mem_filter_iff.mp h).1
      rw [List.count_eq_zero.mpr hf, hone, Nat.zero_add]

theorem count_idsFor_le (o : DeviceOutline) (first second : Option PathId) (id : PathId) :
    (o.idsFor first second).count id ≤ 1 := by
  by_cases h : first = some id ∨ second = some id
  · rw [o.count_idsFor h]
    exact Bool.toNat_le _
  · have hnot : id ∉ o.idsFor first second := fun hmem => h ((mem_of_mem_idsFor hmem).imp Eq.symm Eq.symm)
    rw [List.count_eq_zero.mpr hnot]
    exact Nat.zero_le 1

end DeviceOutline

namespace Device

/-- The path that is found for an id has it. -/
theorem exists_of_pathPlace? {d : Device} {id : PathId} {place : Nat} (h : d.pathPlace? id = some place) :
    ∃ path, d.paths.get? place = some path ∧ path.id = id := by
  rw [pathPlace?, Array.findIdx?_eq_some_iff_getElem] at h
  obtain ⟨hlt, hid, -⟩ := h
  exact ⟨_, Array.getElem?_eq_getElem hlt, beq_iff_eq.mp hid⟩

/-- A place of a path with some id is found exactly if the device declares the id. -/
theorem map_pathPlace? {m : Model} {i : Nat} {d : Device} (hd : m.devices.get? i = some d) (id : PathId) :
    m.asks ((d.pathPlace? id).toList.map (PlannedPath.mk i))
      = ((some id).filter d.outline.declares).toList.map (Prod.mk i) := by
  cases hp : d.pathPlace? id with
  | none =>
    have hid : d.outline.declares id = false := by
      rw [pathPlace?, Array.findIdx?_eq_none_iff] at hp
      rw [← Bool.not_eq_true, DeviceOutline.declares, List.contains_iff_mem]
      intro h
      obtain ⟨path, hpath, rfl⟩ := List.mem_map.mp h
      simpa using hp path (Array.mem_toList_iff.mp hpath)
    rw [Option.filter_some, hid]
    rfl
  | some place =>
    obtain ⟨path, hpath, hid⟩ := exists_of_pathPlace? hp
    have hmem : d.outline.declares id = true := by
      rw [DeviceOutline.declares, List.contains_iff_mem]
      exact List.mem_map.mpr ⟨path, GranularArray.mem_of_get? hpath, hid⟩
    have hat : m.idAt ⟨i, place⟩ = some id := Model.idAt_eq_some_iff.mpr ⟨d, path, hd, hpath, hid⟩
    rw [Option.filter_some, if_pos hmem]
    simp [Model.asks, hat]

/-- The places of two paths ask for their ids. -/
theorem asks_placesOf {m : Model} {i : Nat} {d : Device} (hd : m.devices.get? i = some d)
    (first second : Option PathId) :
    m.asks ((d.placesOf first second).map (PlannedPath.mk i))
      = (d.outline.idsFor first second).map (Prod.mk i) := by
  have one : ∀ id? : Option PathId, m.asks ((id?.bind d.pathPlace?).toList.map (PlannedPath.mk i))
      = (id?.filter d.outline.declares).toList.map (Prod.mk i) := by
    intro id?
    cases id? with
    | none => rfl
    | some id => exact map_pathPlace? hd id
  rw [placesOf, DeviceOutline.idsFor, List.map_append, List.map_append, Model.asks_append, one first]
  split
  · rfl
  · rw [one second]

end Device

theorem idsOf_map_same (i : Nat) (ids : List PathId) : idsOf i (ids.map (Prod.mk i)) = ids := by
  induction ids with
  | nil => rfl
  | cons id more ih => simpa [idsOf] using ih

theorem idsOf_map_other {i j : Nat} (h : j ≠ i) (ids : List PathId) : idsOf i (ids.map (Prod.mk j)) = [] := by
  simp [idsOf, h]

namespace Plan

/-- A plan for other devices asks nothing of this one. -/
theorem idsOf_asks_of_forall_ne {m : Model} {i : Nat} {devices : List (Nat × Device)}
    (hat : ∀ e ∈ devices, m.devices.get? e.1 = some e.2) (h : ∀ e ∈ devices, e.1 ≠ i)
    (first second : Option PathId) : idsOf i (m.asks (ofDevices first second devices)) = [] := by
  induction devices with
  | nil => rfl
  | cons e more ih =>
    rw [List.forall_mem_cons] at hat h
    rw [ofDevices, List.flatMap_cons, Model.asks_append, idsOf_append, Device.asks_placesOf hat.1,
      idsOf_map_other h.1]
    exact ih hat.2 h.2

/-- Of each of its devices a plan asks for the two paths that the device has. -/
theorem idsOf_asks_of_mem {m : Model} {i : Nat} {d : Device} {devices : List (Nat × Device)}
    (hat : ∀ e ∈ devices, m.devices.get? e.1 = some e.2)
    (hplaces : devices.Pairwise fun a b => a.1 < b.1) (h : (i, d) ∈ devices)
    (first second : Option PathId) :
    idsOf i (m.asks (ofDevices first second devices)) = d.outline.idsFor first second := by
  induction devices with
  | nil => cases h
  | cons e more ih =>
    rw [List.forall_mem_cons] at hat
    rw [List.pairwise_cons] at hplaces
    rw [ofDevices, List.flatMap_cons, Model.asks_append, idsOf_append, Device.asks_placesOf hat.1]
    rcases List.mem_cons.mp h with rfl | h
    · have hrest := idsOf_asks_of_forall_ne hat.2
        (fun e he => Nat.ne_of_gt (hplaces.1 e he)) first second
      rw [ofDevices] at hrest
      rw [idsOf_map_same, hrest, List.append_nil]
    · rw [idsOf_map_other (Nat.ne_of_lt (hplaces.1 _ h)), List.nil_append]
      exact ih hat.2 hplaces.2 h

/-- Of no device a plan asks for a path twice. -/
theorem count_asks_ofDevices_le {m : Model} {devices : List (Nat × Device)}
    (hat : ∀ e ∈ devices, m.devices.get? e.1 = some e.2) (hplaces : devices.Pairwise fun a b => a.1 < b.1)
    (first second : Option PathId) (i : Nat) (id : PathId) :
    (idsOf i (m.asks (ofDevices first second devices))).count id ≤ 1 := by
  by_cases h : ∃ d, (i, d) ∈ devices
  · obtain ⟨d, hd⟩ := h
    rw [idsOf_asks_of_mem hat hplaces hd]
    exact d.outline.count_idsFor_le first second id
  · have hne : ∀ e ∈ devices, e.1 ≠ i := by
      rintro ⟨j, e⟩ he rfl
      exact h ⟨e, he⟩
    rw [idsOf_asks_of_forall_ne hat hne]
    exact Nat.zero_le 1

theorem get?_of_mem_chosen {m : Model} {mask : DeviceMask} {e : Nat × Device}
    (he : e ∈ chosen m.devices.toList mask) : m.devices.get? e.1 = some e.2 := by
  rw [← GranularArray.getElem?_toList]
  exact (mem_chosen_iff.mp he).1

theorem count_asks_forMask_le (m : Model) (mask : DeviceMask) (first second : Option PathId) (i : Nat) (id : PathId) :
    (idsOf i (m.asks (forMask m mask first second))).count id ≤ 1 :=
  count_asks_ofDevices_le (fun _ => get?_of_mem_chosen) (pairwise_chosenFrom _ _ _ _) first second i id

theorem count_asks_forGlobal_le (m : Model) (first second : Option PathId) (i : Nat) (id : PathId) :
    (idsOf i (m.asks (forGlobal m first second))).count id ≤ 1 := by
  rw [forGlobal]
  cases m.globalPlace? with
  | none => exact Nat.zero_le 1
  | some place =>
    refine count_asks_ofDevices_le (fun e he => ?_) ?_ first second i id
    · obtain ⟨d, hd, rfl⟩ := List.mem_map.mp he
      exact Option.mem_toList.mp hd
    · cases m.devices.get? place with
      | none => exact List.Pairwise.nil
      | some d => exact List.pairwise_singleton _ _

/-- A plan for a mask asks for the two paths of the devices that the mask reaches. -/
theorem idsOf_asks_forMask {m : Model} (hsep : Separate m.devices.toList) {i : Nat} {d : Device}
    (hd : m.devices.get? i = some d) (mask : DeviceMask) (first second : Option PathId) :
    idsOf i (m.asks (forMask m mask first second))
      = if mask.reaches d.mask then d.outline.idsFor first second else [] := by
  rw [forMask]
  by_cases h : mask.reaches d.mask = true
  · rw [if_pos h]
    have hget : m.devices.toList[i]? = some d := by rw [GranularArray.getElem?_toList, hd]
    exact idsOf_asks_of_mem (fun _ => get?_of_mem_chosen) (pairwise_chosenFrom _ _ _ _)
      (mem_chosen_iff.mpr ⟨hget, (claims_iff_reaches hsep hget).mpr h⟩) first second
  · rw [if_neg h]
    refine idsOf_asks_of_forall_ne (fun _ => get?_of_mem_chosen) ?_ first second
    rintro ⟨j, e⟩ he rfl
    obtain ⟨hget, hclaims⟩ := mem_chosen_iff.mp he
    rw [GranularArray.getElem?_toList, hd, Option.some.injEq] at hget
    subst hget
    exact h ((claims_iff_reaches hsep (by rw [GranularArray.getElem?_toList, hd])).mp hclaims)

/-- A plan for the global device asks nothing of the others. -/
theorem idsOf_asks_forGlobal {m : Model} {i : Nat} {d : Device} (hd : m.devices.get? i = some d)
    (hglobal : d.isGlobal = false) (first second : Option PathId) :
    idsOf i (m.asks (forGlobal m first second)) = [] := by
  rw [forGlobal]
  cases hp : m.globalPlace? with
  | none => rfl
  | some place =>
    rw [Model.globalPlace?, Array.findIdx?_eq_some_iff_getElem] at hp
    obtain ⟨hlt, hg, -⟩ := hp
    have hget : m.devices.get? place = some m.devices.items[place] := Array.getElem?_eq_getElem hlt
    simp only [hget, Option.toList_some, List.map_cons, List.map_nil]
    refine idsOf_asks_of_forall_ne (by simpa using hget) ?_ first second
    simp only [List.mem_singleton, forall_eq]
    rintro rfl
    rw [hd, Option.some.injEq] at hget
    rw [hget, hg] at hglobal
    cases hglobal

/-- A plan for a mask asks nothing of the global device. -/
theorem idsOf_asks_forMask_of_isGlobal {m : Model} {i : Nat} {d : Device} (hd : m.devices.get? i = some d)
    (hglobal : d.isGlobal = true) (mask : DeviceMask) (first second : Option PathId) :
    idsOf i (m.asks (forMask m mask first second)) = [] := by
  refine idsOf_asks_of_forall_ne (fun _ => get?_of_mem_chosen) ?_ first second
  rintro ⟨j, e⟩ he rfl
  obtain ⟨-, -, k, -, hk, -⟩ := mem_chosen_iff.mp he
  obtain rfl := Option.some.inj (hd.symm.trans (get?_of_mem_chosen he))
  exact DeviceMask.ne_nothing_of_getLsbD hk (beq_iff_eq.mp hglobal)

/-- A change of routing leaves what the old route has beyond the new one, and enters what the new one has
beyond the old. -/
theorem forRoute_eq (m : Model) (s : Stream) (new : DeviceMask) :
    forRoute m s new = forMask m (DeviceMask.beyond s.routed new new) s.disablePath (some PathId.off)
      ++ forMask m (DeviceMask.beyond new s.routed new) (some PathId.on) s.enablePath := by
  simp only [forRoute, DeviceMask.beyond, BitVec.and_comm (~~~new)]

/-- A change of routing asks a device to be left if it loses a bit, and then to be entered if it
gains one. -/
theorem idsOf_asks_forRoute {m : Model} (hsep : Separate m.devices.toList) {i : Nat} {d : Device}
    (hd : m.devices.get? i = some d) {s : Stream} {new : DeviceMask} {input : Bool}
    (hold : DeviceMask.IsRoute input s.routed) (hnew : DeviceMask.IsRoute input new) :
    idsOf i (m.asks (forRoute m s new))
      = (if d.mask.isInput = input ∧ s.routed.exceeds new d.mask = true
          then d.outline.idsFor s.disablePath (some PathId.off) else [])
        ++ (if d.mask.isInput = input ∧ new.exceeds s.routed d.mask = true
          then d.outline.idsFor (some PathId.on) s.enablePath else []) := by
  simp only [forRoute_eq, Model.asks_append, idsOf_append, idsOf_asks_forMask hsep hd,
    DeviceMask.reaches_left hold hnew, DeviceMask.reaches_entered hnew, Bool.and_eq_true, beq_iff_eq]

theorem idsOf_asks_forOpening {m : Model} {i : Nat} {d : Device} (hd : m.devices.get? i = some d)
    (hglobal : d.isGlobal = false) (s : Stream) : idsOf i (m.asks (forOpening m s)) = [] :=
  idsOf_asks_forGlobal hd hglobal _ _

/-- The last release asks the devices that the stream is routed to to be left. -/
theorem idsOf_asks_forClosing {m : Model} (hsep : Separate m.devices.toList) {i : Nat} {d : Device}
    (hd : m.devices.get? i = some d) (hglobal : d.isGlobal = false) (s : Stream) :
    idsOf i (m.asks (forClosing m s))
      = if s.routed.reaches d.mask then d.outline.idsFor (some PathId.off) s.disablePath else [] := by
  rw [forClosing, Model.asks_append, idsOf_append, idsOf_asks_forMask hsep hd,
    idsOf_asks_forGlobal hd hglobal, List.append_nil]

end Plan

end SoundRouting
