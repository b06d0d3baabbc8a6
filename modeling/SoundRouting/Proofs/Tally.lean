import SoundRouting.Manager.Basic
import SoundRouting.Proofs.Choice
/-!
What performing a plan does to the devices.

A plan asks for paths of devices. The outline of a device, its mask and the ids of its paths, never
changes. Its use count runs through the ids that the plan asks of it, and tells which of them are
applied; what the plan asks of other devices has no part in that.
-/
namespace SoundRouting

namespace PathId

/-- What asking for a path makes of the use count of its device, and whether the path is applied. -/
def count (id : PathId) (uses : Nat) : Nat × Bool :=
  if id = off then (uses - 1, uses ≤ 1)
  else if id = on then (uses + 1, uses = 0)
  else (uses, true)

/-- The use count after paths have been asked for in order, and those of them that are applied. -/
def tally (uses : Nat) : List PathId → Nat × List PathId
  | [] => (uses, [])
  | id :: more =>
    let rest := tally (count id uses).1 more
    (rest.1, if (count id uses).2 then id :: rest.2 else rest.2)

@[simp] theorem tally_nil (uses : Nat) : tally uses [] = (uses, []) := rfl

end PathId

/-- What stays of a device whatever is applied: its mask, and the ids of its paths in order. -/
structure DeviceOutline where
  mask : DeviceMask
  paths : List PathId
  deriving DecidableEq, Repr

def DeviceOutline.declares (o : DeviceOutline) (id : PathId) : Bool :=
  o.paths.contains id

namespace Device

def outline (d : Device) : DeviceOutline :=
  ⟨d.mask, d.paths.toList.map (·.id)⟩

/-- Whether a device is the global one can be told from its outline. -/
theorem isGlobal_of_outline {d e : Device} (h : e.outline = d.outline) : e.isGlobal = d.isGlobal :=
  congrArg (fun o : DeviceOutline => o.mask == DeviceMask.nothing) h

/-- Counting, and other assignments in a path, leave the outline as it is. -/
theorem outline_modifyPath (d : Device) (uses i : Nat) (list : GranularArray Assignment) :
    Device.outline { d with
      useCount := uses, paths := d.paths.modify i fun q => { q with assignments := list } } = d.outline := by
  simp only [outline, DeviceOutline.mk.injEq, true_and]
  exact GranularArray.map_toList_modify d.paths fun _ _ => rfl

theorem count_eq (d : Device) (id : PathId) :
    d.count id = ({ d with useCount := (PathId.count id d.useCount).1 }, (PathId.count id d.useCount).2) := by
  simp only [count, PathId.count]
  split
  · rfl
  · split <;> rfl

end Device

namespace Model

def outlines (m : Model) : List DeviceOutline :=
  m.devices.toList.map Device.outline

def idAt (m : Model) (p : PlannedPath) : Option PathId :=
  m.outlines[p.device]?.bind fun o => o.paths[p.path]?

/-- What a plan asks for: devices by their places, and the ids of their paths. -/
def asks (m : Model) (plan : List PlannedPath) : List (Nat × PathId) :=
  plan.filterMap fun p => (m.idAt p).map fun id => (p.device, id)

theorem idAt_eq_some_iff {m : Model} {p : PlannedPath} {id : PathId} :
    m.idAt p = some id ↔ ∃ d path, m.devices.get? p.device = some d ∧ d.paths.get? p.path = some path
      ∧ path.id = id := by
  simp only [idAt, outlines, Device.outline, List.getElem?_map, GranularArray.getElem?_toList,
    Option.bind_eq_some_iff, Option.map_eq_some_iff]
  constructor
  · rintro ⟨-, ⟨d, hd, rfl⟩, h⟩
    rw [List.getElem?_map, GranularArray.getElem?_toList, Option.map_eq_some_iff] at h
    obtain ⟨path, hp, rfl⟩ := h
    exact ⟨d, path, hd, hp, rfl⟩
  · rintro ⟨d, path, hd, hp, rfl⟩
    refine ⟨_, ⟨d, hd, rfl⟩, ?_⟩
    rw [List.getElem?_map, GranularArray.getElem?_toList, hp, Option.map_some]

/-- Where the outlines are the same, there are the same devices, as far as outlines go. -/
theorem exists_of_outlines {m n : Model} (h : n.outlines = m.outlines) {i : Nat} {e : Device}
    (he : n.devices.get? i = some e) : ∃ d, m.devices.get? i = some d ∧ e.outline = d.outline := by
  have hi := congrArg (·[i]?) h
  simp only [outlines, List.getElem?_map, GranularArray.getElem?_toList, he, Option.map_some] at hi
  obtain ⟨d, hd, houtline⟩ := Option.map_eq_some_iff.mp hi.symm
  exact ⟨d, hd, houtline.symm⟩

theorem asks_congr {m n : Model} (h : m.outlines = n.outlines) : m.asks = n.asks := by
  funext plan
  simp only [asks, idAt, h]

theorem asks_append (m : Model) (p q : List PlannedPath) : m.asks (p ++ q) = m.asks p ++ m.asks q :=
  List.filterMap_append

end Model

def idsOf (i : Nat) (entries : List (Nat × PathId)) : List PathId :=
  (entries.filter fun e => e.1 == i).map Prod.snd

theorem count_idsOf (i : Nat) (entries : List (Nat × PathId)) (id : PathId) :
    (idsOf i entries).count id = entries.count (i, id) := by
  induction entries with
  | nil => rfl
  | cons e more ih =>
    obtain ⟨j, jd⟩ := e
    by_cases hj : j = i
    · subst hj
      simpa [idsOf, List.count_cons] using ih
    · simpa [idsOf, List.count_cons, hj] using ih

theorem idsOf_append (i : Nat) (a b : List (Nat × PathId)) : idsOf i (a ++ b) = idsOf i a ++ idsOf i b := by
  simp [idsOf]

namespace Manager

/-- The path that a planned path stands for, if counting lets it be applied now. -/
def appliedNow (m : Manager) (p : PlannedPath) : List (Nat × PathId) :=
  match m.model.devices.get? p.device with
  | none => []
  | some d => match d.paths.get? p.path with
    | none => []
    | some path => if (d.count path.id).2 then [(p.device, path.id)] else []

/-- The paths that are applied when a plan is performed, in order. -/
def applied (disk : Disk) (m : Manager) : List PlannedPath → List (Nat × PathId)
  | [] => []
  | p :: plan => m.appliedNow p ++ (m.applyPath disk p).applied disk plan

/-- A path that is asked for is counted, and applied if that is called for. -/
theorem applyPath_eq (disk : Disk) {m : Manager} {p : PlannedPath} {d : Device} {path : Path}
    (hd : m.model.devices.get? p.device = some d) (hp : d.paths.get? p.path = some path) :
    m.applyPath disk p =
      let uses := (PathId.count path.id d.useCount).1
      if (PathId.count path.id d.useCount).2 then
        let done := m.desk.apply disk path.assignments.toList
        { desk := done.1
          model := m.model.modifyDevice p.device fun _ =>
            { d with
              useCount := uses
              paths := d.paths.modify p.path fun q =>
                { q with assignments := path.assignments.withItems done.2 } } }
      else { m with model := m.model.modifyDevice p.device fun _ => { d with useCount := uses } } := by
  simp only [applyPath, hd, hp, Device.count_eq, apply]

theorem appliedNow_eq {m : Manager} {p : PlannedPath} {d : Device} {path : Path}
    (hd : m.model.devices.get? p.device = some d) (hp : d.paths.get? p.path = some path) :
    m.appliedNow p = if (PathId.count path.id d.useCount).2 then [(p.device, path.id)] else [] := by
  simp only [appliedNow, hd, hp, Device.count_eq]

/-- A path that does not exist is passed over. -/
theorem applyPath_of_idAt_eq_none (disk : Disk) {m : Manager} {p : PlannedPath}
    (h : m.model.idAt p = none) : m.applyPath disk p = m ∧ m.appliedNow p = [] := by
  simp only [applyPath, appliedNow]
  cases hd : m.model.devices.get? p.device with
  | none => exact ⟨rfl, rfl⟩
  | some d =>
    cases hp : d.paths.get? p.path with
    | none => simp [hp]
    | some path => simp [Model.idAt_eq_some_iff.mpr ⟨d, path, hd, hp, rfl⟩] at h

/-- Asking for a path concerns the device it belongs to; of that, the outline stays. -/
theorem applyPath_model (disk : Disk) {m : Manager} {p : PlannedPath} {id : PathId}
    (h : m.model.idAt p = some id) :
    ∃ d d', m.model.devices.get? p.device = some d ∧ d'.outline = d.outline
      ∧ d'.useCount = (PathId.count id d.useCount).1
      ∧ (m.applyPath disk p).model = m.model.modifyDevice p.device (fun _ => d')
      ∧ m.appliedNow p = if (PathId.count id d.useCount).2 then [(p.device, id)] else [] := by
  obtain ⟨d, path, hd, hp, rfl⟩ := Model.idAt_eq_some_iff.mp h
  rw [applyPath_eq disk hd hp, appliedNow_eq hd hp]
  by_cases ha : (PathId.count path.id d.useCount).2 = true
  · rw [if_pos ha]
    exact ⟨d, _, hd, Device.outline_modifyPath d _ _ _, rfl, rfl, rfl⟩
  · rw [if_neg ha]
    refine ⟨d, _, hd, ?_, ?_, rfl, rfl⟩ <;> rfl

theorem outlines_applyPath (disk : Disk) (m : Manager) (p : PlannedPath) :
    (m.applyPath disk p).model.outlines = m.model.outlines := by
  cases h : m.model.idAt p with
  | none => rw [(applyPath_of_idAt_eq_none disk h).1]
  | some id =>
    obtain ⟨d, d', hd, ho, -, hm, -⟩ := applyPath_model disk h
    rw [hm]
    refine GranularArray.map_toList_modify m.model.devices fun x hx => ?_
    rw [hd, Option.some.injEq] at hx
    rw [← hx, ho]

@[simp] theorem outlines_perform (disk : Disk) (m : Manager) (plan : List PlannedPath) :
    (m.perform disk plan).model.outlines = m.model.outlines := by
  induction plan generalizing m with
  | nil => rfl
  | cons p plan ih => exact (ih _).trans (outlines_applyPath disk m p)

/-- Performing a plan changes devices only. -/
theorem model_perform (disk : Disk) (m : Manager) (plan : List PlannedPath) :
    ∃ devices, (m.perform disk plan).model = { m.model with devices := devices } := by
  induction plan generalizing m with
  | nil => exact ⟨m.model.devices, rfl⟩
  | cons p plan ih =>
    obtain ⟨devices, hdevices⟩ := ih (m.applyPath disk p)
    refine ⟨devices, hdevices.trans ?_⟩
    cases h : m.model.idAt p with
    | none => rw [(applyPath_of_idAt_eq_none disk h).1]
    | some id =>
      obtain ⟨d, d', -, -, -, hm, -⟩ := applyPath_model disk h
      rw [hm]
      rfl

theorem stream?_perform (disk : Disk) (m : Manager) (plan : List PlannedPath) (id : StreamId) :
    (m.perform disk plan).model.stream? id = m.model.stream? id := by
  obtain ⟨devices, h⟩ := model_perform disk m plan
  rw [h]
  cases id with
  | mk pool index => cases pool <;> rfl

/-- What one step of a plan does to the use count of a device. -/
theorem tally_applyPath (disk : Disk) {m : Manager} {i : Nat} {d : Device}
    (hd : m.model.devices.get? i = some d) (p : PlannedPath) :
    ∃ d', (m.applyPath disk p).model.devices.get? i = some d' ∧ d'.outline = d.outline
      ∧ PathId.tally d.useCount (idsOf i (m.model.asks [p])) = (d'.useCount, idsOf i (m.appliedNow p)) := by
  cases h : m.model.idAt p with
  | none =>
    obtain ⟨hm, ha⟩ := applyPath_of_idAt_eq_none disk h
    exact ⟨d, by rwa [hm], rfl, by simp [Model.asks, h, ha, idsOf]⟩
  | some id =>
    obtain ⟨e, e', he, ho, hu, hm, ha⟩ := applyPath_model disk h
    rw [hm, ha]
    by_cases hi : p.device = i
    · subst hi
      rw [hd, Option.some.injEq] at he
      subst he
      refine ⟨e', ?_, ho, ?_⟩
      · exact (GranularArray.get?_modify_same _ _ _).trans (by rw [hd, Option.map_some])
      · cases hc : (PathId.count id d.useCount).2 <;>
          simp [Model.asks, h, idsOf, PathId.tally, hu, hc]
    · refine ⟨d, ?_, rfl, ?_⟩
      · exact (GranularArray.get?_modify_other _ _ hi).trans hd
      · split <;> simp [Model.asks, h, idsOf, hi]

end Manager

namespace PathId

theorem tally_append (uses : Nat) (a b : List PathId) :
    tally uses (a ++ b)
      = ((tally (tally uses a).1 b).1, (tally uses a).2 ++ (tally (tally uses a).1 b).2) := by
  induction a generalizing uses with
  | nil => rfl
  | cons id more ih =>
    simp only [List.cons_append, tally, ih]
    split <;> rfl

theorem tally_sublist (uses : Nat) (asked : List PathId) : List.Sublist (tally uses asked).2 asked := by
  induction asked generalizing uses with
  | nil => exact List.Sublist.refl _
  | cons id more ih =>
    simp only [tally]
    split
    · exact (ih _).cons_cons id
    · exact (ih _).cons id

/-- The use count grows by one `on` at a time. -/
theorem tally_le (uses : Nat) (asked : List PathId) : (tally uses asked).1 ≤ uses + asked.count on := by
  induction asked generalizing uses with
  | nil => exact Nat.le_refl _
  | cons id more ih =>
    have hmore := ih (count id uses).1
    simp only [tally, List.count_cons, beq_iff_eq]
    have hstep : (count id uses).1 ≤ uses + if id = on then 1 else 0 := by
      simp only [count]
      split
      · omega
      · split <;> simp
    omega

/-- Asked for `off` once and never for `on`, a device counts one route less, and `off` is applied if
that was the last. -/
theorem tally_of_leaves {asked : List PathId} (hon : on ∉ asked) (hoff : asked.count off ≤ 1) (uses : Nat) :
    (tally uses asked).1 = uses - asked.count off
      ∧ (tally uses asked).2.count off = if uses ≤ 1 then asked.count off else 0 := by
  induction asked generalizing uses with
  | nil => simp
  | cons id more ih =>
    rw [List.mem_cons, not_or] at hon
    by_cases hid : id = off
    · subst hid
      rw [List.count_cons_self] at hoff ⊢
      have hzero : more.count off = 0 := by omega
      obtain ⟨h1, h2⟩ := ih hon.2 (by omega) (uses - 1)
      rw [hzero, ite_self] at h2
      rw [hzero] at h1 ⊢
      simp only [tally, count, if_true, decide_eq_true_eq]
      refine ⟨by omega, ?_⟩
      by_cases hlast : uses ≤ 1
      · rw [if_pos hlast, if_pos hlast, List.count_cons_self, h2]
      · rw [if_neg hlast, if_neg hlast, h2]
    · rw [List.count_cons_of_ne hid] at hoff ⊢
      obtain ⟨h1, h2⟩ := ih hon.2 hoff uses
      simp only [tally, count, if_neg hid, if_neg (Ne.symm hon.1), if_true, List.count_cons_of_ne hid]
      exact ⟨h1, h2⟩

/-- Asked for `on` once and never for `off`, a device counts one route more, and `on` is applied if
it is the first. -/
theorem tally_of_enters {asked : List PathId} (hoff : off ∉ asked) (hon : asked.count on ≤ 1) (uses : Nat) :
    (tally uses asked).1 = uses + asked.count on
      ∧ (tally uses asked).2.count on = if uses = 0 then asked.count on else 0 := by
  induction asked generalizing uses with
  | nil => simp
  | cons id more ih =>
    rw [List.mem_cons, not_or] at hoff
    have hid := Ne.symm hoff.1
    by_cases hid' : id = on
    · subst hid'
      rw [List.count_cons_self] at hon ⊢
      have hzero : more.count on = 0 := by omega
      obtain ⟨h1, h2⟩ := ih hoff.2 (by omega) (uses + 1)
      rw [hzero, ite_self] at h2
      rw [hzero] at h1 ⊢
      simp only [tally, count, if_neg hid, if_true, decide_eq_true_eq]
      refine ⟨by omega, ?_⟩
      by_cases hfirst : uses = 0
      · rw [if_pos hfirst, if_pos hfirst, List.count_cons_self, h2]
      · rw [if_neg hfirst, if_neg hfirst, h2]
    · rw [List.count_cons_of_ne hid'] at hon ⊢
      obtain ⟨h1, h2⟩ := ih hoff.2 hon uses
      simp only [tally, count, if_neg hid, if_neg hid', if_true, List.count_cons_of_ne hid']
      exact ⟨h1, h2⟩

end PathId

namespace Manager

/-- Performing a plan runs the use count of a device through what the plan asks of it. -/
theorem tally_perform (disk : Disk) {m : Manager} {i : Nat} {d : Device}
    (hd : m.model.devices.get? i = some d) (plan : List PlannedPath) :
    ∃ d', (m.perform disk plan).model.devices.get? i = some d' ∧ d'.outline = d.outline
      ∧ PathId.tally d.useCount (idsOf i (m.model.asks plan))
        = (d'.useCount, idsOf i (m.applied disk plan)) := by
  induction plan generalizing m d with
  | nil => exact ⟨d, hd, rfl, rfl⟩
  | cons p plan ih =>
    obtain ⟨e, he, heo, het⟩ := tally_applyPath disk hd p
    obtain ⟨d', hd', ho, ht⟩ := ih he
    refine ⟨d', hd', ho.trans heo, ?_⟩
    have hsplit : m.model.asks (p :: plan)
        = m.model.asks [p] ++ (m.applyPath disk p).model.asks plan := by
      rw [Model.asks_congr (outlines_applyPath disk m p), ← Model.asks_append, List.singleton_append]
    rw [hsplit, idsOf_append, PathId.tally_append, het, ht, applied, idsOf_append]

/-- A device that a plan asks nothing of stays as it is. -/
theorem get?_perform_of_idsOf (disk : Disk) {m : Manager} {i : Nat} {plan : List PlannedPath}
    (h : idsOf i (m.model.asks plan) = []) :
    (m.perform disk plan).model.devices.get? i = m.model.devices.get? i := by
  induction plan generalizing m with
  | nil => rfl
  | cons p plan ih =>
    rw [← List.singleton_append, Model.asks_append, idsOf_append, List.append_eq_nil_iff] at h
    have hrest : ((m.applyPath disk p).perform disk plan).model.devices.get? i
        = (m.applyPath disk p).model.devices.get? i :=
      ih (by rw [Model.asks_congr (outlines_applyPath disk m p), h.2])
    refine hrest.trans ?_
    cases hid : m.model.idAt p with
    | none => rw [(applyPath_of_idAt_eq_none disk hid).1]
    | some id =>
      obtain ⟨d, d', -, -, -, hm, -⟩ := applyPath_model disk hid
      rw [hm]
      refine GranularArray.get?_modify_other _ _ ?_
      rintro rfl
      simp [Model.asks, hid, idsOf] at h

end Manager

end SoundRouting
