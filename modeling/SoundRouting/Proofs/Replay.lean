import Mathlib.Logic.Function.Basic
import SoundRouting.Proofs.Sequence
import SoundRouting.Proofs.Traffic
/-!
What the applied paths make of the card.

The use counts tell which paths requests apply, and in which order. This is all that the desk depends on: after
streams have been opened, routed and released it is as if the assignments of these paths had been applied one after
another and nothing else, those of each path with what they were bound to when the path was applied the last time.
Volumes and use-cases write for themselves, and leave the paths alone.
-/
namespace SoundRouting

/-- A desk, and the assignments of paths as far as they are bound. A path goes by the place of its device and by
its id. -/
structure Playback where
  desk : Desk
  lists : Nat × PathId → List Assignment

/-- Applies the assignments of a path, and keeps what they have been bound to. -/
def Playback.apply (disk : Disk) (b : Playback) (e : Nat × PathId) : Playback :=
  let done := b.desk.apply disk (b.lists e)
  ⟨done.1, Function.update b.lists e done.2⟩

namespace Device

/-- The assignments of the first path with an id. A path that does not exist has none. -/
def assignments (d : Device) (id : PathId) : List Assignment :=
  ((d.pathPlace? id).bind d.paths.get?).elim [] (·.assignments.toList)

theorem assignments_of_place {d : Device} {id : PathId} {place : Nat} {path : Path}
    (hplace : d.pathPlace? id = some place) (hpath : d.paths.get? place = some path) :
    d.assignments id = path.assignments.toList := by
  rw [assignments, hplace, Option.bind_some, hpath, Option.elim_some]

/-- Other assignments in the first path with an id are those of this id, and of no other. -/
theorem assignments_modifyPath {d : Device} {id : PathId} {place : Nat} (hplace : d.pathPlace? id = some place)
    (uses : Nat) (list : GranularArray Assignment) :
    Device.assignments { d with
        useCount := uses, paths := d.paths.modify place fun q => { q with assignments := list } }
      = Function.update d.assignments id list.toList := by
  obtain ⟨path, hpath, hid⟩ := exists_of_pathPlace? hplace
  have houtline := outline_modifyPath d uses place list
  funext other
  rw [assignments, pathPlace?_of_outline houtline]
  by_cases hother : other = id
  · subst hother
    rw [Function.update_self, hplace, Option.bind_some, GranularArray.get?_modify_same, hpath]
    rfl
  · rw [Function.update_of_ne hother, assignments]
    cases hat : d.pathPlace? other with
    | none => rfl
    | some i =>
      -- the first paths of two ids stand at different places
      have hne : place ≠ i := by
        rintro rfl
        obtain ⟨q, hq, hqid⟩ := exists_of_pathPlace? hat
        rw [hpath, Option.some.injEq] at hq
        exact hother (by rw [← hqid, ← hq, hid])
      rw [Option.bind_some, Option.bind_some, GranularArray.get?_modify_other _ _ hne]

end Device

namespace Model

def assignments (m : Model) (e : Nat × PathId) : List Assignment :=
  (m.devices.get? e.1).elim [] (·.assignments e.2)

theorem assignments_modifyDevice {m : Model} {i : Nat} {d : Device} (hd : m.devices.get? i = some d)
    (changed : Device) (e : Nat × PathId) :
    (m.modifyDevice i fun _ => changed).assignments e = if e.1 = i then changed.assignments e.2 else m.assignments e := by
  rw [assignments, modifyDevice]
  by_cases he : e.1 = i
  · rw [if_pos he, he, GranularArray.get?_modify_same, hd]
    rfl
  · rw [if_neg he, GranularArray.get?_modify_other _ _ (Ne.symm he), assignments]

/-- The use count of a device has no part in the assignments. -/
theorem assignments_modifyUses {m : Model} {i : Nat} {d : Device} (hd : m.devices.get? i = some d) (uses : Nat) :
    (m.modifyDevice i fun _ => { d with useCount := uses }).assignments = m.assignments := by
  funext e
  rw [assignments_modifyDevice hd]
  by_cases he : e.1 = i
  · rw [if_pos he, assignments, he, hd]
    rfl
  · rw [if_neg he]

theorem assignments_modifyPath {m : Model} {i : Nat} {d : Device} (hd : m.devices.get? i = some d) {id : PathId}
    {place : Nat} (hplace : d.pathPlace? id = some place) (uses : Nat) (list : GranularArray Assignment) :
    (m.modifyDevice i fun _ =>
        { d with useCount := uses, paths := d.paths.modify place fun q => { q with assignments := list } }).assignments
      = Function.update m.assignments (i, id) list.toList := by
  funext e
  obtain ⟨j, other⟩ := e
  rw [assignments_modifyDevice hd, Device.assignments_modifyPath hplace]
  by_cases hj : j = i
  · subst hj
    rw [if_pos rfl]
    by_cases hother : other = id
    · rw [hother, Function.update_self, Function.update_self]
    · rw [Function.update_of_ne hother, Function.update_of_ne (by simp [hother]), assignments, hd, Option.elim_some]
  · rw [if_neg hj, Function.update_of_ne (by simp [hj])]

end Model

namespace Manager

theorem leading_openingPlan (m : Manager) (id : StreamId) : Plan.Leading m.model (m.openingPlan id) := by
  rcases openingPlan_cases m id with h | ⟨s, -, h⟩
  · rw [h]
    exact Plan.leading_nil _
  · rw [h]
    exact Plan.leading_forGlobal _ _ _

theorem leading_routingPlan (m : Manager) (id : StreamId) (mask : DeviceMask) :
    Plan.Leading m.model (m.routingPlan id mask) := by
  rcases routingPlan_cases m id mask with h | ⟨s, new, -, -, h⟩
  · rw [h]
    exact Plan.leading_nil _
  · rw [h]
    exact Plan.leading_forRoute _ _ _

theorem leading_closingPlan (m : Manager) (id : StreamId) : Plan.Leading m.model (m.closingPlan id) := by
  rcases closingPlan_cases m id with h | ⟨s, -, h⟩
  · rw [h]
    exact Plan.leading_nil _
  · rw [h]
    exact (Plan.leading_forMask _ _ _ _).append (Plan.leading_forGlobal _ _ _)

/-- Whatever is asked for, the plan asks for the first paths of their ids. -/
theorem leading_planOf (disk : Disk) (m : Manager) (r : Request) : Plan.Leading m.model (m.planOf disk r) := by
  cases r with
  | acquire devices format =>
    rw [planOf]
    cases hw : m.wanted? (.acquire devices format) with
    | none => exact Plan.leading_nil _
    | some id =>
      obtain ⟨s, hs, -⟩ := exists_of_wanted? hw
      have hrouting := leading_routingPlan (m.openStream disk id) id devices
      exact (leading_openingPlan m id).append (hrouting.of_outlines (outlines_openStream disk hs))
  | acquireNamed name =>
    rw [planOf]
    cases m.wanted? (.acquireNamed name) with
    | none => exact Plan.leading_nil _
    | some id => exact leading_openingPlan m id
  | route id mask => exact leading_routingPlan m id mask
  | release id => exact leading_closingPlan m id
  | setVolume | applyUseCase => exact Plan.leading_nil _

def playback (m : Manager) : Playback :=
  ⟨m.desk, m.model.assignments⟩

theorem playback_of_wiring {m n : Manager} (h : m.wiring = n.wiring) : m.playback = n.playback := by
  obtain ⟨hdesk, hdevices⟩ := Prod.mk.inj h
  simp only [playback, hdesk, Playback.mk.injEq, true_and]
  funext e
  rw [Model.assignments, hdevices, Model.assignments]

/-- Asking for a path applies its assignments to the desk if the path is applied, and does nothing to the desk or
to any assignment if it is not. -/
theorem playback_applyPath (disk : Disk) {m : Manager} {p : PlannedPath} {d : Device} {id : PathId}
    (hd : m.model.devices.get? p.device = some d) (hplace : d.pathPlace? id = some p.path) :
    (m.applyPath disk p).playback = (m.appliedNow p).foldl (Playback.apply disk) m.playback := by
  obtain ⟨path, hpath, hid⟩ := Device.exists_of_pathPlace? hplace
  have hlist : m.model.assignments (p.device, id) = path.assignments.toList := by
    rw [Model.assignments, hd, Option.elim_some, Device.assignments_of_place hplace hpath]
  rw [applyPath_eq disk hd hpath, appliedNow_eq hd hpath, hid]
  by_cases happlied : (PathId.count id d.useCount).2 = true
  · rw [if_pos happlied, if_pos happlied]
    simp only [List.foldl_cons, List.foldl_nil, playback, Playback.apply, hlist,
      Model.assignments_modifyPath hd hplace, GranularArray.toList_withItems]
  · rw [if_neg happlied, if_neg happlied, List.foldl_nil, playback, playback, Model.assignments_modifyUses hd]

/-- Performing a plan does to the desk what applying the assignments of the paths does that are applied. -/
theorem playback_perform (disk : Disk) {m : Manager} {plan : List PlannedPath} (h : Plan.Leading m.model plan) :
    (m.perform disk plan).playback = (m.applied disk plan).foldl (Playback.apply disk) m.playback := by
  induction plan generalizing m with
  | nil => rfl
  | cons p plan ih =>
    obtain ⟨⟨d, id, hd, hplace⟩, hrest⟩ := List.forall_mem_cons.mp h
    rw [applied, List.foldl_append, ← playback_applyPath disk hd hplace]
    exact ih (Plan.Leading.of_outlines hrest (outlines_applyPath disk m p).symm)

/-- Serving a request that is planned does to the desk what applying the assignments of the paths does that it
applies, in order. -/
theorem playback_serve (disk : Disk) (m : Manager) {r : Request} (hr : r.isPlanned = true) :
    (m.serve disk r).playback = (m.appliedBy disk r).foldl (Playback.apply disk) m.playback := by
  rw [playback_of_wiring (wiring_serve disk m hr), playback_perform disk (leading_planOf disk m r), appliedBy]

/-- The settings of streams apply no path, and leave the assignments of paths as they are. -/
theorem assignments_serve_of_not_isPlanned (disk : Disk) (m : Manager) {r : Request} (hr : r.isPlanned = false) :
    m.appliedBy disk r = [] ∧ (m.serve disk r).model.assignments = m.model.assignments := by
  have hplan : m.planOf disk r = [] := by
    cases r with
    | acquire | acquireNamed | route | release => cases hr
    | setVolume | applyUseCase => rfl
  have hdevices : (m.serve disk r).model.devices = m.model.devices := by rw [devices_serve, hplan, perform_nil]
  refine ⟨by rw [appliedBy, hplan, applied], ?_⟩
  funext e
  rw [Model.assignments, hdevices, Model.assignments]

/-- The paths that serving requests applies, in order, each with the disk as it is by then. -/
def appliedByAll (m : Manager) : List (Disk × Request) → List (Disk × Nat × PathId)
  | [] => []
  | (disk, r) :: more => (m.appliedBy disk r).map (Prod.mk disk) ++ (m.serve disk r).appliedByAll more

/-- After planned requests the desk is what applying the assignments of the applied paths makes of it. -/
theorem playback_serveAll (m : Manager) {requests : List (Disk × Request)}
    (h : ∀ e ∈ requests, e.2.isPlanned = true) :
    (m.serveAll requests).playback
      = (m.appliedByAll requests).foldl (fun b e => b.apply e.1 e.2) m.playback := by
  induction requests generalizing m with
  | nil => rfl
  | cons e more ih =>
    obtain ⟨hfirst, hmore⟩ := List.forall_mem_cons.mp h
    rw [appliedByAll, List.foldl_append, List.foldl_map, ← playback_serve e.1 m hfirst]
    exact ih _ hmore

end Manager

end SoundRouting
