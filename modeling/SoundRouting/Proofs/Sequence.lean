import SoundRouting.Proofs.Asked
import SoundRouting.Proofs.Request
/-!
In which order a change of routing asks for paths.

The specification of a route goes by bits and by ids: the devices that are left and those that are
entered are read off the two routes, each with the paths that it declares. It knows nothing of masks
with a direction or of the places of paths.
-/
namespace SoundRouting

open DeviceMask

namespace Plan

instance (input : Bool) (bits : DeviceMask) (before : List Device) (d : Device) :
    Decidable (Claims input bits before d) :=
  decidable_of_iff (d.mask.isInput = input ∧ ∃ k ∈ List.range 32, bits.getLsbD k = true
      ∧ d.mask.getLsbD k = true ∧ ∀ e ∈ before, e.mask.isInput = input → e.mask.getLsbD k = false) <| by
    refine and_congr_right fun _ => exists_congr fun k => ?_
    exact ⟨fun h => h.2, fun h => ⟨List.mem_range.mpr (BitVec.lt_of_getLsbD h.1), h⟩⟩

/-- The devices of one direction, in the order of their declaration, that own one of the bits which no
device of the direction before them owns. -/
def owners (devices : List Device) (input : Bool) (bits : DeviceMask) : List (Nat × Device) :=
  (devices.zipIdx.filter fun (d, i) => Claims input bits (devices.take i) d).map Prod.swap

theorem mem_owners_iff {devices : List Device} {input : Bool} {bits : DeviceMask} {i : Nat} {d : Device} :
    (i, d) ∈ owners devices input bits ↔ devices[i]? = some d ∧ Claims input bits (devices.take i) d := by
  simp only [owners, List.mem_map, List.mem_filter, decide_eq_true_eq, Prod.exists, Prod.swap_prod_mk,
    Prod.mk.injEq]
  constructor
  · rintro ⟨e, j, ⟨hmem, hclaims⟩, rfl, rfl⟩
    exact ⟨List.mk_mem_zipIdx_iff_getElem?.mp hmem, hclaims⟩
  · rintro ⟨hget, hclaims⟩
    exact ⟨d, i, ⟨List.mk_mem_zipIdx_iff_getElem?.mpr hget, hclaims⟩, rfl, rfl⟩

theorem pairwise_owners (devices : List Device) (input : Bool) (bits : DeviceMask) :
    (owners devices input bits).Pairwise (fun a b => a.1 < b.1) := by
  have hplaces : devices.zipIdx.Pairwise fun a b => a.2 < b.2 := by
    have hrange := List.pairwise_lt_range' (s := 0) (n := devices.length)
    rwa [← List.zipIdx_map_snd, List.pairwise_map] at hrange
  exact List.pairwise_map.mpr (hplaces.filter _)

/-- The devices that a mask chooses are the owners of its device bits. -/
theorem chosen_eq_owners (devices : List Device) (mask : DeviceMask) :
    chosen devices mask = owners devices mask.isInput mask.deviceBits := by
  have hchosen := pairwise_chosenFrom mask.isInput (mask &&& ~~~inputBit) 0 devices
  have howners := pairwise_owners devices mask.isInput mask.deviceBits
  have distinct : ∀ a b : Nat × Device, a.1 < b.1 → a ≠ b := by
    rintro a b hlt rfl
    exact Nat.lt_irrefl _ hlt
  have hperm : (chosen devices mask).Perm (owners devices mask.isInput mask.deviceBits) :=
    (List.perm_ext_iff_of_nodup (hchosen.imp (distinct _ _)) (howners.imp (distinct _ _))).mpr
      fun _ => mem_chosen_iff.trans mem_owners_iff.symm
  exact hperm.eq_of_pairwise (fun a b _ _ hab hba => absurd hab (Nat.lt_asymm hba)) hchosen howners

theorem owners_nothing (devices : List Device) (input : Bool) : owners devices input nothing = [] := by
  refine List.eq_nil_iff_forall_not_mem.mpr ?_
  rintro ⟨i, d⟩ h
  obtain ⟨-, -, k, hk, -⟩ := mem_owners_iff.mp h
  exact ne_nothing_of_getLsbD hk rfl

/-- A route of one direction chooses the owners of its bits in this direction. -/
theorem chosen_of_isRoute {input : Bool} {route : DeviceMask} (h : IsRoute input route) (devices : List Device) :
    chosen devices route = owners devices input route.deviceBits := by
  rw [chosen_eq_owners]
  rcases h with rfl | rfl
  · have hnone : nothing.deviceBits = nothing := by decide
    rw [hnone, owners_nothing, owners_nothing]
  · rfl

/-- If the direction comes out right, the bits beyond choose their owners. -/
theorem chosen_beyond {input : Bool} {a b new : DeviceMask}
    (h : a ≠ nothing → (beyond a b new).isInput = input) (devices : List Device) :
    chosen devices (beyond a b new) = owners devices input (a &&& ~~~b).deviceBits := by
  have hbits : (beyond a b new).deviceBits = (a &&& ~~~b).deviceBits := by
    refine BitVec.eq_of_getLsbD_eq fun k hlt => ?_
    rw [getLsbD_deviceBits, getLsbD_deviceBits, getLsbD_beyond, BitVec.getLsbD_and, BitVec.getLsbD_not]
    by_cases hk : k = 31
    · simp [hk]
    · simp [hk, hlt]
  rw [chosen_eq_owners, hbits]
  by_cases hne : a = nothing
  · have hnone : (a &&& ~~~b).deviceBits = nothing := by
      rw [hne, deviceBits, nothing, BitVec.zero_and, BitVec.zero_and]
    rw [hnone, owners_nothing, owners_nothing]
  · rw [h hne]

def asksOf (first second : Option PathId) (devices : List (Nat × Device)) : List (Nat × PathId) :=
  devices.flatMap fun (i, d) => (d.outline.idsFor first second).map (Prod.mk i)

theorem asks_ofDevices {m : Model} {devices : List (Nat × Device)}
    (hat : ∀ e ∈ devices, m.devices.get? e.1 = some e.2) (first second : Option PathId) :
    m.asks (ofDevices first second devices) = asksOf first second devices := by
  induction devices with
  | nil => rfl
  | cons e more ih =>
    rw [List.forall_mem_cons] at hat
    rw [ofDevices, List.flatMap_cons, Model.asks_append, Device.asks_placesOf hat.1, asksOf,
      List.flatMap_cons]
    exact congrArg _ (ih hat.2)

end Plan

/-- What a change of routing asks for, in order: of the devices that are left the disable path of the
stream and `off`, of those that are entered `on` and the enable path. -/
def Model.sequence (m : Model) (s : Stream) (new : DeviceMask) : List (Nat × PathId) :=
  Plan.asksOf s.disablePath (some .off)
      (Plan.owners m.devices.toList s.type.isInput (s.routed &&& ~~~new).deviceBits)
    ++ Plan.asksOf (some .on) s.enablePath
      (Plan.owners m.devices.toList s.type.isInput (new &&& ~~~s.routed).deviceBits)

namespace Plan

/-- Between routes of one direction the plan of a change asks for its sequence. -/
theorem asks_forRoute (m : Model) {s : Stream} {new : DeviceMask} (hold : IsRoute s.type.isInput s.routed)
    (hnew : IsRoute s.type.isInput new) : m.asks (forRoute m s new) = m.sequence s new := by
  rw [forRoute_eq, Model.asks_append, forMask, forMask, asks_ofDevices (fun _ => get?_of_mem_chosen),
    asks_ofDevices (fun _ => get?_of_mem_chosen), chosen_beyond (isInput_left hold hnew), chosen_beyond (isInput_entered hnew), Model.sequence]

/-- A route that is taken already asks for nothing. -/
theorem forRoute_self (m : Model) {s : Stream} (hroute : IsRoute s.type.isInput s.routed) :
    forRoute m s s.routed = [] := by
  have hbits : (s.routed &&& ~~~s.routed).deviceBits = nothing := by
    rw [BitVec.and_not_self]
    decide
  have hnone : ∀ first second, forMask m (beyond s.routed s.routed s.routed) first second = [] := by
    intro first second
    rw [forMask, chosen_beyond (isInput_entered hroute), hbits, owners_nothing]
    rfl
  rw [forRoute_eq, hnone, hnone, List.append_nil]

end Plan

/-- Where a path is found in a device can be told from its outline. -/
theorem Device.pathPlace?_of_outline {d e : Device} (h : e.outline = d.outline) (id : PathId) :
    e.pathPlace? id = d.pathPlace? id := by
  have place : ∀ x : Device, x.pathPlace? id = (x.paths.items.map (·.id)).findIdx? (· == id) := by
    intro x
    rw [Array.findIdx?_map]
    rfl
  have hids : e.paths.items.map (·.id) = d.paths.items.map (·.id) := by
    apply Array.toList_inj.mp
    rw [Array.toList_map, Array.toList_map]
    exact congrArg DeviceOutline.paths h
  rw [place, place, hids]

namespace Plan

/-- Every planned path is the first one of its id. -/
def Leading (m : Model) (plan : List PlannedPath) : Prop :=
  ∀ p ∈ plan, ∃ d id, m.devices.get? p.device = some d ∧ d.pathPlace? id = some p.path

theorem Leading.of_outlines {m n : Model} {plan : List PlannedPath} (hm : Leading m plan)
    (h : m.outlines = n.outlines) : Leading n plan := by
  intro p hp
  obtain ⟨d, id, hd, hplace⟩ := hm p hp
  obtain ⟨e, he, houtline⟩ := Model.exists_of_outlines h hd
  exact ⟨e, id, he, by rw [← Device.pathPlace?_of_outline houtline, hplace]⟩

theorem leading_ofDevices {m : Model} {devices : List (Nat × Device)}
    (hat : ∀ e ∈ devices, m.devices.get? e.1 = some e.2) (first second : Option PathId) :
    Leading m (ofDevices first second devices) := by
  intro p hp
  obtain ⟨⟨i, d⟩, hmem, hp⟩ := List.mem_flatMap.mp hp
  obtain ⟨place, hplace, rfl⟩ := List.mem_map.mp hp
  have found : ∀ id? : Option PathId, place ∈ (id?.bind d.pathPlace?).toList →
      ∃ id, d.pathPlace? id = some place := by
    intro id? h
    obtain ⟨id, -, hid⟩ := Option.bind_eq_some_iff.mp (Option.mem_toList.mp h)
    exact ⟨id, hid⟩
  obtain ⟨id, hid⟩ : ∃ id, d.pathPlace? id = some place := by
    rcases List.mem_append.mp hplace with h | h
    · exact found first h
    · split at h
      · simp at h
      · exact found second h
  exact ⟨d, id, hat _ hmem, hid⟩

theorem leading_nil (m : Model) : Leading m [] :=
  fun _ hp => absurd hp List.not_mem_nil

theorem Leading.append {m : Model} {a b : List PlannedPath} (ha : Leading m a) (hb : Leading m b) :
    Leading m (a ++ b) := by
  intro p hp
  exact (List.mem_append.mp hp).elim (ha p) (hb p)

theorem leading_forMask (m : Model) (mask : DeviceMask) (first second : Option PathId) :
    Leading m (forMask m mask first second) :=
  leading_ofDevices (fun _ => get?_of_mem_chosen) _ _

theorem leading_forGlobal (m : Model) (first second : Option PathId) : Leading m (forGlobal m first second) := by
  rw [forGlobal]
  cases m.globalPlace? with
  | none => exact leading_nil m
  | some place =>
    refine leading_ofDevices (fun e he => ?_) _ _
    obtain ⟨d, hd, rfl⟩ := List.mem_map.mp he
    exact Option.mem_toList.mp hd

theorem leading_forRoute (m : Model) (s : Stream) (new : DeviceMask) : Leading m (forRoute m s new) :=
  (leading_forMask _ _ _ _).append (leading_forMask _ _ _ _)

end Plan

namespace Manager

/-- Asks for a path by its id: the first one of the device at a place, if it has one. -/
def attempt (disk : Disk) (m : Manager) (e : Nat × PathId) : Manager :=
  match (m.model.devices.get? e.1).bind fun d => d.pathPlace? e.2 with
  | none => m
  | some place => m.applyPath disk ⟨e.1, place⟩

/-- A plan of leading paths is performed by asking for its ids. -/
theorem perform_eq_attempts (disk : Disk) {m : Manager} {plan : List PlannedPath}
    (h : Plan.Leading m.model plan) : m.perform disk plan = (m.model.asks plan).foldl (attempt disk) m := by
  induction plan generalizing m with
  | nil => rfl
  | cons p plan ih =>
    obtain ⟨⟨d, id, hd, hplace⟩, hrest⟩ := List.forall_mem_cons.mp h
    obtain ⟨path, hpath, hid⟩ := Device.exists_of_pathPlace? hplace
    have hasks : m.model.asks (p :: plan) = (p.device, id) :: m.model.asks plan := by
      simp [Model.asks, Model.idAt_eq_some_iff.mpr ⟨d, path, hd, hpath, hid⟩]
    have hfirst : m.attempt disk (p.device, id) = m.applyPath disk p := by
      simp only [attempt, hd, Option.bind_some, hplace]
    have houtlines := (outlines_applyPath disk m p).symm
    rw [hasks, List.foldl_cons, hfirst, Model.asks_congr houtlines]
    exact ih (Plan.Leading.of_outlines hrest houtlines)

/-- Routing asks for the paths of its sequence, in this order and by their ids, and leaves all other devices
alone. Done again it asks for nothing and changes nothing. -/
theorem route_eq_sequence {start : Manager}
    (hstart : ∀ s ∈ start.model.streams, IsRoute s.type.isInput s.routed)
    {requests : List (Disk × Request)} {m : Manager} (hm : m = start.serveAll requests) {id : StreamId}
    {s : Stream} (hs : m.model.stream? id = some s) (hopen : s.isOpen = true) {mask : DeviceMask}
    (hmask : IsRoute s.type.isInput mask) (disk : Disk) :
    let new := clipped s.type.isInput mask
    let after := m.route disk id mask
    m.model.asks (m.routingPlan id mask) = m.model.sequence s new
      ∧ after = ((m.model.sequence s new).foldl (attempt disk) m).modifyStream id
        (fun s => { s with routed := new })
      ∧ (∀ i, idsOf i (m.model.sequence s new) = [] →
        after.model.devices.get? i = m.model.devices.get? i)
      ∧ after.model.stream? id = some { s with routed := new }
      ∧ after.model.asks (after.routingPlan id mask) = []
      ∧ ∀ later, after.appliedBy later (.route id mask) = [] ∧ after.route later id mask = after := by
  intro new after
  have hold : IsRoute s.type.isInput s.routed := by
    subst hm
    exact isRoute_serveAll hstart requests s (Model.mem_of_stream? hs)
  have hclip : Plan.clip? s.type.isInput mask = some new := clip?_of_isRoute hmask
  have hnew : IsRoute s.type.isInput new := isRoute_clip hclip
  have hasks := Plan.asks_forRoute m.model hold hnew
  obtain ⟨hplan, hafter⟩ : m.routingPlan id mask = _ ∧ after = _ := route_of_open disk hs hopen hclip
  have hstream : after.model.stream? id = some { s with routed := new } := stream?_route disk hs hopen hclip
  obtain ⟨hplan', hlater⟩ := forall_and.mp fun later => route_of_open later hstream hopen hclip
  have hself : Plan.forRoute after.model { s with routed := new } new = [] :=
    Plan.forRoute_self after.model (s := { s with routed := new }) hnew
  have hagain : after.routingPlan id mask = [] := (hplan' disk).trans hself
  refine ⟨by rw [hplan, hasks], ?_, fun i hi => ?_, hstream, by rw [hagain]; rfl, fun later => ⟨?_, ?_⟩⟩
  · rw [hafter, perform_eq_attempts disk (Plan.leading_forRoute _ _ _), hasks]
  · rw [hafter, modifyStream, Model.devices_modifyStream]
    exact get?_perform_of_idsOf disk (by rw [hasks, hi])
  · rw [appliedBy, planOf, hagain]
    rfl
  · rw [hlater, hself, perform_nil, hafter, modifyStream, modifyStream, Model.modifyStream_modifyStream]

/-- Two output devices with a bit in common, and an input device with their low bits. Only the first one has
the disable path of the stream, and its enable path is `on` itself. -/
def crowded : Manager where
  desk := ⟨.ofControls 0 none [.switch "S" 1], ⟨0, [0]⟩⟩
  model :=
    { devices := ⟨#[⟨0x3#32, 0, ⟨#[.blank .on, ⟨2, ⟨#[⟨"S", .all, .int 1, .bound 0 .switch⟩], 1⟩⟩, .blank .off], 3⟩⟩,
        ⟨0x80000006#32, 0, ⟨#[.blank .on], 1⟩⟩, ⟨0x6#32, 0, ⟨#[.blank .off, .blank .on], 2⟩⟩], 3⟩
      anonymous := ⟨#[{ Stream.blank none ⟨.pcmOut, 0, none, 0, 0, 0⟩ 1 with
        enablePath := some .on, disablePath := some 2 }], 1⟩
      named := .empty
      pathNames := ⟨#["off", "on", "mute"], 3⟩
      outputs := 0x7#32
      inputs := 0x80000006#32 }

/-- The stream leaves the first bit and keeps the common one. -/
theorem route_eq_sequence_crowded :
    let disk : Disk := ⟨.folder [], ⟨"/"⟩⟩
    let m := crowded.serveAll [(disk, .acquire 0x3#32 .pcm16)]
    let after := m.route disk ⟨.anonymous, 0⟩ 0x6#32
    m.model.asks (m.routingPlan ⟨.anonymous, 0⟩ 0x6#32) = [(0, 2), (0, .off), (2, .on)]
      ∧ after.model.devices.get? 1 = m.model.devices.get? 1 ∧ after.routes ⟨.anonymous, 0⟩ = 0x6#32
      ∧ after.route disk ⟨.anonymous, 0⟩ 0x6#32 = after := by
  intro disk m after
  have hstart : ∀ s ∈ crowded.model.streams, IsRoute s.type.isInput s.routed := by
    intro s hs
    obtain rfl : s = _ := List.mem_singleton.mp hs
    exact Or.inl rfl
  have hstate : (m.model.stream? ⟨.anonymous, 0⟩).any (fun s => decide (s.isOpen = true
      ∧ DeviceMask.isInput 0x6#32 = s.type.isInput ∧ clipped s.type.isInput 0x6#32 = 0x6#32
      ∧ m.model.sequence s 0x6#32 = [(0, 2), (0, .off), (2, .on)])) = true := by decide +kernel
  obtain ⟨s, hs, hstate⟩ := (Option.any_eq_true _ _).mp hstate
  obtain ⟨hopen, hdir, hclipped, hsequence⟩ := of_decide_eq_true hstate
  obtain ⟨hasks, -, hother, hroute, -, hagain⟩ :=
    route_eq_sequence hstart rfl hs hopen (Or.inr hdir) disk
  rw [hclipped, hsequence] at hasks hother
  exact ⟨hasks, hother 1 (by decide), by rw [routes, hroute, Option.map_some, hclipped]; rfl, (hagain disk).2⟩

end Manager

end SoundRouting
