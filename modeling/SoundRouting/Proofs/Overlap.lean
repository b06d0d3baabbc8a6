import SoundRouting.Proofs.GlobalUses
/-!
Devices that a change of routing neither enters nor leaves.

A change of routing works bit by bit, devices count as a whole. Where the old route and the new one take
different bits of one device, the device is asked to be left, or to be entered, or both, though it is routed
all the time. However that goes, a request makes no count grow by more than two.
-/
namespace SoundRouting

open DeviceMask Config

namespace PathId

/-- Paths that are asked for and leave the count of a device as it is without any of them being applied:
nothing, or the counted paths in turn while the device is held on otherwise. -/
def Cancels (uses : Nat) (asked : List PathId) : Prop :=
  asked = [] ∨ asked = [off, on] ∧ 2 ≤ uses ∨ (asked = [on, off] ∨ asked = [on, off, on, off]) ∧ 1 ≤ uses

theorem tally_of_cancels {uses : Nat} {asked : List PathId} (h : Cancels uses asked) :
    tally uses asked = (uses, []) := by
  rcases h with rfl | ⟨rfl, huses⟩ | ⟨rfl | rfl, huses⟩
  · rfl
  · have hfirst : ¬ uses ≤ 1 := by omega
    have hsecond : ¬ uses - 1 = 0 := by omega
    have hback : uses - 1 + 1 = uses := by omega
    simp [tally, count, off, on, hfirst, hsecond, hback]
  · have hfirst : ¬ uses = 0 := by omega
    simp [tally, count, off, on, hfirst]
  · have hfirst : ¬ uses = 0 := by omega
    simp [tally, count, off, on, hfirst]

/-- If none of what is asked for is applied, only counted paths are asked for. -/
theorem counted_of_tally {uses : Nat} {asked : List PathId} (h : (tally uses asked).2 = []) :
    (∀ id ∈ asked, id = off ∨ id = on)
      ∧ (tally uses asked).1 + asked.count off = uses + asked.count on := by
  induction asked generalizing uses with
  | nil => exact ⟨fun _ h => absurd h List.not_mem_nil, rfl⟩
  | cons id more ih =>
    simp only [tally] at h ⊢
    by_cases happlied : (count id uses).2 = true
    · rw [if_pos happlied] at h
      cases h
    · rw [if_neg happlied] at h
      obtain ⟨hcounted, hsum⟩ := ih h
      rw [List.forall_mem_cons]
      by_cases hoff : id = off
      · subst hoff
        refine ⟨⟨Or.inl rfl, hcounted⟩, ?_⟩
        simp only [count, if_true, decide_eq_true_eq] at happlied hsum ⊢
        rw [List.count_cons_self, List.count_cons_of_ne (by decide)]
        omega
      · by_cases hon : id = on
        · subst hon
          refine ⟨⟨Or.inr rfl, hcounted⟩, ?_⟩
          simp only [count, if_neg hoff, if_true] at hsum ⊢
          rw [List.count_cons_self, List.count_cons_of_ne (by decide)]
          omega
        · simp [count, hoff, hon] at happlied

/-- The counted paths that one half of a change of routing can ask for. -/
def Turns (asked : List PathId) : Prop :=
  asked = [] ∨ asked = [off] ∨ asked = [on] ∨ asked = [on, off]

/-- Where `on` and `off` are asked for equally often, the first of them decides. -/
theorem cancels_of_tally {uses : Nat} {left entered : List PathId} (hleft : Turns left)
    (hentered : Turns entered) (h : tally uses (left ++ entered) = (uses, [])) :
    Cancels uses (left ++ entered) := by
  have hoff : ∀ more, tally uses (off :: more) = (uses, []) → 2 ≤ uses := by
    intro more h
    have happlied := congrArg Prod.snd h
    by_cases huses : uses ≤ 1
    · simp [tally, count, huses] at happlied
    · omega
  have hon : ∀ more, tally uses (on :: more) = (uses, []) → 1 ≤ uses := by
    intro more h
    have happlied := congrArg Prod.snd h
    by_cases huses : uses = 0
    · simp [tally, count, on, off, huses] at happlied
    · omega
  obtain ⟨-, hsum⟩ := counted_of_tally (congrArg Prod.snd h)
  rw [h] at hsum
  have hequal : (left ++ entered).count off = (left ++ entered).count on := Nat.add_left_cancel hsum
  rcases hleft with rfl | rfl | rfl | rfl <;> rcases hentered with rfl | rfl | rfl | rfl
  all_goals first
    | exact absurd hequal (by decide)
    | exact Or.inl rfl
    | exact Or.inr (Or.inl ⟨rfl, hoff _ h⟩)
    | exact Or.inr (Or.inr ⟨Or.inl rfl, hon _ h⟩)
    | exact Or.inr (Or.inr ⟨Or.inr rfl, hon _ h⟩)

end PathId

namespace DeviceOutline

/-- What is asked of a device which takes part: nothing, one of the two paths, or both. -/
theorem idsFor_cases (o : DeviceOutline) (first second : Option PathId) : o.idsFor first second = []
    ∨ (∃ id, (first = some id ∨ second = some id) ∧ o.idsFor first second = [id])
    ∨ ∃ a b, first = some a ∧ second = some b ∧ a ≠ b ∧ o.idsFor first second = [a, b] := by
  rw [idsFor]
  cases ha : first.filter o.declares with
  | none =>
    split
    · exact Or.inl rfl
    · cases hb : second.filter o.declares with
      | none => exact Or.inl rfl
      | some b => exact Or.inr (Or.inl ⟨b, Or.inr (Option.filter_eq_some_iff.mp hb).1, rfl⟩)
  | some a =>
    have hfirst := (Option.filter_eq_some_iff.mp ha).1
    split
    · exact Or.inr (Or.inl ⟨a, Or.inl hfirst, rfl⟩)
    · rename_i hne
      cases hb : second.filter o.declares with
      | none => exact Or.inr (Or.inl ⟨a, Or.inl hfirst, rfl⟩)
      | some b =>
        have hsecond := (Option.filter_eq_some_iff.mp hb).1
        refine Or.inr (Or.inr ⟨a, b, hfirst, hsecond, ?_, rfl⟩)
        rintro rfl
        exact hne (hfirst.trans hsecond.symm)

/-- Where only counted paths are asked for, `on` comes before `off`. -/
theorem turns_idsFor {o : DeviceOutline} {first second : Option PathId}
    (hone : first = some .on ∨ second = some .off) {takesPart : Bool}
    (hcounted : ∀ id ∈ if takesPart then o.idsFor first second else [], id = PathId.off ∨ id = PathId.on) :
    PathId.Turns (if takesPart then o.idsFor first second else []) := by
  cases takesPart with
  | false => exact Or.inl rfl
  | true =>
    rw [if_pos rfl] at hcounted ⊢
    rcases o.idsFor_cases first second with h | ⟨id, -, h⟩ | ⟨a, b, hfirst, hsecond, hne, h⟩
    · exact Or.inl h
    · rw [h, List.forall_mem_singleton] at hcounted
      rcases hcounted with rfl | rfl
      · exact Or.inr (Or.inl h)
      · exact Or.inr (Or.inr (Or.inl h))
    · rw [h, List.forall_mem_cons, List.forall_mem_singleton] at hcounted
      refine Or.inr (Or.inr (Or.inr ?_))
      rw [h]
      rcases hone with hone | hone
      · obtain rfl := Option.some.inj (hfirst.symm.trans hone)
        rw [hcounted.2.resolve_right (Ne.symm hne)]
      · obtain rfl := Option.some.inj (hsecond.symm.trans hone)
        rw [hcounted.1.resolve_left hne]

def asksFor (o : DeviceOutline) (s : Stream) (new : DeviceMask) : List PathId :=
  (if s.routed.exceeds new o.mask then o.idsFor s.disablePath (some .off) else [])
    ++ if new.exceeds s.routed o.mask then o.idsFor (some .on) s.enablePath else []

/-- What is asked for changes nothing exactly if it cancels out. -/
theorem tally_asksFor_iff {o : DeviceOutline} {s : Stream} {new : DeviceMask} {uses : Nat} :
    PathId.tally uses (o.asksFor s new) = (uses, []) ↔ PathId.Cancels uses (o.asksFor s new) := by
  refine ⟨fun h => ?_, PathId.tally_of_cancels⟩
  obtain ⟨hcounted, -⟩ := PathId.counted_of_tally (congrArg Prod.snd h)
  rw [asksFor, List.forall_mem_append] at hcounted
  exact PathId.cancels_of_tally (turns_idsFor (Or.inr rfl) hcounted.1) (turns_idsFor (Or.inl rfl) hcounted.2) h

end DeviceOutline

/-- A device that a route leads to is of the direction of the route. -/
theorem DeviceMask.isInput_of_reaches {input : Bool} {route device : DeviceMask} (h : IsRoute input route)
    (hreaches : route.reaches device = true) : device.isInput = input := by
  by_contra hne
  rw [not_reaches_of_isRoute h hne] at hreaches
  cases hreaches

namespace Manager

/-! ### The room for counts -/

section Room

variable {m : Manager} {i : Nat} {d e : Device}

theorem count_asks_openingPlan_le (m : Manager) (opened : StreamId) (i : Nat) (id : PathId) :
    (idsOf i (m.model.asks (m.openingPlan opened))).count id ≤ 1 := by
  rcases openingPlan_cases m opened with h | ⟨s, -, h⟩
  · rw [h]
    exact Nat.zero_le 1
  · rw [h]
    exact Plan.count_asks_forGlobal_le _ _ _ i id

theorem count_asks_routingPlan_le (m : Manager) (routed : StreamId) (mask : DeviceMask) (i : Nat) (id : PathId) :
    (idsOf i (m.model.asks (m.routingPlan routed mask))).count id ≤ 2 := by
  rcases routingPlan_cases m routed mask with h | ⟨s, new, -, -, h⟩
  · rw [h]
    exact Nat.zero_le 2
  · rw [h, Plan.forRoute_eq, Model.asks_append, idsOf_append, List.count_append]
    exact Nat.add_le_add (Plan.count_asks_forMask_le _ _ _ _ i id) (Plan.count_asks_forMask_le _ _ _ _ i id)

theorem count_asks_closingPlan_le (m : Manager) (closed : StreamId) (i : Nat) (id : PathId) :
    (idsOf i (m.model.asks (m.closingPlan closed))).count id ≤ 2 := by
  rcases closingPlan_cases m closed with h | ⟨s, -, h⟩
  · rw [h]
    exact Nat.zero_le 2
  · rw [h, Plan.forClosing, Model.asks_append, idsOf_append, List.count_append]
    exact Nat.add_le_add (Plan.count_asks_forMask_le _ _ _ _ i id) (Plan.count_asks_forGlobal_le _ _ _ i id)

/-- Of one device a request asks for a path twice at most. -/
theorem count_asks_planOf_le (disk : Disk) (hd : m.model.devices.get? i = some d) (r : Request) (id : PathId) :
    (idsOf i (m.model.asks (m.planOf disk r))).count id ≤ 2 := by
  cases r with
  | acquire devices format =>
    rw [planOf]
    cases hw : m.wanted? (.acquire devices format) with
    | none => exact Nat.zero_le 2
    | some opened =>
      obtain ⟨s, hs, -⟩ := exists_of_wanted? hw
      have hsame := Model.asks_congr (outlines_openStream disk hs)
      dsimp only
      rw [Model.asks_append, idsOf_append, List.count_append]
      -- opening concerns the global device, routing any other
      cases hglobal : d.isGlobal with
      | true =>
        obtain ⟨k, hk, houtline⟩ := exists_after_openStream disk hd hs
        have hnone := idsOf_asks_routingPlan hk ((Device.isGlobal_of_outline houtline).trans hglobal) opened devices
        rw [hsame] at hnone
        rw [hnone, List.count_nil]
        exact Nat.le_succ_of_le (count_asks_openingPlan_le m opened i id)
      | false =>
        have hrouted := count_asks_routingPlan_le (m.openStream disk opened) opened devices i id
        rw [hsame] at hrouted
        rw [idsOf_asks_openingPlan hd hglobal, List.count_nil, Nat.zero_add]
        exact hrouted
  | acquireNamed name =>
    rw [planOf]
    cases m.wanted? (.acquireNamed name) with
    | none => exact Nat.zero_le 2
    | some opened => exact Nat.le_succ_of_le (count_asks_openingPlan_le m opened i id)
  | route routed mask => exact count_asks_routingPlan_le m routed mask i id
  | release closed => exact count_asks_closingPlan_le m closed i id
  | setVolume | applyUseCase => exact Nat.zero_le 2

/-- While a request is served, a use count grows by two at most. -/
theorem useCount_perform_le (disk : Disk) (hd : m.model.devices.get? i = some d) {r : Request}
    {done rest : List PlannedPath} (hplan : m.planOf disk r = done ++ rest)
    (he : (m.perform disk done).model.devices.get? i = some e) : e.useCount ≤ d.useCount + 2 := by
  obtain ⟨e', he', -, htally⟩ := tally_perform disk hd done
  obtain rfl : e' = e := Option.some.inj (he'.symm.trans he)
  have hcount := PathId.tally_le d.useCount (idsOf i (m.model.asks done))
  have htwice := count_asks_planOf_le disk hd r .on
  rw [hplan, Model.asks_append, idsOf_append, List.count_append] at htwice
  rw [htally] at hcount
  omega

theorem useCount_serveAll_le {requests : List (Disk × Request)} (hd : m.model.devices.get? i = some d)
    (he : (m.serveAll requests).model.devices.get? i = some e) : e.useCount ≤ d.useCount + 2 * requests.length := by
  induction requests generalizing m d with
  | nil =>
    obtain rfl : d = e := Option.some.inj (hd.symm.trans he)
    exact Nat.le_refl _
  | cons first more ih =>
    obtain ⟨disk, r⟩ := first
    obtain ⟨k, hk, -, -⟩ := tally_serve disk hd r
    have hfirst := useCount_perform_le disk hd (List.append_nil _).symm (devices_serve disk m r ▸ hk)
    have hmore := ih hk he
    rw [List.length_cons]
    omega

end Room

/-- Whatever is asked for, streams are routed in their direction and devices have no bits in common. -/
theorem routed_serveAll {loaded : Loaded} (hrest : loaded.model.AtRest) (card : Card)
    (requests : List (Disk × Request)) :
    (∀ s ∈ ((ofLoaded card loaded).serveAll requests).model.streams, IsRoute s.type.isInput s.routed)
      ∧ ((ofLoaded card loaded).serveAll requests).model.outlines = loaded.model.outlines := by
  refine ⟨isRoute_serveAll (fun s hs => ?_) requests, outlines_serveAll (ofLoaded card loaded) requests⟩
  rw [(hrest.idle s hs).2]
  exact Or.inl rfl

/-- A device that a stream is routed to goes through what a change of the route asks of it, whether the new
route leads to it or not. Nothing happens to it exactly if that cancels out, as it does where both routes
take the same of its bits. The counts are twice the number of requests at most, so they fit their words
before 2³¹ - 1 requests have been served, also on the way. -/
theorem route_overlap_iff {disk : Disk} {rack after : Rack} {file : Location} {loaded : Loaded}
    (hload : load disk rack file = (.ok loaded, after)) (card : Card) {requests : List (Disk × Request)}
    {m : Manager} (hm : m = (ofLoaded card loaded).serveAll requests) {id : StreamId} {s : Stream}
    (hs : m.model.stream? id = some s) (hopen : s.isOpen = true) {mask new : DeviceMask}
    (hclip : Plan.clip? s.type.isInput mask = some new) {i : Nat} {d : Device}
    (hd : m.model.devices.get? i = some d) (hbefore : s.routed.reaches d.mask = true) (files : Disk) :
    ∃ e, (m.serve files (.route id mask)).model.devices.get? i = some e
      ∧ PathId.tally d.useCount (d.outline.asksFor s new)
        = (e.useCount, idsOf i (m.appliedBy files (.route id mask)))
      ∧ ((e.useCount = d.useCount ∧ idsOf i (m.appliedBy files (.route id mask)) = [])
        ↔ PathId.Cancels d.useCount (d.outline.asksFor s new))
      ∧ d.useCount ≤ 2 * requests.length
      ∧ ∀ done rest k, m.planOf files (.route id mask) = done ++ rest →
        (m.perform files done).model.devices.get? i = some k → k.useCount ≤ 2 * (requests.length + 1) := by
  have hrest := atRest_of_load hload
  obtain ⟨hroutes, houtlines⟩ := routed_serveAll hrest card requests
  rw [← hm] at hroutes houtlines
  have hsep : Plan.Separate m.model.devices.toList := by
    have hpairwise := hrest.separate
    rw [← houtlines] at hpairwise
    exact List.pairwise_map.mp hpairwise
  have hold := hroutes s (Model.mem_of_stream? hs)
  have hdir := isInput_of_reaches hold hbefore
  have hplan : m.planOf files (.route id mask) = Plan.forRoute m.model s new := by
    simp [planOf, routingPlan, hs, hopen, hclip]
  obtain ⟨e, he, -, htally⟩ := tally_perform files hd (m.planOf files (.route id mask))
  have hasks : idsOf i (m.model.asks (m.planOf files (.route id mask))) = d.outline.asksFor s new := by
    rw [hplan, Plan.idsOf_asks_forRoute hsep hd hold (isRoute_clip hclip)]
    simp only [hdir, true_and]
    rfl
  rw [hasks] at htally
  obtain ⟨first, hfirst, -⟩ := Model.exists_of_outlines houtlines hd
  have hunused : first.useCount = 0 := (hrest.unused first (GranularArray.mem_of_get? hfirst)).1
  have hroom : d.useCount ≤ first.useCount + 2 * requests.length :=
    useCount_serveAll_le (m := ofLoaded card loaded) hfirst (hm ▸ hd)
  rw [hunused, Nat.zero_add] at hroom
  refine ⟨e, by rw [devices_serve, he], htally, ?_, hroom, fun done rest k hdone hk => ?_⟩
  · rw [← DeviceOutline.tally_asksFor_iff, htally, Prod.mk.injEq]
    exact Iff.rfl
  · have hstep := useCount_perform_le files hd hdone hk
    omega

/-- While the device is on, its stream is routed to all of it once more. -/
theorem route_overlap_iff_sco :
    let m := (ofLoaded scoCard.openMixer.2 scoLoaded).serveAll [(scoDisk, .acquire 0x70#32 .pcm16)]
    ∃ s d e, m.model.stream? ⟨.anonymous, 0⟩ = some s ∧ m.model.devices.get? 0 = some d
      ∧ s.routed.reaches d.mask = true
      ∧ (m.serve scoDisk (.route ⟨.anonymous, 0⟩ 0x70#32)).model.devices.get? 0 = some e
      ∧ e.useCount = d.useCount ∧ idsOf 0 (m.appliedBy scoDisk (.route ⟨.anonymous, 0⟩ 0x70#32)) = [] := by
  intro m
  have hstate : (m.model.stream? ⟨.anonymous, 0⟩).any (fun s => (m.model.devices.get? 0).any fun d =>
      decide (s.isOpen = true ∧ Plan.clip? s.type.isInput 0x70#32 = some 0x70#32
        ∧ s.routed.reaches d.mask = true ∧ d.outline.asksFor s 0x70#32 = [])) = true := by decide +kernel
  obtain ⟨s, hs, hstate⟩ := (Option.any_eq_true _ _).mp hstate
  obtain ⟨d, hd, hstate⟩ := (Option.any_eq_true _ _).mp hstate
  obtain ⟨hopen, hclip, hbefore, hasks⟩ := of_decide_eq_true hstate
  obtain ⟨e, he, -, hiff, -⟩ :=
    route_overlap_iff load_sco scoCard.openMixer.2 rfl hs hopen hclip hd hbefore scoDisk
  obtain ⟨huse, happlied⟩ := hiff.mpr (Or.inl hasks)
  exact ⟨s, d, e, hs, hd, hbefore, he, huse, happlied⟩

/-- Routed to one bit of the device instead of all of it, a stream switches the device off that it is still
routed to. -/
theorem switchedOff_by_overlap :
    let m := (ofLoaded scoCard.openMixer.2 scoLoaded).serveAll [(scoDisk, .acquire 0x70#32 .pcm16)]
    load scoDisk ⟨[scoCard]⟩ ⟨"a"⟩ = (.ok scoLoaded, ⟨[scoCard.openMixer.2]⟩)
      ∧ ∃ s d e, m.model.stream? ⟨.anonymous, 0⟩ = some s ∧ s.isOpen = true
        ∧ Plan.clip? s.type.isInput 0x10#32 = some 0x10#32 ∧ m.model.devices.get? 0 = some d
        ∧ s.routed.reaches d.mask = true ∧ DeviceMask.reaches 0x10#32 d.mask = true
        ∧ (m.serve scoDisk (.route ⟨.anonymous, 0⟩ 0x10#32)).model.devices.get? 0 = some e
        ∧ d.useCount = 1 ∧ e.useCount = 0
        ∧ idsOf 0 (m.appliedBy scoDisk (.route ⟨.anonymous, 0⟩ 0x10#32)) = [.off]
        ∧ (m.serve scoDisk (.route ⟨.anonymous, 0⟩ 0x10#32)).desk.card.values "S" = [0] := by
  intro m
  have hstate : (m.model.stream? ⟨.anonymous, 0⟩).any (fun s => (m.model.devices.get? 0).any fun d =>
      ((m.serve scoDisk (.route ⟨.anonymous, 0⟩ 0x10#32)).model.devices.get? 0).any fun e =>
      decide (s.isOpen = true ∧ Plan.clip? s.type.isInput 0x10#32 = some 0x10#32
        ∧ s.routed.reaches d.mask = true ∧ DeviceMask.reaches 0x10#32 d.mask = true
        ∧ d.useCount = 1 ∧ e.useCount = 0
        ∧ idsOf 0 (m.appliedBy scoDisk (.route ⟨.anonymous, 0⟩ 0x10#32)) = [.off]
        ∧ (m.serve scoDisk (.route ⟨.anonymous, 0⟩ 0x10#32)).desk.card.values "S" = [0])) = true := by
    decide +kernel
  obtain ⟨s, hs, hstate⟩ := (Option.any_eq_true _ _).mp hstate
  obtain ⟨d, hd, hstate⟩ := (Option.any_eq_true _ _).mp hstate
  obtain ⟨e, he, hstate⟩ := (Option.any_eq_true _ _).mp hstate
  obtain ⟨hopen, hclip, hbefore, hafter, hone, hzero, happlied, hoff⟩ := of_decide_eq_true hstate
  exact ⟨load_sco, s, d, e, hs, hopen, hclip, hd, hbefore, hafter, he, hone, hzero, happlied, hoff⟩

end Manager

end SoundRouting
