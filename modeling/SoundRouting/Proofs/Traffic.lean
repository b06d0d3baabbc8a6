import SoundRouting.Proofs.Asked
import SoundRouting.Proofs.Request
/-!
What requests ask of a device while streams enter and leave it.

A request that takes devices as a whole leads one stream to a device, or away from it, or neither. A device
that a stream leaves is asked for `off`, one that a stream enters for `on`, as far as it has these paths.
-/
namespace SoundRouting

open DeviceMask

/-- The request takes devices as a whole: its mask has all or none of the bits of each device of its
direction. -/
def Request.Whole (os : List DeviceOutline) (r : Request) : Prop :=
  ∀ mask, r.mask? = some mask → ∀ o ∈ os, o.mask.isInput = mask.isInput → mask.Aligned o.mask

/-- A stream whose route takes devices as a whole, and whose own paths do not count backwards. -/
structure Stream.Regular (os : List DeviceOutline) (s : Stream) : Prop where
  direction : IsRoute s.type.isInput s.routed
  whole : ∀ o ∈ os, o.mask.isInput = s.type.isInput → s.routed.Aligned o.mask
  enable : s.enablePath ≠ some .off
  disable : s.disablePath ≠ some .on

/-- Whole requests keep streams regular. -/
theorem Stream.regular_step {os : List DeviceOutline} (hos : ∀ o ∈ os, o.mask.IsListed) {r : Request}
    (hr : r.Whole os) (s t : Stream) (hstep : Stream.Step r.mask? s t) (h : s.Regular os) : t.Regular os := by
  cases hstep with
  | opened => exact ⟨h.direction, h.whole, h.enable, h.disable⟩
  | routed hmask hopen hclip =>
    exact ⟨isRoute_clip hclip,
      fun o ho hd => aligned_clip hclip (hos o ho) hd fun hdm => hr _ hmask o ho hdm,
      h.enable, h.disable⟩
  | released =>
    refine ⟨?_, ?_, h.enable, h.disable⟩
    · by_cases hlast : 1 < s.refCount
      · rw [Stream.released, if_pos hlast]
        exact h.direction
      · exact Or.inl (by simp only [Stream.released, if_neg hlast])
    · intro o ho hd
      by_cases hlast : 1 < s.refCount
      · simpa only [Stream.released, if_pos hlast] using h.whole o ho hd
      · simpa only [Stream.released, if_neg hlast] using aligned_nothing o.mask
  | settled => exact ⟨h.direction, h.whole, h.enable, h.disable⟩

/-- A model whose devices have listed masks without common bits, and whose streams are regular. -/
structure Model.Regular (m : Model) : Prop where
  listed : ∀ o ∈ m.outlines, o.mask.IsListed
  separate : m.outlines.Pairwise fun a b => a.mask.reaches b.mask = false
  streams : ∀ s ∈ m.streams, s.Regular m.outlines

theorem Model.Regular.separate_devices {m : Model} (h : m.Regular) : Plan.Separate m.devices.toList :=
  List.pairwise_map.mp h.separate

theorem Device.outline_mem {m : Model} {i : Nat} {d : Device} (hd : m.devices.get? i = some d) :
    d.outline ∈ m.outlines :=
  List.mem_map.mpr ⟨d, GranularArray.mem_of_get? hd, rfl⟩

/-- A route leads to devices of its direction only. -/
theorem DeviceMask.not_reaches_of_isRoute {input : Bool} {route device : DeviceMask}
    (h : IsRoute input route) (hd : device.isInput ≠ input) : route.reaches device = false := by
  rcases h with rfl | h
  · exact reaches_nothing device
  · rw [reaches, h, Bool.and_eq_false_iff]
    exact Or.inl (beq_eq_false_iff_ne.mpr (Ne.symm hd))

namespace DeviceOutline

/-- What is asked of a device while the number of streams that hold it goes from one value to another:
nothing, or one of the counted paths if the device has it, and never both. -/
inductive Traffic (o : DeviceOutline) : List PathId → Nat → Nat → Prop
  | idle (n : Nat) : Traffic o [] n n
  | leaves {asked : List PathId} (n : Nat) (hoff : asked.count .off = (o.declares .off).toNat)
      (hon : .on ∉ asked) : Traffic o asked (n + 1) n
  | enters {asked : List PathId} (n : Nat) (hon : asked.count .on = (o.declares .on).toNat)
      (hoff : .off ∉ asked) : Traffic o asked n (n + 1)

namespace Traffic

variable {o : DeviceOutline} {asked : List PathId} {before after : Nat}

/-- One stream at most goes in or out. -/
theorem close (h : o.Traffic asked before after) : after ≤ before + 1 ∧ before ≤ after + 1 := by
  cases h <;> omega

/-- The count of the device goes up where a stream enters it and down where one leaves it, if the device has
the path that is asked for then. What is applied of the counted paths depends on the count. -/
theorem tally (h : o.Traffic asked before after) (uses : Nat) :
    (PathId.tally uses asked).1 = (if before < after then uses + (o.declares .on).toNat
        else if after < before then uses - (o.declares .off).toNat else uses)
      ∧ (PathId.tally uses asked).2.count .on
        = (if before < after ∧ uses = 0 then (o.declares .on).toNat else 0)
      ∧ (PathId.tally uses asked).2.count .off
        = (if after < before ∧ uses ≤ 1 then (o.declares .off).toNat else 0) := by
  cases h with
  | idle => simp
  | leaves n hoff hon =>
    obtain ⟨huse, happlied⟩ := PathId.tally_of_leaves hon (hoff ▸ Bool.toNat_le _) uses
    have hno : (PathId.tally uses asked).2.count .on = 0 :=
      List.count_eq_zero.mpr fun h => hon ((PathId.tally_sublist _ _).subset h)
    have hdown : ¬ after + 1 < after := by omega
    rw [huse, hno, happlied, hoff]
    simp [hdown]
  | enters n hon hoff =>
    obtain ⟨huse, happlied⟩ := PathId.tally_of_enters hoff (hon ▸ Bool.toNat_le _) uses
    have hno : (PathId.tally uses asked).2.count .off = 0 :=
      List.count_eq_zero.mpr fun h => hoff ((PathId.tally_sublist _ _).subset h)
    have hup : ¬ before + 1 < before := by omega
    rw [huse, hno, happlied, hon]
    simp [hup]

end Traffic

variable {o : DeviceOutline} {first second : Option PathId} {n : Nat}

theorem traffic_leaves (h : first = some .off ∨ second = some .off) (hfirst : first ≠ some .on)
    (hsecond : second ≠ some .on) : o.Traffic (o.idsFor first second) (n + 1) n := by
  refine .leaves n (o.count_idsFor h) fun hon => ?_
  rcases mem_of_mem_idsFor hon with h | h
  · exact hfirst h.symm
  · exact hsecond h.symm

theorem traffic_enters (h : first = some .on ∨ second = some .on) (hfirst : first ≠ some .off)
    (hsecond : second ≠ some .off) : o.Traffic (o.idsFor first second) n (n + 1) := by
  refine .enters n (o.count_idsFor h) fun hoff => ?_
  rcases mem_of_mem_idsFor hoff with h | h
  · exact hfirst h.symm
  · exact hsecond h.symm

/-- A change of routing asks a device for what becomes of the number of its holders. -/
theorem traffic_change {enable disable : Option PathId} {old new : Bool} {before after : Nat}
    (henable : enable ≠ some .off) (hdisable : disable ≠ some .on)
    (hcount : after + old.toNat = before + new.toNat) :
    o.Traffic ((if (old && !new) = true then o.idsFor disable (some .off) else [])
      ++ (if (new && !old) = true then o.idsFor (some .on) enable else [])) before after := by
  cases old <;> cases new
  · obtain rfl : after = before := hcount
    exact .idle _
  · obtain rfl : after = before + 1 := hcount
    exact traffic_enters (Or.inl rfl) (by decide) henable
  · obtain rfl : before = after + 1 := hcount.symm
    change o.Traffic (o.idsFor disable (some .off) ++ []) _ _
    rw [List.append_nil]
    exact traffic_leaves (Or.inr rfl) hdisable (by decide)
  · obtain rfl : after = before := Nat.add_right_cancel hcount
    exact .idle _

end DeviceOutline

namespace Manager

variable {m : Manager} {i : Nat} {d : Device}

/-- What routing asks of a device is what becomes of the number of its holders. -/
theorem traffic_route (disk : Disk) (hm : m.model.Regular) (hd : m.model.devices.get? i = some d) (id : StreamId)
    (mask : DeviceMask)
    (hwhole : ∀ o ∈ m.model.outlines, o.mask.isInput = mask.isInput → mask.Aligned o.mask) :
    d.outline.Traffic (idsOf i (m.model.asks (m.routingPlan id mask))) (m.model.holders d.mask)
      ((m.route disk id mask).model.holders d.mask) := by
  rcases route_cases disk m id mask with ⟨he, hplan⟩ | ⟨s, new, hs, -, hclip, hplan, he⟩
  · rw [he, hplan]
    exact .idle _
  · have hmem := Device.outline_mem hd
    have hreg := hm.streams s (Model.mem_of_stream? hs)
    have hnew := isRoute_clip hclip
    have hcount : (m.route disk id mask).model.holders d.mask + (s.routed.reaches d.mask).toNat
        = m.model.holders d.mask + (new.reaches d.mask).toNat := by
      rw [he, ← holders_perform disk m (Plan.forRoute m.model s new)]
      exact Model.holders_modifyStream (by rwa [stream?_perform]) _ d.mask
    rw [hplan, Plan.idsOf_asks_forRoute hm.separate_devices hd hreg.direction hnew]
    by_cases hdir : d.mask.isInput = s.type.isInput
    · have hold : s.routed.Aligned d.mask := hreg.whole _ hmem hdir
      have hal : new.Aligned d.mask := aligned_clip hclip (hm.listed _ hmem) hdir (hwhole _ hmem)
      simp only [exceeds_of_aligned hreg.direction hnew hal hdir,
        exceeds_of_aligned hnew hreg.direction hold hdir, hdir, true_and]
      exact DeviceOutline.traffic_change hreg.enable hreg.disable hcount
    · rw [not_reaches_of_isRoute hreg.direction hdir, not_reaches_of_isRoute hnew hdir] at hcount
      rw [if_neg fun h => hdir h.1, if_neg fun h => hdir h.1, Nat.add_right_cancel hcount]
      exact .idle _

/-- Opening a stream asks nothing of a device that is not the global one. -/
theorem idsOf_asks_openingPlan (hd : m.model.devices.get? i = some d) (hglobal : d.isGlobal = false) (id : StreamId) :
    idsOf i (m.model.asks (m.openingPlan id)) = [] := by
  rcases openingPlan_cases m id with h | ⟨s, -, h⟩
  · rw [h]
    rfl
  · rw [h]
    exact Plan.idsOf_asks_forOpening hd hglobal s

/-- Opening a stream asks nothing of the devices it may be routed to, and keeps their holders. -/
theorem traffic_open (disk : Disk) (hd : m.model.devices.get? i = some d)
    (hglobal : d.isGlobal = false) {id : StreamId} {s : Stream} (hs : m.model.stream? id = some s) :
    idsOf i (m.model.asks (m.openingPlan id)) = []
      ∧ (m.openStream disk id).model.holders d.mask = m.model.holders d.mask := by
  constructor
  · exact idsOf_asks_openingPlan hd hglobal id
  · rw [openStream_eq disk hs]
    exact (Model.holders_modifyStream_of_routed (by exact fun _ => rfl) d.mask).trans
      (holders_perform disk m (m.openingPlan id) d.mask)

/-- What releasing a stream asks of a device is what becomes of the number of its holders. -/
theorem traffic_release (disk : Disk) (hm : m.model.Regular) (hd : m.model.devices.get? i = some d)
    (hglobal : d.isGlobal = false) (id : StreamId) :
    d.outline.Traffic (idsOf i (m.model.asks (m.closingPlan id))) (m.model.holders d.mask)
      ((m.release disk id).model.holders d.mask) := by
  rcases release_cases disk m id with ⟨he, hplan⟩ | ⟨s, hs, hopen, hplan, he⟩
  · rw [he, hplan]
    exact .idle _
  · have hreg := hm.streams s (Model.mem_of_stream? hs)
    have hcount : (m.release disk id).model.holders d.mask + (s.routed.reaches d.mask).toNat
        = m.model.holders d.mask + (s.released.routed.reaches d.mask).toNat := by
      rw [he, ← holders_perform disk m (m.closingPlan id)]
      exact Model.holders_modifyStream (by rwa [stream?_perform]) _ d.mask
    have hpos : 0 < s.refCount := by simpa [Stream.isOpen] using hopen
    rw [hplan]
    by_cases hlast : s.refCount = 1
    · rw [Stream.released, if_neg (by omega), reaches_nothing] at hcount
      rw [if_pos hlast, Plan.idsOf_asks_forClosing hm.separate_devices hd hglobal]
      cases ho : s.routed.reaches d.mask <;> rw [ho] at hcount
      · rw [← (show _ = m.model.holders d.mask from hcount)]
        exact .idle _
      · rw [← (show _ = m.model.holders d.mask from hcount), if_pos rfl]
        exact DeviceOutline.traffic_leaves (Or.inl rfl) (by decide) hreg.disable
    · rw [Stream.released, if_pos (by omega)] at hcount
      rw [if_neg hlast, Nat.add_right_cancel hcount]
      exact .idle _

theorem outlines_openStream (disk : Disk) {id : StreamId} {s : Stream} (hs : m.model.stream? id = some s) :
    (m.openStream disk id).model.outlines = m.model.outlines := by
  rw [openStream_eq disk hs, Model.outlines, modifyStream, Model.devices_modifyStream, ← Model.outlines,
    outlines_perform]

/-- Opening a stream leaves the outline of a device. -/
theorem exists_after_openStream (disk : Disk) (hd : m.model.devices.get? i = some d) {id : StreamId} {s : Stream}
    (hs : m.model.stream? id = some s) :
    ∃ e, (m.openStream disk id).model.devices.get? i = some e ∧ e.outline = d.outline := by
  obtain ⟨e, he, houtline, -⟩ := tally_perform disk hd (m.openingPlan id)
  rw [openStream_eq disk hs, modifyStream, Model.devices_modifyStream]
  exact ⟨e, he, houtline⟩

/-- Opening a stream changes neither outlines nor routes. -/
theorem regular_openStream (disk : Disk) (hm : m.model.Regular) {id : StreamId} {s : Stream}
    (hs : m.model.stream? id = some s) : (m.openStream disk id).model.Regular := by
  have houtlines := outlines_openStream disk hs
  refine ⟨houtlines ▸ hm.listed, houtlines ▸ hm.separate, ?_⟩
  rw [houtlines, openStream_eq disk hs]
  refine Model.forall_streams_modifyStream (by rw [streams_perform]; exact hm.streams) fun t ht => ?_
  rw [stream?_perform] at ht
  have hreg := hm.streams t (Model.mem_of_stream? ht)
  exact ⟨hreg.direction, hreg.whole, hreg.enable, hreg.disable⟩

/-- What a request asks of a device is what becomes of the number of its holders. -/
theorem traffic_serve (disk : Disk) (hm : m.model.Regular) {r : Request} (hr : r.Whole m.model.outlines)
    (hd : m.model.devices.get? i = some d) (hglobal : d.isGlobal = false) :
    d.outline.Traffic (idsOf i (m.model.asks (m.planOf disk r))) (m.model.holders d.mask)
      ((m.serve disk r).model.holders d.mask) := by
  cases r with
  | acquire devices format =>
    rw [serve_acquire, planOf]
    cases hw : m.wanted? (.acquire devices format) with
    | none => exact .idle _
    | some id =>
      obtain ⟨s, hs, -⟩ := exists_of_wanted? hw
      obtain ⟨hasked, hholders⟩ := traffic_open disk hd hglobal hs
      have houtlines := outlines_openStream disk hs
      obtain ⟨e, he, houtline⟩ := exists_after_openStream disk hd hs
      have hroute := traffic_route disk (regular_openStream disk hm hs) he id devices
        (by rw [houtlines]; exact hr devices rfl)
      rw [houtline, show e.mask = d.mask from congrArg DeviceOutline.mask houtline, hholders,
        Model.asks_congr houtlines] at hroute
      rwa [Model.asks_append, idsOf_append, hasked, List.nil_append]
  | acquireNamed name =>
    rw [serve_acquireNamed, planOf]
    cases hw : m.wanted? (.acquireNamed name) with
    | none => exact .idle _
    | some id =>
      obtain ⟨s, hs, -⟩ := exists_of_wanted? hw
      obtain ⟨hasked, hholders⟩ := traffic_open disk hd hglobal hs
      simp only [hasked, hholders]
      exact .idle _
  | route id mask => exact traffic_route disk hm hd id mask (hr mask rfl)
  | release id => exact traffic_release disk hm hd hglobal id
  | setVolume id left right =>
    have hholders : (m.serve disk (.setVolume id left right)).model.holders d.mask = m.model.holders d.mask :=
      countP_setVolume (fun _ _ _ _ => rfl) m id left right
    rw [hholders]
    exact .idle _
  | applyUseCase id setting caseName =>
    have hholders : (m.serve disk (.applyUseCase id setting caseName)).model.holders d.mask
        = m.model.holders d.mask := countP_applyUseCase (fun _ _ _ _ => rfl) disk m id setting caseName
    rw [hholders]
    exact .idle _

/-- Whole requests keep a model regular. -/
theorem regular_serve (disk : Disk) (hm : m.model.Regular) {r : Request} (hr : r.Whole m.model.outlines) :
    (m.serve disk r).model.Regular := by
  have houtlines := outlines_serve disk m r
  refine ⟨houtlines ▸ hm.listed, houtlines ▸ hm.separate, ?_⟩
  rw [houtlines]
  exact forall_streams_serve (Stream.regular_step hm.listed hr) disk hm.streams

/-- What every request for devices as a whole keeps holds after any number of them. -/
theorem serveAll_induction_of_whole {I : Manager → Prop}
    (hstep : ∀ m disk r, r.Whole m.model.outlines → I m → I (m.serve disk r)) {requests : List (Disk × Request)}
    (hm : I m) (hr : ∀ e ∈ requests, e.2.Whole m.model.outlines) :
    I (m.serveAll requests) ∧ (m.serveAll requests).model.outlines = m.model.outlines := by
  refine serveAll_induction (I := fun n => I n ∧ n.model.outlines = m.model.outlines)
    (fun n disk r he hn => ?_) ⟨hm, rfl⟩
  have hwhole : r.Whole n.model.outlines := by
    rw [hn.2]
    exact hr _ he
  exact ⟨hstep n disk r hwhole hn.1, by rw [outlines_serve, hn.2]⟩

theorem regular_serveAll {requests : List (Disk × Request)} (hm : m.model.Regular)
    (hr : ∀ e ∈ requests, e.2.Whole m.model.outlines) :
    (m.serveAll requests).model.Regular ∧ (m.serveAll requests).model.outlines = m.model.outlines :=
  serveAll_induction_of_whole (I := fun n => n.model.Regular) (fun _ disk _ hwhole hn => regular_serve disk hn hwhole)
    hm hr

end Manager

end SoundRouting
