import SoundRouting.Proofs.Instances
import SoundRouting.Proofs.Load.Untouched
import SoundRouting.Proofs.Loaded
/-!
Switches show which devices are in use.

Where the counted paths of a device set a switch, and nothing else names it, the switch follows the use
count of the device through whatever is asked for: each path that counting applies is written, and no
other write reaches the switch. With the count being the number of streams that are routed to the device,
the card tells which devices are in use.
-/
namespace SoundRouting

/-- A path of a device with a switch of its own: `on` and `off` set the switch, other paths do not name it. -/
def Path.Drives (name : String) (p : Path) : Prop :=
  if p.id = PathId.on then ∃ a, p.assignments.toList = [a] ∧ a.Sets name 1
  else if p.id = PathId.off then ∃ a, p.assignments.toList = [a] ∧ a.Sets name 0
  else ∀ a ∈ p.assignments.toList, a.control ≠ name

structure Model.Drives (i : Nat) (name : String) (m : Model) : Prop where
  declared : ∀ d, m.devices.get? i = some d → d.outline.declares .on = true ∧ d.outline.declares .off = true
  paths : ∀ d, m.devices.get? i = some d → ∀ p ∈ d.paths.toList, p.Drives name
  others : ∀ j d, j ≠ i → m.devices.get? j = some d → d.Holds (·.control ≠ name)
  streams : ∀ s ∈ m.streams, s.Holds (·.control ≠ name) fun _ => True

def PathId.shown (uses : Nat) : Int :=
  if uses = 0 then 0 else 1

/-- A path that is not applied leaves the device in use or not, as it was. -/
theorem PathId.shown_of_not_applied {id : PathId} {uses : Nat} (h : (count id uses).2 = false) :
    shown (count id uses).1 = shown uses := by
  by_cases hoff : id = off
  · simp only [count, if_pos hoff, decide_eq_false_iff_not] at h ⊢
    rw [shown, shown, if_neg (by omega), if_neg (by omega)]
  · by_cases hon : id = on
    · simp only [count, if_neg hoff, if_pos hon, decide_eq_false_iff_not] at h ⊢
      rw [shown, shown, if_neg (by omega), if_neg h]
    · simp only [count, if_neg hoff, if_neg hon, Bool.true_eq_false] at h

namespace Desk

variable {desk : Desk} {disk : Disk} {name : String}

theorem control_apply (hsound : desk.Sound) (disk : Disk) {list : List Assignment}
    (hlist : ∀ a ∈ list, a.Settled desk) (h : ∀ a ∈ list, a.control ≠ name) :
    ∀ a ∈ (desk.apply disk list).2, a.control ≠ name := by
  obtain ⟨-, -, hcontrols, -⟩ := apply_spec disk hsound hlist
  intro a ha
  have hmem : a.control ∈ list.map (·.control) := by
    rw [← hcontrols]
    exact List.mem_map_of_mem ha
  obtain ⟨b, hb, hcontrol⟩ := List.mem_map.mp hmem
  rw [← hcontrol]
  exact h b hb

/-- A path that is applied leaves the switch at what the use count says, and drives it as before. -/
theorem apply_drives (hsound : desk.Sound) (disk : Disk) {p : Path} (hp : p.Drives name)
    (hlist : ∀ a ∈ p.assignments.toList, a.Settled desk) {uses : Nat}
    (hshows : desk.card.Shows name (PathId.shown uses)) (happlied : (PathId.count p.id uses).2 = true) :
    (desk.apply disk p.assignments.toList).1.card.Shows name (PathId.shown (PathId.count p.id uses).1)
      ∧ Path.Drives name { p with
        assignments := p.assignments.withItems (desk.apply disk p.assignments.toList).2 } := by
  unfold Path.Drives at hp ⊢
  simp only [GranularArray.toList_withItems]
  by_cases hon : p.id = PathId.on
  · have hoff : p.id ≠ PathId.off := by
      rw [hon]
      decide
    rw [if_pos hon] at hp ⊢
    obtain ⟨a, ha, hsets⟩ := hp
    rw [ha] at hlist ⊢
    obtain ⟨hchanged, hset⟩ := apply_sets hsound disk hshows (hlist a List.mem_cons_self) hsets (by decide)
    refine ⟨?_, hset⟩
    simp only [PathId.count, if_neg hoff, if_pos hon, PathId.shown, if_neg (Nat.succ_ne_zero uses)]
    exact hchanged
  · rw [if_neg hon] at hp ⊢
    by_cases hoff : p.id = PathId.off
    · rw [if_pos hoff] at hp ⊢
      obtain ⟨a, ha, hsets⟩ := hp
      rw [ha] at hlist ⊢
      obtain ⟨hchanged, hset⟩ := apply_sets hsound disk hshows (hlist a List.mem_cons_self) hsets (by decide)
      refine ⟨?_, hset⟩
      simp only [PathId.count, if_pos hoff, decide_eq_true_eq] at happlied ⊢
      have hlast : uses - 1 = 0 := by omega
      rwa [hlast]
    · rw [if_neg hoff] at hp ⊢
      refine ⟨?_, control_apply hsound disk hlist hp⟩
      simp only [PathId.count, if_neg hon, if_neg hoff]
      exact shows_apply_other hsound disk hlist hp hshows

end Desk

/-- The devices after one of them has been changed: that one, and the others as they were. -/
theorem Model.get?_modifyDevice {m : Model} {i j : Nat} {d changed e : Device} (hd : m.devices.get? i = some d)
    (he : (m.modifyDevice i fun _ => changed).devices.get? j = some e) :
    i = j ∧ e = changed ∨ i ≠ j ∧ m.devices.get? j = some e := by
  by_cases hij : i = j
  · subst hij
    rw [modifyDevice, GranularArray.get?_modify_same, hd, Option.map_some, Option.some.injEq] at he
    exact Or.inl ⟨rfl, he.symm⟩
  · rw [modifyDevice, GranularArray.get?_modify_other _ _ hij] at he
    exact Or.inr ⟨hij, he⟩

namespace Model.Drives

variable {m : Model} {i : Nat} {name : String}

/-- Other assignments in a path that drives the switch, or does not name it, keep the switch the device's
own. -/
theorem modifyDevice (h : m.Drives i name) {j : Nat} {d changed : Device} (hd : m.devices.get? j = some d)
    (houtline : changed.outline = d.outline) (hsame : j = i → ∀ p ∈ changed.paths.toList, p.Drives name)
    (hother : j ≠ i → changed.Holds (·.control ≠ name)) : (m.modifyDevice j fun _ => changed).Drives i name := by
  refine ⟨fun e he => ?_, fun e he => ?_, fun k e hk he => ?_, h.streams⟩
  · rcases get?_modifyDevice hd he with ⟨rfl, rfl⟩ | ⟨-, he⟩
    · rw [houtline]
      exact h.declared d hd
    · exact h.declared e he
  · rcases get?_modifyDevice hd he with ⟨rfl, rfl⟩ | ⟨-, he⟩
    · exact hsame rfl
    · exact h.paths e he
  · rcases get?_modifyDevice hd he with ⟨rfl, rfl⟩ | ⟨-, he⟩
    · exact hother hk
    · exact h.others k e hk he

theorem modifyStream (h : m.Drives i name) {id : StreamId} {f : Stream → Stream}
    (hf : ∀ s, m.stream? id = some s → s.Holds (·.control ≠ name) (fun _ => True) →
      (f s).Holds (·.control ≠ name) fun _ => True) : (m.modifyStream id f).Drives i name := by
  refine ⟨?_, ?_, ?_, ?_⟩
  · rw [devices_modifyStream]
    exact h.declared
  · rw [devices_modifyStream]
    exact h.paths
  · rw [devices_modifyStream]
    exact h.others
  · exact forall_streams_modifyStream h.streams fun s hs => hf s hs (h.streams s (mem_of_stream? hs))

end Model.Drives

namespace Manager

/-- The device in this place has a switch of its own, which shows whether the device is in use. -/
structure Follows (i : Nat) (name : String) (m : Manager) : Prop where
  settled : m.Settled
  drives : m.model.Drives i name
  shows : ∀ d, m.model.devices.get? i = some d → m.desk.card.Shows name (PathId.shown d.useCount)

variable {disk : Disk} {m n : Manager} {i : Nat} {name : String}

/-- A device is changed: if it is this one, its paths still drive the switch, which shows its new use count; if
it is another one, it does not touch the switch. -/
theorem Follows.modifyDevice (h : m.Follows i name) {j : Nat} {d changed : Device} {desk : Desk}
    (hd : m.model.devices.get? j = some d) (houtline : changed.outline = d.outline)
    (hsettled : Settled ⟨desk, m.model.modifyDevice j fun _ => changed⟩)
    (hsame : j = i → (∀ p ∈ changed.paths.toList, p.Drives name)
      ∧ desk.card.Shows name (PathId.shown changed.useCount))
    (hother : j ≠ i → changed.Holds (·.control ≠ name)
      ∧ ∀ v, m.desk.card.Shows name v → desk.card.Shows name v) :
    Follows i name ⟨desk, m.model.modifyDevice j fun _ => changed⟩ := by
  have hdrives := h.drives.modifyDevice hd houtline (fun hi => (hsame hi).1) fun hi => (hother hi).1
  refine ⟨hsettled, hdrives, fun e he => ?_⟩
  rcases Model.get?_modifyDevice hd he with ⟨hi, rfl⟩ | ⟨hi, he⟩
  · exact (hsame hi).2
  · exact (hother hi).2 _ (h.shows e he)

theorem Follows.applyPath (h : m.Follows i name) (disk : Disk) (p : PlannedPath) :
    (m.applyPath disk p).Follows i name := by
  cases hid : m.model.idAt p with
  | none => rwa [(applyPath_of_idAt_eq_none disk hid).1]
  | some id =>
    obtain ⟨d, path, hd, hp, -⟩ := Model.idAt_eq_some_iff.mp hid
    have hsettled := h.settled.applyPath disk p
    have hlist := h.settled.path hd hp
    have hmem := GranularArray.mem_of_get? hp
    rw [applyPath_eq disk hd hp] at hsettled ⊢
    by_cases happlied : (PathId.count path.id d.useCount).2 = true
    · rw [if_pos happlied] at hsettled ⊢
      refine h.modifyDevice hd (Device.outline_modifyPath d _ _ _) hsettled (fun hi => ?_) fun hi => ?_
      · subst hi
        obtain ⟨hshown, hkept⟩ := Desk.apply_drives h.settled.sound disk (h.drives.paths d hd path hmem) hlist
          (h.shows d hd) happlied
        refine ⟨GranularArray.forall_modify (h.drives.paths d hd) fun q hq => ?_, hshown⟩
        obtain rfl : path = q := Option.some.inj (hp.symm.trans hq)
        exact hkept
      · have hdevice := h.drives.others p.device d hi hd
        have hkept := Desk.control_apply h.settled.sound disk hlist (hdevice path hmem)
        exact ⟨hdevice.modifyPath p.path (by rwa [GranularArray.toList_withItems]),
          fun v hv => Desk.shows_apply_other h.settled.sound disk hlist (hdevice path hmem) hv⟩
    · rw [if_neg happlied] at hsettled ⊢
      refine h.modifyDevice hd (by rfl) hsettled (fun hi => ?_) fun hi => ?_
      · subst hi
        have hshown := h.shows d hd
        rw [← PathId.shown_of_not_applied (Bool.eq_false_iff.mpr happlied)] at hshown
        exact ⟨h.drives.paths d hd, hshown⟩
      · exact ⟨h.drives.others p.device d hi hd, fun _ hv => hv⟩

/-- A switch is none of the controls that volumes are written to. -/
theorem shows_writeVolume {desk : Desk} (hsound : desk.Sound) {v : Option VolumeControl}
    (hv : ∀ w, v = some w → w.Settled desk) (percent : Int) {value : Int} (h : desk.card.Shows name value) :
    (writeVolume? desk v percent).1.card.Shows name value := by
  refine writeVolume?_induction (I := fun card => card.Shows name value) hsound hv percent ?_ h
  intro changed id c op hc htype hw
  refine h.write_other hw fun k hk _ hswitch => ?_
  obtain rfl : c = k := Option.some.inj (hc.symm.trans hk)
  rw [htype] at hswitch
  cases hswitch

/-- Whatever is done, the switch shows whether the device is in use. -/
theorem Follows.move {mask? : Option DeviceMask} (h : m.Follows i name) (hmove : Move disk mask? m n) :
    n.Follows i name := by
  have hsettled := h.settled.move hmove
  cases hmove with
  | path p => exact h.applyPath disk p
  | noted _ _ hf =>
    refine ⟨hsettled, h.drives.modifyStream fun s _ hs => (hf s).holds hs, fun d hd => h.shows d ?_⟩
    rwa [modifyStream, Model.devices_modifyStream] at hd
  | @volume id s first second left right hs hfirst hsecond =>
    obtain ⟨hsound, hgrows, -⟩ := writeVolume?_spec h.settled.sound (h.settled.stream hs).left left
    have hright := ((h.settled.later hgrows).streams s (Model.mem_of_stream? hs)).right
    refine ⟨hsettled, h.drives.modifyStream fun _ _ ht => ⟨ht.cases, fun _ _ => trivial, fun _ _ => trivial⟩,
      fun d hd => ?_⟩
    rw [Model.devices_modifyStream] at hd
    have hfirstShown := shows_writeVolume h.settled.sound (h.settled.stream hs).left left (h.shows d hd)
    rw [← hfirst] at hsound hright hfirstShown
    rw [hsecond]
    exact shows_writeVolume hsound hright right hfirstShown
  | @useCase id s u c useCase caseOf done hs hu hc hdone =>
    have hmem := GranularArray.mem_of_get? hu
    have hcase := GranularArray.mem_of_get? hc
    have hlist := (h.settled.stream hs).cases useCase hmem caseOf hcase
    have hother := (h.drives.streams s (Model.mem_of_stream? hs)).cases useCase hmem caseOf hcase
    refine ⟨hsettled, h.drives.modifyStream fun t _ ht => ht.modifyCase u c ?_, fun d hd => ?_⟩
    · rw [GranularArray.toList_withItems, hdone]
      exact Desk.control_apply h.settled.sound disk hlist hother
    · rw [Model.devices_modifyStream] at hd
      rw [hdone]
      exact Desk.shows_apply_other h.settled.sound disk hlist hother (h.shows d hd)

end Manager

open Config

/-- Models of the same outlines have devices in the same places. -/
theorem Model.get?_of_outlines {m n : Model} (h : m.outlines = n.outlines) {i : Nat} {d : Device}
    (hd : m.devices.get? i = some d) : ∃ e, n.devices.get? i = some e ∧ e.outline = d.outline := by
  obtain ⟨e, he, houtline⟩ := exists_of_outlines h hd
  exact ⟨e, he, houtline.symm⟩

/-- Every device but the global one has a switch of its own, which is off before the load, and which the load
does not initialize. -/
structure Config.Switched (disk : Disk) (rack : Rack) (file : Location) (S : Nat → String) (loaded : Loaded) :
    Prop where
  drives : ∀ i d, loaded.model.devices.get? i = some d → d.isGlobal = false → loaded.model.Drives i (S i)
  off : ∀ i d, loaded.model.devices.get? i = some d → d.isGlobal = false →
    rack.Shows loaded.mixer.card (S i) 0
  untouched : ∀ i d, loaded.model.devices.get? i = some d → d.isGlobal = false →
    ¬ Initializes disk rack file (S i)

theorem Config.Switched.proper {disk : Disk} {rack : Rack} {file : Location} {S : Nat → String} {loaded : Loaded}
    (h : Switched disk rack file S loaded)
    (hpaths : ∀ s ∈ loaded.model.streams, s.enablePath ≠ some .off ∧ s.disablePath ≠ some .on) :
    loaded.model.Proper := by
  refine ⟨fun d hd hglobal => ?_, hpaths⟩
  obtain ⟨i, hi⟩ := GranularArray.mem_toList_iff.mp hd
  exact (h.drives i d hi hglobal).declared d hi

/-- A switch is on exactly if the device has holders. -/
theorem Model.shown_holders (m : Model) (mask : DeviceMask) :
    PathId.shown (m.holders mask) = if m.streams.any (·.routed.reaches mask) = true then 1 else 0 := by
  rw [PathId.shown, holders]
  by_cases hany : m.streams.any (·.routed.reaches mask) = true
  · have hpos := List.countP_pos_iff.mpr (List.any_eq_true.mp hany)
    rw [if_pos hany, if_neg (Nat.ne_of_gt hpos)]
  · rw [if_neg hany, if_pos (List.countP_eq_zero.mpr fun s hs hreach => hany (List.any_eq_true.mpr ⟨s, hs, hreach⟩))]

namespace Manager

/-- A configuration is loaded with every switch showing that its device is not in use. -/
theorem follows_of_load {disk : Disk} {rack after : Rack} {file : Location} {loaded : Loaded}
    (hload : load disk rack file = (.ok loaded, after)) {S : Nat → String}
    (hswitched : Config.Switched disk rack file S loaded) {card : Card}
    (hcard : after.card? loaded.mixer.card = some card) {i : Nat} {d : Device}
    (hd : loaded.model.devices.get? i = some d) (hglobal : d.isGlobal = false) :
    (ofLoaded card loaded).Follows i (S i) := by
  obtain ⟨found, hfound, hsound, hholds⟩ := settled_of_load hload
  obtain rfl : card = found := Option.some.inj (hcard.symm.trans hfound)
  have hshows := (shows_of_load hload (hswitched.off i d hd hglobal) (hswitched.untouched i d hd hglobal)).of_card hcard
  refine ⟨⟨hsound, hholds⟩, hswitched.drives i d hd hglobal, fun e he => ?_⟩
  obtain ⟨hzero, -⟩ := (atRest_of_load hload).unused e (GranularArray.mem_of_get? he)
  rw [hzero]
  exact hshows

/-- The switches of a loaded configuration: after any requests that take devices as a whole, the switch of a
device is on if a stream is routed to the device and off if none is; in particular it is off once every
stream has been released as often as it was acquired. -/
theorem values_of_load {disk : Disk} {rack after : Rack} {file : Location} {loaded : Loaded}
    (hload : load disk rack file = (.ok loaded, after)) {S : Nat → String}
    (hswitched : Config.Switched disk rack file S loaded)
    (hpaths : ∀ s ∈ loaded.model.streams, s.enablePath ≠ some .off ∧ s.disablePath ≠ some .on)
    {card : Card} (hcard : after.card? loaded.mixer.card = some card) {requests : List (Disk × Request)}
    (hwhole : ∀ e ∈ requests, e.2.Whole loaded.model.outlines) {m : Manager}
    (hm : m = (ofLoaded card loaded).serveAll requests) {i : Nat} {d : Device}
    (hd : m.model.devices.get? i = some d) (hglobal : d.isGlobal = false) :
    m.desk.card.values (S i) = [if m.model.streams.any (·.routed.reaches d.mask) = true then 1 else 0]
      ∧ ((∀ id, (ofLoaded card loaded).acquired id requests = (ofLoaded card loaded).released id requests) →
        m.desk.card.values (S i) = [0]) := by
  have hrest := atRest_of_load hload
  obtain ⟨hcounted, houtlines⟩ :=
    counted_serveAll (m := ofLoaded card loaded) (hrest.counted (hswitched.proper hpaths)) hwhole
  rw [← hm] at hcounted houtlines
  obtain ⟨first, hfirst, houtline⟩ := Model.get?_of_outlines houtlines hd
  have hmask : first.mask = d.mask := congrArg DeviceOutline.mask houtline
  have hfirstGlobal : first.isGlobal = false := by rwa [Device.isGlobal, hmask]
  have hfollows : m.Follows i (S i) := by
    rw [hm]
    exact serveAll_induction (fun _ _ _ _ h => serve_moves (fun _ _ hmove h => h.move hmove) h)
      (follows_of_load hload hswitched hcard hfirst hfirstGlobal)
  have hvalue := (hfollows.shows d hd).values_eq
  rw [hcounted.uses i d hd hglobal] at hvalue
  refine ⟨by rw [hvalue, Model.shown_holders], fun hreleased => ?_⟩
  have hholders := holders_of_released hrest.idle hreleased d.mask
  rw [← hm] at hholders
  rw [hvalue, hholders]
  rfl

theorem switched_sco : Config.Switched scoDisk ⟨[scoCard]⟩ ⟨"a"⟩ (fun _ => "S") scoLoaded := by
  have hplace : ∀ {i d}, scoLoaded.model.devices.get? i = some d → i = 0 := by
    intro i d hd
    have hlt := (Array.getElem?_eq_some_iff.mp hd).1
    exact Nat.lt_one_iff.mp hlt
  have hshows : scoCard.Shows "S" 0 := by
    refine ⟨0, .start (.switch "S" 1), rfl, rfl, rfl, rfl, rfl, fun j hj => ?_⟩
    have hlt := (List.getElem?_eq_some_iff.mp hj).1
    exact Nat.lt_one_iff.mp hlt
  refine ⟨fun i d hd _ => ?_, fun _ _ _ _ => ⟨scoCard, rfl, hshows⟩,
    fun _ _ _ _ => not_initializes (leavesAlone_of_events (by decide) readTree_sco (by decide +kernel))⟩
  obtain rfl := hplace hd
  refine ⟨?_, ?_, fun j e hj he => absurd (hplace he) hj, ?_⟩
  · rintro _ ⟨⟩
    decide
  · rintro _ ⟨⟩ p hp
    rcases List.mem_cons.mp hp with rfl | hp
    · rw [Path.Drives, if_pos rfl]
      exact ⟨_, rfl, rfl, rfl, rfl⟩
    · obtain rfl := List.mem_singleton.mp hp
      rw [Path.Drives, if_neg (by decide), if_pos rfl]
      exact ⟨_, rfl, rfl, rfl, rfl⟩
  · intro s hs
    obtain rfl := List.mem_singleton.mp hs
    exact Stream.holds_blank _ _ _

/-- The switch is on while the device is routed to, and off after the release. -/
theorem values_of_load_sco :
    let acquire := (scoDisk, Request.acquire 0x70#32 .pcm16)
    let release := (scoDisk, Request.release ⟨.anonymous, 0⟩)
    let m := ofLoaded scoCard.openMixer.2 scoLoaded
    load scoDisk ⟨[scoCard]⟩ ⟨"a"⟩ = (.ok scoLoaded, ⟨[scoCard.openMixer.2]⟩)
      ∧ Config.Switched scoDisk ⟨[scoCard]⟩ ⟨"a"⟩ (fun _ => "S") scoLoaded
      ∧ (m.serveAll [acquire]).desk.card.values "S" = [1]
      ∧ (m.serveAll [acquire, release]).desk.card.values "S" = [0] := by
  intro acquire release m
  have hacquire : acquire.2.Whole scoLoaded.model.outlines := whole_sco (Or.inr rfl)
  have hrelease : release.2.Whole scoLoaded.model.outlines := whole_sco (Or.inl rfl)
  have hone : ∀ e ∈ [acquire], e.2.Whole scoLoaded.model.outlines := by
    rw [List.forall_mem_singleton]
    exact hacquire
  have htwo : ∀ e ∈ [acquire, release], e.2.Whole scoLoaded.model.outlines := by
    rw [List.forall_mem_cons]
    exact ⟨hacquire, by rw [List.forall_mem_singleton]; exact hrelease⟩
  have hstate : ((m.serveAll [acquire]).model.devices.get? 0).any (fun d => decide (d.isGlobal = false
      ∧ (m.serveAll [acquire]).model.streams.any (·.routed.reaches d.mask) = true)) = true := by decide +kernel
  have hlater : ((m.serveAll [acquire, release]).model.devices.get? 0).any
      (fun d => decide (d.isGlobal = false)) = true := by decide +kernel
  obtain ⟨d, hd, hrouted⟩ := (Option.any_eq_true _ _).mp hstate
  obtain ⟨hglobal, hany⟩ := of_decide_eq_true hrouted
  obtain ⟨e, he, hdevice⟩ := (Option.any_eq_true _ _).mp hlater
  have heglobal := of_decide_eq_true hdevice
  have hvalue := (values_of_load load_sco switched_sco proper_sco.paths rfl hone rfl hd hglobal).1
  rw [if_pos hany] at hvalue
  have hbefore : ∀ s ∈ m.model.streams, s.refCount = 0 := by decide +kernel
  have hafter : ∀ s ∈ (m.serveAll [acquire, release]).model.streams, s.refCount = 0 := by decide +kernel
  have hreleased : ∀ id, m.acquired id [acquire, release] = m.released id [acquire, release] := by
    intro id
    have hbalance := instances_serveAll m [acquire, release] id
    rw [Model.instances_of_idle hbefore, Model.instances_of_idle hafter] at hbalance
    omega
  exact ⟨load_sco, switched_sco, hvalue,
    (values_of_load load_sco switched_sco proper_sco.paths rfl htwo rfl he heglobal).2 hreleased⟩

end Manager

end SoundRouting
