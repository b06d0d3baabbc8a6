import SoundRouting.Proofs.Load.Chain
import SoundRouting.Proofs.Load.Rest
import SoundRouting.Proofs.UseCounts
/-!
The manager of a loaded configuration counts right.
-/
namespace SoundRouting

open Config

def Manager.ofLoaded (card : Card) (loaded : Loaded) : Manager :=
  ⟨⟨card, loaded.mixer⟩, loaded.model⟩

/-- Every device but the global one has both counted paths, and no stream counts backwards with the paths
of its own. -/
structure Model.Proper (m : Model) : Prop where
  declared : ∀ d ∈ m.devices.toList, d.isGlobal = false →
    d.outline.declares .on = true ∧ d.outline.declares .off = true
  paths : ∀ s ∈ m.streams, s.enablePath ≠ some .off ∧ s.disablePath ≠ some .on

namespace Model

variable {m : Model}

theorem mem_outlines {o : DeviceOutline} : o ∈ m.outlines ↔ ∃ d ∈ m.devices.toList, d.outline = o :=
  List.mem_map

/-- Devices at rest have no bits in common. -/
theorem AtRest.separate (h : m.AtRest) : m.outlines.Pairwise fun a b => a.mask.reaches b.mask = false := by
  have hmasks : m.masks.Pairwise fun a b => DeviceMask.reaches a b = false :=
    h.distinct.imp_of_mem fun ha hb hne =>
      DeviceMask.not_reaches_of_isListed (h.listed _ ha) (h.listed _ hb) hne
  rw [masks, List.pairwise_map] at hmasks
  rw [outlines, List.pairwise_map]
  exact hmasks

theorem AtRest.listed_outline (h : m.AtRest) {o : DeviceOutline} (ho : o ∈ m.outlines) :
    DeviceMask.IsListed o.mask := by
  obtain ⟨d, hd, rfl⟩ := mem_outlines.mp ho
  exact h.listed _ (List.mem_map.mpr ⟨d, hd, rfl⟩)

theorem AtRest.counting (h : m.AtRest) (hproper : m.Proper) : Counting m.outlines := by
  refine ⟨fun o ho => h.listed_outline ho, h.separate, fun o ho hne => ?_⟩
  obtain ⟨d, hd, rfl⟩ := mem_outlines.mp ho
  exact hproper.declared d hd (beq_eq_false_iff_ne.mpr hne)

theorem AtRest.holders_eq_zero (h : m.AtRest) (mask : DeviceMask) : m.holders mask = 0 := by
  rw [holders, List.countP_eq_zero]
  intro s hs
  rw [(h.idle s hs).2, DeviceMask.reaches_nothing]
  exact Bool.false_ne_true

/-- A model at rest is regular. -/
theorem AtRest.regular (h : m.AtRest)
    (hpaths : ∀ s ∈ m.streams, s.enablePath ≠ some .off ∧ s.disablePath ≠ some .on) : m.Regular := by
  refine ⟨fun o ho => h.listed_outline ho, h.separate, fun s hs => ?_⟩
  obtain ⟨henable, hdisable⟩ := hpaths s hs
  have hnothing := (h.idle s hs).2
  refine ⟨Or.inl hnothing, fun o _ _ => ?_, henable, hdisable⟩
  rw [hnothing]
  exact DeviceMask.aligned_nothing o.mask

/-- A model at rest is counted. -/
theorem AtRest.counted (h : m.AtRest) (hproper : m.Proper) : m.Counted := by
  refine ⟨h.counting hproper, (h.regular hproper.paths).streams, fun i d hd _ => ?_⟩
  rw [h.holders_eq_zero, (h.unused d (GranularArray.mem_of_get? hd)).1]

end Model

namespace Manager

/-- A configuration with one device, switched by one control, and one stream. -/
def scoText : String :=
  "<audiohal><mixer card='0'/>" ++
  "<device name='sco'><path name='on'><ctl name='S' val='1'/></path>" ++
  "<path name='off'><ctl name='S' val='0'/></path></device>" ++
  "<stream type='pcm' dir='out'/></audiohal>"

def scoDisk : Disk :=
  ⟨.folder [("a", .file scoText.toUTF8.toList)], ⟨"/"⟩⟩

def scoCard : Card :=
  .ofControls 0 none [.switch "S" 1]

def scoLoaded : Loaded :=
  let switch (value : Int) : GranularArray Assignment := ⟨#[⟨"S", .all, .int value, .bound 0 .switch⟩], 1⟩
  { model :=
      { devices := ⟨#[⟨0x70#32, 0, ⟨#[⟨.on, switch 1⟩, ⟨.off, switch 0⟩], 2⟩⟩], 1⟩
        anonymous := ⟨#[.blank none ⟨.pcmOut, 0, none, 0, 0, 0⟩ unlimitedInstances], 1⟩
        named := .empty
        pathNames := ⟨#["off", "on"], 2⟩
        outputs := 0x70#32
        inputs := 0x0#32 }
    mixer := ⟨0, [0]⟩
    card := 0 }

def scoElements : List Xml.Element :=
  let control (value : String) : Xml.Element := .mk "ctl" 1 [("name", "S"), ("val", value)] []
  [.mk "audiohal" 1 [] [.mk "mixer" 1 [("card", "0")] [],
    .mk "device" 1 [("name", "sco")]
      [.mk "path" 1 [("name", "on")] [control "1"], .mk "path" 1 [("name", "off")] [control "0"]],
    .mk "stream" 1 [("type", "pcm"), ("dir", "out")] []]]

/-- A file with this text is read as these elements. -/
theorem readTree_scoText {disk : Disk} {p : Location} (hfind : disk.find p = .ok (.ofText scoText)) :
    (readTree disk p).toOption.map eventsOfAll = some (eventsOfAll scoElements) := by
  have htext : scoText.toList = _ := toList_append_of (toList_append_of
    (toList_append_of String.toList_ofList String.toList_ofList) String.toList_ofList) String.toList_ofList
  refine readTree_of_find hfind htext fun t ht => ?_
  rw [Xml.elements?, ht]
  decide +kernel

theorem readTree_sco : (readTree scoDisk ⟨"/a"⟩).toOption.map eventsOfAll = some (eventsOfAll scoElements) :=
  readTree_scoText (congrArg Except.ok (FileTree.file_toUTF8 scoText))

theorem load_sco : load scoDisk ⟨[scoCard]⟩ ⟨"a"⟩ = (.ok scoLoaded, ⟨[scoCard.openMixer.2]⟩) := by
  have hstart : TakesUp scoDisk ⟨[scoCard]⟩ ⟨"a"⟩ [] ⟨"/a"⟩ _ := TakesUp.start (by decide)
  rw [(hstart.load_of_events readTree_sco (by decide +kernel) rfl scoLoaded (by decide +kernel)).2, Prod.mk.injEq]
  exact ⟨rfl, by decide +kernel⟩

theorem proper_sco : scoLoaded.model.Proper :=
  ⟨by decide, by decide⟩

/-- Taking all of the device, or nothing of it. -/
theorem whole_sco {r : Request} (h : r.mask? = none ∨ r.mask? = some 0x70#32) :
    r.Whole scoLoaded.model.outlines := by
  intro mask hmask
  rcases h with h | h
  · rw [h] at hmask
    cases hmask
  · obtain rfl := Option.some.inj (h.symm.trans hmask)
    decide

end Manager

end SoundRouting
