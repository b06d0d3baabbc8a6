import SoundRouting.Proofs.Load.Declared
import SoundRouting.Proofs.Loaded
/-!
A model is loaded well formed.

Its path names and ids determine each other, every id that a device or a stream uses is that of a name, devices
and streams are declared once, and nothing is in use. Giving back unused room changes nothing of that: apart from
the capacities of its arrays, the model is the one that the files have declared.
-/
namespace SoundRouting

open Config

/-! ### Models without the capacities of their arrays -/

namespace GranularArray

variable {α : Type}

/-- The elements, each as a view has it, without any capacity. -/
def bare (view : α → α) (a : GranularArray α) : GranularArray α :=
  ⟨a.items.map view, 0⟩

theorem bare_compress (view : α → α) (a : GranularArray α) : a.compress.bare view = a.bare view := rfl

theorem bare_map {view f : α → α} (h : ∀ x, view (f x) = view x) (a : GranularArray α) :
    (a.map f).bare view = a.bare view := by
  rw [bare, map, Array.map_map, funext h (f := view ∘ f), bare]

@[simp] theorem isCompressed_compress (a : GranularArray α) : a.compress.isCompressed = true :=
  beq_self_eq_true _

/-- All elements that have been changed pass a test that every changed element passes. -/
theorem all_compress_map {test : α → Bool} {f : α → α} (h : ∀ x, test (f x) = true) (a : GranularArray α) :
    (a.map f).compress.items.all test = true := by
  rw [compress, map, Array.all_map, Array.all_eq_true]
  exact fun i _ => h _

end GranularArray

def Path.bare (p : Path) : Path :=
  { p with assignments := p.assignments.bare fun a => a }

def Device.bare (d : Device) : Device :=
  { d with paths := d.paths.bare Path.bare }

def Case.bare (c : Case) : Case :=
  { c with assignments := c.assignments.bare fun a => a }

def UseCase.bare (u : UseCase) : UseCase :=
  { u with cases := u.cases.bare Case.bare }

def Stream.bare (s : Stream) : Stream :=
  { s with useCases := s.useCases.bare UseCase.bare, constants := s.constants.bare fun c => c }

def Model.bare (m : Model) : Model :=
  { m with
    devices := m.devices.bare Device.bare
    anonymous := m.anonymous.bare Stream.bare
    named := m.named.bare Stream.bare
    pathNames := m.pathNames.bare fun name => name }

theorem Path.bare_compress (p : Path) : p.compress.bare = p.bare := rfl

theorem Case.bare_compress (c : Case) : c.compress.bare = c.bare := rfl

theorem Device.bare_compress (d : Device) : d.compress.bare = d.bare := by
  have hpaths : ((d.paths.map Path.compress).compress).bare Path.bare = d.paths.bare Path.bare :=
    GranularArray.bare_map Path.bare_compress d.paths
  rw [bare, compress, hpaths, bare]

theorem UseCase.bare_compress (u : UseCase) : u.compress.bare = u.bare := by
  have hcases : ((u.cases.map Case.compress).compress).bare Case.bare = u.cases.bare Case.bare :=
    GranularArray.bare_map Case.bare_compress u.cases
  rw [bare, compress, hcases, bare]

theorem Stream.bare_compress (s : Stream) : s.compress.bare = s.bare := by
  have huseCases : ((s.useCases.map UseCase.compress).compress).bare UseCase.bare = s.useCases.bare UseCase.bare :=
    GranularArray.bare_map UseCase.bare_compress s.useCases
  rw [bare, compress, huseCases, GranularArray.bare_compress, bare]

/-- Giving back unused room changes capacities only. -/
theorem Model.bare_compress (m : Model) : m.compress.bare = m.bare := by
  have hdevices : ((m.devices.map Device.compress).compress).bare Device.bare = m.devices.bare Device.bare :=
    GranularArray.bare_map Device.bare_compress m.devices
  have hstreams : ∀ a : GranularArray Stream,
      ((a.map Stream.compress).compress).bare Stream.bare = a.bare Stream.bare :=
    GranularArray.bare_map Stream.bare_compress
  rw [bare, compress, hdevices, hstreams, hstreams, GranularArray.bare_compress, bare]

theorem Device.isCompressed_compress (d : Device) : d.compress.isCompressed = true := by
  rw [isCompressed, compress, GranularArray.isCompressed_compress, Bool.true_and]
  exact GranularArray.all_compress_map (fun p => p.assignments.isCompressed_compress) d.paths

theorem UseCase.isCompressed_compress (u : UseCase) : u.compress.isCompressed = true := by
  rw [isCompressed, compress, GranularArray.isCompressed_compress, Bool.true_and]
  exact GranularArray.all_compress_map (fun c => c.assignments.isCompressed_compress) u.cases

theorem Stream.isCompressed_compress (s : Stream) : s.compress.isCompressed = true := by
  have huseCases := GranularArray.all_compress_map UseCase.isCompressed_compress s.useCases
  rw [isCompressed, compress, GranularArray.isCompressed_compress, huseCases, GranularArray.isCompressed_compress]
  rfl

/-- All unused room is given back. -/
theorem Model.isCompressed_compress (m : Model) : m.compress.isCompressed = true := by
  have hdevices := GranularArray.all_compress_map Device.isCompressed_compress m.devices
  have hanonymous := GranularArray.all_compress_map Stream.isCompressed_compress m.anonymous
  have hnamed := GranularArray.all_compress_map Stream.isCompressed_compress m.named
  simp only [isCompressed, compress, GranularArray.isCompressed_compress, hdevices, hanonymous, hnamed, Bool.and_true]

/-! ### Well-formed models -/

/-- The bits of a union of device masks tell whether one of them is of an input device. -/
theorem DeviceMask.isInput_or (a b : DeviceMask) : (a ||| b).isInput = (a.isInput || b.isInput) := by
  rw [isInput_eq, isInput_eq, isInput_eq, BitVec.getLsbD_or]

/-- The union of the masks of input devices has the direction bit exactly if there is an input device. -/
theorem Declarations.isInput_unionOf (devices : List DeviceOutline) :
    (unionOf true devices).isInput = devices.any (·.mask.isInput) := by
  induction devices using List.reverseRecOn with
  | nil => rfl
  | append_singleton devices o ih =>
    rw [unionOf_append, List.any_append, List.any_cons, List.any_nil, Bool.or_false, ← ih]
    cases ho : o.mask.isInput with
    | false => rw [if_neg (by decide), Bool.or_false]
    | true => rw [if_pos (by decide), DeviceMask.isInput_or, ho]

namespace Model

variable {m : Model}

/-- Each name is that of one id if there is no name twice. -/
theorem pathId?_eq_some_iff (hnames : m.pathNames.toList.Nodup) {name : String} {id : PathId} :
    m.pathId? name = some id ↔ m.pathName? id = some name := by
  rw [pathName?, ← GranularArray.getElem?_toList]
  refine ⟨getElem?_of_pathId?, fun hname => ?_⟩
  have hmem := List.mem_of_getElem? hname
  cases hid : m.pathId? name with
  | none => simpa using lastPlace?_eq_none_iff.mp hid name hmem
  | some other =>
    have hother := getElem?_of_pathId? hid
    obtain ⟨hlt, -⟩ := List.getElem?_eq_some_iff.mp hname
    rw [(List.getElem?_inj hlt hnames).mp (hname.trans hother.symm)]

/-- A model in which everything refers to something that is there, and nothing is declared twice or in use. -/
structure WellFormed (m : Model) : Prop where
  firstNames : ["off", "on"] <+: m.pathNames.toList
  names : m.pathNames.toList.Nodup
  ids : ∀ name id, m.pathId? name = some id ↔ m.pathName? id = some name
  devicePaths : ∀ d ∈ m.devices.toList, ∀ p ∈ d.paths.toList, p.id < m.pathNames.size
  streamPaths : ∀ s ∈ m.streams, ∀ id, s.enablePath = some id ∨ s.disablePath = some id → id < m.pathNames.size
  distinctPaths : ∀ d ∈ m.devices.toList, (d.paths.toList.map (·.id)).Nodup
  listed : ∀ d ∈ m.devices.toList, ∃ name, DeviceMask.ofName? name = some d.mask
  disjoint : m.devices.toList.Pairwise fun a b => a.mask.isInput = b.mask.isInput →
    a.mask.deviceBits &&& b.mask.deviceBits = DeviceMask.nothing
  oneGlobal : m.devices.toList.countP (·.isGlobal) ≤ 1
  outputs : m.outputs = Declarations.unionOf false m.outlines
  inputs : m.inputs = Declarations.unionOf true m.outlines
  inputBit : m.inputs.isInput = m.devices.toList.any (·.mask.isInput)
  anonymous : ∀ s ∈ m.anonymous.toList, s.name = none ∧ s.type ∈ [.pcmOut, .pcmIn, .compressOut, .compressIn]
  named : ∀ s ∈ m.named.toList, s.name ≠ none
  distinctNames : (m.named.toList.map (·.name)).Nodup
  global : ∀ s ∈ m.streams, s.type = .global ↔ s.name = some "global"
  unused : ∀ d ∈ m.devices.toList, d.useCount = 0
  idle : ∀ s ∈ m.streams, s.refCount = 0 ∧ s.routed = DeviceMask.nothing
  compressed : m.isCompressed = true

/-- Device masks that do not lead to each other are disjoint if they are of one direction. -/
theorem disjoint_of_not_reaches {a b : DeviceMask} (h : a.reaches b = false) (hdir : a.isInput = b.isInput) :
    a.deviceBits &&& b.deviceBits = DeviceMask.nothing := by
  by_contra hne
  obtain ⟨i, hi⟩ := DeviceMask.meets_iff.mp (bne_iff_ne.mpr hne : a.deviceBits.meets b.deviceBits = true)
  simp only [DeviceMask.getLsbD_deviceBits, Bool.and_eq_true, decide_eq_true_eq] at hi
  obtain ⟨⟨ha, hne⟩, hb, -⟩ := hi
  rw [DeviceMask.isInput_eq, DeviceMask.isInput_eq] at hdir
  rw [DeviceMask.reaches_iff.mpr ⟨hdir, i, hne, ha, hb⟩] at h
  cases h

/-- A model at rest with declarations that go together is well formed once its room is given back. -/
theorem AtRest.wellFormed (h : m.AtRest) (hdeclared : m.declarations.WellFormed) (hcompressed : m.isCompressed = true) :
    m.WellFormed := by
  have hdevices : ∀ d ∈ m.devices.toList, d.outline ∈ m.declarations.devices := fun d hd => List.mem_map_of_mem hd
  have hanonymous : ∀ s ∈ m.anonymous.toList, s.outline ∈ m.declarations.anonymous := fun s hs =>
    List.mem_map_of_mem hs
  have hnamed : ∀ s ∈ m.named.toList, s.outline ∈ m.declarations.named := fun s hs => List.mem_map_of_mem hs
  refine
    { firstNames := hdeclared.first
      names := hdeclared.names
      ids := fun name id => pathId?_eq_some_iff hdeclared.names
      devicePaths := fun d hd p hp => hdeclared.devicePaths _ (hdevices d hd) p.id (List.mem_map_of_mem hp)
      streamPaths := fun s hs id hid => hdeclared.streamPaths s.outline ?_ id ?_
      distinctPaths := fun d hd => (h.unused d hd).2
      listed := fun d hd => h.listed _ (List.mem_map_of_mem hd)
      disjoint := ?_
      oneGlobal := ?_
      outputs := hdeclared.outputs
      inputs := hdeclared.inputs
      inputBit := ?_
      anonymous := fun s hs => hdeclared.anonymous _ (hanonymous s hs)
      named := fun s hs => (hdeclared.named _ (hnamed s hs)).1
      distinctNames := ?_
      global := fun s hs => ?_
      unused := fun d hd => (h.unused d hd).1
      idle := h.idle
      compressed := hcompressed }
  · exact List.mem_append.mpr ((List.mem_append.mp hs).imp (hanonymous s) (hnamed s))
  · exact List.mem_append.mpr (hid.imp Option.mem_toList.mpr Option.mem_toList.mpr)
  · have hseparate := h.separate
    rw [outlines, List.pairwise_map] at hseparate
    exact hseparate.imp fun hreaches => disjoint_of_not_reaches hreaches
  · have hcount := List.nodup_iff_count_le_one.mp h.distinct DeviceMask.nothing
    rwa [List.count, masks, List.countP_map] at hcount
  · have hinputs : m.inputs = Declarations.unionOf true m.outlines := hdeclared.inputs
    rw [hinputs, Declarations.isInput_unionOf, outlines, List.any_map]
    rfl
  · have hdistinct := hdeclared.distinct
    rwa [declarations, List.map_map] at hdistinct
  · rcases List.mem_append.mp hs with hs | hs
    · obtain ⟨hname, htype⟩ := hdeclared.anonymous _ (hanonymous s hs)
      have hanonymous : s.type ≠ .global := by
        intro hglobal
        rw [show s.outline.type = .global from hglobal] at htype
        exact absurd htype (by decide)
      have hunnamed : s.name ≠ some "global" := by
        rw [show s.name = none from hname]
        exact (Option.some_ne_none "global").symm
      exact iff_of_false hanonymous hunnamed
    · exact (hdeclared.named _ (hnamed s hs)).2

end Model

/-- A configuration is loaded well formed. The names of its paths stand in the order in which they have been
seen first, behind those of the counted paths. But for the capacities of its arrays the model is the one that
the events of its files have led to. -/
theorem wellFormed_of_load {disk : Disk} {rack after : Rack} {file : Location} {loaded : Loaded}
    (h : load disk rack file = (.ok loaded, after)) : loaded.model.WellFormed
      ∧ ∃ done s, Course disk rack file done s [] ∧ loaded.model.pathNames.toList = (namesSeen done).eraseDups
        ∧ loaded.model.bare = s.model.bare := by
  obtain ⟨done, s, hstops⟩ := load_stops disk rack file
  rw [h] at hstops
  obtain ⟨hcourse, t, hfinish, -⟩ := hstops.course_of_ok
  obtain ⟨desk, -, rfl, -⟩ := runs_finish hfinish
  have hdeclared := wellFormed_of_reaches hcourse.reaches
  rw [← Model.declarations_compress] at hdeclared
  exact ⟨(atRest_of_load h).wellFormed hdeclared s.model.isCompressed_compress, done, s, hcourse,
    names_of_course hcourse, s.model.bare_compress⟩

/-- A configuration in which an early write makes the control appear that everything else is about. -/
def phoneDisk : Disk :=
  ⟨.folder [("a", .ofText "<audiohal><mixer card='0'><pre_init><ctl name='T' val='1'/></pre_init>
    <init><ctl name='N' val='1'/></init></mixer>
    <device name='mic'><path name='near'><ctl name='N' val='0'/></path></device>
    <stream name='global' type='hw'><enable path='near'/></stream></audiohal>")], ⟨"/"⟩⟩

def phoneRack : Rack :=
  ⟨[.ofControls 0 none [.switch "T" 1, (Control.switch "N" 1).appearingWith "T"], .ofControls 1 none [.switch "N" 1]]⟩

def phoneLoaded : Loaded :=
  { model :=
      { devices := ⟨#[⟨0x80000004#32, 0, ⟨#[⟨2, ⟨#[⟨"N", .all, .int 0, .bound 1 .switch⟩], 1⟩⟩], 1⟩⟩], 1⟩
        anonymous := .empty
        named := ⟨#[{ Stream.blank (some "global") ⟨.global, 0, none, 0, 0, 0⟩ unlimitedInstances with
          enablePath := some 2 }], 1⟩
        pathNames := ⟨#["off", "on", "near"], 3⟩
        outputs := 0x0#32
        inputs := 0x80000004#32 }
    mixer := ⟨0, [0, 1]⟩
    card := 0 }

/-- The cards after it: both controls of the first one are on. -/
def phoneAfter : Rack :=
  let control (c : Control) : LiveControl := { LiveControl.start c with present := true, ints := [1] }
  ⟨[{ number := 0, id := none, opens := 2
      controls := [control (.switch "T" 1), control ((Control.switch "N" 1).appearingWith "T")]
      log := [⟨"T", .value 0 1⟩, ⟨"N", .value 0 1⟩] }, .ofControls 1 none [.switch "N" 1]]⟩

def phoneElements : List Xml.Element :=
  let control (line : Nat) (name value : String) : Xml.Element := .mk "ctl" line [("name", name), ("val", value)] []
  [.mk "audiohal" 1 []
    [.mk "mixer" 1 [("card", "0")] [.mk "pre_init" 1 [] [control 1 "T" "1"], .mk "init" 2 [] [control 2 "N" "1"]],
      .mk "device" 3 [("name", "mic")] [.mk "path" 3 [("name", "near")] [control 3 "N" "0"]],
      .mk "stream" 4 [("name", "global"), ("type", "hw")] [.mk "enable" 4 [("path", "near")] []]]]

set_option maxRecDepth 8000 in
theorem readTree_phone : (readTree phoneDisk ⟨"/a"⟩).toOption.map eventsOfAll = some (eventsOfAll phoneElements) := by
  refine readTree_of_find rfl String.toList_ofList fun t ht => ?_
  rw [Xml.elements?, ht]
  decide +kernel

theorem load_phone : load phoneDisk phoneRack ⟨"a"⟩ = (.ok phoneLoaded, phoneAfter) := by
  have hstart : TakesUp phoneDisk phoneRack ⟨"a"⟩ [] ⟨"/a"⟩ _ := TakesUp.start (by decide)
  rw [(hstart.load_of_events readTree_phone (by decide +kernel) rfl phoneLoaded (by decide +kernel)).2, Prod.mk.injEq]
  exact ⟨rfl, by decide +kernel⟩

/-- It is loaded well formed; the path has the id behind those of the counted ones. -/
theorem wellFormed_of_load_phone : load phoneDisk phoneRack ⟨"a"⟩ = (.ok phoneLoaded, phoneAfter)
    ∧ phoneLoaded.model.WellFormed ∧ phoneLoaded.model.pathId? "near" = some 2 := by
  obtain ⟨hwell, -⟩ := wellFormed_of_load load_phone
  exact ⟨load_phone, hwell, (hwell.ids "near" 2).mpr rfl⟩

end SoundRouting
