import SoundRouting.Proofs.Load.Events
import SoundRouting.Proofs.Masks
/-!
What elements do, told by what becomes of the state.

An element that begins without a fault declares something: a mixer, a device, a path, a write, a stream,
or something of the stream that is open. The end of an element closes it, and the end of the writes that
come before everything else applies them. Nothing else happens to what has been loaded so far.
-/
namespace SoundRouting

/-- What stays of a stream whatever is opened, routed or set: its name, its type and its own paths. -/
structure StreamOutline where
  name : Option String
  type : StreamType
  enablePath : Option PathId
  disablePath : Option PathId
  deriving DecidableEq, Repr

def Stream.outline (s : Stream) : StreamOutline :=
  ⟨s.name, s.type, s.enablePath, s.disablePath⟩

/-- The paths that are applied when the stream is routed somewhere else. -/
def StreamOutline.ownPaths (o : StreamOutline) : List PathId :=
  o.enablePath.toList ++ o.disablePath.toList

namespace AttributeValues

def cardNumber? (a : AttributeValues) (rack : Rack) : Option Nat :=
  match a.get? .card, a.get? .name with
  | some text, none => Numeral.unsigned? text
  | none, some name => rack.numberOf? name
  | _, _ => none

/-- The elements that a write is for; none if their number is not one. -/
def selector? (a : AttributeValues) : Option Selector :=
  match a.get? .index with
  | none => some .all
  | some text => (Numeral.unsigned? text).map .at

/-- The value that a write declares in a file, which can be the contents of another one. -/
def value? (a : AttributeValues) (file : Location) : Option Value :=
  match a.get? .file, a.get? .value with
  | some other, _ => some (.pendingFile (file.resolve other))
  | none, some text => some (.pending text)
  | none, none => none

def assignment? (a : AttributeValues) (file : Location) : Option Assignment := do
  let name ← a.get? .name
  let index ← a.selector?
  let value ← a.value? file
  return .declared name index value

end AttributeValues

namespace Config

/-- The id of a path name among the names so far, and the names then. A name that is new comes last. -/
inductive Knows (names : List String) (name : String) : PathId → List String → Prop
  | known {id : PathId} (h : names[id]? = some name) : Knows names name id names
  | new (h : name ∉ names) : Knows names name names.length (names ++ [name])

def anonymousTypes : List StreamType := [.pcmOut, .pcmIn, .compressOut, .compressIn]

/-- The name of a stream is new, and its type goes with it. -/
structure Suits (m : Model) (name : Option String) (type : StreamType) : Prop where
  fresh : name ≠ none → ∀ s ∈ m.named.toList, s.name ≠ name
  anonymous : name = none → type ∈ anonymousTypes
  global : type = .global ↔ name = some "global"

/-- What an element makes of the stream that it stands in and of the cursor, volume controls apart. -/
inductive Extends (c : Cursor) (s : Stream) : ElementKind → Stream → Cursor → Prop
  | paths {e : ElementKind} (he : e ∈ [.enable, .disable]) (enable disable : Option PathId) :
      Extends c s e { s with enablePath := enable, disablePath := disable } c
  | useCase {useCases : GranularArray UseCase} (name : String)
      (h : s.useCases.push ⟨name, .empty⟩ = .ok useCases) :
      Extends c s .useCase { s with useCases := useCases } { c with useCase := some (useCases.size - 1) }
  | useCaseCase {place : Nat} {u : UseCase} {cases : GranularArray Case} (name : String)
      (hu : s.useCases.get? place = some u) (h : u.cases.push ⟨name, .empty⟩ = .ok cases)
      (hplace : c.useCase = some place) :
      Extends c s .useCaseCase { s with useCases := s.useCases.modify place fun u => { u with cases := cases } }
        { c with useCaseCase := some (cases.size - 1) }
  | constant (constants : GranularArray Constant) : Extends c s .constant { s with constants := constants } c

inductive Lists (a : Assignment) (s : State) : Option ElementKind → State → Prop
  | path {d p : Nat} {device : Device} {path : Path} {assignments : GranularArray Assignment}
      (hd : s.model.devices.get? d = some device) (hp : device.paths.get? p = some path)
      (h : path.assignments.push a = .ok assignments) (hdevice : s.cursor.device = some d)
      (hpath : s.cursor.path = some p) :
      Lists a s (some .path) { s with
        model := s.model.modifyDevice d fun dev =>
          { dev with paths := dev.paths.modify p fun q => { q with assignments := assignments } } }
  | useCaseCase {id : StreamId} {u c : Nat} {stream : Stream} {useCase : UseCase} {caseOf : Case}
      {assignments : GranularArray Assignment} (hs : s.model.stream? id = some stream)
      (hu : stream.useCases.get? u = some useCase) (hc : useCase.cases.get? c = some caseOf)
      (h : caseOf.assignments.push a = .ok assignments) (hstream : s.cursor.stream = some id)
      (huseCase : s.cursor.useCase = some u) (hcase : s.cursor.useCaseCase = some c) :
      Lists a s (some .useCaseCase) { s with
        model := s.model.modifyStream id fun st =>
          { st with
            useCases := st.useCases.modify u fun uc =>
              { uc with
                cases := uc.cases.modify c fun k => { k with assignments := assignments } } } }
  | init {list : GranularArray Assignment} (h : s.init.push a = .ok list) :
      Lists a s (some .init) { s with init := list }
  | preInit {list : GranularArray Assignment} (h : s.preInit.push a = .ok list) :
      Lists a s (some .preInit) { s with preInit := list }

/-- The union of the masks of the declared devices, with one more. A device of which every bit is taken
is not declared again. -/
inductive Admits (m : Model) (mask : DeviceMask) : DeviceMask → DeviceMask → Prop
  | global (hmask : mask = DeviceMask.nothing) (h : m.globalPlace? = none) :
      Admits m mask m.outputs m.inputs
  | input (hmask : mask ≠ DeviceMask.nothing) (hdir : mask.isInput = true) (h : m.inputs &&& mask ≠ mask) :
      Admits m mask m.outputs (m.inputs ||| mask)
  | output (hmask : mask ≠ DeviceMask.nothing) (hdir : mask.isInput = false)
      (h : m.outputs &&& mask ≠ mask) : Admits m mask (m.outputs ||| mask) m.inputs

/-- The state in which a mixer is declared: one that is open already is given up. -/
def State.detached (s : State) : State :=
  if s.mixer.isSome then { s.unbind with mixer := none } else s

/-- What becomes of the codec probe of a file when an element begins that declares nothing else. -/
inductive Probes (s : State) : ElementKind → Option CodecProbe → Prop
  | kept {e : ElementKind} (he : e ∈ [.init, .preInit, .root]) : Probes s e s.probe
  | declared (name : String) (hnone : s.probe = none) :
      Probes s .codecProbe (some ⟨s.file.resolve name, .empty⟩)
  | extended {probe : CodecProbe} {cases : GranularArray CodecCase} (codec name : String)
      (hprobe : s.probe = some probe) (h : probe.cases.push ⟨codec, s.file.resolve name⟩ = .ok cases) :
      Probes s .codecCase (some { probe with cases := cases })

/-- The elements that declare something of the stream they stand in, volume controls apart. -/
def settings : List ElementKind := [.enable, .disable, .useCaseCase, .useCase, .constant]

inductive Begins (disk : Disk) (s : State) (parent : Option ElementKind) : ElementKind → State → Prop
  | aside {e : ElementKind} {probe : Option CodecProbe} (h : Probes s e probe) :
      Begins disk s parent e { s with probe := probe }
  | mixer {number : Nat} {mixer : Mixer} {rack : Rack} (h : s.rack.openMixer number = .ok (mixer, rack)) :
      Begins disk s parent .mixer { s.detached with rack := rack, mixer := some mixer, card := number }
  | device {mask outputs inputs : DeviceMask} {devices : GranularArray Device} (hlisted : DeviceMask.IsListed mask)
      (hadmits : Admits s.model mask outputs inputs)
      (h : s.model.devices.push (.blank mask) = .ok devices) :
      Begins disk s parent .device { s with
        model := { s.model with devices := devices, outputs := outputs, inputs := inputs }
        cursor := { s.cursor with device := some (devices.size - 1) } }
  | path {place : Nat} {device : Device} {id : PathId} {paths : GranularArray Path}
      (hd : s.model.devices.get? place = some device) (hnew : device.pathPlace? id = none)
      (h : device.paths.push (.blank id) = .ok paths) (names : GranularArray String)
      (hplace : s.cursor.device = some place) {name : String}
      (hnames : Knows s.model.pathNames.toList name id names.toList) :
      Begins disk s parent .path { s with
        model := { s.model with
          devices := s.model.devices.modify place fun d => { d with paths := paths }
          pathNames := names }
        cursor := { s.cursor with path := some (paths.size - 1) } }
  | control {a b : Assignment} {u t : State} (ha : a.binding = .unresolved)
      (hbind : Runs (bindEarly disk a) s b u) (hlists : Lists b u parent t) (hpending : a.value.isPending = true) :
      Begins disk s parent .control t
  | anonymous {stream : Stream} {streams : GranularArray Stream} {name : Option String} {e : Endpoint}
      {instances : Nat} (hblank : stream = .blank name e instances)
      (h : s.model.anonymous.push stream = .ok streams) (hname : name = none)
      (hsuits : Suits s.model name e.type) (hroom : instances < UInt32.size) :
      Begins disk s parent .stream { s with
        model := { s.model with anonymous := streams }
        cursor := { s.cursor with stream := some ⟨.anonymous, streams.size - 1⟩ } }
  | named {stream : Stream} {streams : GranularArray Stream} {name : Option String} {e : Endpoint}
      {instances : Nat} (hblank : stream = .blank name e instances)
      (h : s.model.named.push stream = .ok streams) (hname : name ≠ none)
      (hsuits : Suits s.model name e.type) (hroom : instances < UInt32.size) :
      Begins disk s parent .stream { s with
        model := { s.model with named := streams }
        cursor := { s.cursor with stream := some ⟨.named, streams.size - 1⟩ } }
  | setting {id : StreamId} {stream changed : Stream} {cursor : Cursor} (e : ElementKind)
      (hs : s.model.stream? id = some stream) (h : Extends s.cursor stream e changed cursor)
      (hid : s.cursor.stream = some id) (he : e ∈ settings)
      (hpaths : ∀ p ∈ changed.outline.ownPaths, p ∈ stream.outline.ownPaths ∨ p < s.model.pathNames.size) :
      Begins disk s parent e { s with
        model := s.model.modifyStream id fun _ => changed, cursor := cursor }
  | volume {v bound : VolumeControl} {desk : Desk} {control : Nat} {u : State} {id : StreamId}
      {stream : Stream} {left right : Option VolumeControl} (hv : v.binding = .unresolved)
      (hbind : Runs (bindVolumeEarly v) s (desk, bound, control) u)
      (hs : u.model.stream? id = some stream) (low high : Int)
      (h : (left, right) = (some { bound with low := low, high := high }, stream.right)
        ∨ (left, right) = (stream.left, some { bound with low := low, high := high }))
      (hid : u.cursor.stream = some id) :
      Begins disk s parent .volume { u with
        model := u.model.modifyStream id fun _ => { stream with left := left, right := right } }

def Cursor.close (c : Cursor) : ElementKind → Cursor
  | .device => { c with device := none }
  | .path => { c with path := none }
  | .stream => { c with stream := none }
  | .useCase => { c with useCase := none }
  | .useCaseCase => { c with useCaseCase := none }
  | _ => c

theorem Cursor.close_blank (e : ElementKind) : Cursor.blank.close e = .blank := by
  cases e <;> rfl

inductive Ends (disk : Disk) (s : State) : ElementKind → State → Prop
  | aside (e : ElementKind) (hne : e ≠ .preInit) : Ends disk s e { s with cursor := s.cursor.close e }
  | preInit {desk : Desk} {mixer : Mixer} {rack : Rack} (hdesk : s.desk? = some desk)
      (h : (s.rack.setCard (desk.apply disk s.preInit.toList).1.card).openMixer s.card = .ok (mixer, rack)) :
      Ends disk s .preInit { s.unbind with rack := rack, mixer := some mixer, preInit := .empty }

/-- The codec probe of the file may hand over to this one, which has not been loaded before. -/
def State.HandsOver (s : State) (file : Location) : Prop :=
  ∃ probe, s.probe = some probe ∧ (∃ c ∈ probe.cases.toList, c.file = file)
    ∧ ∀ p ∈ s.visited, p.sameAs file = false

open LoadM Runs
variable {disk : Disk} {parent : Option ElementKind} {a : AttributeValues} {s t : State}

/-- An action that only reads leaves the state as it is. -/
def Reads {α : Type} (action : LoadM α) : Prop :=
  ∀ s a t, Runs action s a t → s = t

/-- An attribute that is a number has a value that reads as one, or is not there. -/
theorem runs_unsignedAttribute {kind : AttributeKind} {n : Option Nat} (h : Runs (unsignedAttribute a kind) s n t) :
    s = t ∧ ((a.get? kind = none ∧ n = none)
      ∨ ∃ text i, a.get? kind = some text ∧ Numeral.unsigned? text = some i ∧ n = some i) := by
  unfold unsignedAttribute at h
  split at h
  · rename_i hnone
    obtain ⟨rfl, rfl⟩ := pure_iff.mp h
    exact ⟨rfl, Or.inl ⟨hnone, rfl⟩⟩
  · rename_i text htext
    split at h
    · rename_i i hi
      obtain ⟨rfl, rfl⟩ := pure_iff.mp h
      exact ⟨rfl, Or.inr ⟨text, i, htext, hi, rfl⟩⟩
    · exact absurd h fault_iff

theorem reads_unsignedAttribute (a : AttributeValues) (kind : AttributeKind) :
    Reads (unsignedAttribute a kind) :=
  fun _ _ _ h => (runs_unsignedAttribute h).1

theorem runs_mixerCard {number : Nat} (h : Runs (mixerCard a) s number t) :
    s = t ∧ a.cardNumber? s.rack = some number := by
  unfold mixerCard at h
  rw [AttributeValues.cardNumber?]
  split at h
  · exact absurd h fault_iff
  · rename_i text htext hname
    obtain ⟨n, u, hn, h⟩ := bind_iff.mp h
    obtain ⟨rfl, hread⟩ := runs_unsignedAttribute hn
    obtain ⟨hnumber, rfl⟩ := pure_iff.mp h
    rcases hread with ⟨hnone, -⟩ | ⟨text', i, htext', hi, rfl⟩
    · rw [hnone] at htext
      cases htext
    · rw [htext', hname]
      exact ⟨rfl, hi.trans (congrArg some hnumber)⟩
  · rename_i name hcard hname
    obtain ⟨_, u, hget, h⟩ := bind_iff.mp h
    obtain ⟨rfl, rfl⟩ := get_iff.mp hget
    obtain ⟨hnumber, rfl⟩ := need_iff.mp h
    rw [hcard, hname]
    exact ⟨rfl, hnumber⟩
  · exact absurd h fault_iff

theorem runs_openMixer {number : Nat} (h : Runs (openMixer number) s () t) :
    ∃ mixer rack, s.rack.openMixer number = .ok (mixer, rack)
      ∧ t = { s with rack := rack, mixer := some mixer } := by
  simp only [openMixer, bind_iff, get_iff, modify_iff, ofResult_iff] at h
  obtain ⟨_, _, ⟨rfl, rfl⟩, ⟨mixer, rack⟩, _, ⟨hopen, rfl⟩, rfl⟩ := h
  exact ⟨mixer, rack, hopen, rfl⟩

/-- A mixer is opened on the card that it names; one that was open is given up before. -/
theorem runs_beginMixer (h : Runs (beginMixer a) s () t) : ∃ number mixer rack, a.cardNumber? s.rack = some number
    ∧ s.rack.openMixer number = .ok (mixer, rack)
    ∧ t = { s.detached with rack := rack, mixer := some mixer, card := number } := by
  simp only [beginMixer, bind_iff, get_iff] at h
  obtain ⟨number, u, hcard, _, _, ⟨rfl, rfl⟩, h⟩ := h
  obtain ⟨rfl, hnumber⟩ := runs_mixerCard hcard
  have hdetached : ∃ u, Runs (openMixer number) s.detached () u ∧ t = { u with card := number } := by
    by_cases hmixer : s.mixer.isSome = true
    · rw [State.detached, if_pos hmixer]
      simp only [if_pos hmixer, bind_iff, modify_iff] at h
      obtain ⟨_, _, rfl, _, v, hopen, rfl⟩ := h
      exact ⟨v, hopen, rfl⟩
    · rw [State.detached, if_neg hmixer]
      simp only [if_neg hmixer, bind_iff, modify_iff] at h
      obtain ⟨_, u, hopen, rfl⟩ := h
      exact ⟨u, hopen, rfl⟩
  obtain ⟨u, hopen, rfl⟩ := hdetached
  obtain ⟨mixer, rack, hrack, rfl⟩ := runs_openMixer hopen
  have hsame : s.detached.rack = s.rack := by
    rw [State.detached]
    split <;> rfl
  rw [hsame] at hrack
  exact ⟨number, mixer, rack, hnumber, hrack, rfl⟩

theorem begins_mixer (h : Runs (beginMixer a) s () t) : Begins disk s parent .mixer t := by
  obtain ⟨number, mixer, rack, -, hrack, rfl⟩ := runs_beginMixer h
  exact .mixer hrack

theorem begins_device (h : Runs (beginDevice a) s () t) : Begins disk s parent .device t := by
  simp only [beginDevice, requiredAttribute, bind_iff, get_iff, ofResult_iff, need_iff] at h
  obtain ⟨name, _, ⟨-, rfl⟩, mask, _, ⟨hmask, rfl⟩, _, _, ⟨rfl, rfl⟩, h⟩ := h
  have hlisted : DeviceMask.IsListed mask := ⟨name, hmask⟩
  split at h
  · rename_i hnothing
    split at h <;> simp only [bind_iff, get_iff, ofResult_iff, modify_iff, fault_iff, false_and, exists_false] at h
    rename_i hglobal
    obtain ⟨_, _, ⟨rfl, rfl⟩, devices, _, ⟨hpush, rfl⟩, rfl⟩ := h
    exact .device hlisted (.global (by simpa using hnothing) (by simpa using hglobal)) hpush
  · rename_i hnothing
    split at h
    · rename_i hdir
      split at h <;>
        simp only [bind_iff, get_iff, ofResult_iff, modify_iff, fault_iff, false_and, exists_false] at h
      rename_i hnew
      obtain ⟨_, _, rfl, _, _, ⟨rfl, rfl⟩, devices, _, ⟨hpush, rfl⟩, rfl⟩ := h
      have hadmits : Admits s.model mask s.model.outputs (s.model.inputs ||| mask) :=
        .input (by simpa using hnothing) hdir (by simpa using hnew)
      exact .device hlisted hadmits hpush
    · rename_i hdir
      split at h <;>
        simp only [bind_iff, get_iff, ofResult_iff, modify_iff, fault_iff, false_and, exists_false] at h
      rename_i hnew
      obtain ⟨_, _, rfl, _, _, ⟨rfl, rfl⟩, devices, _, ⟨hpush, rfl⟩, rfl⟩ := h
      have hadmits : Admits s.model mask (s.model.outputs ||| mask) s.model.inputs :=
        .output (by simpa using hnothing) (by simpa using hdir) (by simpa using hnew)
      exact .device hlisted hadmits hpush

theorem required_eq_ok_iff {kind : AttributeKind} {text : String} :
    a.required kind = .ok text ↔ a.get? kind = some text := by
  rw [AttributeValues.required]
  cases a.get? kind <;> simp

/-- The id of a name that is known is its last place. -/
theorem getElem?_of_pathId? {m : Model} {name : String} {id : PathId} (h : m.pathId? name = some id) :
    m.pathNames.toList[id]? = some name := by
  obtain ⟨x, hx, hname⟩ := Model.exists_of_lastPlace?_eq_some h
  rwa [beq_iff_eq.mp hname] at hx

theorem runs_pathIdOf {name : String} {id : PathId} (h : Runs (pathIdOf name) s id t) :
    ∃ names, t = { s with model := { s.model with pathNames := names } }
      ∧ Knows s.model.pathNames.toList name id names.toList := by
  simp only [pathIdOf, bind_iff, get_iff] at h
  obtain ⟨_, _, ⟨rfl, rfl⟩, h⟩ := h
  split at h
  · rename_i known hknown
    obtain ⟨rfl, rfl⟩ := pure_iff.mp h
    exact ⟨_, rfl, .known (getElem?_of_pathId? hknown)⟩
  · rename_i hnew
    simp only [bind_iff, get_iff, ofResult_iff, modify_iff, pure_iff] at h
    obtain ⟨_, _, ⟨rfl, rfl⟩, names, _, ⟨hpush, rfl⟩, _, _, rfl, rfl, rfl⟩ := h
    have hnames := GranularArray.toList_push hpush
    have hplace : names.size - 1 = s.model.pathNames.toList.length := by
      rw [← GranularArray.length_toList, hnames, List.length_append, List.length_singleton, Nat.add_sub_cancel]
    refine ⟨names, rfl, ?_⟩
    rw [hplace, hnames]
    refine .new fun hmem => ?_
    simpa using Model.lastPlace?_eq_none_iff.mp hnew name hmem

/-- A path is declared under the name that the element gives it. -/
theorem runs_beginPath (h : Runs (beginPath a) s () t) : ∃ name place device id paths names,
    a.get? .name = some name ∧ s.cursor.device = some place ∧ s.model.devices.get? place = some device
      ∧ device.pathPlace? id = none ∧ device.paths.push (.blank id) = .ok paths
      ∧ Knows s.model.pathNames.toList name id (names : GranularArray String).toList
      ∧ t = { s with
        model := { s.model with
          devices := s.model.devices.modify place fun d => { d with paths := paths }
          pathNames := names }
        cursor := { s.cursor with path := some (paths.size - 1) } } := by
  simp only [beginPath, requiredAttribute, bind_iff, get_iff, ofResult_iff, need_iff, required_eq_ok_iff] at h
  obtain ⟨name, _, ⟨hname, rfl⟩, id, u, hid, _, _, ⟨rfl, rfl⟩, place, _, ⟨hplace, rfl⟩, device, _, ⟨hd, rfl⟩, h⟩ := h
  obtain ⟨names, rfl, hnames⟩ := runs_pathIdOf hid
  split at h <;> simp only [bind_iff, ofResult_iff, set_iff, fault_iff, false_and, exists_false] at h
  rename_i hnew
  obtain ⟨paths, _, ⟨hpush, rfl⟩, rfl⟩ := h
  have hget : s.model.devices.get? place = some device := hd
  exact ⟨name, place, device, id, paths, names, hname, hplace, hget, by simpa using hnew, hpush, hnames, rfl⟩

theorem begins_path (h : Runs (beginPath a) s () t) : Begins disk s parent .path t := by
  obtain ⟨name, place, device, id, paths, names, -, hplace, hd, hnew, hpush, hnames, rfl⟩ := runs_beginPath h
  exact .path hd hnew hpush names hplace hnames

theorem lists_pushAssignment {b : Assignment} (h : Runs (pushAssignment parent b) s () t) :
    Lists b s parent t := by
  unfold pushAssignment at h
  split at h
  · simp only [pushToPath, bind_iff, get_iff, set_iff, need_iff, ofResult_iff] at h
    obtain ⟨_, _, ⟨rfl, rfl⟩, d, _, ⟨hdevice, rfl⟩, p, _, ⟨hpath, rfl⟩, device, _, ⟨hd, rfl⟩, path, _, ⟨hp, rfl⟩,
      assignments, _, ⟨hpush, rfl⟩, rfl⟩ := h
    exact .path hd hp hpush hdevice hpath
  · simp only [pushToCase, bind_iff, get_iff, set_iff, need_iff, ofResult_iff] at h
    obtain ⟨_, _, ⟨rfl, rfl⟩, u, _, ⟨huseCase, rfl⟩, c, _, ⟨hcase, rfl⟩, id, _, ⟨hstream, rfl⟩, stream, _, ⟨hs, rfl⟩,
      useCase, _, ⟨hu, rfl⟩, caseOf, _, ⟨hc, rfl⟩, assignments, _, ⟨hpush, rfl⟩, rfl⟩ := h
    exact .useCaseCase hs hu hc hpush hstream huseCase hcase
  · simp only [bind_iff, get_iff, modify_iff, ofResult_iff] at h
    obtain ⟨_, _, ⟨rfl, rfl⟩, list, _, ⟨hpush, rfl⟩, rfl⟩ := h
    exact .init hpush
  · simp only [bind_iff, get_iff, modify_iff, ofResult_iff] at h
    obtain ⟨_, _, ⟨rfl, rfl⟩, list, _, ⟨hpush, rfl⟩, rfl⟩ := h
    exact .preInit hpush
  · exact absurd h fault_iff

/-- A write is declared with a value as it is written, or with the file that the element names. -/
theorem runs_beginControl (h : Runs (beginControl disk parent a) s () t) : ∃ b bound u,
    a.assignment? s.file = some b ∧ b.binding = .unresolved ∧ b.value.isPending = true
    ∧ (∀ file, b.value = .pendingFile file → ∃ name, a.get? .file = some name ∧ file = s.file.resolve name)
    ∧ Runs (bindEarly disk b) s bound u ∧ Lists bound u parent t := by
  simp only [beginControl, requiredAttribute, bind_iff, ofResult_iff, required_eq_ok_iff] at h
  obtain ⟨name, _, ⟨hname, rfl⟩, i, _, hi, h⟩ := h
  obtain ⟨rfl, hread⟩ := runs_unsignedAttribute hi
  have hindex : ∃ index, a.selector? = some index ∧ Runs (do
      let value ← match a.get? .file, a.get? .value with
        | some file, _ => pure (Value.pendingFile ((← get).file.resolve file))
        | none, some text => pure (Value.pending text)
        | none, none => LoadM.fault (.controlWithoutValue name)
      let assignment ← bindEarly disk (.declared name index value)
      pushAssignment parent assignment) s () t := by
    rcases hread with ⟨hnone, rfl⟩ | ⟨text, n, htext, hn, rfl⟩
    · exact ⟨.all, by rw [AttributeValues.selector?, hnone], h⟩
    · refine ⟨.at n, ?_, h⟩
      simp only [AttributeValues.selector?, htext, hn, Option.map_some]
  obtain ⟨index, hindex, h⟩ := hindex
  have hassignment : ∀ value, a.value? s.file = some value →
      a.assignment? s.file = some (.declared name index value) := by
    intro value hvalue
    rw [AttributeValues.assignment?, hname, hindex, hvalue]
    rfl
  dsimp only at h
  split at h
  · rename_i file hfile
    obtain ⟨_, _, hget, h⟩ := bind_iff.mp h
    obtain ⟨rfl, rfl⟩ := get_iff.mp hget
    obtain ⟨value, _, hvalue, h⟩ := bind_iff.mp h
    obtain ⟨rfl, rfl⟩ := pure_iff.mp hvalue
    obtain ⟨bound, u, hbind, hpush⟩ := bind_iff.mp h
    refine ⟨.declared name index _, bound, u, hassignment _ ?_, rfl, rfl, ?_, hbind, lists_pushAssignment hpush⟩
    · rw [AttributeValues.value?, hfile]
    · rintro _ ⟨⟩
      exact ⟨file, hfile, rfl⟩
  · rename_i text hfile htext
    obtain ⟨value, _, hvalue, h⟩ := bind_iff.mp h
    obtain ⟨rfl, rfl⟩ := pure_iff.mp hvalue
    obtain ⟨bound, u, hbind, hpush⟩ := bind_iff.mp h
    refine ⟨.declared name index (.pending text), bound, u, hassignment _ ?_, rfl, rfl, ?_, hbind,
      lists_pushAssignment hpush⟩
    · rw [AttributeValues.value?, hfile, htext]
    · rintro _ ⟨⟩
  · obtain ⟨_, _, hfault, -⟩ := bind_iff.mp h
    exact absurd hfault fault_iff

theorem begins_control (h : Runs (beginControl disk parent a) s () t) : Begins disk s parent .control t := by
  obtain ⟨b, bound, u, -, hb, hpending, -, hbind, hlists⟩ := runs_beginControl h
  exact .control hb hbind hlists hpending

theorem reads_streamDirection (a : AttributeValues) (isGlobal : Bool) : Reads (streamDirection a isGlobal) := by
  intro s d t h
  unfold streamDirection at h
  split at h
  · split at h
    · exact (pure_iff.mp h).2
    · exact absurd h fault_iff
  · exact (pure_iff.mp h).2
  · exact (pure_iff.mp h).2
  · exact absurd h fault_iff

/-- A stream that is not the global one is of another type, and of one that needs no name if it has none. -/
theorem runs_streamType {isOutput : Bool} {type : StreamType} (h : Runs (streamType a isOutput) s type t) :
    s = t ∧ type ≠ .global ∧ (a.get? .name = none → type ∈ anonymousTypes) := by
  obtain ⟨text, _, htext, h⟩ := bind_iff.mp h
  obtain ⟨-, rfl⟩ := ofResult_iff.mp htext
  have hrequest : ∀ pcm, StreamType.forRequest (!isOutput) pcm ≠ .global
      ∧ StreamType.forRequest (!isOutput) pcm ∈ anonymousTypes := by
    cases isOutput <;> decide
  split at h
  · split at h
    · exact absurd h fault_iff
    · rename_i hname
      have hnamed : a.get? .name ≠ none := by simpa using hname
      split at h <;> obtain ⟨rfl, rfl⟩ := pure_iff.mp h <;>
        exact ⟨rfl, by decide, fun h => absurd h hnamed⟩
  · obtain ⟨rfl, rfl⟩ := pure_iff.mp h
    exact ⟨rfl, (hrequest true).1, fun _ => (hrequest true).2⟩
  · obtain ⟨rfl, rfl⟩ := pure_iff.mp h
    exact ⟨rfl, (hrequest false).1, fun _ => (hrequest false).2⟩
  · exact absurd h fault_iff

theorem runs_streamEndpoint {type : StreamType} {e : Endpoint} (h : Runs (streamEndpoint a type) s e t) :
    s = t ∧ e.type = type := by
  simp only [streamEndpoint, bind_iff, get_iff, pure_iff] at h
  obtain ⟨_, _, hcard, _, _, ⟨-, rfl⟩, _, _, hdevice, _, _, hrate, _, _, hsize, _, _, hcount, rfl, rfl⟩ := h
  rw [reads_unsignedAttribute _ _ _ _ _ hcard, reads_unsignedAttribute _ _ _ _ _ hdevice,
    reads_unsignedAttribute _ _ _ _ _ hrate, reads_unsignedAttribute _ _ _ _ _ hsize,
    reads_unsignedAttribute _ _ _ _ _ hcount]
  exact ⟨rfl, rfl⟩

theorem begins_pushStream {name : Option String} {e : Endpoint} {instances : Nat}
    (hsuits : Suits s.model name e.type) (hroom : instances < UInt32.size) (h : Runs (pushStream (.blank name e instances)) s () t) :
    Begins disk s parent .stream t := by
  simp only [pushStream, bind_iff, get_iff] at h
  obtain ⟨_, _, ⟨rfl, rfl⟩, h⟩ := h
  split at h <;> simp only [bind_iff, ofResult_iff, modify_iff] at h
  · rename_i hname
    obtain ⟨streams, _, ⟨hpush, rfl⟩, rfl⟩ := h
    exact .named rfl hpush (Option.isSome_iff_ne_none.mp hname) hsuits hroom
  · rename_i hname
    obtain ⟨streams, _, ⟨hpush, rfl⟩, rfl⟩ := h
    exact .anonymous rfl hpush (Option.not_isSome_iff_eq_none.mp hname) hsuits hroom

/-- Once its type is settled, a stream reads its other attributes and is added. -/
theorem begins_typed {name : Option String} {type : StreamType} (hsuits : Suits s.model name type)
    (h : Runs (do
      let endpoint ← streamEndpoint a type
      let instances ← unsignedAttribute a .instances
      pushStream (.blank name endpoint (instances.getD unlimitedInstances))) s () t) :
    Begins disk s parent .stream t := by
  simp only [bind_iff] at h
  obtain ⟨endpoint, _, hendpoint, instances, _, hinstances, hpush⟩ := h
  obtain ⟨rfl, rfl⟩ := runs_streamEndpoint hendpoint
  obtain ⟨rfl, hread⟩ := runs_unsignedAttribute hinstances
  refine begins_pushStream hsuits ?_ hpush
  rcases hread with ⟨-, rfl⟩ | ⟨text, i, -, hi, rfl⟩
  · decide
  · exact Numeral.lt_of_unsigned? hi

/-- Once its name is settled, a stream reads its other attributes and is added. -/
theorem begins_unnamed
    (hfresh : a.get? .name ≠ none → ∀ other ∈ s.model.named.toList, other.name ≠ a.get? .name)
    (h : Runs (do
      let isGlobal := a.get? .name == some "global"
      let isOutput ← streamDirection a isGlobal
      let type ← if isGlobal then pure StreamType.global else streamType a isOutput
      let endpoint ← streamEndpoint a type
      let instances ← unsignedAttribute a .instances
      pushStream (.blank (a.get? .name) endpoint (instances.getD unlimitedInstances))) s () t) :
    Begins disk s parent .stream t := by
  obtain ⟨isOutput, _, hdirection, h⟩ := bind_iff.mp h
  obtain rfl := reads_streamDirection _ _ _ _ _ hdirection
  split at h
  · rename_i hglobal
    obtain ⟨type, _, htype, h⟩ := bind_iff.mp h
    obtain ⟨rfl, rfl⟩ := pure_iff.mp htype
    have hname : a.get? .name = some "global" := beq_iff_eq.mp hglobal
    exact begins_typed ⟨hfresh, fun hnone => (nomatch hname.symm.trans hnone), iff_of_true rfl hname⟩ h
  · rename_i hglobal
    obtain ⟨type, _, htype, h⟩ := bind_iff.mp h
    obtain ⟨rfl, hother, hanonymous⟩ := runs_streamType htype
    exact begins_typed ⟨hfresh, hanonymous, iff_of_false hother fun hname => hglobal (beq_iff_eq.mpr hname)⟩ h

theorem begins_stream (h : Runs (beginStream a) s () t) : Begins disk s parent .stream t := by
  simp only [beginStream] at h
  split at h
  · rename_i name hname
    obtain ⟨_, _, hget, h⟩ := bind_iff.mp h
    obtain ⟨rfl, rfl⟩ := get_iff.mp hget
    split at h
    · obtain ⟨_, _, hfault, -⟩ := bind_iff.mp h
      exact absurd hfault fault_iff
    · rename_i hnew
      refine begins_unnamed (fun _ other hother hsame => ?_) h
      have hnone := Model.lastPlace?_eq_none_iff.mp (Option.not_isSome_iff_eq_none.mp hnew) other hother
      rw [hsame, hname, beq_self_eq_true] at hnone
      cases hnone
  · rename_i hnone
    exact begins_unnamed (fun hname => absurd (Option.eq_none_iff_forall_ne_some.mpr hnone) hname) h

theorem runs_modifyOpenStream {f : Stream → LoadM Stream} (h : Runs (modifyOpenStream f) s () t) :
    ∃ id stream changed u, s.cursor.stream = some id ∧ s.model.stream? id = some stream
      ∧ Runs (f stream) s changed u ∧ t = { u with model := u.model.modifyStream id fun _ => changed } := by
  simp only [modifyOpenStream, bind_iff, get_iff, modify_iff, need_iff] at h
  obtain ⟨_, _, ⟨rfl, rfl⟩, id, _, ⟨hid, rfl⟩, stream, _, ⟨hs, rfl⟩, changed, u, hchanged, rfl⟩ := h
  exact ⟨id, stream, changed, u, hid, hs, hchanged, rfl⟩

theorem begins_routePath {enable : Bool} {e : ElementKind} (he : e ∈ [.enable, .disable])
    (h : Runs (beginRoutePath enable a) s () t) : Begins disk s parent e t := by
  simp only [beginRoutePath, requiredAttribute, bind_iff, get_iff, need_iff, ofResult_iff] at h
  obtain ⟨name, _, ⟨-, rfl⟩, _, _, ⟨rfl, rfl⟩, path, _, ⟨hpath, rfl⟩, h⟩ := h
  have hsetting : e ∈ settings := (by decide : ∀ k ∈ [ElementKind.enable, .disable], k ∈ settings) e he
  obtain ⟨id, stream, changed, _, hid, hs, hchanged, rfl⟩ := runs_modifyOpenStream h
  obtain ⟨rfl, rfl⟩ := pure_iff.mp hchanged
  have hknown : path < s.model.pathNames.size := (List.getElem?_eq_some_iff.mp (getElem?_of_pathId? hpath)).1
  cases enable with
  | true =>
    refine .setting e hs (.paths he (some path) stream.disablePath) hid hsetting fun p hp => ?_
    rcases List.mem_append.mp hp with hp | hp
    · obtain rfl : p = path := List.mem_singleton.mp hp
      exact Or.inr hknown
    · exact Or.inl (List.mem_append_right _ hp)
  | false =>
    refine .setting e hs (.paths he stream.enablePath (some path)) hid hsetting fun p hp => ?_
    rcases List.mem_append.mp hp with hp | hp
    · exact Or.inl (List.mem_append_left _ hp)
    · obtain rfl : p = path := List.mem_singleton.mp hp
      exact Or.inr hknown

theorem begins_useCase (h : Runs (beginUseCase a) s () t) : Begins disk s parent .useCase t := by
  simp only [beginUseCase, requiredAttribute, bind_iff, ofResult_iff] at h
  obtain ⟨name, _, ⟨-, rfl⟩, h⟩ := h
  obtain ⟨id, stream, changed, _, hid, hs, hchanged, rfl⟩ := runs_modifyOpenStream h
  simp only [bind_iff, ofResult_iff, modify_iff, pure_iff] at hchanged
  obtain ⟨useCases, _, ⟨hpush, rfl⟩, _, _, rfl, rfl, rfl⟩ := hchanged
  exact .setting .useCase hs (.useCase name hpush) hid (by decide) fun _ hp => Or.inl hp

theorem begins_useCaseCase (h : Runs (beginUseCaseCase a) s () t) : Begins disk s parent .useCaseCase t := by
  simp only [beginUseCaseCase, requiredAttribute, bind_iff, get_iff, need_iff, ofResult_iff] at h
  obtain ⟨name, _, ⟨-, rfl⟩, _, _, ⟨rfl, rfl⟩, place, _, ⟨hplace, rfl⟩, h⟩ := h
  obtain ⟨id, stream, changed, _, hid, hs, hchanged, rfl⟩ := runs_modifyOpenStream h
  simp only [bind_iff, ofResult_iff, modify_iff, need_iff, pure_iff] at hchanged
  obtain ⟨useCase, _, ⟨hu, rfl⟩, cases, _, ⟨hpush, rfl⟩, _, _, rfl, rfl, rfl⟩ := hchanged
  exact .setting .useCaseCase hs (.useCaseCase name hu hpush hplace) hid (by decide) fun _ hp => Or.inl hp

theorem begins_constant (h : Runs (beginConstant a) s () t) : Begins disk s parent .constant t := by
  simp only [beginConstant, requiredAttribute, bind_iff, ofResult_iff] at h
  obtain ⟨name, _, ⟨-, rfl⟩, value, _, ⟨-, rfl⟩, h⟩ := h
  obtain ⟨id, stream, changed, _, hid, hs, hchanged, rfl⟩ := runs_modifyOpenStream h
  simp only [bind_iff, ofResult_iff, pure_iff] at hchanged
  obtain ⟨constants, _, ⟨-, rfl⟩, rfl, rfl⟩ := hchanged
  exact .setting .constant hs (.constant constants) hid (by decide) fun _ hp => Or.inl hp

theorem reads_signedAttribute (a : AttributeValues) (kind : AttributeKind) : Reads (signedAttribute a kind) := by
  intro s n t h
  unfold signedAttribute at h
  split at h
  · exact (pure_iff.mp h).2
  · split at h
    · exact (pure_iff.mp h).2
    · exact absurd h fault_iff

theorem reads_isLeftVolume (function : String) : Reads (isLeftVolume function) := by
  intro s n t h
  unfold isLeftVolume at h
  split at h
  · exact (pure_iff.mp h).2
  · exact (pure_iff.mp h).2
  · exact absurd h fault_iff

theorem begins_volume (h : Runs (beginVolume a) s () t) : Begins disk s parent .volume t := by
  simp only [beginVolume, requiredAttribute, bind_iff, ofResult_iff] at h
  obtain ⟨name, _, ⟨-, rfl⟩, function, _, ⟨-, rfl⟩, index, _, hindex, ⟨desk, bound, control⟩, u, hbind, left, _,
    hleft, ⟨lowest, highest⟩, _, ⟨-, rfl⟩, low, _, hlow, high, _, hhigh, h⟩ := h
  obtain rfl := reads_unsignedAttribute _ _ _ _ _ hindex
  obtain rfl := reads_isLeftVolume _ _ _ _ hleft
  obtain rfl := reads_signedAttribute _ _ _ _ _ hlow
  obtain rfl := reads_signedAttribute _ _ _ _ _ hhigh
  obtain ⟨id, stream, changed, _, hid, hs, hchanged, rfl⟩ := runs_modifyOpenStream h
  obtain ⟨rfl, rfl⟩ := pure_iff.mp hchanged
  cases left with
  | true => exact .volume rfl hbind hs _ _ (Or.inl rfl) hid
  | false => exact .volume rfl hbind hs _ _ (Or.inr rfl) hid

theorem begins_codecProbe (h : Runs (beginCodecProbe a) s () t) : Begins disk s parent .codecProbe t := by
  simp only [beginCodecProbe, requiredAttribute, bind_iff, get_iff] at h
  obtain ⟨_, _, ⟨rfl, rfl⟩, h⟩ := h
  split at h <;> simp only [bind_iff, ofResult_iff, modify_iff, fault_iff, false_and, exists_false] at h
  rename_i hnone
  obtain ⟨file, _, ⟨-, rfl⟩, rfl⟩ := h
  exact .aside (.declared file (by simpa using hnone))

theorem begins_codecCase (h : Runs (beginCodecCase a) s () t) : Begins disk s parent .codecCase t := by
  simp only [beginCodecCase, requiredAttribute, bind_iff, get_iff, set_iff, need_iff, ofResult_iff] at h
  obtain ⟨codec, _, ⟨-, rfl⟩, file, _, ⟨-, rfl⟩, _, _, ⟨rfl, rfl⟩, probe, _, ⟨hprobe, rfl⟩, cases, _, ⟨hpush, rfl⟩,
    rfl⟩ := h
  exact .aside (.extended codec file hprobe hpush)

/-- What an element does when it begins. -/
theorem begins_of_runs {e : ElementKind} (h : Runs (beginElement disk parent a e) s () t) :
    Begins disk s parent e t := by
  cases e with
  | control => exact begins_control h
  | path => exact begins_path h
  | device => exact begins_device h
  | stream => exact begins_stream h
  | enable => exact begins_routePath (by decide) h
  | disable => exact begins_routePath (by decide) h
  | useCaseCase => exact begins_useCaseCase h
  | useCase => exact begins_useCase h
  | constant => exact begins_constant h
  | volume => exact begins_volume h
  | mixer => exact begins_mixer h
  | codecProbe => exact begins_codecProbe h
  | codecCase => exact begins_codecCase h
  | init | preInit | root =>
    obtain ⟨-, rfl⟩ := pure_iff.mp h
    exact .aside (.kept (by decide))

theorem ends_preInit (h : Runs (endPreInit disk) s () t) : Ends disk s .preInit t := by
  simp only [endPreInit, bind_iff, get_iff, set_iff, modify_iff, need_iff] at h
  obtain ⟨_, _, ⟨rfl, rfl⟩, desk, _, ⟨hdesk, rfl⟩, _, _, rfl, _, u, hopen, rfl⟩ := h
  obtain ⟨mixer, rack, hrack, rfl⟩ := runs_openMixer hopen
  exact .preInit hdesk hrack

theorem runs_endCodecProbe {next : Option Location} (h : Runs (endCodecProbe disk) s next t) :
    t = s ∧ ∀ file, next = some file → s.HandsOver file := by
  simp only [endCodecProbe, bind_iff, get_iff] at h
  obtain ⟨_, _, ⟨rfl, rfl⟩, h⟩ := h
  split at h
  · obtain ⟨rfl, rfl⟩ := pure_iff.mp h
    exact ⟨rfl, nofun⟩
  · rename_i probe hprobe
    obtain ⟨codec, _, hcodec, h⟩ := bind_iff.mp h
    obtain ⟨-, rfl⟩ := ofResult_iff.mp hcodec
    split at h
    · obtain ⟨rfl, rfl⟩ := pure_iff.mp h
      exact ⟨rfl, nofun⟩
    · split at h
      · obtain ⟨rfl, rfl⟩ := pure_iff.mp h
        exact ⟨rfl, nofun⟩
      · rename_i c hfind
        split at h
        · exact absurd h fault_iff
        · rename_i hnew
          obtain ⟨rfl, rfl⟩ := pure_iff.mp h
          refine ⟨rfl, ?_⟩
          rintro _ ⟨⟩
          exact ⟨probe, hprobe, ⟨c, List.mem_of_find?_eq_some hfind, rfl⟩, by simpa using hnew⟩

theorem ends_leave {e : ElementKind} (he : e ≠ .preInit) {f : Cursor → Cursor} (hf : ∀ c, f c = c.close e)
    {next : Option Location} (h : Runs (endElement.leave f) s next t) : Ends disk s e t ∧ next = none := by
  simp only [endElement.leave, bind_iff, modify_iff, pure_iff] at h
  obtain ⟨_, _, rfl, rfl, rfl⟩ := h
  rw [hf]
  exact ⟨.aside e he, rfl⟩

/-- What an element does when it ends. -/
theorem ends_of_runs {e : ElementKind} {next : Option Location} (h : Runs (endElement disk e) s next t) :
    Ends disk s e t ∧ ∀ file, next = some file → e = .codecProbe ∧ s.HandsOver file := by
  have hleave : Ends disk s e t ∧ next = none →
      Ends disk s e t ∧ ∀ file, next = some file → e = .codecProbe ∧ s.HandsOver file :=
    fun h => ⟨h.1, fun file hfile => absurd (h.2.symm.trans hfile) nofun⟩
  cases e with
  | preInit =>
    obtain ⟨_, _, hend, h⟩ := bind_iff.mp h
    obtain ⟨rfl, rfl⟩ := pure_iff.mp h
    exact hleave ⟨ends_preInit hend, rfl⟩
  | codecProbe =>
    obtain ⟨rfl, hnext⟩ := runs_endCodecProbe h
    exact ⟨.aside .codecProbe (by decide), fun file hfile => ⟨rfl, hnext file hfile⟩⟩
  | device | path | stream | useCase | useCaseCase =>
    rw [endElement] at h
    exact hleave (ends_leave (by decide) (fun _ => rfl) h)
  | control | enable | disable | constant | volume | init | mixer | root | codecCase =>
    obtain ⟨rfl, rfl⟩ := pure_iff.mp h
    exact hleave ⟨.aside _ (by decide), rfl⟩

/-- Binding an assignment while loading binds it on the open mixer, if there is one. -/
theorem bindEarly_cases {a b : Assignment} (h : Runs (bindEarly disk a) s b t) :
    (s.desk? = none ∧ b = a ∧ t = s) ∨ ∃ desk mixer outcome, s.desk? = some desk
      ∧ desk.mixer.bind disk desk.card a = (mixer, b, outcome) ∧ t = { s with mixer := some mixer } := by
  simp only [bindEarly, bind_iff, get_iff] at h
  obtain ⟨_, _, ⟨rfl, rfl⟩, h⟩ := h
  split at h
  · rename_i hdesk
    obtain ⟨rfl, rfl⟩ := pure_iff.mp h
    exact Or.inl ⟨hdesk, rfl, rfl⟩
  · rename_i desk hdesk
    cases hb : desk.mixer.bind disk desk.card a with
    | mk mixer rest =>
      obtain ⟨bound, outcome⟩ := rest
      simp only [hb, bind_iff, modify_iff] at h
      obtain ⟨_, _, rfl, h⟩ := h
      have hbound : bound = b ∧ { s with mixer := some mixer } = t := by
        split at h
        · exact pure_iff.mp h
        · exact pure_iff.mp h
        · exact absurd h throw_iff
      obtain ⟨rfl, rfl⟩ := hbound
      exact Or.inr ⟨desk, mixer, outcome, hdesk, hb, rfl⟩

/-- A volume control is bound on the open mixer. -/
theorem bindVolumeEarly_cases {v bound : VolumeControl} {desk : Desk} {id : Nat}
    (h : Runs (bindVolumeEarly v) s (desk, bound, id) t) : ∃ before, s.desk? = some before
      ∧ before.mixer.bindVolume before.card v = (desk.mixer, bound, .ok id) ∧ desk.card = before.card
      ∧ t = { s with mixer := some desk.mixer } := by
  simp only [bindVolumeEarly, bind_iff, get_iff, need_iff] at h
  obtain ⟨_, _, ⟨rfl, rfl⟩, before, _, ⟨hdesk, rfl⟩, h⟩ := h
  cases hb : before.mixer.bindVolume before.card v with
  | mk mixer rest =>
    obtain ⟨v', outcome⟩ := rest
    simp only [hb, modify_iff] at h
    obtain ⟨_, _, rfl, h⟩ := h
    split at h
    · obtain ⟨he, rfl⟩ := pure_iff.mp h
      cases he
      exact ⟨before, hdesk, hb, rfl, rfl⟩
    · exact absurd h fault_iff
    · exact absurd h fault_iff
    · exact absurd h throw_iff

end Config

end SoundRouting
