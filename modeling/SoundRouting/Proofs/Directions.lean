import SoundRouting.Proofs.Overlap
import SoundRouting.Proofs.Sequence
/-!
Streams of one direction and devices of the other.

Output devices and input devices use the same low bits. A request asks for paths of the devices that own
bits of a mask with the direction of its stream, and for those of the global device; no other device takes
part in it.
-/
namespace SoundRouting

open DeviceMask Config

namespace Plan

variable {m : Model} {i : Nat} {d : Device} (hd : m.devices.get? i = some d) {input : Bool}
  (hdir : d.mask.isInput ≠ input)

include hd hdir

/-- A device of the other direction owns no bits of this one. -/
theorem idsOf_asksOf_owners (bits : DeviceMask) (first second : Option PathId) :
    idsOf i (asksOf first second (owners m.devices.toList input bits)) = [] := by
  have hat : ∀ e ∈ owners m.devices.toList input bits, m.devices.get? e.1 = some e.2 := by
    intro e he
    rw [← GranularArray.getElem?_toList]
    exact (mem_owners_iff.mp he).1
  rw [← asks_ofDevices hat]
  refine idsOf_asks_of_forall_ne hat ?_ first second
  rintro ⟨j, e⟩ he rfl
  obtain rfl := Option.some.inj (hd.symm.trans (hat _ he))
  exact hdir (mem_owners_iff.mp he).2.1

/-- A change of routing asks nothing of the devices of the other direction. -/
theorem idsOf_asks_forRoute_other {s : Stream} (hs : s.type.isInput = input) {new : DeviceMask}
    (hold : IsRoute s.type.isInput s.routed) (hnew : IsRoute s.type.isInput new) :
    idsOf i (m.asks (forRoute m s new)) = [] := by
  subst hs
  rw [asks_forRoute m hold hnew, Model.sequence, idsOf_append, idsOf_asksOf_owners hd hdir,
    idsOf_asksOf_owners hd hdir, List.append_nil]

/-- The last release asks nothing of the devices of the other direction. -/
theorem idsOf_asks_forClosing_other (hglobal : d.isGlobal = false) {s : Stream}
    (hroute : IsRoute input s.routed) : idsOf i (m.asks (forClosing m s)) = [] := by
  rw [forClosing, Model.asks_append, idsOf_append, idsOf_asks_forGlobal hd hglobal, List.append_nil, forMask,
    asks_ofDevices fun _ => get?_of_mem_chosen, chosen_of_isRoute hroute]
  exact idsOf_asksOf_owners hd hdir _ _ _

end Plan

namespace Manager

/-- The stream that a request is about: the one to be opened, or the one it names. -/
def target? (m : Manager) : Request → Option Stream
  | .acquire devices format => (m.wanted? (.acquire devices format)).bind m.model.stream?
  | .acquireNamed name => (m.wanted? (.acquireNamed name)).bind m.model.stream?
  | .route id _ | .release id | .setVolume id _ _ | .applyUseCase id _ _ => m.model.stream? id

section Others

variable {m : Manager} {i : Nat} {d : Device} (hd : m.model.devices.get? i = some d)

include hd

/-- Routing a stream asks nothing of the devices of the other direction. -/
theorem idsOf_asks_routingPlan_other {id : StreamId} {s : Stream} (hs : m.model.stream? id = some s)
    (hroute : IsRoute s.type.isInput s.routed) (hdir : d.mask.isInput ≠ s.type.isInput) (mask : DeviceMask) :
    idsOf i (m.model.asks (m.routingPlan id mask)) = [] := by
  rcases routingPlan_cases m id mask with h | ⟨t, new, ht, hclip, h⟩
  · rw [h]
    rfl
  · obtain rfl := Option.some.inj (hs.symm.trans ht)
    rw [h]
    exact Plan.idsOf_asks_forRoute_other hd hdir rfl hroute (isRoute_clip hclip)

/-- A request asks nothing of the devices whose direction its stream does not have. -/
theorem idsOf_asks_planOf_other (hroutes : ∀ s ∈ m.model.streams, IsRoute s.type.isInput s.routed)
    (hglobal : d.isGlobal = false) (disk : Disk) {r : Request}
    (hdir : ∀ s, m.target? r = some s → d.mask.isInput ≠ s.type.isInput) :
    idsOf i (m.model.asks (m.planOf disk r)) = [] := by
  cases r with
  | acquire devices format =>
    rw [planOf]
    cases hw : m.wanted? (.acquire devices format) with
    | none => rfl
    | some id =>
      obtain ⟨s, hs, -⟩ := exists_of_wanted? hw
      obtain ⟨e, he, houtline⟩ := exists_after_openStream disk hd hs
      have hside := hdir s (by rw [target?, hw, Option.bind_some, hs])
      rw [← show e.mask = d.mask from congrArg DeviceOutline.mask houtline] at hside
      rw [Model.asks_append, idsOf_append, idsOf_asks_openingPlan hd hglobal,
        ← Model.asks_congr (outlines_openStream disk hs)]
      exact idsOf_asks_routingPlan_other he (stream?_openStream disk hs)
        (hroutes s (Model.mem_of_stream? hs)) hside devices
  | acquireNamed name =>
    rw [planOf]
    cases m.wanted? (.acquireNamed name) with
    | none => rfl
    | some id => exact idsOf_asks_openingPlan hd hglobal id
  | route id mask =>
    rw [planOf]
    cases hs : m.model.stream? id with
    | none =>
      rw [routingPlan, hs]
      rfl
    | some s => exact idsOf_asks_routingPlan_other hd hs (hroutes s (Model.mem_of_stream? hs)) (hdir s hs) mask
  | release id =>
    rw [planOf]
    rcases closingPlan_cases m id with h | ⟨s, hs, h⟩
    · rw [h]
      rfl
    · rw [h]
      exact Plan.idsOf_asks_forClosing_other hd (hdir s hs) hglobal (hroutes s (Model.mem_of_stream? hs))
  | setVolume | applyUseCase => rfl

end Others

/-- Directions do not interfere: whatever has been asked for, a request that is about a stream of one
direction applies no path of a device of the other and leaves it as it is, its use count included. Output
streams and the global one are of one direction; the global device is of none. -/
theorem unchanged_of_other_direction {disk : Disk} {rack after : Rack} {file : Location} {loaded : Loaded}
    (hload : load disk rack file = (.ok loaded, after)) (card : Card) {requests : List (Disk × Request)}
    {m : Manager} (hm : m = (ofLoaded card loaded).serveAll requests) {i : Nat} {d : Device}
    (hd : m.model.devices.get? i = some d) (hglobal : d.isGlobal = false) {r : Request}
    (hdir : ∀ s, m.target? r = some s → d.mask.isInput ≠ s.type.isInput) (files : Disk) :
    idsOf i (m.model.asks (m.planOf files r)) = [] ∧ idsOf i (m.appliedBy files r) = []
      ∧ (m.serve files r).model.devices.get? i = some d := by
  obtain ⟨hroutes, -⟩ := routed_serveAll (atRest_of_load hload) card requests
  rw [← hm] at hroutes
  have hasks := idsOf_asks_planOf_other hd hroutes hglobal files hdir
  obtain ⟨e, -, -, htally⟩ := tally_serve files hd r
  rw [hasks, PathId.tally_nil, Prod.mk.injEq] at htally
  refine ⟨hasks, htally.2.symm, ?_⟩
  rw [devices_serve, get?_perform_of_idsOf files hasks, hd]

/-- A configuration in which an output device and an input device have the same low bits. -/
def handsetDisk : Disk :=
  ⟨.folder [("a", .ofText "<audiohal><mixer card='0'/>
    <device name='headset'><path name='on'><ctl name='H' val='1'/></path></device>
    <device name='mic'><path name='on'><ctl name='M' val='1'/></path></device>
    <stream type='pcm' dir='out'/><stream type='pcm' dir='in'/></audiohal>")], ⟨"/"⟩⟩

def handsetCard : Card :=
  .ofControls 0 none [.switch "H" 1, .switch "M" 1]

def handsetLoaded : Loaded :=
  let on (control : Nat) (name : String) : Path := ⟨.on, ⟨#[⟨name, .all, .int 1, .bound control .switch⟩], 1⟩⟩
  let stream (type : StreamType) : Stream := .blank none ⟨type, 0, none, 0, 0, 0⟩ unlimitedInstances
  { model :=
      { devices := ⟨#[⟨0x4#32, 0, ⟨#[on 0 "H"], 1⟩⟩, ⟨0x80000004#32, 0, ⟨#[on 1 "M"], 1⟩⟩], 2⟩
        anonymous := ⟨#[stream .pcmOut, stream .pcmIn], 2⟩
        named := .empty
        pathNames := ⟨#["off", "on"], 2⟩
        outputs := 0x4#32
        inputs := 0x80000004#32 }
    mixer := ⟨0, [0, 1]⟩
    card := 0 }

def handsetElements : List Xml.Element :=
  let device (line : Nat) (name control : String) : Xml.Element :=
    .mk "device" line [("name", name)]
      [.mk "path" line [("name", "on")] [.mk "ctl" line [("name", control), ("val", "1")] []]]
  let stream (dir : String) : Xml.Element := .mk "stream" 4 [("type", "pcm"), ("dir", dir)] []
  [.mk "audiohal" 1 [] [.mk "mixer" 1 [("card", "0")] [], device 2 "headset" "H", device 3 "mic" "M",
    stream "out", stream "in"]]

set_option maxRecDepth 8000 in
theorem readTree_handset :
    (readTree handsetDisk ⟨"/a"⟩).toOption.map eventsOfAll = some (eventsOfAll handsetElements) := by
  refine readTree_of_find rfl String.toList_ofList fun t ht => ?_
  rw [Xml.elements?, ht]
  decide +kernel

theorem load_handset :
    load handsetDisk ⟨[handsetCard]⟩ ⟨"a"⟩ = (.ok handsetLoaded, ⟨[handsetCard.openMixer.2]⟩) := by
  have hstart : TakesUp handsetDisk ⟨[handsetCard]⟩ ⟨"a"⟩ [] ⟨"/a"⟩ _ := TakesUp.start (by decide)
  rw [(hstart.load_of_events readTree_handset (by decide +kernel) rfl handsetLoaded (by decide +kernel)).2,
    Prod.mk.injEq]
  exact ⟨rfl, by decide +kernel⟩

/-- While the microphone is in use, the output stream is routed to the device with the same bits. -/
theorem unchanged_of_other_direction_handset :
    let m := (ofLoaded handsetCard.openMixer.2 handsetLoaded).serveAll
      [(handsetDisk, .acquire 0x80000004#32 .pcm16), (handsetDisk, .acquire 0x0#32 .pcm16)]
    load handsetDisk ⟨[handsetCard]⟩ ⟨"a"⟩ = (.ok handsetLoaded, ⟨[handsetCard.openMixer.2]⟩)
      ∧ m.appliedBy handsetDisk (.route ⟨.anonymous, 0⟩ 0x4#32) = [(0, .on)]
      ∧ ∃ d, m.model.devices.get? 1 = some d ∧ d.mask = 0x80000004#32 ∧ d.useCount = 1
        ∧ (m.serve handsetDisk (.route ⟨.anonymous, 0⟩ 0x4#32)).model.devices.get? 1 = some d := by
  intro m
  have hstate : (m.model.devices.get? 1).any (fun d => (m.model.stream? ⟨.anonymous, 0⟩).any fun s =>
      decide (d.isGlobal = false ∧ d.mask = 0x80000004#32 ∧ d.useCount = 1
        ∧ d.mask.isInput ≠ s.type.isInput)) = true := by decide +kernel
  obtain ⟨d, hd, hstate⟩ := (Option.any_eq_true _ _).mp hstate
  obtain ⟨s, hs, hstate⟩ := (Option.any_eq_true _ _).mp hstate
  obtain ⟨hglobal, hmask, huse, hother⟩ := of_decide_eq_true hstate
  have hdir : ∀ t, m.target? (.route ⟨.anonymous, 0⟩ 0x4#32) = some t → d.mask.isInput ≠ t.type.isInput := by
    intro t ht
    obtain rfl := Option.some.inj (hs.symm.trans ht)
    exact hother
  obtain ⟨-, -, hsame⟩ :=
    unchanged_of_other_direction load_handset handsetCard.openMixer.2 rfl hd hglobal hdir handsetDisk
  exact ⟨load_handset, by decide +kernel, d, hd, hmask, huse, hsame⟩

end Manager

end SoundRouting
