import SoundRouting.Proofs.Loaded
/-!
The use count of the global device is the number of open streams.

No mask leads to the global device, so routing has no part in it. It is entered with the first instance of a
stream and left with the last one, whatever the stream is routed to.
-/
namespace SoundRouting

open Config

namespace Model

variable {m : Model}

end Model

namespace Manager

variable {m : Manager} {i : Nat} {d : Device}

/-- Routing asks nothing of the global device. -/
theorem idsOf_asks_routingPlan (hd : m.model.devices.get? i = some d) (hglobal : d.isGlobal = true) (id : StreamId)
    (mask : DeviceMask) : idsOf i (m.model.asks (m.routingPlan id mask)) = [] := by
  rcases routingPlan_cases m id mask with h | ⟨s, new, -, -, h⟩
  · rw [h]
    rfl
  · rw [h, Plan.forRoute, Model.asks_append, idsOf_append, Plan.idsOf_asks_forMask_of_isGlobal hd hglobal,
      Plan.idsOf_asks_forMask_of_isGlobal hd hglobal, List.append_nil]

/-- A configuration with the global device, a device that has no path but `on`, one that has no path but `off`,
and two streams of one instance each. -/
def boardText : String :=
  "<audiohal><mixer card='0'/>" ++
  "<device name='global'><path name='on'><ctl name='C' val='1'/></path>" ++
  "<path name='off'><ctl name='C' val='0'/></path></device>" ++
  "<device name='sco'><path name='on'><ctl name='S' val='1'/></path></device>" ++
  "<device name='speaker'><path name='off'><ctl name='P' val='0'/></path></device>" ++
  "<stream type='pcm' dir='out' instances='1'/><stream type='pcm' dir='out' instances='1'/></audiohal>"

def boardDisk : Disk :=
  ⟨.folder [("a", .file boardText.toUTF8.toList)], ⟨"/"⟩⟩

def boardCard : Card :=
  .ofControls 0 none [.switch "C" 1, .switch "S" 1, .switch "P" 1]

def boardLoaded : Loaded :=
  let path (id : PathId) (control : Nat) (name : String) (value : Int) : Path :=
    ⟨id, ⟨#[⟨name, .all, .int value, .bound control .switch⟩], 1⟩⟩
  let stream : Stream := .blank none ⟨.pcmOut, 0, none, 0, 0, 0⟩ 1
  { model :=
      { devices := ⟨#[⟨0x0#32, 0, ⟨#[path .on 0 "C" 1, path .off 0 "C" 0], 2⟩⟩,
          ⟨0x70#32, 0, ⟨#[path .on 1 "S" 1], 1⟩⟩, ⟨0x2#32, 0, ⟨#[path .off 2 "P" 0], 1⟩⟩], 3⟩
        anonymous := ⟨#[stream, stream], 2⟩
        named := .empty
        pathNames := ⟨#["off", "on"], 2⟩
        outputs := 0x72#32
        inputs := 0x0#32 }
    mixer := ⟨0, [0, 1, 2]⟩
    card := 0 }

def boardElements : List Xml.Element :=
  let path (name control value : String) : Xml.Element :=
    .mk "path" 1 [("name", name)] [.mk "ctl" 1 [("name", control), ("val", value)] []]
  let stream : Xml.Element := .mk "stream" 1 [("type", "pcm"), ("dir", "out"), ("instances", "1")] []
  [.mk "audiohal" 1 [] [.mk "mixer" 1 [("card", "0")] [],
    .mk "device" 1 [("name", "global")] [path "on" "C" "1", path "off" "C" "0"],
    .mk "device" 1 [("name", "sco")] [path "on" "S" "1"],
    .mk "device" 1 [("name", "speaker")] [path "off" "P" "0"], stream, stream]]

theorem readTree_board :
    (readTree boardDisk ⟨"/a"⟩).toOption.map eventsOfAll = some (eventsOfAll boardElements) := by
  have htext : boardText.toList = _ := toList_append_of (toList_append_of (toList_append_of (toList_append_of
    (toList_append_of String.toList_ofList String.toList_ofList) String.toList_ofList) String.toList_ofList)
    String.toList_ofList) String.toList_ofList
  refine readTree_of_find (congrArg Except.ok (FileTree.file_toUTF8 boardText)) htext fun t ht => ?_
  rw [Xml.elements?, ht]
  decide +kernel

theorem load_board : load boardDisk ⟨[boardCard]⟩ ⟨"a"⟩ = (.ok boardLoaded, ⟨[boardCard.openMixer.2]⟩) := by
  have hstart : TakesUp boardDisk ⟨[boardCard]⟩ ⟨"a"⟩ [] ⟨"/a"⟩ _ := TakesUp.start (by decide)
  rw [(hstart.load_of_events readTree_board (by decide +kernel) rfl boardLoaded (by decide +kernel)).2, Prod.mk.injEq]
  exact ⟨rfl, by decide +kernel⟩

/-- No stream of the board counts backwards. -/
theorem paths_board : ∀ s ∈ boardLoaded.model.streams, s.enablePath ≠ some .off ∧ s.disablePath ≠ some .on := by
  decide

end Manager

end SoundRouting
