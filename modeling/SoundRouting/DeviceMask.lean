/-!
Sets of audio devices as 32-bit words.

Each device owns one or more bits. Output devices and input devices use the same low bits; the top
bit, the direction bit, is set in every set of input devices and in no set of output devices.
-/
namespace SoundRouting

/-- A set of audio devices of one direction. -/
abbrev DeviceMask := BitVec 32

namespace DeviceMask

/-- The empty set, which also stands for the global device. -/
def nothing : DeviceMask := 0#32

/-- Set in every mask of input devices. -/
def inputBit : DeviceMask := 0x80000000#32

/-- Every output device, the default output among them. -/
def allOutputs : DeviceMask := 0x41FFFFFF#32

/-- Every input device, the default input among them, with the direction bit. -/
def allInputs : DeviceMask := 0xC01FFFFF#32

def isInput (mask : DeviceMask) : Bool :=
  mask &&& inputBit != 0#32

def meets (a b : DeviceMask) : Bool :=
  a &&& b != 0#32

/-- The device names of configurations, in the order in which they are looked up. The global device
holds the settings that do not depend on routing. -/
def nameTable : List (String × DeviceMask) := [
  ("global", 0x0#32),
  ("speaker", 0x2#32),
  ("earpiece", 0x1#32),
  ("headset", 0x4#32),
  ("headset_in", 0x80000010#32),
  ("headphone", 0x8#32),
  ("sco", 0x70#32),
  ("sco_in", 0x80000008#32),
  ("a2dp", 0x380#32),
  ("usb", 0x6000#32),
  ("mic", 0x80000004#32),
  ("back mic", 0x80000080#32),
  ("voice", 0x80000040#32),
  ("aux", 0x80000020#32)]

def ofName? (name : String) : Option DeviceMask :=
  (nameTable.find? fun e => e.1 == name).map Prod.snd

/-- The name that stands for exactly these devices, or `unknown`. -/
def name (mask : DeviceMask) : String :=
  match nameTable.find? fun e => e.2 == mask with
  | some e => e.1
  | none => "unknown"

/-- A name and its devices determine each other. -/
theorem ofName?_eq_some_of_mem : ∀ e ∈ nameTable, ofName? e.1 = some e.2 ∧ name e.2 = e.1 := by
  decide

def frameworkNames : List (String × DeviceMask) := [
  ("NONE", 0x0#32),
  ("BIT_IN", inputBit),
  ("BIT_DEFAULT", 0x40000000#32),
  ("OUT_EARPIECE", 0x1#32),
  ("OUT_SPEAKER", 0x2#32),
  ("OUT_WIRED_HEADSET", 0x4#32),
  ("OUT_WIRED_HEADPHONE", 0x8#32),
  ("OUT_BLUETOOTH_SCO", 0x10#32),
  ("OUT_BLUETOOTH_SCO_HEADSET", 0x20#32),
  ("OUT_BLUETOOTH_SCO_CARKIT", 0x40#32),
  ("OUT_BLUETOOTH_A2DP", 0x80#32),
  ("OUT_BLUETOOTH_A2DP_HEADPHONES", 0x100#32),
  ("OUT_BLUETOOTH_A2DP_SPEAKER", 0x200#32),
  ("OUT_AUX_DIGITAL", 0x400#32),
  ("OUT_HDMI", 0x400#32),
  ("OUT_ANLG_DOCK_HEADSET", 0x800#32),
  ("OUT_DGTL_DOCK_HEADSET", 0x1000#32),
  ("OUT_USB_ACCESSORY", 0x2000#32),
  ("OUT_USB_DEVICE", 0x4000#32),
  ("OUT_REMOTE_SUBMIX", 0x8000#32),
  ("OUT_TELEPHONY_TX", 0x10000#32),
  ("OUT_LINE", 0x20000#32),
  ("OUT_HDMI_ARC", 0x40000#32),
  ("OUT_SPDIF", 0x80000#32),
  ("OUT_FM", 0x100000#32),
  ("OUT_AUX_LINE", 0x200000#32),
  ("OUT_SPEAKER_SAFE", 0x400000#32),
  ("OUT_IP", 0x800000#32),
  ("OUT_BUS", 0x1000000#32),
  ("OUT_DEFAULT", 0x40000000#32),
  ("OUT_ALL", allOutputs),
  ("OUT_ALL_A2DP", 0x380#32),
  ("OUT_ALL_SCO", 0x70#32),
  ("OUT_ALL_USB", 0x6000#32),
  ("IN_COMMUNICATION", 0x80000001#32),
  ("IN_AMBIENT", 0x80000002#32),
  ("IN_BUILTIN_MIC", 0x80000004#32),
  ("IN_BLUETOOTH_SCO_HEADSET", 0x80000008#32),
  ("IN_WIRED_HEADSET", 0x80000010#32),
  ("IN_AUX_DIGITAL", 0x80000020#32),
  ("IN_HDMI", 0x80000020#32),
  ("IN_VOICE_CALL", 0x80000040#32),
  ("IN_TELEPHONY_RX", 0x80000040#32),
  ("IN_BACK_MIC", 0x80000080#32),
  ("IN_REMOTE_SUBMIX", 0x80000100#32),
  ("IN_ANLG_DOCK_HEADSET", 0x80000200#32),
  ("IN_DGTL_DOCK_HEADSET", 0x80000400#32),
  ("IN_USB_ACCESSORY", 0x80000800#32),
  ("IN_USB_DEVICE", 0x80001000#32),
  ("IN_FM_TUNER", 0x80002000#32),
  ("IN_TV_TUNER", 0x80004000#32),
  ("IN_LINE", 0x80008000#32),
  ("IN_SPDIF", 0x80010000#32),
  ("IN_BLUETOOTH_A2DP", 0x80020000#32),
  ("IN_LOOPBACK", 0x80040000#32),
  ("IN_IP", 0x80080000#32),
  ("IN_BUS", 0x80100000#32),
  ("IN_DEFAULT", 0xC0000000#32),
  ("IN_ALL", allInputs),
  ("IN_ALL_SCO", 0x80000008#32),
  ("IN_ALL_USB", 0x80001800#32)]

def ofFrameworkName? (name : String) : Option DeviceMask :=
  (frameworkNames.find? fun e => e.1 == name).map Prod.snd

end DeviceMask

end SoundRouting
