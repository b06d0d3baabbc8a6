import SoundRouting.Model.Basic
/-!
Plans: which paths of which devices a change of routing applies, and in which order.

A plan depends on the devices, their masks and the paths they declare, not on what is in use.
-/
namespace SoundRouting

/-- A path to be applied: the place of a device, and the place of the path in it. -/
structure PlannedPath where
  device : Nat
  path : Nat
  deriving DecidableEq, Repr, Inhabited

namespace Device

/-- The places of the paths with two ids, in this order. An id that the device has no path for is
left out, and so is the second id if it is the first one again. -/
def placesOf (d : Device) (first second : Option PathId) : List Nat :=
  (first.bind d.pathPlace?).toList
    ++ (if first = second then none else second.bind d.pathPlace?).toList

/-- Whether a device takes part in a change that concerns these bits of one direction. -/
def takesPart (d : Device) (input : Bool) (bits : DeviceMask) : Bool :=
  d.mask.isInput == input && d.mask.meets bits

end Device

namespace Plan

/-- The devices of one direction that own a bit which no device before them owns, with their
places; the first device stands at `place`. -/
def chosenFrom (input : Bool) (bits : DeviceMask) (place : Nat) :
    List Device → List (Nat × Device)
  | [] => []
  | d :: more =>
    if d.takesPart input bits then
      (place, d) :: chosenFrom input (bits &&& ~~~d.mask) (place + 1) more
    else chosenFrom input bits (place + 1) more

/-- The devices that a mask chooses: those of its direction that own its bits. -/
def chosen (devices : List Device) (mask : DeviceMask) : List (Nat × Device) :=
  chosenFrom mask.isInput (mask &&& ~~~DeviceMask.inputBit) 0 devices

def ofDevices (first second : Option PathId) (devices : List (Nat × Device)) :
    List PlannedPath :=
  devices.flatMap fun (place, d) => (d.placesOf first second).map fun path => ⟨place, path⟩

def forMask (m : Model) (mask : DeviceMask) (first second : Option PathId) : List PlannedPath :=
  ofDevices first second (chosen m.devices.toList mask)

def forGlobal (m : Model) (first second : Option PathId) : List PlannedPath :=
  match m.globalPlace? with
  | none => []
  | some place =>
    ofDevices first second ((m.devices.get? place).toList.map fun d => (place, d))

/-- The bits of a mask that a stream of one direction can be routed to, unless the mask is of the
other direction. The empty mask is of both directions. -/
def clip? (input : Bool) (mask : DeviceMask) : Option DeviceMask :=
  if mask == DeviceMask.nothing then some mask
  else if mask.isInput then
    if input then some ((mask &&& DeviceMask.allInputs) ||| DeviceMask.inputBit) else none
  else if input then none
  else some (mask &&& DeviceMask.allOutputs)

/-- The paths to apply when a stream goes from the devices it is routed to, to those of `mask`:
first those that are left are switched off, then those that are new are switched on. -/
def forRoute (m : Model) (stream : Stream) (mask : DeviceMask) : List PlannedPath :=
  let direction := mask &&& DeviceMask.inputBit
  forMask m ((~~~mask &&& stream.routed) ||| direction) stream.disablePath (some PathId.off)
    ++ forMask m ((mask &&& ~~~stream.routed) ||| direction) (some PathId.on) stream.enablePath

/-- The paths to apply when the first instance of a stream is opened. -/
def forOpening (m : Model) (stream : Stream) : List PlannedPath :=
  forGlobal m (some PathId.on) stream.enablePath

/-- The paths to apply when the last instance of a stream is released. -/
def forClosing (m : Model) (stream : Stream) : List PlannedPath :=
  forMask m stream.routed (some PathId.off) stream.disablePath
    ++ forGlobal m stream.disablePath (some PathId.off)

/-- A chosen device stands at its place and owns bits that are asked for. -/
theorem mem_chosenFrom {input : Bool} {bits : DeviceMask} {place : Nat} {devices : List Device}
    {i : Nat} {d : Device} (h : (i, d) ∈ chosenFrom input bits place devices) :
    place ≤ i ∧ devices[i - place]? = some d ∧ d.takesPart input bits = true := by
  induction devices generalizing bits place with
  | nil => cases h
  | cons e more ih =>
    simp only [chosenFrom] at h
    split at h
    · rename_i he
      rcases List.mem_cons.1 h with h | h
      · cases h
        simpa using he
      · obtain ⟨hp, hd, ht⟩ := ih h
        have hi : i - place = (i - (place + 1)) + 1 := by omega
        refine ⟨by omega, by simpa [hi] using hd, ?_⟩
        simp only [Device.takesPart, Bool.and_eq_true, DeviceMask.meets, bne_iff_ne, ne_eq] at ht ⊢
        refine ⟨ht.1, fun h0 => ht.2 ?_⟩
        rw [← BitVec.and_assoc, h0]
        simp
    · obtain ⟨hp, hd, ht⟩ := ih h
      have hi : i - place = (i - (place + 1)) + 1 := by omega
      exact ⟨by omega, by simpa [hi] using hd, ht⟩

end Plan

end SoundRouting
