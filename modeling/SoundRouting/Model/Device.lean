import SoundRouting.Assignment
import SoundRouting.DeviceMask
import SoundRouting.GranularArray
/-!
Devices and the paths that switch them.

A path of a device is a list of assignments under a path id. The paths with the ids `off` and `on`
are applied by counting: `on` when the first stream is routed to the device, `off` when the last
one leaves it.
-/
namespace SoundRouting

/-- The place of a path's name among the path names of a configuration. -/
abbrev PathId := Nat

namespace PathId

def off : PathId := 0

def on : PathId := 1

/-- Whether applying the path counts the routes that hold its device. -/
def isCounted (id : PathId) : Bool :=
  id == off || id == on

end PathId

/-- A list of assignments under a path id. -/
structure Path where
  id : PathId
  assignments : GranularArray Assignment
  deriving DecidableEq, Repr, Inhabited

namespace Path

def blank (id : PathId) : Path :=
  ⟨id, .empty⟩

def compress (p : Path) : Path :=
  { p with assignments := p.assignments.compress }

def unbind (p : Path) : Path :=
  { p with assignments := p.assignments.map (·.unbind) }

def isCompressed (p : Path) : Bool :=
  p.assignments.isCompressed

end Path

/-- A device that can be routed to, or the global device. -/
structure Device where
  mask : DeviceMask
  useCount : Nat
  paths : GranularArray Path
  deriving DecidableEq, Repr, Inhabited

namespace Device

def blank (mask : DeviceMask) : Device :=
  ⟨mask, 0, .empty⟩

def isGlobal (d : Device) : Bool :=
  d.mask == DeviceMask.nothing

def pathPlace? (d : Device) (id : PathId) : Option Nat :=
  d.paths.items.findIdx? (·.id == id)

def path? (d : Device) (id : PathId) : Option Path :=
  d.paths.items.find? (·.id == id)

def compress (d : Device) : Device :=
  { d with paths := (d.paths.map Path.compress).compress }

def unbind (d : Device) : Device :=
  { d with paths := d.paths.map Path.unbind }

def isCompressed (d : Device) : Bool :=
  d.paths.isCompressed && d.paths.items.all Path.isCompressed

def assignmentCount (d : Device) : Nat :=
  (d.paths.toList.map (·.assignments.size)).foldl (· + ·) 0

end Device

end SoundRouting
