import SoundRouting.Assignment
import SoundRouting.DeviceMask
import SoundRouting.Endpoint
import SoundRouting.GranularArray
import SoundRouting.Model.Device
/-!
Streams with their use-cases and constants.

A use-case is a setting with alternatives, each a list of assignments. A constant is a text that a
configuration attaches to a stream.
-/
namespace SoundRouting

structure Constant where
  name : String
  value : String
  deriving DecidableEq, Repr, Inhabited

structure Case where
  name : String
  assignments : GranularArray Assignment
  deriving DecidableEq, Repr, Inhabited

namespace Case

def compress (c : Case) : Case :=
  { c with assignments := c.assignments.compress }

def unbind (c : Case) : Case :=
  { c with assignments := c.assignments.map (·.unbind) }

def isCompressed (c : Case) : Bool :=
  c.assignments.isCompressed

end Case

structure UseCase where
  name : String
  cases : GranularArray Case
  deriving DecidableEq, Repr, Inhabited

namespace UseCase

def casePlace? (u : UseCase) (name : String) : Option Nat :=
  u.cases.items.findIdx? (·.name == name)

def compress (u : UseCase) : UseCase :=
  { u with cases := (u.cases.map Case.compress).compress }

def unbind (u : UseCase) : UseCase :=
  { u with cases := u.cases.map Case.unbind }

def isCompressed (u : UseCase) : Bool :=
  u.cases.isCompressed && u.cases.items.all Case.isCompressed

end UseCase

/-- A stream. `refCount` counts its open instances, of which there may be `maxRefCount`; `routed`
are the devices it is routed to. -/
structure Stream where
  name : Option String
  endpoint : Endpoint
  refCount : Nat
  maxRefCount : Nat
  enablePath : Option PathId
  disablePath : Option PathId
  routed : DeviceMask
  left : Option VolumeControl
  right : Option VolumeControl
  useCases : GranularArray UseCase
  constants : GranularArray Constant
  deriving DecidableEq, Repr, Inhabited

namespace Stream

def blank (name : Option String) (endpoint : Endpoint) (maxRefCount : Nat) : Stream :=
  { name := name, endpoint := endpoint, refCount := 0, maxRefCount := maxRefCount
    enablePath := none, disablePath := none, routed := DeviceMask.nothing
    left := none, right := none, useCases := .empty, constants := .empty }

def type (s : Stream) : StreamType :=
  s.endpoint.type

def isOpen (s : Stream) : Bool :=
  0 < s.refCount

def constant? (s : Stream) (name : String) : Option String :=
  (s.constants.items.find? (·.name == name)).map (·.value)

def useCasePlace? (s : Stream) (name : String) : Option Nat :=
  s.useCases.items.findIdx? (·.name == name)

def compress (s : Stream) : Stream :=
  { s with
    useCases := (s.useCases.map UseCase.compress).compress
    constants := s.constants.compress }

def unbind (s : Stream) : Stream :=
  { s with
    useCases := s.useCases.map UseCase.unbind
    left := s.left.map VolumeControl.unbind
    right := s.right.map VolumeControl.unbind }

def isCompressed (s : Stream) : Bool :=
  s.useCases.isCompressed && s.useCases.items.all UseCase.isCompressed
    && s.constants.isCompressed

end Stream

end SoundRouting
