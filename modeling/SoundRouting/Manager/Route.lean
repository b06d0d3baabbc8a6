import SoundRouting.Manager.Basic
import SoundRouting.AudioFormat
/-!
Acquiring, routing and releasing streams.

An anonymous stream is chosen by its type: the last declared one with an instance to spare. What is
asked of a stream that is not open, or of devices of the wrong direction, changes nothing.
-/
namespace SoundRouting.Manager

def route (disk : Disk) (m : Manager) (id : StreamId) (mask : DeviceMask) : Manager :=
  match m.model.stream? id with
  | none => m
  | some stream =>
    if !stream.isOpen then m
    else match Plan.clip? stream.type.isInput mask with
      | none => m
      | some clipped =>
        (m.perform disk (Plan.forRoute m.model stream clipped)).modifyStream id fun s =>
          { s with routed := clipped }

def routes (m : Manager) (id : StreamId) : DeviceMask :=
  ((m.model.stream? id).map (·.routed)).getD DeviceMask.nothing

def hasRoom (s : Stream) : Bool :=
  s.refCount < s.maxRefCount

def openStream (disk : Disk) (m : Manager) (id : StreamId) : Manager :=
  match m.model.stream? id with
  | none => m
  | some stream =>
    let m := m.modifyStream id fun s => { s with refCount := s.refCount + 1 }
    if stream.isOpen then m else m.perform disk (Plan.forOpening m.model stream)

def handle? (m : Manager) (id : StreamId) : Option Handle :=
  (m.model.stream? id).map fun s => ⟨id, s.endpoint⟩

/-- The last anonymous stream of a type that has an instance to spare. -/
def available? (m : Manager) (type : StreamType) : Option StreamId :=
  (Model.lastPlace? (fun s => s.type == type && hasRoom s) m.model.anonymous.toList).map fun i =>
    ⟨.anonymous, i⟩

/-- Acquires an anonymous stream for devices and a format, and routes it to the devices. -/
def acquire (disk : Disk) (m : Manager) (devices : DeviceMask) (format : AudioFormat) :
    Manager × Option Handle :=
  match m.available? (.forRequest devices.isInput format.isLinearPcm) with
  | none => (m, none)
  | some id =>
    let m := (m.openStream disk id).route disk id devices
    (m, m.handle? id)

/-- Acquires a named stream. It keeps the devices it is routed to. -/
def acquireNamed (disk : Disk) (m : Manager) (name : String) : Manager × Option Handle :=
  match m.model.namedPlace? name with
  | none => (m, none)
  | some index =>
    let id : StreamId := ⟨.named, index⟩
    if (m.model.stream? id).any hasRoom then
      let m := m.openStream disk id
      (m, m.handle? id)
    else (m, none)

/-- Releases one instance of a stream. With the last one its devices are left. -/
def release (disk : Disk) (m : Manager) (id : StreamId) : Manager :=
  match m.model.stream? id with
  | none => m
  | some stream =>
    if !stream.isOpen then m
    else
      let m := m.modifyStream id fun s => { s with refCount := s.refCount - 1 }
      if 1 < stream.refCount then m
      else
        (m.modifyStream id fun s => { s with routed := DeviceMask.nothing }).perform disk
          (Plan.forClosing m.model stream)

end SoundRouting.Manager
