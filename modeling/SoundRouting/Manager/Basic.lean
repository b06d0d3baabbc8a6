import SoundRouting.Manager.Plan
import SoundRouting.Mixer.Binding
/-!
The manager of a sound card: a card with an open mixer, and the model that is in force.

A counted path is applied only when it makes a difference: `on` when the device was not in use,
`off` when nothing uses it any more.
-/
namespace SoundRouting

/-- A loaded configuration that drives a card. -/
structure Manager where
  desk : Desk
  model : Model
  deriving DecidableEq, Repr, Inhabited

/-- A stream that was acquired: its place and its endpoint. -/
structure Handle where
  id : StreamId
  endpoint : Endpoint
  deriving DecidableEq, Repr, Inhabited

namespace Device

/-- The device after a path with this id has been asked for, and whether that path is to be
applied. -/
def count (d : Device) (id : PathId) : Device × Bool :=
  if id = PathId.off then ({ d with useCount := d.useCount - 1 }, d.useCount ≤ 1)
  else if id = PathId.on then ({ d with useCount := d.useCount + 1 }, d.useCount = 0)
  else (d, true)

end Device

namespace Manager

def apply (disk : Disk) (m : Manager) (list : GranularArray Assignment) :
    Manager × GranularArray Assignment :=
  let (desk, applied) := m.desk.apply disk list.toList
  ({ m with desk := desk }, list.withItems applied)

/-- Applies a path of a device, as far as counting asks for it. -/
def applyPath (disk : Disk) (m : Manager) (p : PlannedPath) : Manager :=
  match m.model.devices.get? p.device with
  | none => m
  | some device => match device.paths.get? p.path with
    | none => m
    | some path =>
      let (counted, applies) := device.count path.id
      if applies then
        let (m, assignments) := m.apply disk path.assignments
        let changed := { counted with
          paths := counted.paths.modify p.path fun q => { q with assignments := assignments } }
        { m with model := m.model.modifyDevice p.device fun _ => changed }
      else { m with model := m.model.modifyDevice p.device fun _ => counted }

def perform (disk : Disk) (m : Manager) (plan : List PlannedPath) : Manager :=
  plan.foldl (applyPath disk) m

def modifyStream (m : Manager) (id : StreamId) (f : Stream → Stream) : Manager :=
  { m with model := m.model.modifyStream id f }

@[simp] theorem perform_nil (disk : Disk) (m : Manager) : m.perform disk [] = m := rfl

@[simp] theorem perform_append (disk : Disk) (m : Manager) (p q : List PlannedPath) :
    m.perform disk (p ++ q) = (m.perform disk p).perform disk q := by
  simp [perform]

end Manager

end SoundRouting
