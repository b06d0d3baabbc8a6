import SoundRouting.Model.Stream
/-!
The model that a configuration declares: devices, streams, and the names of paths.

Streams without a name are chosen by their type, named ones by their name. A name is looked up from
the last declaration back.
-/
namespace SoundRouting

inductive StreamPool where
  | anonymous
  | named
  deriving DecidableEq, Repr, Inhabited

/-- The place of a stream in a model. -/
structure StreamId where
  pool : StreamPool
  index : Nat
  deriving DecidableEq, Repr, Inhabited

/-- What a configuration declares. `outputs` and `inputs` are the unions of the masks of the
declared devices of each direction. -/
structure Model where
  devices : GranularArray Device
  anonymous : GranularArray Stream
  named : GranularArray Stream
  pathNames : GranularArray String
  outputs : DeviceMask
  inputs : DeviceMask
  deriving DecidableEq, Repr, Inhabited

namespace Model

def blank : Model :=
  ⟨.empty, .empty, .empty, .empty, DeviceMask.nothing, DeviceMask.nothing⟩

def lastPlace? {α : Type} (test : α → Bool) (items : List α) : Option Nat :=
  (items.reverse.findIdx? test).map (items.length - 1 - ·)

theorem lastPlace?_eq_none_iff {α : Type} {test : α → Bool} {items : List α} :
    lastPlace? test items = none ↔ ∀ x ∈ items, test x = false := by
  simp [lastPlace?, List.findIdx?_eq_none_iff]

/-- The place that is found is one at which the test holds. -/
theorem exists_of_lastPlace?_eq_some {α : Type} {test : α → Bool} {items : List α} {i : Nat}
    (h : lastPlace? test items = some i) : ∃ x, items[i]? = some x ∧ test x = true := by
  obtain ⟨k, hk, rfl⟩ := Option.map_eq_some_iff.mp h
  obtain ⟨hlt, htest, -⟩ := List.findIdx?_eq_some_iff_getElem.mp hk
  rw [List.length_reverse] at hlt
  refine ⟨_, List.getElem?_eq_getElem (by omega), ?_⟩
  rwa [List.getElem_reverse] at htest

/-- Behind the place that is found the test fails. -/
theorem lastPlace?_behind {α : Type} {test : α → Bool} {items : List α} {i : Nat}
    (h : lastPlace? test items = some i) {j : Nat} (hj : i < j) {x : α} (hx : items[j]? = some x) :
    test x = false := by
  obtain ⟨k, hk, rfl⟩ := Option.map_eq_some_iff.mp h
  obtain ⟨hlt, -, hbefore⟩ := List.findIdx?_eq_some_iff_getElem.mp hk
  rw [List.length_reverse] at hlt
  obtain ⟨hin, rfl⟩ := List.getElem?_eq_some_iff.mp hx
  have hfails := hbefore (items.length - 1 - j) (by omega)
  have hplace : items.length - 1 - (items.length - 1 - j) = j := by omega
  simpa only [List.getElem_reverse, hplace, Bool.not_eq_true] using hfails

/-- The place of the last stream of this name. -/
def namedPlace? (m : Model) (name : String) : Option Nat :=
  lastPlace? (fun s => s.name == some name) m.named.toList

def pool (m : Model) : StreamPool → GranularArray Stream
  | .anonymous => m.anonymous
  | .named => m.named

def stream? (m : Model) (id : StreamId) : Option Stream :=
  (m.pool id.pool).get? id.index

def modifyStream (m : Model) (id : StreamId) (f : Stream → Stream) : Model :=
  match id.pool with
  | .anonymous => { m with anonymous := m.anonymous.modify id.index f }
  | .named => { m with named := m.named.modify id.index f }

def modifyDevice (m : Model) (index : Nat) (f : Device → Device) : Model :=
  { m with devices := m.devices.modify index f }

def globalPlace? (m : Model) : Option Nat :=
  m.devices.items.findIdx? Device.isGlobal

def pathName? (m : Model) (id : PathId) : Option String :=
  m.pathNames.get? id

def pathId? (m : Model) (name : String) : Option PathId :=
  lastPlace? (· == name) m.pathNames.toList

/-- Gives back unused room in every array of the model. -/
def compress (m : Model) : Model :=
  { m with
    devices := (m.devices.map Device.compress).compress
    anonymous := (m.anonymous.map Stream.compress).compress
    named := (m.named.map Stream.compress).compress
    pathNames := m.pathNames.compress }

/-- Forgets every binding and keeps the values that were converted. -/
def unbind (m : Model) : Model :=
  { m with
    devices := m.devices.map Device.unbind
    anonymous := m.anonymous.map Stream.unbind
    named := m.named.map Stream.unbind }

def isCompressed (m : Model) : Bool :=
  m.devices.isCompressed && m.devices.items.all Device.isCompressed
    && m.anonymous.isCompressed && m.anonymous.items.all Stream.isCompressed
    && m.named.isCompressed && m.named.items.all Stream.isCompressed
    && m.pathNames.isCompressed

def pathAssignmentCount (m : Model) : Nat :=
  (m.devices.toList.map Device.assignmentCount).foldl (· + ·) 0

end Model

end SoundRouting
