import SoundRouting.Proofs.Streams
/-!
What a model holds: the assignments of its paths and use-cases, and the volume controls of its streams.
-/
namespace SoundRouting

def Device.Holds (P : Assignment → Prop) (d : Device) : Prop :=
  ∀ p ∈ d.paths.toList, ∀ a ∈ p.assignments.toList, P a

/-- Every assignment in the use-cases of the stream has one property, and its volume controls have the
other. -/
structure Stream.Holds (P : Assignment → Prop) (V : VolumeControl → Prop) (s : Stream) : Prop where
  cases : ∀ u ∈ s.useCases.toList, ∀ c ∈ u.cases.toList, ∀ a ∈ c.assignments.toList, P a
  left : ∀ v, s.left = some v → V v
  right : ∀ v, s.right = some v → V v

structure Model.Holds (P : Assignment → Prop) (V : VolumeControl → Prop) (m : Model) : Prop where
  devices : ∀ d ∈ m.devices.toList, d.Holds P
  streams : ∀ s ∈ m.streams, s.Holds P V

variable {P Q : Assignment → Prop} {V W : VolumeControl → Prop}

theorem Stream.holds_blank (name : Option String) (e : Endpoint) (instances : Nat) :
    (Stream.blank name e instances).Holds P V :=
  ⟨fun _ h => absurd h List.not_mem_nil, nofun, nofun⟩

theorem Stream.Holds.mono {s : Stream} (h : s.Holds P V) (hP : ∀ a, P a → Q a) (hV : ∀ v, V v → W v) :
    s.Holds Q W :=
  ⟨fun u hu c hc a ha => hP a (h.cases u hu c hc a ha), fun v hv => hV v (h.left v hv),
    fun v hv => hV v (h.right v hv)⟩

theorem Model.Holds.mono {m : Model} (h : m.Holds P V) (hP : ∀ a, P a → Q a) (hV : ∀ v, V v → W v) :
    m.Holds Q W :=
  ⟨fun d hd p hp a ha => hP a (h.devices d hd p hp a ha), fun s hs => (h.streams s hs).mono hP hV⟩

theorem Model.Holds.and {m : Model} (h : m.Holds P V) (h' : m.Holds Q W) :
    m.Holds (fun a => P a ∧ Q a) fun v => V v ∧ W v :=
  ⟨fun d hd p hp a ha => ⟨h.devices d hd p hp a ha, h'.devices d hd p hp a ha⟩, fun s hs =>
    ⟨fun u hu c hc a ha => ⟨(h.streams s hs).cases u hu c hc a ha, (h'.streams s hs).cases u hu c hc a ha⟩,
      fun v hv => ⟨(h.streams s hs).left v hv, (h'.streams s hs).left v hv⟩,
      fun v hv => ⟨(h.streams s hs).right v hv, (h'.streams s hs).right v hv⟩⟩⟩

/-- The lists of assignments in a model: those of the paths of devices, and of the alternatives of
use-cases. -/
def Model.HasList (m : Model) (list : List Assignment) : Prop :=
  (∃ d ∈ m.devices.toList, ∃ p ∈ d.paths.toList, p.assignments.toList = list)
    ∨ ∃ s ∈ m.streams, ∃ u ∈ s.useCases.toList, ∃ c ∈ u.cases.toList, c.assignments.toList = list

theorem Model.Holds.hasList {m : Model} (h : m.Holds P V) {list : List Assignment} (hlist : m.HasList list) :
    ∀ a ∈ list, P a := by
  rcases hlist with ⟨d, hd, p, hp, rfl⟩ | ⟨s, hs, u, hu, c, hc, rfl⟩
  · exact h.devices d hd p hp
  · exact (h.streams s hs).cases u hu c hc

/-- Other assignments in one of the paths. -/
theorem Device.Holds.modifyPath {d : Device} (h : d.Holds P) (i : Nat) {list : GranularArray Assignment}
    (hlist : ∀ a ∈ list.toList, P a) :
    Device.Holds P { d with paths := d.paths.modify i fun p => { p with assignments := list } } :=
  GranularArray.forall_modify h fun _ _ => hlist

/-- Other assignments in one of the alternatives. -/
theorem Stream.Holds.modifyCase {s : Stream} (h : s.Holds P V) (u c : Nat) {list : GranularArray Assignment}
    (hlist : ∀ a ∈ list.toList, P a) :
    Stream.Holds P V { s with
      useCases := s.useCases.modify u fun uc =>
        { uc with cases := uc.cases.modify c fun k => { k with assignments := list } } } :=
  ⟨GranularArray.forall_modify h.cases fun uc huc => GranularArray.forall_modify
    (h.cases uc (GranularArray.mem_of_get? huc)) fun _ _ => hlist, h.left, h.right⟩

/-- One of the two volume controls is another one. -/
theorem Stream.Holds.side {s : Stream} (h : s.Holds P V) {v : VolumeControl} (hv : V v)
    {left right : Option VolumeControl}
    (hsides : (left, right) = (some v, s.right) ∨ (left, right) = (s.left, some v)) :
    Stream.Holds P V { s with left := left, right := right } := by
  rcases hsides with hsides | hsides
  · cases hsides
    refine ⟨h.cases, ?_, h.right⟩
    rintro _ ⟨⟩
    exact hv
  · cases hsides
    refine ⟨h.cases, h.left, ?_⟩
    rintro _ ⟨⟩
    exact hv

namespace Model

theorem Holds.modifyDevice {m : Model} (h : m.Holds P V) {i : Nat} {f : Device → Device}
    (hf : ∀ d, m.devices.get? i = some d → (f d).Holds P) : (m.modifyDevice i f).Holds P V :=
  ⟨GranularArray.forall_modify h.devices hf, h.streams⟩

theorem Holds.modifyStream {m : Model} (h : m.Holds P V) {id : StreamId} {f : Stream → Stream}
    (hf : ∀ s, m.stream? id = some s → (f s).Holds P V) : (m.modifyStream id f).Holds P V :=
  ⟨by rw [devices_modifyStream]; exact h.devices, forall_streams_modifyStream h.streams hf⟩

theorem mem_streams_map {m : Model} {f : Stream → Stream} {s : Stream} :
    s ∈ (m.anonymous.map f).toList ++ (m.named.map f).toList ↔ ∃ t ∈ m.streams, f t = s := by
  simp only [streams, GranularArray.toList_map, ← List.map_append, List.mem_map]

/-- A model without bindings holds what holds without them. -/
theorem Holds.unbind {m : Model} (h : m.Holds P V) (hP : ∀ a, P a → Q a.unbind)
    (hV : ∀ v, V v → W v.unbind) : m.unbind.Holds Q W := by
  constructor
  · simp only [Model.unbind, GranularArray.toList_map, List.forall_mem_map]
    intro d hd
    simp only [Device.Holds, Device.unbind, GranularArray.toList_map, List.forall_mem_map, Path.unbind]
    exact fun p hp a ha => hP a (h.devices d hd p hp a ha)
  · intro s hs
    obtain ⟨t, ht, rfl⟩ := mem_streams_map.mp hs
    have hholds := h.streams t ht
    refine ⟨?_, ?_, ?_⟩
    · simp only [Stream.unbind, GranularArray.toList_map, List.forall_mem_map, UseCase.unbind, Case.unbind]
      exact fun u hu c hc a ha => hP a (hholds.cases u hu c hc a ha)
    · intro v hv
      obtain ⟨w, hw, rfl⟩ := Option.map_eq_some_iff.mp hv
      exact hV w (hholds.left w hw)
    · intro v hv
      obtain ⟨w, hw, rfl⟩ := Option.map_eq_some_iff.mp hv
      exact hV w (hholds.right w hw)

/-- Giving back unused room leaves what the model holds. -/
theorem Holds.compress {m : Model} (h : m.Holds P V) : m.compress.Holds P V := by
  constructor
  · simp only [Model.compress, GranularArray.toList_compress, GranularArray.toList_map, List.forall_mem_map]
    intro d hd
    simp only [Device.Holds, Device.compress, GranularArray.toList_compress, GranularArray.toList_map,
      List.forall_mem_map, Path.compress]
    exact fun p hp a ha => h.devices d hd p hp a ha
  · intro s hs
    obtain ⟨t, ht, rfl⟩ := mem_streams_map.mp hs
    have hholds := h.streams t ht
    refine ⟨?_, hholds.left, hholds.right⟩
    simp only [Stream.compress, GranularArray.toList_compress, GranularArray.toList_map, List.forall_mem_map,
      UseCase.compress, Case.compress]
    exact fun u hu c hc a ha => hholds.cases u hu c hc a ha

end Model

end SoundRouting
