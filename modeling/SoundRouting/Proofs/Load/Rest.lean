import SoundRouting.Proofs.Contents
import SoundRouting.Proofs.Load.Steps
/-!
A model is loaded at rest.

Its devices have listed masks, no two of them the same, and each path id once; nothing is in use, no stream
is open, and there are no more streams than an array has room for. How many instances a stream may have fits
a word.
-/
namespace SoundRouting

namespace Model

def masks (m : Model) : List DeviceMask :=
  m.devices.toList.map (·.mask)

def union (m : Model) (input : Bool) : DeviceMask :=
  if input then m.inputs else m.outputs

/-- A model of which nothing is in use. -/
structure AtRest (m : Model) : Prop where
  listed : ∀ mask ∈ m.masks, DeviceMask.IsListed mask
  distinct : m.masks.Nodup
  covered : ∀ mask ∈ m.masks, mask &&& m.union mask.isInput = mask
  unused : ∀ d ∈ m.devices.toList, d.useCount = 0 ∧ d.outline.paths.Nodup
  idle : ∀ s ∈ m.streams, s.refCount = 0 ∧ s.routed = DeviceMask.nothing
  anonymous : m.anonymous.Bounded
  named : m.named.Bounded
  room : ∀ s ∈ m.streams, s.maxRefCount < UInt32.size

theorem atRest_blank (names : GranularArray String) : AtRest { blank with pathNames := names } :=
  ⟨fun _ h => absurd h List.not_mem_nil, List.nodup_nil, fun _ h => absurd h List.not_mem_nil,
    fun _ h => absurd h List.not_mem_nil, fun _ h => absurd h List.not_mem_nil,
    GranularArray.bounded_empty, GranularArray.bounded_empty, fun _ h => absurd h List.not_mem_nil⟩

variable {m : Model}

theorem AtRest.modifyDevice (h : m.AtRest) {i : Nat} {f : Device → Device}
    (hf : ∀ d, m.devices.get? i = some d → (f d).mask = d.mask ∧ (f d).useCount = d.useCount
      ∧ (d.outline.paths.Nodup → (f d).outline.paths.Nodup)) (names : GranularArray String) :
    AtRest { m with devices := m.devices.modify i f, pathNames := names } := by
  have hmasks : masks { m with devices := m.devices.modify i f, pathNames := names } = m.masks :=
    GranularArray.map_toList_modify m.devices fun d hd => (hf d hd).1
  refine ⟨by rw [hmasks]; exact h.listed, by rw [hmasks]; exact h.distinct, by rw [hmasks]; exact h.covered,
    GranularArray.forall_modify h.unused fun d hd => ?_, h.idle, h.anonymous, h.named, h.room⟩
  obtain ⟨-, huse, hids⟩ := hf d hd
  obtain ⟨hzero, hnodup⟩ := h.unused d (GranularArray.mem_of_get? hd)
  exact ⟨by rw [huse, hzero], hids hnodup⟩

theorem AtRest.modifyStream (h : m.AtRest) {id : StreamId} {f : Stream → Stream}
    (hf : ∀ s, m.stream? id = some s → (f s).refCount = s.refCount ∧ (f s).routed = s.routed
      ∧ (f s).maxRefCount = s.maxRefCount) : (m.modifyStream id f).AtRest := by
  have hidle : ∀ s ∈ (m.modifyStream id f).streams, s.refCount = 0 ∧ s.routed = DeviceMask.nothing := by
    refine forall_streams_modifyStream h.idle fun s hs => ?_
    obtain ⟨hcount, hrouted, -⟩ := hf s hs
    rw [hcount, hrouted]
    exact h.idle s (mem_of_stream? hs)
  have hroom : ∀ s ∈ (m.modifyStream id f).streams, s.maxRefCount < UInt32.size := by
    refine forall_streams_modifyStream h.room fun s hs => ?_
    rw [(hf s hs).2.2]
    exact h.room s (mem_of_stream? hs)
  have hsize : ∀ a : GranularArray Stream, a.Bounded → (a.modify id.index f).Bounded := by
    intro a ha
    rwa [GranularArray.Bounded, GranularArray.size_modify]
  obtain ⟨pool, i⟩ := id
  cases pool with
  | anonymous => exact ⟨h.listed, h.distinct, h.covered, h.unused, hidle, hsize _ h.anonymous, h.named, hroom⟩
  | named => exact ⟨h.listed, h.distinct, h.covered, h.unused, hidle, h.anonymous, hsize _ h.named, hroom⟩

theorem AtRest.unbind (h : m.AtRest) : m.unbind.AtRest := by
  have hmasks : m.unbind.masks = m.masks := by
    simp only [masks, Model.unbind, GranularArray.toList_map, List.map_map]
    rfl
  refine ⟨by rw [hmasks]; exact h.listed, by rw [hmasks]; exact h.distinct, by rw [hmasks]; exact h.covered,
    ?_, ?_, ?_, ?_, ?_⟩
  · simp only [Model.unbind, GranularArray.toList_map, List.forall_mem_map]
    intro d hd
    obtain ⟨hzero, hnodup⟩ := h.unused d hd
    refine ⟨hzero, ?_⟩
    simp only [Device.outline, Device.unbind, GranularArray.toList_map, List.map_map]
    exact hnodup
  · intro s hs
    obtain ⟨t, ht, rfl⟩ := mem_streams_map.mp hs
    exact h.idle t ht
  · simpa only [GranularArray.Bounded, Model.unbind, GranularArray.size, GranularArray.map, Array.size_map]
      using h.anonymous
  · simpa only [GranularArray.Bounded, Model.unbind, GranularArray.size, GranularArray.map, Array.size_map]
      using h.named
  · intro s hs
    obtain ⟨t, ht, rfl⟩ := mem_streams_map.mp hs
    exact h.room t ht

/-- Room that is given back was not in use. -/
theorem AtRest.compress (h : m.AtRest) : m.compress.AtRest := by
  have hmasks : m.compress.masks = m.masks := by
    simp only [masks, Model.compress, GranularArray.toList_compress, GranularArray.toList_map, List.map_map]
    rfl
  have hbounded : ∀ a : GranularArray Stream, a.Bounded → (a.map Stream.compress).compress.Bounded := by
    intro a ha
    simp only [GranularArray.Bounded, GranularArray.compress, GranularArray.size, GranularArray.map,
      Array.size_map] at ha ⊢
    exact ⟨Nat.le_refl _, Nat.le_trans ha.1 ha.2⟩
  refine ⟨by rw [hmasks]; exact h.listed, by rw [hmasks]; exact h.distinct, by rw [hmasks]; exact h.covered,
    ?_, ?_, hbounded _ h.anonymous, hbounded _ h.named, ?_⟩
  · simp only [Model.compress, GranularArray.toList_compress, GranularArray.toList_map, List.forall_mem_map]
    intro d hd
    obtain ⟨hzero, hnodup⟩ := h.unused d hd
    refine ⟨hzero, ?_⟩
    simp only [Device.outline, Device.compress, GranularArray.toList_compress, GranularArray.toList_map,
      List.map_map]
    exact hnodup
  · intro s hs
    obtain ⟨t, ht, rfl⟩ := mem_streams_map.mp hs
    exact h.idle t ht
  · intro s hs
    obtain ⟨t, ht, rfl⟩ := mem_streams_map.mp hs
    exact h.room t ht

end Model

namespace Config

open Model

/-- A mask that is covered stays so when the union grows. -/
theorem covered_or {mask union : DeviceMask} (h : mask &&& union = mask) (more : DeviceMask) :
    mask &&& (union ||| more) = mask := by
  apply BitVec.eq_of_getLsbD_eq
  intro i _
  have hi := congrArg (·.getLsbD i) h
  simp only [BitVec.getLsbD_and, BitVec.getLsbD_or] at hi ⊢
  cases hm : mask.getLsbD i
  · rfl
  · rw [hm, Bool.true_and] at hi
    rw [hi]
    rfl

theorem covered_self (union mask : DeviceMask) : mask &&& (union ||| mask) = mask := by
  apply BitVec.eq_of_getLsbD_eq
  intro i _
  rw [BitVec.getLsbD_and, BitVec.getLsbD_or]
  cases mask.getLsbD i <;> simp

theorem nodup_concat {α : Type} {l : List α} {x : α} (h : l.Nodup) (hx : x ∉ l) : (l ++ [x]).Nodup := by
  rw [List.nodup_append]
  refine ⟨h, by simp, fun a ha b hb => ?_⟩
  rw [List.mem_singleton.mp hb]
  rintro rfl
  exact hx ha

variable {m : Model} {mask outputs inputs : DeviceMask}

/-- A mask that is admitted is none of those that are covered, and comes to be covered with them. -/
theorem Admits.spec (h : Admits m mask outputs inputs) (hm : m.AtRest) :
    mask ∉ m.masks ∧ ∀ other ∈ mask :: m.masks, other &&& (if other.isInput then inputs else outputs) = other := by
  simp only [List.forall_mem_cons]
  cases h with
  | global hmask hglobal =>
    subst hmask
    refine ⟨?_, BitVec.zero_and, hm.covered⟩
    intro hmem
    obtain ⟨d, hd, hdmask⟩ := List.mem_map.mp hmem
    rw [globalPlace?, Array.findIdx?_eq_none_iff] at hglobal
    simpa [Device.isGlobal, hdmask] using hglobal d (Array.mem_toList_iff.mp hd)
  | input hmask hdir hnew =>
    refine ⟨fun hmem => hnew ?_, ?_, fun other hother => ?_⟩
    · have hcovered := hm.covered mask hmem
      rwa [union, if_pos hdir, BitVec.and_comm] at hcovered
    · rw [if_pos hdir, covered_self]
    · have hcovered := hm.covered other hother
      rw [union] at hcovered
      split at hcovered
      · rw [if_pos ‹_›, covered_or hcovered]
      · rw [if_neg ‹_›, hcovered]
  | output hmask hdir hnew =>
    refine ⟨fun hmem => hnew ?_, ?_, fun other hother => ?_⟩
    · have hcovered := hm.covered mask hmem
      rwa [union, hdir, if_neg Bool.false_ne_true, BitVec.and_comm] at hcovered
    · rw [hdir, if_neg Bool.false_ne_true, covered_self]
    · have hcovered := hm.covered other hother
      rw [union] at hcovered
      split at hcovered
      · rw [if_pos ‹_›, hcovered]
      · rw [if_neg ‹_›, covered_or hcovered]

theorem atRest_device (hm : m.AtRest) (hlisted : DeviceMask.IsListed mask)
    (hadmits : Admits m mask outputs inputs) {devices : GranularArray Device}
    (h : m.devices.push (.blank mask) = .ok devices) :
    AtRest { m with devices := devices, outputs := outputs, inputs := inputs } := by
  obtain ⟨hnew, hcovered⟩ := hadmits.spec hm
  have hmasks : masks { m with devices := devices, outputs := outputs, inputs := inputs } = m.masks ++ [mask] := by
    rw [masks, GranularArray.toList_push h, List.map_append]
    rfl
  rw [List.forall_mem_cons] at hcovered
  refine ⟨?_, ?_, ?_, GranularArray.forall_push h hm.unused ⟨rfl, List.nodup_nil⟩, hm.idle, hm.anonymous, hm.named,
    hm.room⟩
  · rw [hmasks, List.forall_mem_append, List.forall_mem_singleton]
    exact ⟨hm.listed, hlisted⟩
  · rw [hmasks]
    exact nodup_concat hm.distinct hnew
  · rw [hmasks, List.forall_mem_append, List.forall_mem_singleton]
    exact ⟨hcovered.2, hcovered.1⟩

theorem atRest_path (hm : m.AtRest) {place : Nat} {device : Device} {id : PathId} {paths : GranularArray Path}
    (hd : m.devices.get? place = some device) (hnew : device.pathPlace? id = none)
    (h : device.paths.push (.blank id) = .ok paths) (names : GranularArray String) :
    AtRest { m with
      devices := m.devices.modify place fun d => { d with paths := paths }, pathNames := names } := by
  refine hm.modifyDevice ?_ names
  intro d hd'
  obtain rfl : device = d := Option.some.inj (hd.symm.trans hd')
  refine ⟨rfl, rfl, fun hnodup => ?_⟩
  simp only [Device.outline, GranularArray.toList_push h, List.map_append, List.map_cons, List.map_nil]
  refine nodup_concat hnodup fun hmem => ?_
  obtain ⟨p, hp, hid⟩ := List.mem_map.mp hmem
  rw [Device.pathPlace?, Array.findIdx?_eq_none_iff] at hnew
  simpa [hid, Path.blank] using hnew p (Array.mem_toList_iff.mp hp)

theorem atRest_anonymous (hm : m.AtRest) {name : Option String} {e : Endpoint} {instances : Nat}
    (hroom : instances < UInt32.size) {streams : GranularArray Stream}
    (h : m.anonymous.push (.blank name e instances) = .ok streams) : AtRest { m with anonymous := streams } := by
  have hidle := hm.idle
  have hrooms := hm.room
  rw [Model.streams, List.forall_mem_append] at hidle hrooms
  refine ⟨hm.listed, hm.distinct, hm.covered, hm.unused, ?_, GranularArray.bounded_push h hm.anonymous, hm.named, ?_⟩
  all_goals rw [Model.streams, List.forall_mem_append]
  · exact ⟨GranularArray.forall_push h hidle.1 ⟨rfl, rfl⟩, hidle.2⟩
  · exact ⟨GranularArray.forall_push h hrooms.1 hroom, hrooms.2⟩

theorem atRest_named (hm : m.AtRest) {name : Option String} {e : Endpoint} {instances : Nat}
    (hroom : instances < UInt32.size) {streams : GranularArray Stream}
    (h : m.named.push (.blank name e instances) = .ok streams) : AtRest { m with named := streams } := by
  have hidle := hm.idle
  have hrooms := hm.room
  rw [Model.streams, List.forall_mem_append] at hidle hrooms
  refine ⟨hm.listed, hm.distinct, hm.covered, hm.unused, ?_, hm.anonymous, GranularArray.bounded_push h hm.named, ?_⟩
  all_goals rw [Model.streams, List.forall_mem_append]
  · exact ⟨hidle.1, GranularArray.forall_push h hidle.2 ⟨rfl, rfl⟩⟩
  · exact ⟨hrooms.1, GranularArray.forall_push h hrooms.2 hroom⟩

theorem Extends.rest {c c' : Cursor} {e : ElementKind} {s t : Stream} (h : Extends c s e t c') :
    t.refCount = s.refCount ∧ t.routed = s.routed ∧ t.maxRefCount = s.maxRefCount := by
  cases h <;> exact ⟨rfl, rfl, rfl⟩

variable {disk : Disk} {s t : State}

theorem atRest_lists {a : Assignment} {parent : Option ElementKind} (hs : s.model.AtRest)
    (h : Lists a s parent t) : t.model.AtRest := by
  cases h with
  | path hd hp hpush =>
    refine hs.modifyDevice ?_ s.model.pathNames
    intro d _
    refine ⟨rfl, rfl, fun hnodup => ?_⟩
    simp only [Device.outline]
    rw [GranularArray.map_toList_modify]
    · exact hnodup
    · exact fun _ _ => rfl
  | useCaseCase => exact hs.modifyStream fun _ _ => ⟨rfl, rfl, rfl⟩
  | init | preInit => exact hs

theorem atRest_begins {parent : Option ElementKind} {e : ElementKind} (hs : s.model.AtRest)
    (h : Begins disk s parent e t) : t.model.AtRest := by
  cases h with
  | aside => exact hs
  | mixer =>
    simp only [State.detached]
    split
    · exact hs.unbind
    · exact hs
  | device hlisted hadmits hpush => exact atRest_device hs hlisted hadmits hpush
  | path hd hnew hpush names => exact atRest_path hs hd hnew hpush names
  | control _ hbind hlists =>
    refine atRest_lists ?_ hlists
    rcases bindEarly_cases hbind with ⟨-, -, rfl⟩ | ⟨_, _, _, -, -, rfl⟩ <;> exact hs
  | anonymous hblank hpush _ _ hroom =>
    subst hblank
    exact atRest_anonymous hs hroom hpush
  | named hblank hpush _ _ hroom =>
    subst hblank
    exact atRest_named hs hroom hpush
  | setting _ hid hextends =>
    refine hs.modifyStream fun s' hs' => ?_
    obtain rfl := Option.some.inj (hid.symm.trans hs')
    exact hextends.rest
  | volume _ hbind hid =>
    obtain ⟨_, -, -, -, rfl⟩ := bindVolumeEarly_cases hbind
    refine Model.AtRest.modifyStream hs fun s' hs' => ?_
    obtain rfl := Option.some.inj (hid.symm.trans hs')
    exact ⟨rfl, rfl, rfl⟩

theorem atRest_ends {e : ElementKind} (hs : s.model.AtRest) (h : Ends disk s e t) : t.model.AtRest := by
  cases h with
  | aside => exact hs
  | preInit => exact hs.unbind

theorem atRest_steps {next : Option Location} (hs : s.model.AtRest) (h : Steps disk s next t) :
    t.model.AtRest := by
  cases h with
  | opens _ hbegin =>
    have ht := atRest_begins hs hbegin
    exact ht
  | closes _ _ hend => exact atRest_ends (by exact hs) hend
  | leaves | rests => exact hs

theorem atRest_of_reaches {rack : Rack} {file : Location} {events : List Event}
    (h : Reaches disk rack file s events) : s.model.AtRest :=
  h.induction (atRest_blank _) (fun _ _ _ _ _ hs hsteps => atRest_steps hs hsteps) fun _ _ _ _ _ ht => ht

theorem runs_finish {loaded : Loaded} (h : Runs (finish disk) s loaded t) : ∃ desk, s.desk? = some desk
    ∧ loaded = ⟨s.model.compress, (desk.apply disk s.init.toList).1.mixer, s.card⟩
    ∧ t = s.withDesk (desk.apply disk s.init.toList).1 := by
  simp only [finish, Runs.bind_iff, Runs.get_iff, Runs.set_iff, Runs.need_iff, Runs.pure_iff] at h
  obtain ⟨_, _, ⟨rfl, rfl⟩, desk, _, ⟨hdesk, rfl⟩, _, _, rfl, rfl, rfl⟩ := h
  exact ⟨desk, hdesk, rfl, rfl⟩

/-- A configuration is loaded at rest. -/
theorem atRest_of_load {rack after : Rack} {file : Location} {loaded : Loaded}
    (h : load disk rack file = (.ok loaded, after)) : loaded.model.AtRest := by
  obtain ⟨s, t, hreaches, hfinish, -⟩ := Reaches.of_load h
  obtain ⟨desk, -, rfl, -⟩ := runs_finish hfinish
  exact (atRest_of_reaches hreaches).compress

end Config

end SoundRouting
