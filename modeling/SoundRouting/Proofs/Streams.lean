import SoundRouting.Proofs.Tally
/-!
The streams of a model, anonymous and named, and how many of them hold a device.
-/
namespace SoundRouting

namespace Model

/-- All streams, the anonymous ones before the named ones. -/
def streams (m : Model) : List Stream :=
  m.anonymous.toList ++ m.named.toList

/-- The number of streams that are routed to a device with this mask. -/
def holders (m : Model) (device : DeviceMask) : Nat :=
  m.streams.countP fun s => s.routed.reaches device

theorem mem_streams_iff {m : Model} {s : Stream} : s ∈ m.streams ↔ ∃ id, m.stream? id = some s := by
  simp only [streams, List.mem_append, GranularArray.mem_toList_iff]
  constructor
  · rintro (⟨i, h⟩ | ⟨i, h⟩)
    · exact ⟨⟨.anonymous, i⟩, h⟩
    · exact ⟨⟨.named, i⟩, h⟩
  · rintro ⟨⟨pool, i⟩, h⟩
    cases pool with
    | anonymous => exact Or.inl ⟨i, h⟩
    | named => exact Or.inr ⟨i, h⟩

theorem mem_of_stream? {m : Model} {id : StreamId} {s : Stream} (hs : m.stream? id = some s) : s ∈ m.streams :=
  mem_streams_iff.mpr ⟨id, hs⟩

theorem stream?_modifyStream_same (m : Model) (id : StreamId) (f : Stream → Stream) :
    (m.modifyStream id f).stream? id = (m.stream? id).map f := by
  obtain ⟨pool, i⟩ := id
  cases pool <;> exact GranularArray.get?_modify_same _ _ _

theorem stream?_modifyStream_other (m : Model) {id other : StreamId} (f : Stream → Stream)
    (h : id ≠ other) : (m.modifyStream id f).stream? other = m.stream? other := by
  obtain ⟨pool, i⟩ := id
  obtain ⟨pool', j⟩ := other
  cases pool <;> cases pool' <;> try rfl
  all_goals exact GranularArray.get?_modify_other _ _ fun hij => h (congrArg _ hij)

@[simp] theorem devices_modifyStream (m : Model) (id : StreamId) (f : Stream → Stream) :
    (m.modifyStream id f).devices = m.devices := by
  obtain ⟨pool, i⟩ := id
  cases pool <;> rfl

theorem modifyStream_congr {m : Model} {id : StreamId} {f g : Stream → Stream}
    (h : ∀ s, m.stream? id = some s → f s = g s) : m.modifyStream id f = m.modifyStream id g := by
  obtain ⟨pool, i⟩ := id
  cases pool with
  | anonymous => simp only [modifyStream, GranularArray.modify_congr m.anonymous h]
  | named => simp only [modifyStream, GranularArray.modify_congr m.named h]

theorem modifyStream_modifyStream (m : Model) (id : StreamId) (f g : Stream → Stream) :
    (m.modifyStream id f).modifyStream id g = m.modifyStream id fun s => g (f s) := by
  obtain ⟨pool, i⟩ := id
  cases pool <;> simp only [modifyStream, GranularArray.modify_modify]

/-- Changing one stream keeps what holds of all streams if it keeps it for this one. -/
theorem forall_streams_modifyStream {m : Model} {P : Stream → Prop} {id : StreamId} {f : Stream → Stream}
    (hall : ∀ s ∈ m.streams, P s) (hf : ∀ s, m.stream? id = some s → P (f s)) :
    ∀ s ∈ (m.modifyStream id f).streams, P s := by
  intro s hs
  obtain ⟨other, hs⟩ := mem_streams_iff.mp hs
  by_cases h : id = other
  · subst h
    rw [stream?_modifyStream_same, Option.map_eq_some_iff] at hs
    obtain ⟨old, hold, rfl⟩ := hs
    exact hf old hold
  · rw [stream?_modifyStream_other m f h] at hs
    exact hall s (mem_of_stream? hs)

/-- One stream more or less counts where it is changed. -/
theorem countP_modify {α : Type} {p : α → Bool} {l : List α} {i : Nat} {x : α} (f : α → α)
    (h : l[i]? = some x) :
    (l.modify i f).countP p + (p x).toNat = l.countP p + (p (f x)).toNat := by
  induction l generalizing i with
  | nil => simp at h
  | cons y more ih =>
    cases i with
    | zero =>
      simp only [List.getElem?_cons_zero, Option.some.injEq] at h
      subst h
      rw [List.modify_zero_cons, List.countP_cons, List.countP_cons]
      cases p y <;> cases p (f y) <;> simp
    | succ i =>
      have hmore := ih (by simpa using h)
      rw [List.modify_succ_cons, List.countP_cons, List.countP_cons]
      omega

/-- A stream that is changed is counted as what it becomes. -/
theorem countP_streams_modifyStream {m : Model} {id : StreamId} {s : Stream} (hs : m.stream? id = some s)
    (f : Stream → Stream) (p : Stream → Bool) :
    (m.modifyStream id f).streams.countP p + (p s).toNat = m.streams.countP p + (p (f s)).toNat := by
  obtain ⟨pool, i⟩ := id
  cases pool with
  | anonymous =>
    have h : m.anonymous.toList[i]? = some s := by rw [GranularArray.getElem?_toList]; exact hs
    have hcount := countP_modify (p := p) f h
    simp only [streams, modifyStream, List.countP_append, GranularArray.toList_modify]
    omega
  | named =>
    have h : m.named.toList[i]? = some s := by rw [GranularArray.getElem?_toList]; exact hs
    have hcount := countP_modify (p := p) f h
    simp only [streams, modifyStream, List.countP_append, GranularArray.toList_modify]
    omega

/-- A change that keeps what is counted of a stream keeps the count. -/
theorem countP_streams_modifyStream_of_eq {m : Model} {id : StreamId} {f : Stream → Stream} {p : Stream → Bool}
    (hf : ∀ s, p (f s) = p s) : (m.modifyStream id f).streams.countP p = m.streams.countP p := by
  cases hs : m.stream? id with
  | some s =>
    have h := countP_streams_modifyStream hs f p
    rw [hf] at h
    omega
  | none =>
    obtain ⟨pool, i⟩ := id
    cases pool with
    | anonymous =>
      have h : m.anonymous.toList[i]? = none := by rw [GranularArray.getElem?_toList]; exact hs
      simp only [streams, modifyStream, GranularArray.toList_modify,
        List.modify_eq_self (List.getElem?_eq_none_iff.mp h)]
    | named =>
      have h : m.named.toList[i]? = none := by rw [GranularArray.getElem?_toList]; exact hs
      simp only [streams, modifyStream, GranularArray.toList_modify,
        List.modify_eq_self (List.getElem?_eq_none_iff.mp h)]

/-- A stream that is changed counts among the holders as what it becomes. -/
theorem holders_modifyStream {m : Model} {id : StreamId} {s : Stream} (hs : m.stream? id = some s)
    (f : Stream → Stream) (device : DeviceMask) :
    (m.modifyStream id f).holders device + (s.routed.reaches device).toNat
      = m.holders device + ((f s).routed.reaches device).toNat :=
  countP_streams_modifyStream hs f fun s => s.routed.reaches device

/-- A change that keeps the route of a stream keeps the holders. -/
theorem holders_modifyStream_of_routed {m : Model} {id : StreamId} {f : Stream → Stream}
    (hf : ∀ s, (f s).routed = s.routed) (device : DeviceMask) :
    (m.modifyStream id f).holders device = m.holders device :=
  countP_streams_modifyStream_of_eq (p := fun s => s.routed.reaches device) fun s => by rw [hf]

end Model

namespace Manager

@[simp] theorem streams_perform (disk : Disk) (m : Manager) (plan : List PlannedPath) :
    (m.perform disk plan).model.streams = m.model.streams := by
  obtain ⟨devices, h⟩ := model_perform disk m plan
  rw [h]
  rfl

@[simp] theorem holders_perform (disk : Disk) (m : Manager) (plan : List PlannedPath) (device : DeviceMask) :
    (m.perform disk plan).model.holders device = m.model.holders device := by
  rw [Model.holders, streams_perform, Model.holders]

/-- What streams are is no concern of the paths of devices. -/
theorem applyPath_modifyStream (disk : Disk) (m : Manager) (id : StreamId) (f : Stream → Stream)
    (p : PlannedPath) :
    (m.modifyStream id f).applyPath disk p = (m.applyPath disk p).modifyStream id f
      ∧ (m.modifyStream id f).appliedNow p = m.appliedNow p := by
  obtain ⟨pool, i⟩ := id
  simp only [applyPath, appliedNow, modifyStream, Model.devices_modifyStream]
  cases m.model.devices.get? p.device with
  | none => exact ⟨rfl, trivial⟩
  | some d =>
    cases hp : d.paths.get? p.path with
    | none => simp [hp]
    | some path => cases pool <;> simp only [hp, apply] <;> refine ⟨?_, trivial⟩ <;> split <;> rfl

theorem perform_modifyStream (disk : Disk) (m : Manager) (id : StreamId) (f : Stream → Stream)
    (plan : List PlannedPath) :
    (m.modifyStream id f).perform disk plan = (m.perform disk plan).modifyStream id f
      ∧ (m.modifyStream id f).applied disk plan = m.applied disk plan := by
  induction plan generalizing m with
  | nil => exact ⟨rfl, rfl⟩
  | cons p plan ih =>
    obtain ⟨hstep, hnow⟩ := applyPath_modifyStream disk m id f p
    have hrest := ih (m.applyPath disk p)
    simp only [perform, List.foldl_cons, applied, hstep, hnow] at hrest ⊢
    exact ⟨hrest.1, by rw [hrest.2]⟩

end Manager

end SoundRouting
