import SoundRouting.Proofs.Instances
/-!
Which stream a client is given for devices, and what that changes.

It is the last declared one of the type asked for that has an instance to spare, and there is no answer exactly if
there is no such stream. Of all streams only the one that is given changes: it has one instance more and is routed to
the devices.
-/
namespace SoundRouting

open DeviceMask

namespace Model

/-- Of the streams only one is not what it was, and this is what it has become. -/
structure Becomes (before after : Model) (id : StreamId) (s : Stream) : Prop where
  here : after.stream? id = some s
  others : ∀ other, other ≠ id → after.stream? other = before.stream? other

theorem Becomes.trans {a b c : Model} {id : StreamId} {s t : Stream} (h : a.Becomes b id s) (h' : b.Becomes c id t) :
    a.Becomes c id t :=
  ⟨h'.here, fun other hne => (h'.others other hne).trans (h.others other hne)⟩

end Model

namespace Manager

variable {disk : Disk} {m : Manager}

theorem hasRoom_eq_false_iff {s : Stream} : hasRoom s = false ↔ s.maxRefCount ≤ s.refCount := by
  rw [hasRoom, decide_eq_false_iff_not, Nat.not_lt]

/-- No stream of a type is available if all of them are full. -/
theorem available?_eq_none_iff {type : StreamType} : m.available? type = none ↔
    ∀ i s, m.model.stream? ⟨.anonymous, i⟩ = some s → s.type = type → s.maxRefCount ≤ s.refCount := by
  rw [available?, Option.map_eq_none_iff, Model.lastPlace?_eq_none_iff]
  simp only [GranularArray.mem_toList_iff, Bool.and_eq_false_imp, beq_iff_eq, hasRoom_eq_false_iff]
  exact ⟨fun h i s hs => h s ⟨i, hs⟩, fun h s ⟨i, hs⟩ => h i s hs⟩

/-- The stream at a place is the last anonymous one of a type that is not full. -/
structure Offers (m : Manager) (type : StreamType) (i : Nat) (s : Stream) : Prop where
  stream : m.model.stream? ⟨.anonymous, i⟩ = some s
  ofType : s.type = type
  room : s.refCount < s.maxRefCount
  last : ∀ j t, i < j → m.model.stream? ⟨.anonymous, j⟩ = some t → t.type = type → t.maxRefCount ≤ t.refCount

theorem offers_of_available? {type : StreamType} {id : StreamId} (h : m.available? type = some id) :
    ∃ i s, id = ⟨.anonymous, i⟩ ∧ m.Offers type i s := by
  obtain ⟨i, hi, rfl⟩ := Option.map_eq_some_iff.mp h
  obtain ⟨s, hs, htype, hroom⟩ := exists_of_available? h
  refine ⟨i, s, rfl, hs, htype, of_decide_eq_true hroom, fun j t hj ht htype => ?_⟩
  rw [Model.stream?, Model.pool, ← GranularArray.getElem?_toList] at ht
  have hfails := Model.lastPlace?_behind hi hj ht
  rw [htype, beq_self_eq_true, Bool.true_and] at hfails
  exact hasRoom_eq_false_iff.mp hfails

/-- Opening a stream counts an instance of it, and nothing else happens to the streams. -/
theorem becomes_openStream (disk : Disk) {id : StreamId} {s : Stream} (hs : m.model.stream? id = some s) :
    m.model.Becomes (m.openStream disk id).model id { s with refCount := s.refCount + 1 } := by
  refine ⟨stream?_openStream disk hs, fun other hne => ?_⟩
  rw [openStream_eq disk hs, modifyStream, Model.stream?_modifyStream_other _ _ hne.symm, stream?_perform]

/-- Routing a stream notes its devices, and nothing else happens to the streams. -/
theorem becomes_route (disk : Disk) {id : StreamId} {s : Stream} {mask new : DeviceMask}
    (hs : m.model.stream? id = some s) (hopen : s.isOpen = true) (hclip : Plan.clip? s.type.isInput mask = some new) :
    m.model.Becomes (m.route disk id mask).model id { s with routed := new } := by
  refine ⟨stream?_route disk hs hopen hclip, fun other hne => ?_⟩
  rw [(route_of_open disk hs hopen hclip).2, modifyStream, Model.stream?_modifyStream_other _ _ hne.symm,
    stream?_perform]

/-- A request for devices is not answered exactly if every stream of the type that serves it is full. -/
theorem acquire_eq_none_iff (disk : Disk) (devices : DeviceMask) (format : AudioFormat) :
    (m.acquire disk devices format).2 = none ↔ ∀ i s, m.model.stream? ⟨.anonymous, i⟩ = some s →
      s.type = .forRequest devices.isInput format.isLinearPcm → s.maxRefCount ≤ s.refCount := by
  rw [← available?_eq_none_iff, ← Option.map_eq_none_iff (f := Handle.id)]
  exact iff_of_eq (congrArg (· = none) (granted?_eq disk m (.acquire devices format)))

/-- A request for devices is answered with the stream that is offered, which is opened and routed to them. -/
theorem offers_of_acquire {devices : DeviceMask} {format : AudioFormat} {h : Handle}
    (hanswer : (m.acquire disk devices format).2 = some h) :
    ∃ i s, m.Offers (.forRequest devices.isInput format.isLinearPcm) i s ∧ h = ⟨⟨.anonymous, i⟩, s.endpoint⟩
      ∧ m.model.Becomes (m.acquire disk devices format).1.model ⟨.anonymous, i⟩
        { s with refCount := s.refCount + 1, routed := clipped devices.isInput devices } := by
  simp only [acquire] at hanswer ⊢
  cases hid : m.available? (.forRequest devices.isInput format.isLinearPcm) with
  | none =>
    rw [hid] at hanswer
    cases hanswer
  | some id =>
    obtain ⟨i, s, rfl, hoffers⟩ := offers_of_available? hid
    have hopened := becomes_openStream disk hoffers.stream
    have hdir : s.type.isInput = devices.isInput := by rw [hoffers.ofType, StreamType.isInput_forRequest]
    have hclip : Plan.clip? s.type.isInput devices = some (clipped devices.isInput devices) := by
      rw [hdir, clip?_of_isRoute (Or.inr rfl)]
    have hopen : Stream.isOpen { s with refCount := s.refCount + 1 } = true := decide_eq_true (Nat.succ_pos _)
    have hrouted := hopened.trans (becomes_route disk hopened.here hopen hclip)
    rw [hid] at hanswer
    simp only [handle?, hrouted.here, Option.map_some, Option.some.injEq] at hanswer
    exact ⟨i, s, hoffers, hanswer.symm, hrouted⟩

end Manager

end SoundRouting
