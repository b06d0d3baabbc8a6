import SoundRouting.Proofs.Acquisition
import SoundRouting.Proofs.Coherent
import SoundRouting.Proofs.Denied
import SoundRouting.Proofs.WellFormed
/-!
Which stream a client is given, by its devices or by its name.

A name is that of one stream, and streams keep their names. So a request by name is answered unless this stream is
full, whatever has happened since the configuration was loaded. It does not change where any stream is routed.
-/
namespace SoundRouting

open DeviceMask Config

namespace Model

def NamesOnce (m : Model) : Prop :=
  ∀ i j s t, m.stream? ⟨.named, i⟩ = some s → m.stream? ⟨.named, j⟩ = some t → s.name = t.name → i = j

theorem WellFormed.namesOnce {m : Model} (h : m.WellFormed) : m.NamesOnce := by
  intro i j s t hs ht hname
  rw [stream?, pool, ← GranularArray.getElem?_toList] at hs ht
  have hi : (m.named.toList.map (·.name))[i]? = some s.name := by rw [List.getElem?_map, hs, Option.map_some]
  have hj : (m.named.toList.map (·.name))[j]? = some t.name := by rw [List.getElem?_map, ht, Option.map_some]
  rw [← hname] at hj
  obtain ⟨hlt, -⟩ := List.getElem?_eq_some_iff.mp hi
  exact (List.getElem?_inj hlt h.distinctNames).mp (hi.trans hj.symm)

/-- Names are there once as long as streams keep theirs. -/
theorem NamesOnce.of_names {m n : Model} (h : m.NamesOnce)
    (hnames : ∀ id, (n.stream? id).map (·.name) = (m.stream? id).map (·.name)) : n.NamesOnce := by
  have hold : ∀ i s, n.stream? ⟨.named, i⟩ = some s →
      ∃ old, m.stream? ⟨.named, i⟩ = some old ∧ old.name = s.name := by
    intro i s hs
    have hname := hnames ⟨.named, i⟩
    rw [hs, Option.map_some] at hname
    exact Option.map_eq_some_iff.mp hname.symm
  intro i j s t hs ht hname
  obtain ⟨olds, holds, hs'⟩ := hold i s hs
  obtain ⟨oldt, holdt, ht'⟩ := hold j t ht
  exact h i j olds oldt holds holdt (by rw [hs', ht', hname])

theorem map_name_modifyStream (m : Model) (id : StreamId) {f : Stream → Stream}
    (hf : ∀ s, m.stream? id = some s → (f s).name = s.name) (other : StreamId) :
    ((m.modifyStream id f).stream? other).map (·.name) = (m.stream? other).map (·.name) := by
  by_cases h : id = other
  · subst h
    rw [stream?_modifyStream_same, Option.map_map]
    exact Option.map_congr fun s hs => hf s hs
  · rw [stream?_modifyStream_other m f h]

end Model

theorem Stream.name_step {mask? : Option DeviceMask} {s t : Stream} (hstep : Stream.Step mask? s t) :
    t.name = s.name := by
  cases hstep <;> rfl

namespace Manager

variable {disk : Disk} {m n : Manager}

/-- Streams keep their names. -/
theorem map_name_move {mask? : Option DeviceMask} (hmove : Move disk mask? m n) (id : StreamId) :
    (n.model.stream? id).map (·.name) = (m.model.stream? id).map (·.name) := by
  cases hmove with
  | path p => exact congrArg _ (stream?_perform disk m [p] id)
  | noted hs hstep _ =>
    refine Model.map_name_modifyStream _ _ (fun t ht => ?_) id
    obtain rfl := Option.some.inj (hs.symm.trans ht)
    exact Stream.name_step hstep
  | volume | useCase => exact Model.map_name_modifyStream _ _ (by exact fun _ _ => rfl) id

theorem ComesTo.namesOnce {start : Manager} (h : start.ComesTo m) (hstart : start.model.NamesOnce) :
    m.model.NamesOnce :=
  h.induction (I := fun m => m.model.NamesOnce) hstart
    (fun _ _ _ _ hmove hm => hm.of_names (map_name_move hmove)) fun _ _ _ hm => hm

/-- The stream that is found for a name has it. -/
theorem exists_of_namedPlace? {name : String} {i : Nat} (h : m.model.namedPlace? name = some i) :
    ∃ s, m.model.stream? ⟨.named, i⟩ = some s ∧ s.name = some name := by
  obtain ⟨s, hs, htest⟩ := Model.exists_of_lastPlace?_eq_some h
  exact ⟨s, by rwa [GranularArray.getElem?_toList] at hs, beq_iff_eq.mp htest⟩

/-- If names are there once, a request by name is not answered exactly if the stream of that name, if there is one,
is full. -/
theorem acquireNamed_eq_none_iff (hnames : m.model.NamesOnce) (disk : Disk) (name : String) :
    (m.acquireNamed disk name).2 = none ↔ ∀ i s, m.model.stream? ⟨.named, i⟩ = some s →
      s.name = some name → s.maxRefCount ≤ s.refCount := by
  simp only [acquireNamed]
  cases hplace : m.model.namedPlace? name with
  | none =>
    refine iff_of_true rfl fun i s hs hname => ?_
    have hfails := Model.lastPlace?_eq_none_iff.mp hplace s (GranularArray.mem_toList_iff.mpr ⟨i, hs⟩)
    rw [hname, beq_self_eq_true] at hfails
    cases hfails
  | some i =>
    obtain ⟨s, hs, hname⟩ := exists_of_namedPlace? hplace
    have hfull : (∀ j t, m.model.stream? ⟨.named, j⟩ = some t → t.name = some name → t.maxRefCount ≤ t.refCount)
        ↔ hasRoom s = false := by
      rw [hasRoom_eq_false_iff]
      refine ⟨fun hall => hall i s hs hname, fun hfull j t ht htname => ?_⟩
      obtain rfl := hnames j i t s ht hs (htname.trans hname.symm)
      rwa [← Option.some.inj (hs.symm.trans ht)]
    simp only [hfull, hs, Option.any_some]
    cases hasRoom s with
    | true => simp only [if_true, handle?, stream?_openStream disk hs, Option.map_some, reduceCtorEq]
    | false => simp only [Bool.false_eq_true, if_false]

/-- A request by name is answered with the stream of that name, which is opened. -/
theorem becomes_acquireNamed {name : String} {h : Handle} (hanswer : (m.acquireNamed disk name).2 = some h) :
    ∃ i s, m.model.stream? ⟨.named, i⟩ = some s ∧ s.name = some name ∧ s.refCount < s.maxRefCount
      ∧ h = ⟨⟨.named, i⟩, s.endpoint⟩
      ∧ m.model.Becomes (m.acquireNamed disk name).1.model ⟨.named, i⟩ { s with refCount := s.refCount + 1 } := by
  simp only [acquireNamed] at hanswer ⊢
  cases hplace : m.model.namedPlace? name with
  | none =>
    rw [hplace] at hanswer
    cases hanswer
  | some i =>
    obtain ⟨s, hs, hname⟩ := exists_of_namedPlace? hplace
    simp only [hplace, hs, Option.any_some] at hanswer ⊢
    by_cases hroom : hasRoom s = true
    · simp only [if_pos hroom] at hanswer ⊢
      have hopened := becomes_openStream disk hs
      simp only [handle?, hopened.here, Option.map_some, Option.some.injEq] at hanswer
      exact ⟨i, s, hs, hname, of_decide_eq_true hroom, hanswer.symm, hopened⟩
    · simp only [if_neg hroom, reduceCtorEq] at hanswer

/-- Whatever a manager has come to, a request is not answered exactly if every stream that could serve it is full, and
then it changes nothing; otherwise the last of these that is not full is given, and of the streams only this one
changes. A request by name changes no route, whatever the answer is. -/
theorem selection_of_load {rack after : Rack} {file : Location} {loaded : Loaded}
    (hload : load disk rack file = (.ok loaded, after)) (card : Card) (hm : (ofLoaded card loaded).ComesTo m)
    (files : Disk) :
    (∀ devices format,
      ((m.acquire files devices format).2 = none ↔ ∀ i s, m.model.stream? ⟨.anonymous, i⟩ = some s →
        s.type = .forRequest devices.isInput format.isLinearPcm → s.maxRefCount ≤ s.refCount)
      ∧ ((m.acquire files devices format).2 = none → (m.acquire files devices format).1 = m)
      ∧ ∀ h, (m.acquire files devices format).2 = some h → ∃ i s,
        m.Offers (.forRequest devices.isInput format.isLinearPcm) i s ∧ h = ⟨⟨.anonymous, i⟩, s.endpoint⟩
          ∧ m.model.Becomes (m.acquire files devices format).1.model ⟨.anonymous, i⟩
            { s with refCount := s.refCount + 1, routed := clipped devices.isInput devices })
      ∧ ∀ name,
        ((m.acquireNamed files name).2 = none ↔ ∀ i s, m.model.stream? ⟨.named, i⟩ = some s →
          s.name = some name → s.maxRefCount ≤ s.refCount)
        ∧ ((m.acquireNamed files name).2 = none → (m.acquireNamed files name).1 = m)
        ∧ ∀ h, (m.acquireNamed files name).2 = some h → ∃ i s, m.model.stream? ⟨.named, i⟩ = some s
          ∧ s.name = some name ∧ s.refCount < s.maxRefCount ∧ h = ⟨⟨.named, i⟩, s.endpoint⟩
          ∧ m.model.Becomes (m.acquireNamed files name).1.model ⟨.named, i⟩
            { s with refCount := s.refCount + 1 } := by
  have hnames : m.model.NamesOnce := hm.namesOnce (wellFormed_of_load hload).1.namesOnce
  exact ⟨fun devices format => ⟨acquire_eq_none_iff files devices format, acquire_of_unanswered,
      fun _ => offers_of_acquire⟩,
    fun name => ⟨acquireNamed_eq_none_iff hnames files name, acquireNamed_of_unanswered,
      fun _ => becomes_acquireNamed⟩⟩

/-- The second of two streams is open: the first one is given, and then there is none. -/
theorem selection_of_load_board :
    let m := (ofLoaded boardCard.openMixer.2 boardLoaded).serve boardDisk (.acquire 0x70#32 .pcm16)
    let n := m.serve boardDisk (.acquire 0x2#32 .pcm16)
    load boardDisk ⟨[boardCard]⟩ ⟨"a"⟩ = (.ok boardLoaded, ⟨[boardCard.openMixer.2]⟩)
      ∧ (ofLoaded boardCard.openMixer.2 boardLoaded).ComesTo m ∧ (ofLoaded boardCard.openMixer.2 boardLoaded).ComesTo n
      ∧ (∃ i s, m.Offers .pcmOut i s ∧ i = 0 ∧ m.model.Becomes n.model ⟨.anonymous, i⟩
        { s with refCount := s.refCount + 1, routed := 0x2#32 })
      ∧ (∀ i s, n.model.stream? ⟨.anonymous, i⟩ = some s → s.type = .pcmOut → s.maxRefCount ≤ s.refCount)
      ∧ n.serve boardDisk (.acquire 0x2#32 .pcm16) = n := by
  intro m n
  have hm : (ofLoaded boardCard.openMixer.2 boardLoaded).ComesTo m := .served .start _ _
  have hn : (ofLoaded boardCard.openMixer.2 boardLoaded).ComesTo n := .served hm _ _
  obtain ⟨hfirst, -⟩ := selection_of_load load_board boardCard.openMixer.2 hm boardDisk
  obtain ⟨hsecond, -⟩ := selection_of_load load_board boardCard.openMixer.2 hn boardDisk
  have hanswer : (m.acquire boardDisk 0x2#32 .pcm16).2.any (fun h =>
      decide (h.id = ⟨.anonymous, 0⟩)) = true := by decide +kernel
  obtain ⟨h, hh, hid⟩ := (Option.any_eq_true _ _).mp hanswer
  obtain ⟨i, s, hoffers, rfl, hbecomes⟩ := (hfirst 0x2#32 .pcm16).2.2 h hh
  have hi : i = 0 := congrArg StreamId.index (of_decide_eq_true hid)
  have hnone : (n.acquire boardDisk 0x2#32 .pcm16).2 = none := by decide +kernel
  exact ⟨load_board, hm, hn, ⟨i, s, hoffers, hi, hbecomes⟩, (hsecond 0x2#32 .pcm16).1.mp hnone,
    (hsecond 0x2#32 .pcm16).2.1 hnone⟩

end Manager

end SoundRouting
