import SoundRouting.Proofs.Refinement
/-!
Cards that hold in each place what one of two others does.

A write puts the same into the same places whatever a card holds, and whether it is refused depends on the
description of the control. So if a card is blended from an earlier and a later state of another one, it stays
a blend when it takes the writes that lead from the one to the other.
-/
namespace SoundRouting

/-- Every place of `list` holds what `first` or what `last` has there. -/
structure Blend {α : Type} (first last list : List α) : Prop where
  length : list.length = first.length
  entries : ∀ i : Nat, list[i]? = first[i]? ∨ list[i]? = last[i]?

namespace Blend

variable {α : Type} {first last list : List α}

theorem self (h : Blend last last list) : list = last :=
  List.ext_getElem? fun i => (h.entries i).elim id id

theorem of_last (h : last.length = first.length) : Blend first last last :=
  ⟨h, fun _ => Or.inr rfl⟩

theorem set (h : Blend first last list) (i : Nat) (x : α) : Blend (first.set i x) last (list.set i x) := by
  refine ⟨by rw [List.length_set, List.length_set, h.length], fun j => ?_⟩
  simp only [List.getElem?_set, h.length]
  by_cases hj : i = j
  · simp [hj]
  · simpa [hj] using h.entries j

theorem map_const {β : Type} {last : List β} (h : list.length = first.length) (x : β) :
    Blend (first.map fun _ => x) last (list.map fun _ => x) := by
  rw [List.map_const', List.map_const', h]
  exact ⟨rfl, fun _ => Or.inl rfl⟩

theorem splice {first last list : List UInt8} (h : Blend first last list) {data : List UInt8} {offset : Nat}
    (hend : offset + data.length ≤ first.length) :
    Blend (Mixer.splice first data offset) last (Mixer.splice list data offset) := by
  have hend' : offset + data.length ≤ list.length := by rwa [h.length]
  refine ⟨by rw [Mixer.length_splice hend, Mixer.length_splice hend', h.length], fun j => ?_⟩
  rw [Mixer.getElem?_splice hend, Mixer.getElem?_splice hend']
  split
  · exact Or.inl rfl
  · exact h.entries j

end Blend

/-- A control that holds in each place what one of two states of it does. -/
structure LiveControl.Blend (first last control : LiveControl) : Prop where
  spec : control.spec = first.spec
  present : control.present = first.present ∨ control.present = last.present
  ints : SoundRouting.Blend first.ints last.ints control.ints
  bytes : SoundRouting.Blend first.bytes last.bytes control.bytes

/-- Two writes that put the same into the same places of two controls. -/
inductive WriteOp.Same (c d : LiveControl) : WriteOp → WriteOp → Prop
  | value (index : Nat) (value : Int) : Same c d (.value index value) (.value index value)
  | item (name : String) : Same c d (.item name) (.item name)
  | bytes {data : List UInt8} {offset : Nat} (h : offset + data.length ≤ c.bytes.length) :
      Same c d (.bytes (Mixer.splice c.bytes data offset)) (.bytes (Mixer.splice d.bytes data offset))

namespace LiveControl

theorem overlay_all {data base : List UInt8} (h : data.length = base.length) : overlay data base = data := by
  rw [overlay, h, List.drop_length, List.append_nil]

theorem Blend.self {last c : LiveControl} (h : last.Blend last c) : c = last := by
  obtain ⟨hspec, hpresent, hints, hbytes⟩ := h
  obtain ⟨spec, present, ints, bytes⟩ := c
  obtain ⟨spec', present', ints', bytes'⟩ := last
  rw [LiveControl.mk.injEq]
  exact ⟨hspec, hpresent.elim id id, hints.self, hbytes.self⟩

theorem blend_appear {c last d : LiveControl} (h : c.Blend last d) (trigger : String) :
    (Card.appear trigger c).Blend last (Card.appear trigger d) := by
  refine ⟨h.spec, ?_, h.ints, h.bytes⟩
  simp only [Card.appear, h.spec]
  rcases h.present with hp | hp
  · exact Or.inl (by rw [hp])
  · cases hcreated : c.spec.createdBy == some trigger
    · exact Or.inr (by rw [hp, Bool.or_false])
    · exact Or.inl (by rw [Bool.or_true, Bool.or_true])

theorem ints_write {c d : LiveControl} {op : WriteOp} (h : c.write op = .ok d) : d.ints.length = c.ints.length := by
  rcases write_eq_ok_iff.mp h with ⟨-, -, -⟩ | ⟨-, -⟩ | ⟨-, -⟩
  · rw [setElement]
    split
    · rfl
    · exact List.length_set
  · exact List.length_map _
  · rfl

/-- The same write is refused by a control and by a blend of it, or taken by both. -/
theorem blend_write {c last d : LiveControl} (h : c.Blend last d) {op op' : WriteOp} (hop : op.Same c d op') :
    (∃ e e', c.write op = .error e ∧ d.write op' = .error e')
      ∨ ∃ c' d', c.write op = .ok c' ∧ d.write op' = .ok d' ∧ c'.Blend last d' := by
  cases hop with
  | value index value =>
    have hrange := valueRange_of_spec h.spec
    simp only [write, h.spec, hrange]
    by_cases hindex : c.spec.count ≤ index
    · rw [if_pos hindex, if_pos hindex]
      exact Or.inl ⟨_, _, rfl, rfl⟩
    · rw [if_neg hindex, if_neg hindex]
      cases c.valueRange with
      | error fault => exact Or.inl ⟨_, _, rfl, rfl⟩
      | ok range =>
        by_cases hvalue : range.1 ≤ value ∧ value ≤ range.2
        · simp only [if_pos hvalue]
          refine Or.inr ⟨_, _, rfl, rfl, ?_⟩
          simp only [setElement, h.spec]
          split
          · exact ⟨rfl, h.present, h.ints, h.bytes.set _ _⟩
          · exact ⟨rfl, h.present, h.ints.set _ _, h.bytes⟩
        · simp only [if_neg hvalue]
          exact Or.inl ⟨_, _, rfl, rfl⟩
  | item name =>
    simp only [write, h.spec]
    by_cases htype : c.spec.type ≠ .enumerated
    · rw [if_pos htype, if_pos htype]
      exact Or.inl ⟨_, _, rfl, rfl⟩
    · rw [if_neg htype, if_neg htype]
      cases c.spec.items.findIdx? (· == name) with
      | none => exact Or.inl ⟨_, _, rfl, rfl⟩
      | some i => exact Or.inr ⟨_, _, rfl, rfl, rfl, h.present, .map_const h.ints.length _, h.bytes⟩
  | @bytes data offset hend =>
    have hend' : offset + data.length ≤ d.bytes.length := by rwa [h.bytes.length]
    have hc := Mixer.length_splice hend
    have hd := Mixer.length_splice hend'
    simp only [write, h.spec, hc, hd, Nat.lt_irrefl, if_false, overlay_all hc, overlay_all hd]
    by_cases htype : c.spec.type ≠ .bytes
    · rw [if_pos htype, if_pos htype]
      exact Or.inl ⟨_, _, rfl, rfl⟩
    · rw [if_neg htype, if_neg htype]
      exact Or.inr ⟨_, _, rfl, rfl, rfl, h.present, h.ints, h.bytes.splice hend⟩

end LiveControl

namespace Card

structure Blend (first last card : Card) : Prop where
  length : card.controls.length = first.controls.length
  controls : ∀ (id : Nat) (c : LiveControl), first.controls[id]? = some c →
    ∃ k d, last.controls[id]? = some k ∧ card.controls[id]? = some d ∧ c.Blend k d

variable {first last card : Card} {id : Nat} {c d : LiveControl}

theorem Blend.self (h : Blend last last card) : card.controls = last.controls := by
  refine List.ext_getElem h.length fun i hi hi' => ?_
  obtain ⟨k, l, hk, hl, hblend⟩ := h.controls i _ (List.getElem?_eq_getElem hi')
  obtain rfl := Option.some.inj ((List.getElem?_eq_getElem hi').symm.trans hk)
  obtain rfl := Option.some.inj ((List.getElem?_eq_getElem hi).symm.trans hl)
  exact hblend.self

/-- What writes leave of the controls: what they are, and how much they hold. -/
def shape (card : Card) : List (Control × Nat × Nat) :=
  card.controls.map fun c => (c.spec, c.ints.length, c.bytes.length)

theorem shape_write {changed : Card} {op : WriteOp} (h : card.write id op = .ok changed) :
    changed.shape = card.shape := by
  refine map_controls_write (fun _ _ => rfl) (fun c d op hd => ?_) h
  simp only [(LiveControl.spec_write hd).1, LiveControl.ints_write hd, bytes_write hd]

theorem Blend.of_shape (h : last.shape = first.shape) : Blend first last last := by
  refine ⟨by simpa only [shape, List.length_map] using congrArg List.length h, fun id c hc => ?_⟩
  have hid := congrArg (·[id]?) h
  simp only [shape, List.getElem?_map, hc, Option.map_some] at hid
  obtain ⟨k, hk, hshape⟩ := Option.map_eq_some_iff.mp hid
  rw [Prod.mk.injEq, Prod.mk.injEq] at hshape
  exact ⟨k, k, hk, hk, hshape.1, Or.inr rfl, .of_last hshape.2.1, .of_last hshape.2.2⟩

/-- A card and a blend of it take the same write, or both refuse it. -/
theorem blend_write (h : Blend first last card) (hc : first.control? id = some c)
    (hd : card.control? id = some d) {op op' : WriteOp} (hop : op.Same c d op') :
    Blend (first.performAll id [op]) last (card.performAll id [op']) := by
  obtain ⟨hget, hpresent⟩ := control?_eq_some_iff.mp hc
  obtain ⟨hget', hpresent'⟩ := control?_eq_some_iff.mp hd
  obtain ⟨k, l, hk, hl, hblend⟩ := h.controls id c hget
  obtain rfl := Option.some.inj (hl.symm.trans hget')
  simp only [performAll_cons, write, control, hc, hd]
  rcases LiveControl.blend_write hblend hop with ⟨e, e', he, he'⟩ | ⟨c', d', hc', hd', hblend'⟩
  · rw [he, he']
    exact h
  · rw [hc', hd', hblend.spec]
    refine ⟨by simp only [performAll, List.foldl_nil, record, List.length_map, List.length_set, h.length],
      fun j a ha => ?_⟩
    simp only [performAll, List.foldl_nil, getElem?_write hc, getElem?_write hd] at ha ⊢
    obtain ⟨b, hb, rfl⟩ := Option.map_eq_some_iff.mp ha
    by_cases hj : j = id
    · subst hj
      rw [if_pos rfl, Option.some.injEq] at hb
      subst hb
      exact ⟨k, _, hk, by rw [if_pos rfl, Option.map_some], LiveControl.blend_appear hblend' _⟩
    · rw [if_neg hj] at hb
      obtain ⟨k', l', hk', hl', hother⟩ := h.controls j b hb
      exact ⟨k', _, hk', by rw [if_neg hj, hl', Option.map_some], LiveControl.blend_appear hother _⟩

/-- A control stays where it is, whatever it is written. -/
theorem control?_performAll (hc : card.control? id = some c) (ops : List WriteOp) :
    ∃ d, (card.performAll id ops).control? id = some d := by
  induction ops generalizing card c with
  | nil => exact ⟨c, hc⟩
  | cons op more ih =>
    rw [performAll_cons]
    cases hw : card.write id op with
    | error e => exact ih hc
    | ok changed =>
      obtain ⟨d, hd, -⟩ := control?_of_write hc hw
      exact ih hd

theorem blend_performAll (h : Blend first last card) (hc : first.control? id = some c)
    (hd : card.control? id = some d) {ops : List WriteOp}
    (hops : ∀ op ∈ ops, ∀ c d : LiveControl, op.Same c d op) :
    Blend (first.performAll id ops) last (card.performAll id ops) := by
  induction ops generalizing first card c d with
  | nil => exact h
  | cons op more ih =>
    rw [List.forall_mem_cons] at hops
    obtain ⟨c', hc'⟩ := control?_performAll hc [op]
    obtain ⟨d', hd'⟩ := control?_performAll hd [op]
    exact ih (blend_write h hc hd (hops.1 c d)) hc' hd' hops.2

end Card

/-- A card and a blend of it stay that when each takes the writes that an assignment stands for there. -/
theorem Assignment.blend_writes {disk : Disk} {a : Assignment} {first last card : Card} {id : Nat} {c d : LiveControl}
    (h : Card.Blend first last card) (hsized : first.Sized) (hc : first.control? id = some c)
    (hd : card.control? id = some d) {ops ops' : List WriteOp} (hops : a.writes? disk c = some ops)
    (hops' : a.writes? disk d = some ops') :
    Card.Blend (first.performAll id ops) last (card.performAll id ops') := by
  obtain ⟨hget, -⟩ := Card.control?_eq_some_iff.mp hc
  have hspec : d.spec = c.spec := by
    obtain ⟨k, l, -, hl, hblend⟩ := h.controls id c hget
    obtain rfl := Option.some.inj (hl.symm.trans (Card.control?_eq_some_iff.mp hd).1)
    exact hblend.spec
  unfold writes? at hops hops'
  rw [hspec] at hops'
  cases htype : c.spec.type <;> simp only [htype] at hops hops'
  case switch | integer =>
    obtain ⟨v, hv, rfl⟩ := Option.map_eq_some_iff.mp hops
    rw [hv, Option.map_some, Option.some.injEq] at hops'
    subst hops'
    refine Card.blend_performAll h hc hd fun op hop => ?_
    unfold Selector.valueWrites at hop
    split at hop
    · obtain ⟨i, -, rfl⟩ := List.mem_map.mp hop
      exact fun _ _ => .value i v
    · obtain rfl := List.mem_singleton.mp hop
      exact fun _ _ => .value _ v
  case enumerated =>
    obtain ⟨name, hname, rfl⟩ := Option.map_eq_some_iff.mp hops
    rw [hname, Option.map_some, Option.some.injEq] at hops'
    subst hops'
    exact Card.blend_write h hc hd (.item name)
  case bytes =>
    split at hops
    · cases hops
    · rename_i hgood
      rw [if_neg hgood] at hops'
      cases hfound : a.value.toBytes disk a.control a.index.offset c.spec.count with
      | error e =>
        rw [hfound] at hops
        cases hops
      | ok found =>
        rw [hfound] at hops hops'
        cases hops
        cases hops'
        have hend : a.index.offset + found.1.length ≤ c.bytes.length := by
          rw [hsized c (List.mem_of_getElem? hget) htype]
          exact Value.length_toBytes (by omega) hfound
        exact Card.blend_write h hc hd (.bytes hend)
  all_goals cases hops

end SoundRouting
