import SoundRouting.Proofs.Refinement
/-!
What can go wrong in writing an assignment.

Once an assignment is bound, its value is written to the control with one write or, for an integer, with a
write to each element it means. A sound mixer finds everything in place for that, and the card refuses such a
write only for what the configuration asks for: a value that the control does not take, or an element or an
item that it does not have.
-/
namespace SoundRouting

inductive LiveControl.Refuses (c : LiveControl) : WriteOp → ControlFault → Prop
  | element {index : Nat} {value : Int} (h : c.spec.count ≤ index) :
      Refuses c (.value index value) (.indexOutOfRange index c.spec.count)
  | value {index : Nat} {value low high : Int} (hrange : c.valueRange = .ok (low, high))
      (h : ¬ (low ≤ value ∧ value ≤ high)) : Refuses c (.value index value) (.valueOutOfRange value low high)
  | item {name : String} (h : name ∉ c.spec.items) : Refuses c (.item name) (.noItem name)

namespace Card

theorem sized_control {card : Card} (hsized : card.Sized) {id : Nat} {c : LiveControl}
    (hc : card.control? id = some c) (htype : c.spec.type = .bytes) : c.bytes.length = c.spec.count :=
  hsized c (List.mem_of_getElem? (control?_eq_some_iff.mp hc).1) htype

/-- A control that refuses a write makes the card refuse it, and is named in the error. -/
theorem write_eq_error {card : Card} {id : Nat} {c : LiveControl} (hc : card.control? id = some c)
    {op : WriteOp} {e : Error} (h : card.write id op = .error e) :
    ∃ fault, c.write op = .error fault ∧ e = .mixer c.spec.name fault := by
  simp only [write, control, hc] at h
  split at h <;> cases h
  rename_i fault hfault
  exact ⟨fault, hfault, rfl⟩

end Card

namespace Assignment

theorem Fits.isPending {a : Assignment} {c : Control} (h : a.Fits c) : a.value.isPending = false := by
  unfold Fits at h
  cases ht : c.type <;> simp only [ht] at h
  case switch | integer =>
    obtain ⟨v, hv⟩ := h
    rw [hv]
    rfl
  case enumerated =>
    obtain ⟨name, hname⟩ := h
    rw [hname]
    rfl
  case bytes =>
    obtain ⟨block, offset, hblock, -⟩ := h
    rw [hblock]
    rfl

/-- A block of bytes fits a byte control only, and within it. -/
theorem Fits.block {a : Assignment} {c : Control} (h : a.Fits c) {block : ByteBlock} (hvalue : a.value = .bytes block) :
    c.type = .bytes ∧ block.work.length = c.count ∧ a.index.offset + block.data.length ≤ c.count := by
  unfold Fits at h
  rw [hvalue] at h
  cases ht : c.type <;> simp only [ht, Value.bytes.injEq, reduceCtorEq, exists_false] at h
  obtain ⟨_, offset, rfl, hindex, -, hend, hwork, -⟩ := h
  rw [hindex]
  exact ⟨rfl, hwork, hend⟩

end Assignment

namespace Mixer

/-- The writes of a value to elements of a control, up to the first that is refused. -/
def elementWrites (m : Mixer) (card : Card) (id : Nat) (value : Int) : List Nat → List WriteOp
  | [] => []
  | index :: more =>
    .value index value :: match m.write card id (.value index value) with
      | .ok changed => elementWrites m changed id value more
      | .error _ => []

/-- The write of a block of bytes to a place of a control; none if the contents of the control cannot be read,
or do not reach as far. -/
def blockWrites (card : Card) (id offset : Nat) (block : ByteBlock) : List WriteOp :=
  if offset = 0 ∧ block.data.length = block.work.length then [.bytes block.data]
  else match card.readBytes id block.work with
    | .error _ => []
    | .ok contents =>
      if contents.length < offset + block.data.length then []
      else [.bytes (splice contents block.data offset)]

def issued (m : Mixer) (card : Card) (id : Nat) (index : Selector) : Value → List WriteOp
  | .int v => m.elementWrites card id v (m.elements card id index)
  | .item name => [.item name]
  | .bytes block => blockWrites card id index.offset block
  | .pending _ | .pendingFile _ => []

def attemptAll (m : Mixer) (card : Card) (id : Nat) (ops : List WriteOp) : Card :=
  ops.foldl (fun card op => m.attempt card id op) card

variable {m : Mixer} {card : Card} {id : Nat} {c : LiveControl}

theorem writeElements_eq_attemptAll (m : Mixer) (card : Card) (id : Nat) (value : Int) (indices : List Nat) :
    m.writeElements card id value indices = m.attemptAll card id (m.elementWrites card id value indices) := by
  induction indices generalizing card with
  | nil => rfl
  | cons index more ih =>
    simp only [writeElements, elementWrites, attemptAll, List.foldl_cons, attempt]
    cases m.write card id (.value index value) with
    | ok changed => exact ih changed
    | error e => rfl

/-- Writing a value is issuing its writes. -/
theorem writeValue_eq_attemptAll (m : Mixer) (card : Card) (id : Nat) (index : Selector) (value : Value) :
    (m.writeValue card id index value).1 = m.attemptAll card id (m.issued card id index value) := by
  cases value with
  | pending | pendingFile | item => rfl
  | int v => exact m.writeElements_eq_attemptAll card id v _
  | bytes block =>
    simp only [writeValue, writeBlock, issued, blockWrites]
    split
    · rfl
    · cases card.readBytes id block.work with
      | error e => rfl
      | ok contents =>
        dsimp only
        split <;> rfl

theorem attemptAll_induction {I : Card → Prop}
    (hwrite : ∀ card changed op, I card → card.write id op = .ok changed → I changed) (h : I card)
    (ops : List WriteOp) : I (m.attemptAll card id ops) := by
  induction ops generalizing card with
  | nil => exact h
  | cons op more ih =>
    have hone : I (m.attempt card id op) := by
      rcases m.attempt_cases card id op with he | he
      · rwa [he]
      · exact hwrite _ _ _ h he
    exact ih hone

theorem mem_elementWrites {op : WriteOp} {value : Int} {indices : List Nat}
    (h : op ∈ m.elementWrites card id value indices) : ∃ index, op = .value index value := by
  induction indices generalizing card with
  | nil => cases h
  | cons index more ih =>
    rw [elementWrites] at h
    rcases List.mem_cons.mp h with rfl | h
    · exact ⟨index, rfl⟩
    · cases hw : m.write card id (.value index value) with
      | ok changed =>
        rw [hw] at h
        exact ih h
      | error e =>
        rw [hw] at h
        cases h

/-- The write of a block that has the size of its control is as long as that. -/
theorem length_blockWrites (hc : card.control? id = some c) (htype : c.spec.type = .bytes) {block : ByteBlock}
    {offset : Nat} (hwork : block.work.length = c.bytes.length) (hend : offset + block.data.length ≤ c.bytes.length)
    {op : WriteOp} (h : op ∈ blockWrites card id offset block) :
    ∃ data, op = .bytes data ∧ data.length = c.bytes.length := by
  rw [blockWrites] at h
  split at h
  · rename_i hwhole
    exact ⟨block.data, List.mem_singleton.mp h, hwhole.2.trans hwork⟩
  · simp only [readBytes_of_sized hc htype hwork, if_neg (Nat.not_lt.mpr hend)] at h
    exact ⟨_, List.mem_singleton.mp h, length_splice hend⟩

/-- The writes for a fitting assignment are refused only for what they ask. -/
theorem refuses_of_mem (hc : card.control? id = some c) (hsized : card.Sized) {a : Assignment}
    (hfits : a.Fits c.spec) {op : WriteOp} (hop : op ∈ m.issued card id a.index a.value) {d : LiveControl}
    (hspec : d.spec = c.spec) (hsize : d.spec.type = .bytes → d.bytes.length = d.spec.count) {fault : ControlFault}
    (h : d.write op = .error fault) : c.Refuses op fault := by
  have hrange := LiveControl.valueRange_of_spec hspec
  obtain ⟨control, index, value, binding⟩ := a
  unfold Assignment.Fits at hfits
  cases htype : c.spec.type <;> simp only [htype] at hfits
  case switch | integer =>
    obtain ⟨v, rfl⟩ := hfits
    obtain ⟨i, rfl⟩ := mem_elementWrites hop
    have hsupported : ∀ f, c.valueRange ≠ .error f := by
      intro f hf
      simp only [LiveControl.valueRange, htype] at hf
      cases hf
    simp only [LiveControl.write, hspec, hrange] at h
    split at h
    · cases h
      exact .element ‹_›
    · split at h
      · exact absurd ‹_› (hsupported _)
      · split at h <;> cases h
        exact .value ‹_› ‹_›
  case enumerated =>
    obtain ⟨name, rfl⟩ := hfits
    obtain rfl := List.mem_singleton.mp hop
    simp only [LiveControl.write, hspec, htype, ne_eq, not_true_eq_false, if_false] at h
    split at h <;> cases h
    rename_i hnone
    refine .item fun hmem => ?_
    have hne := List.findIdx?_eq_none_iff.mp hnone name hmem
    simp at hne
  case bytes =>
    obtain ⟨block, offset, rfl, rfl, -, hend, hwork, -⟩ := hfits
    have hlength := Card.sized_control hsized hc htype
    obtain ⟨data, rfl, hdata⟩ := length_blockWrites hc htype (hwork.trans hlength.symm)
      (show offset + block.data.length ≤ c.bytes.length by omega) hop
    have hroom : ¬ d.bytes.length < data.length := by
      rw [hsize (hspec ▸ htype), hspec]
      omega
    simp only [LiveControl.write, hspec, htype, ne_eq, not_true_eq_false, if_false, if_neg hroom] at h
    cases h

end Mixer

namespace Desk

/-- Writing a bound assignment to its control comes to no harm: its value has been converted, a block of bytes
finds its place in the contents of the control, and each write that is issued, after those before it, is refused
only for what it asks. -/
structure Delivers (desk : Desk) (b : Assignment) (id : Nat) (c : LiveControl) : Prop where
  found : b.binding.id? = some id
  control : desk.card.control? id = some c
  converted : b.value.isPending = false
  place : ∀ block, b.value = .bytes block → ∃ contents, desk.card.readBytes id block.work = .ok contents
    ∧ b.index.offset + block.data.length ≤ contents.length
  refused : ∀ done op rest e, desk.mixer.issued desk.card id b.index b.value = done ++ op :: rest →
    desk.mixer.write (desk.mixer.attemptAll desk.card id done) id op = .error e →
    ∃ fault, e = .mixer c.spec.name fault ∧ c.Refuses op fault

variable {desk : Desk} {disk : Disk}

theorem delivers_of_settled {card : Card} {m : Mixer} (hsized : card.Sized) {b : Assignment}
    (hb : b.Settled ⟨card, m⟩) (hbound : b.binding.isBound = true) : ∃ id c, Delivers ⟨card, m⟩ b id c := by
  cases hbinding : b.binding with
  | unresolved =>
    rw [hbinding] at hbound
    cases hbound
  | bound id type =>
    obtain ⟨hknown, c, hc, -, -, hfits⟩ := hb id type hbinding
    refine ⟨id, c, by rw [hbinding]; rfl, hc, hfits.isPending, fun block hblock => ?_, ?_⟩
    · obtain ⟨htype, hwork, hend⟩ := hfits.block hblock
      have hlength := Card.sized_control hsized hc htype
      refine ⟨c.bytes, Mixer.readBytes_of_sized hc htype (hwork.trans hlength.symm), ?_⟩
      rwa [hlength]
    · intro done op rest e hissued hrefused
      obtain ⟨hgrows, hlater⟩ : Card.Grows card (m.attemptAll card id done)
          ∧ (m.attemptAll card id done).Sized :=
        Mixer.attemptAll_induction (I := fun later => Card.Grows card later ∧ later.Sized)
          (fun _ _ _ h hw => ⟨h.1.trans (Card.grows_write hw), Card.sized_write h.2 hw⟩)
          ⟨Card.Grows.refl _, hsized⟩ done
      obtain ⟨d, hd, hspec⟩ := hgrows.control? hc
      rw [Mixer.write_of_known hknown] at hrefused
      obtain ⟨fault, hfault, rfl⟩ := Card.write_eq_error hd hrefused
      have hop : op ∈ m.issued card id b.index b.value := by
        rw [hissued]
        exact List.mem_append_right _ List.mem_cons_self
      exact ⟨fault, by rw [hspec],
        Mixer.refuses_of_mem hc hsized hfits hop hspec (Card.sized_control hlater hd) hfault⟩

/-- The assignments that applying a list gets to, each with the desk that it is applied on. -/
def reached (disk : Disk) (desk : Desk) : List Assignment → List (Desk × Assignment)
  | [] => []
  | a :: more =>
    let (later, _, goesOn) := desk.applyOne disk a
    (desk, a) :: if goesOn then reached disk later more else []

/-- Where applying a list leads is where applying the last assignment leads that it gets to. -/
theorem apply_eq_getLast? (disk : Disk) (desk : Desk) (list : List Assignment) :
    (desk.apply disk list).1 = ((desk.reached disk list).getLast?.map fun r => (r.1.applyOne disk r.2).1).getD desk := by
  induction list generalizing desk with
  | nil => rfl
  | cons a more ih =>
    simp only [apply, reached]
    split
    · rw [ih, List.getLast?_cons]
      cases ((desk.applyOne disk a).1.reached disk more).getLast? <;> rfl
    · rfl

/-- Whatever of a list applying it gets to, once bound, is written without harm. -/
def DeliversAll (disk : Disk) (desk : Desk) (list : List Assignment) : Prop :=
  ∀ r ∈ desk.reached disk list, ∀ m b, r.1.mixer.bind disk r.1.card r.2 = (m, b, .ok ()) →
    ∃ id c, Delivers ⟨r.1.card, m⟩ b id c

theorem deliversAll_of_settled {list : List Assignment} (hsound : desk.Sound) (hsized : desk.card.Sized)
    (hlist : ∀ a ∈ list, a.Settled desk) : desk.DeliversAll disk list := by
  induction list generalizing desk with
  | nil => exact fun _ h => absurd h List.not_mem_nil
  | cons a more ih =>
    rw [List.forall_mem_cons] at hlist
    simp only [DeliversAll, reached, List.forall_mem_cons]
    constructor
    · intro m b hbind
      obtain ⟨-, -, -, hsettled, hbound⟩ := bind_spec hsound disk hlist.1 hbind
      exact delivers_of_settled hsized hsettled (hbound rfl)
    · obtain ⟨hsound', hgrows, -, -⟩ := applyOne_spec hsound disk hlist.1
      have hsized' : (desk.applyOne disk a).1.card.Sized :=
        applyOne_induction hsound disk hlist.1 (fun _ _ _ _ _ _ _ _ h hw => Card.sized_write h hw) hsized
      split
      · exact ih hsound' hsized' fun b hb => (hlist.2 b hb).of_grows hgrows
      · exact fun _ h => absurd h List.not_mem_nil

end Desk

end SoundRouting
