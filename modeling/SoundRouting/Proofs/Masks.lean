import SoundRouting.Manager.Plan
/-!
Masks bit by bit.

A route is a mask: its direction bit tells which devices it can lead to, and every other bit stands
for one of them. A change of routing is made of two masks, the bits that are left and the bits that
are entered; both carry the direction of the new route.
-/
namespace SoundRouting.DeviceMask

theorem eq_zero_iff {mask : DeviceMask} : mask = 0#32 ↔ ∀ i, mask.getLsbD i = false := by
  constructor
  · rintro rfl i
    exact BitVec.getLsbD_zero
  · intro h
    exact BitVec.eq_of_getLsbD_eq fun i _ => by rw [h i, BitVec.getLsbD_zero]

theorem meets_iff {a b : DeviceMask} :
    a.meets b = true ↔ ∃ i, a.getLsbD i = true ∧ b.getLsbD i = true := by
  simp only [meets, bne_iff_ne, ne_eq, eq_zero_iff, BitVec.getLsbD_and, Classical.not_forall,
    Bool.not_eq_false, Bool.and_eq_true]

theorem getLsbD_inputBit (i : Nat) : inputBit.getLsbD i = decide (i = 31) := by
  by_cases h : i < 32
  · have all : ∀ j < 32, inputBit.getLsbD j = decide (j = 31) := by decide
    exact all i h
  · rw [BitVec.getLsbD_of_ge _ _ (by omega)]
    simp only [Bool.false_eq, decide_eq_false_iff_not]
    omega

theorem isInput_eq (mask : DeviceMask) : mask.isInput = mask.getLsbD 31 := by
  have h : mask.isInput = mask.meets inputBit := rfl
  rw [Bool.eq_iff_iff, h, meets_iff]
  simp [getLsbD_inputBit]

def deviceBits (mask : DeviceMask) : DeviceMask :=
  mask &&& ~~~inputBit

theorem getLsbD_deviceBits (mask : DeviceMask) (i : Nat) :
    mask.deviceBits.getLsbD i = (mask.getLsbD i && decide (i ≠ 31)) := by
  rw [deviceBits, BitVec.getLsbD_and, BitVec.getLsbD_not, getLsbD_inputBit]
  by_cases h : i < 32
  · simp [h]
  · simp [BitVec.getLsbD_of_ge mask i (by omega)]

/-- Whether a route leads to a device: they are of one direction and have a device bit in common. -/
def reaches (route device : DeviceMask) : Bool :=
  route.isInput == device.isInput && route.deviceBits.meets device

theorem reaches_iff {route device : DeviceMask} :
    route.reaches device = true ↔ route.getLsbD 31 = device.getLsbD 31
      ∧ ∃ i, i ≠ 31 ∧ route.getLsbD i = true ∧ device.getLsbD i = true := by
  simp only [reaches, Bool.and_eq_true, beq_iff_eq, isInput_eq, meets_iff, getLsbD_deviceBits,
    decide_eq_true_eq]
  constructor
  · rintro ⟨hd, i, ⟨hr, hi⟩, hm⟩
    exact ⟨hd, i, hi, hr, hm⟩
  · rintro ⟨hd, i, hi, hr, hm⟩
    exact ⟨hd, i, ⟨hr, hi⟩, hm⟩

@[simp] theorem reaches_nothing (device : DeviceMask) : nothing.reaches device = false := by
  rw [← Bool.not_eq_true, reaches_iff]
  rintro ⟨-, i, -, h, -⟩
  simp [nothing] at h

/-- A route of some direction: the mask has it, unless the mask is empty. -/
def IsRoute (input : Bool) (mask : DeviceMask) : Prop :=
  mask = nothing ∨ mask.isInput = input

/-- The bits of `a` that `b` does not have, with the direction of `new`. A change of routing is made
of two such masks: what the old route has beyond the new one, and the other way round. -/
def beyond (a b new : DeviceMask) : DeviceMask :=
  (a &&& ~~~b) ||| (new &&& inputBit)

theorem getLsbD_beyond (a b new : DeviceMask) (i : Nat) :
    (beyond a b new).getLsbD i
      = (a.getLsbD i && !b.getLsbD i || (new.getLsbD i && decide (i = 31))) := by
  simp only [beyond, BitVec.getLsbD_or, BitVec.getLsbD_and, BitVec.getLsbD_not, getLsbD_inputBit]
  by_cases h : i < 32
  · simp [h]
  · simp [BitVec.getLsbD_of_ge a i (by omega)]

/-- Whether `a` has a bit of a device that `b` does not have. -/
def exceeds (a b device : DeviceMask) : Bool :=
  (a &&& ~~~b).deviceBits.meets device

theorem exceeds_iff {a b device : DeviceMask} :
    a.exceeds b device = true
      ↔ ∃ i, i ≠ 31 ∧ a.getLsbD i = true ∧ b.getLsbD i = false ∧ device.getLsbD i = true := by
  simp only [exceeds, meets_iff, getLsbD_deviceBits, BitVec.getLsbD_and, BitVec.getLsbD_not,
    Bool.and_eq_true, decide_eq_true_eq, Bool.not_eq_true']
  constructor
  · rintro ⟨i, ⟨⟨ha, -, hb⟩, hi⟩, hd⟩
    exact ⟨i, hi, ha, hb, hd⟩
  · rintro ⟨i, hi, ha, hb, hd⟩
    exact ⟨i, ⟨⟨ha, BitVec.lt_of_getLsbD ha, hb⟩, hi⟩, hd⟩

theorem ne_nothing_of_getLsbD {mask : DeviceMask} {i : Nat} (h : mask.getLsbD i = true) :
    mask ≠ nothing := by
  rintro rfl
  simp [nothing] at h

/-- If the direction comes out right, the bits beyond lead to the devices that have one of them. -/
theorem reaches_beyond {input : Bool} {a b new : DeviceMask}
    (h : a ≠ nothing → (beyond a b new).isInput = input) (device : DeviceMask) :
    (beyond a b new).reaches device = (device.isInput == input && a.exceeds b device) := by
  rw [Bool.eq_iff_iff, reaches_iff, Bool.and_eq_true, exceeds_iff, beq_iff_eq, isInput_eq]
  simp only [isInput_eq] at h
  constructor
  · rintro ⟨hd, i, hi, hg, hb⟩
    simp only [getLsbD_beyond, hi, decide_false, Bool.and_false, Bool.or_false, Bool.and_eq_true,
      Bool.not_eq_true'] at hg
    exact ⟨by rw [← hd, h (ne_nothing_of_getLsbD hg.1)], i, hi, hg.1, hg.2, hb⟩
  · rintro ⟨hd, i, hi, ha, hn, hb⟩
    exact ⟨by rw [hd, h (ne_nothing_of_getLsbD ha)], i, hi, by simp [getLsbD_beyond, ha, hn], hb⟩

/-- Where a route has something to leave, the mask of what it leaves is of its direction. -/
theorem isInput_left {input : Bool} {old new : DeviceMask} (hold : IsRoute input old)
    (hnew : IsRoute input new) (hne : old ≠ nothing) : (beyond old new new).isInput = input := by
  have ho : old.getLsbD 31 = input := by simpa only [isInput_eq] using hold.resolve_left hne
  rw [isInput_eq, getLsbD_beyond, ho]
  rcases hnew with rfl | hnew
  · simp [nothing]
  · rw [isInput_eq] at hnew
    rw [hnew]
    cases input <;> rfl

/-- Where a route has something to enter, the mask of what it enters is of its direction. -/
theorem isInput_entered {input : Bool} {old new : DeviceMask} (hnew : IsRoute input new)
    (hne : new ≠ nothing) : (beyond new old new).isInput = input := by
  have hn : new.getLsbD 31 = input := by simpa only [isInput_eq] using hnew.resolve_left hne
  rw [isInput_eq, getLsbD_beyond, hn]
  cases input <;> simp

/-- What a change of routing leaves leads to the devices of the direction that lose a bit. -/
theorem reaches_left {input : Bool} {old new : DeviceMask} (hold : IsRoute input old)
    (hnew : IsRoute input new) (device : DeviceMask) :
    (beyond old new new).reaches device = (device.isInput == input && old.exceeds new device) :=
  reaches_beyond (isInput_left hold hnew) device

/-- What a change of routing enters leads to the devices of the direction that gain a bit. -/
theorem reaches_entered {input : Bool} {old new : DeviceMask} (hnew : IsRoute input new)
    (device : DeviceMask) :
    (beyond new old new).reaches device = (device.isInput == input && new.exceeds old device) :=
  reaches_beyond (isInput_entered hnew) device

/-- Whether a mask contains all or none of the bits of a device. -/
def Aligned (mask device : DeviceMask) : Prop :=
  mask.deviceBits &&& device = nothing ∨ mask.deviceBits &&& device = device.deviceBits

instance (mask device : DeviceMask) : Decidable (Aligned mask device) :=
  inferInstanceAs (Decidable (_ ∨ _))

theorem aligned_iff {mask device : DeviceMask} : Aligned mask device
    ↔ (∀ i, i ≠ 31 → device.getLsbD i = true → mask.getLsbD i = false)
      ∨ ∀ i, i ≠ 31 → device.getLsbD i = true → mask.getLsbD i = true := by
  refine or_congr ?_ ?_
  · rw [nothing, eq_zero_iff]
    refine forall_congr' fun i => ?_
    simp only [BitVec.getLsbD_and, getLsbD_deviceBits]
    cases mask.getLsbD i <;> cases device.getLsbD i <;> simp
  · constructor
    · intro h i hi hd
      have hb := congrArg (·.getLsbD i) h
      simpa [BitVec.getLsbD_and, getLsbD_deviceBits, hi, hd] using hb
    · intro h
      apply BitVec.eq_of_getLsbD_eq
      intro i _
      simp only [BitVec.getLsbD_and, getLsbD_deviceBits]
      by_cases hi : i = 31
      · simp [hi]
      · cases hd : device.getLsbD i
        · simp
        · simp [hi, h i hi hd]

/-- Between routes that take whole devices, a device loses a bit if it is left altogether. -/
theorem exceeds_of_aligned {input : Bool} {a b device : DeviceMask} (ha : IsRoute input a)
    (hb : IsRoute input b) (hdb : Aligned b device) (hd : device.isInput = input) :
    a.exceeds b device = (a.reaches device && !b.reaches device) := by
  have direction : ∀ {m : DeviceMask} {i : Nat}, IsRoute input m → m.getLsbD i = true →
      m.getLsbD 31 = device.getLsbD 31 := by
    intro m i hm hi
    have h := hm.resolve_left (ne_nothing_of_getLsbD hi)
    rw [← isInput_eq, ← isInput_eq, h, hd]
  rw [Bool.eq_iff_iff, Bool.and_eq_true, Bool.not_eq_true', ← Bool.not_eq_true, exceeds_iff,
    reaches_iff, reaches_iff]
  rw [aligned_iff] at hdb
  constructor
  · rintro ⟨i, hi, hai, hbi, hdi⟩
    refine ⟨⟨direction ha hai, i, hi, hai, hdi⟩, ?_⟩
    rintro ⟨-, j, hj, hbj, hdj⟩
    rcases hdb with hdb | hdb
    · simp [hdb j hj hdj] at hbj
    · simp [hdb i hi hdi] at hbi
  · rintro ⟨⟨-, i, hi, hai, hdi⟩, hn⟩
    refine ⟨i, hi, hai, ?_, hdi⟩
    rw [← Bool.not_eq_true]
    intro hbi
    exact hn ⟨direction hb hbi, i, hi, hbi, hdi⟩

def IsListed (mask : DeviceMask) : Prop :=
  ∃ name, ofName? name = some mask

theorem mem_of_isListed {mask : DeviceMask} (h : mask.IsListed) : mask ∈ nameTable.map Prod.snd := by
  obtain ⟨name, h⟩ := h
  obtain ⟨e, he, rfl⟩ := Option.map_eq_some_iff.mp h
  exact List.mem_map.mpr ⟨e, List.mem_of_find?_eq_some he, rfl⟩

/-- A stream can be routed to every bit of a listed device. -/
theorem and_all_of_isListed {mask : DeviceMask} (h : mask.IsListed) :
    mask &&& (if mask.isInput then allInputs else allOutputs) = mask := by
  have all : (nameTable.all fun e =>
      e.2 &&& (if e.2.isInput then allInputs else allOutputs) == e.2) = true := by decide
  obtain ⟨e, he, rfl⟩ := List.mem_map.mp (mem_of_isListed h)
  simpa using List.all_eq_true.mp all e he

/-- Listed devices of one direction have no device bit in common. -/
theorem not_reaches_of_isListed {a b : DeviceMask} (ha : a.IsListed) (hb : b.IsListed) (hne : a ≠ b) :
    a.reaches b = false := by
  have all : (nameTable.all fun m => nameTable.all fun n => m.2 == n.2 || !m.2.reaches n.2) = true := by
    decide
  obtain ⟨m, hm, rfl⟩ := List.mem_map.mp (mem_of_isListed ha)
  obtain ⟨n, hn, rfl⟩ := List.mem_map.mp (mem_of_isListed hb)
  simpa [hne] using List.all_eq_true.mp (List.all_eq_true.mp all m hm) n hn

theorem isRoute_clip {input : Bool} {mask new : DeviceMask} (h : Plan.clip? input mask = some new) :
    IsRoute input new := by
  simp only [Plan.clip?, beq_iff_eq] at h
  split at h
  · exact Or.inl (by simp_all)
  · right
    cases hm : mask.isInput <;> cases input <;>
      simp only [hm, Bool.false_eq_true, if_true, if_false, Option.some.injEq, reduceCtorEq] at h
    · subst h
      rw [isInput_eq] at hm ⊢
      rw [BitVec.getLsbD_and, hm, Bool.false_and]
    · subst h
      rw [isInput_eq, BitVec.getLsbD_or, getLsbD_inputBit]
      simp

/-- What a stream of one direction is routed to for a mask of its direction. -/
def clipped (input : Bool) (mask : DeviceMask) : DeviceMask :=
  if mask = nothing then nothing
  else if input then (mask &&& allInputs) ||| inputBit
  else mask &&& allOutputs

/-- A mask of the direction of a stream is never refused. -/
theorem clip?_of_isRoute {input : Bool} {mask : DeviceMask} (h : IsRoute input mask) :
    Plan.clip? input mask = some (clipped input mask) := by
  simp only [Plan.clip?, clipped, beq_iff_eq]
  by_cases hne : mask = nothing
  · rw [if_pos hne, if_pos hne, hne]
  · rw [if_neg hne, if_neg hne, h.resolve_left hne]
    cases input <;> rfl

/-- Clipping a mask takes nothing from the listed devices of its direction. -/
theorem getLsbD_clip {input : Bool} {mask new device : DeviceMask}
    (h : Plan.clip? input mask = some new) (hl : device.IsListed) (hd : device.isInput = input) {i : Nat}
    (hi : i ≠ 31) (hb : device.getLsbD i = true) : new.getLsbD i = mask.getLsbD i := by
  have hall := congrArg (·.getLsbD i) (and_all_of_isListed hl)
  simp only [BitVec.getLsbD_and, hb, Bool.true_and, hd] at hall
  simp only [Plan.clip?, beq_iff_eq] at h
  split at h
  · simp_all
  · cases hm : mask.isInput <;> cases input <;>
      simp only [hm, Bool.false_eq_true, if_true, if_false, Option.some.injEq, reduceCtorEq] at h hall
    · rw [← h, BitVec.getLsbD_and, hall, Bool.and_true]
    · rw [← h, BitVec.getLsbD_or, BitVec.getLsbD_and, hall, getLsbD_inputBit]
      simp [hi]

/-- A mask is of the direction of the routes that it is clipped to. -/
theorem isInput_of_clip {input : Bool} {mask new : DeviceMask} (h : Plan.clip? input mask = some new)
    (hne : new ≠ nothing) : mask.isInput = input := by
  simp only [Plan.clip?, beq_iff_eq] at h
  split at h
  · simp_all
  · cases hm : mask.isInput <;> cases input <;> simp_all

theorem aligned_nothing (device : DeviceMask) : Aligned nothing device := by
  left
  simp [nothing, deviceBits]

/-- Clipping keeps devices whole. -/
theorem aligned_clip {input : Bool} {mask new device : DeviceMask}
    (h : Plan.clip? input mask = some new) (hl : device.IsListed) (hd : device.isInput = input)
    (hm : device.isInput = mask.isInput → Aligned mask device) : Aligned new device := by
  by_cases hne : new = nothing
  · rw [hne]
    exact aligned_nothing device
  · have ha := hm (by rw [hd, isInput_of_clip h hne])
    rw [aligned_iff] at ha ⊢
    refine ha.imp ?_ ?_ <;> intro ha i hi hb <;> rw [getLsbD_clip h hl hd hi hb] <;> exact ha i hi hb

end SoundRouting.DeviceMask
