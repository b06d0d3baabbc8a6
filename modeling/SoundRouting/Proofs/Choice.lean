import SoundRouting.Proofs.Masks
/-!
Which devices a mask chooses.

A device is chosen if it owns one of the bits and no device of the direction before it owns that bit
too. Every device stands in a choice at most once, and where no two devices share a bit, a mask
chooses the devices that it reaches.
-/
namespace SoundRouting.Plan

open DeviceMask

/-- The device owns one of the bits that none of the devices before it owns. -/
def Claims (input : Bool) (bits : DeviceMask) (before : List Device) (d : Device) : Prop :=
  d.mask.isInput = input ∧ ∃ k, bits.getLsbD k = true ∧ d.mask.getLsbD k = true
    ∧ ∀ e ∈ before, e.mask.isInput = input → e.mask.getLsbD k = false

theorem takesPart_iff {d : Device} {input : Bool} {bits : DeviceMask} :
    d.takesPart input bits = true
      ↔ d.mask.isInput = input ∧ ∃ k, bits.getLsbD k = true ∧ d.mask.getLsbD k = true := by
  simp only [Device.takesPart, Bool.and_eq_true, beq_iff_eq, meets_iff, and_comm]

theorem getLsbD_and_not {a b : DeviceMask} {k : Nat} :
    (a &&& ~~~b).getLsbD k = true ↔ a.getLsbD k = true ∧ b.getLsbD k = false := by
  rw [BitVec.getLsbD_and, BitVec.getLsbD_not, Bool.and_eq_true, Bool.and_eq_true, decide_eq_true_eq,
    Bool.not_eq_true']
  exact ⟨fun h => ⟨h.1, h.2.2⟩, fun h => ⟨h.1, BitVec.lt_of_getLsbD h.1, h.2⟩⟩

/-- A device that takes part takes its bits away from those behind it. -/
theorem claims_cons_of_takesPart {input : Bool} {bits : DeviceMask} {e : Device} {before : List Device}
    {d : Device} (he : e.takesPart input bits = true) :
    Claims input bits (e :: before) d ↔ Claims input (bits &&& ~~~e.mask) before d := by
  have hdir := (takesPart_iff.mp he).1
  simp only [Claims, getLsbD_and_not, List.forall_mem_cons]
  constructor
  · rintro ⟨hd, k, hb, hk, hek, hbefore⟩
    exact ⟨hd, k, ⟨hb, hek hdir⟩, hk, hbefore⟩
  · rintro ⟨hd, k, ⟨hb, hek⟩, hk, hbefore⟩
    exact ⟨hd, k, hb, hk, fun _ => hek, hbefore⟩

/-- A device that takes no part owns none of the bits, or is of the other direction. -/
theorem claims_cons_of_not_takesPart {input : Bool} {bits : DeviceMask} {e : Device}
    {before : List Device} {d : Device} (he : ¬ e.takesPart input bits = true) :
    Claims input bits (e :: before) d ↔ Claims input bits before d := by
  simp only [Claims, List.forall_mem_cons]
  constructor
  · rintro ⟨hd, k, hb, hk, -, hbefore⟩
    exact ⟨hd, k, hb, hk, hbefore⟩
  · rintro ⟨hd, k, hb, hk, hbefore⟩
    refine ⟨hd, k, hb, hk, fun hdir => ?_, hbefore⟩
    rw [← Bool.not_eq_true]
    exact fun hek => he (takesPart_iff.mpr ⟨hdir, k, hb, hek⟩)

/-- A device is chosen exactly if it owns a bit that is asked for and no device before it owns. -/
theorem mem_chosenFrom_iff {input : Bool} {bits : DeviceMask} {place : Nat} {devices : List Device}
    {i : Nat} {d : Device} :
    (place + i, d) ∈ chosenFrom input bits place devices
      ↔ devices[i]? = some d ∧ Claims input bits (devices.take i) d := by
  induction devices generalizing bits place i with
  | nil => simp [chosenFrom]
  | cons e more ih =>
    have later : ∀ bits', (place, d) ∉ chosenFrom input bits' (place + 1) more := by
      intro bits' h
      have := (mem_chosenFrom h).1
      omega
    cases i with
    | zero =>
      simp only [chosenFrom, Nat.add_zero, List.getElem?_cons_zero, List.take_zero, Option.some.injEq]
      by_cases he : e.takesPart input bits = true
      · rw [if_pos he, List.mem_cons, or_iff_left (later _), Prod.mk.injEq]
        constructor
        · rintro ⟨-, rfl⟩
          obtain ⟨hdir, k, hb, hk⟩ := takesPart_iff.mp he
          exact ⟨rfl, hdir, k, hb, hk, by simp⟩
        · rintro ⟨rfl, -⟩
          exact ⟨rfl, rfl⟩
      · rw [if_neg he]
        refine iff_of_false (later _) ?_
        rintro ⟨rfl, hdir, k, hb, hk, -⟩
        exact he (takesPart_iff.mpr ⟨hdir, k, hb, hk⟩)
    | succ i =>
      have hplace : place + (i + 1) = place + 1 + i := by omega
      simp only [chosenFrom, hplace, List.getElem?_cons_succ, List.take_succ_cons]
      by_cases he : e.takesPart input bits = true
      · have hne : (place + 1 + i, d) ≠ (place, e) := by
          intro h
          have := (Prod.mk.inj h).1
          omega
        rw [if_pos he, List.mem_cons, or_iff_right hne, ih, claims_cons_of_takesPart he]
      · rw [if_neg he, ih, claims_cons_of_not_takesPart he]

/-- Devices are chosen in the order in which they are declared. -/
theorem pairwise_chosenFrom (input : Bool) (bits : DeviceMask) (place : Nat) (devices : List Device) :
    (chosenFrom input bits place devices).Pairwise (fun a b => a.1 < b.1) := by
  induction devices generalizing bits place with
  | nil => exact List.Pairwise.nil
  | cons e more ih =>
    simp only [chosenFrom]
    split
    · refine List.pairwise_cons.mpr ⟨fun a ha => ?_, ih _ _⟩
      have := (mem_chosenFrom ha).1
      simp only
      omega
    · exact ih _ _

theorem mem_chosen_iff {devices : List Device} {mask : DeviceMask} {i : Nat} {d : Device} :
    (i, d) ∈ chosen devices mask
      ↔ devices[i]? = some d ∧ Claims mask.isInput mask.deviceBits (devices.take i) d := by
  have h : (0 + i, d) ∈ chosen devices mask
      ↔ devices[i]? = some d ∧ Claims mask.isInput mask.deviceBits (devices.take i) d := mem_chosenFrom_iff
  rwa [Nat.zero_add] at h

/-- No two devices of one direction have a device bit in common. -/
def Separate (devices : List Device) : Prop :=
  devices.Pairwise fun d e => d.mask.reaches e.mask = false

/-- Where no devices share bits, a mask chooses the devices that it reaches. -/
theorem claims_iff_reaches {devices : List Device} (hsep : Separate devices) {mask : DeviceMask} {i : Nat}
    {d : Device} (hd : devices[i]? = some d) :
    Claims mask.isInput mask.deviceBits (devices.take i) d ↔ mask.reaches d.mask = true := by
  rw [reaches_iff, ← isInput_eq, ← isInput_eq]
  simp only [Claims, getLsbD_deviceBits, Bool.and_eq_true, decide_eq_true_eq]
  constructor
  · rintro ⟨hdir, k, ⟨hb, hk⟩, hdk, -⟩
    exact ⟨hdir.symm, k, hk, hb, hdk⟩
  · rintro ⟨hdir, k, hk, hb, hdk⟩
    refine ⟨hdir.symm, k, ⟨hb, hk⟩, hdk, fun e he hedir => ?_⟩
    obtain ⟨j, hj⟩ := List.mem_take_iff_getElem.mp he
    obtain ⟨hji, rfl⟩ := hj
    obtain ⟨hi, rfl⟩ := List.getElem?_eq_some_iff.mp hd
    have hpair := List.pairwise_iff_getElem.mp hsep j i (by omega) hi (by omega)
    rw [← Bool.not_eq_true, reaches_iff] at hpair
    rw [← Bool.not_eq_true]
    exact fun hek => hpair ⟨by rw [← isInput_eq, ← isInput_eq, hedir, hdir], k, hk, hek, hdk⟩

end SoundRouting.Plan
