import SoundRouting.Proofs.GlobalUses
import SoundRouting.Proofs.Instances
/-!
Devices that have one of the two counted paths.

A device is counted when it is asked for a path that it has. Without `off` its use count never goes down: it
is the number of times that a stream has entered the device, and `on` is applied the first time only. Without
`on` it never goes up, and `off` is applied whenever a stream leaves the device, whoever stays.
-/
namespace SoundRouting

open Config

namespace Manager

def entries (m : Manager) (device : DeviceMask) : List (Disk × Request) → Nat
  | [] => 0
  | (disk, r) :: more =>
    (decide (m.model.holders device < (m.serve disk r).model.holders device)).toNat
      + (m.serve disk r).entries device more

def exits (m : Manager) (device : DeviceMask) : List (Disk × Request) → Nat
  | [] => 0
  | (disk, r) :: more =>
    (decide ((m.serve disk r).model.holders device < m.model.holders device)).toNat
      + (m.serve disk r).exits device more

theorem entries_le (m : Manager) (device : DeviceMask) (requests : List (Disk × Request)) :
    m.entries device requests ≤ requests.length := by
  induction requests generalizing m with
  | nil => exact Nat.le_refl 0
  | cons e more ih =>
    have hfirst := Bool.toNat_le (decide (m.model.holders device < (m.serve e.1 e.2).model.holders device))
    have hrest := ih (m.serve e.1 e.2)
    rw [entries, List.length_cons]
    omega

variable {m : Manager} {i : Nat} {d : Device}

/-- What a whole request makes of the use count of a device: an entry counts if the device has `on`, an exit if
it has `off`. -/
theorem useCount_serve (disk : Disk) (hm : m.model.Regular) {r : Request} (hr : r.Whole m.model.outlines)
    (hd : m.model.devices.get? i = some d) (hglobal : d.isGlobal = false) :
    ∃ e, (m.serve disk r).model.devices.get? i = some e ∧ e.outline = d.outline
      ∧ e.useCount = if m.model.holders d.mask < (m.serve disk r).model.holders d.mask
          then d.useCount + (d.outline.declares .on).toNat
        else if (m.serve disk r).model.holders d.mask < m.model.holders d.mask
          then d.useCount - (d.outline.declares .off).toNat
        else d.useCount := by
  obtain ⟨e, he, houtline, htally⟩ := tally_serve disk hd r
  have hstep := ((traffic_serve disk hm hr hd hglobal).tally d.useCount).1
  rw [htally] at hstep
  exact ⟨e, he, houtline, hstep⟩

/-- A device after any whole requests. The streams that hold it have entered it and not left it; without `off`
its count has gone up with every entry, and without `on` it has not gone up. -/
theorem useCount_serveAll {requests : List (Disk × Request)} (hm : m.model.Regular)
    (hr : ∀ e ∈ requests, e.2.Whole m.model.outlines) (hd : m.model.devices.get? i = some d)
    (hglobal : d.isGlobal = false) :
    ∃ e, (m.serveAll requests).model.devices.get? i = some e ∧ e.outline = d.outline
      ∧ (m.serveAll requests).model.holders d.mask + m.exits d.mask requests
        = m.model.holders d.mask + m.entries d.mask requests
      ∧ (d.outline.declares .on = true → d.outline.declares .off = false →
        e.useCount = d.useCount + m.entries d.mask requests)
      ∧ (d.outline.declares .on = false → d.useCount = 0 → e.useCount = 0) := by
  induction requests generalizing m d with
  | nil => exact ⟨d, hd, rfl, rfl, fun _ _ => rfl, fun _ hzero => hzero⟩
  | cons first more ih =>
    obtain ⟨disk, r⟩ := first
    obtain ⟨hfirst, hmore⟩ := List.forall_mem_cons.mp hr
    obtain ⟨e, he, houtline, huse⟩ := useCount_serve disk hm hfirst hd hglobal
    obtain ⟨e', he', houtline', hholders, honly, hnever⟩ := ih (regular_serve disk hm hfirst)
      (by rw [outlines_serve]; exact hmore) he ((Device.isGlobal_of_outline houtline).trans hglobal)
    obtain ⟨hup, hdown⟩ := (traffic_serve disk hm hfirst hd hglobal).close
    rw [show e.mask = d.mask from congrArg DeviceOutline.mask houtline] at hholders honly
    rw [houtline] at honly hnever
    refine ⟨e', he', houtline'.trans houtline, ?_, fun hon hoff => ?_, fun hon hzero => hnever hon ?_⟩
    · have hcons : (m.serveAll ((disk, r) :: more)) = (m.serve disk r).serveAll more := rfl
      rw [hcons, entries, exits]
      dsimp only at hup hdown hholders
      by_cases henters : m.model.holders d.mask < (m.serve disk r).model.holders d.mask
      · rw [decide_eq_true henters, decide_eq_false (Nat.lt_asymm henters), Bool.toNat_true, Bool.toNat_false]
        omega
      · by_cases hleaves : (m.serve disk r).model.holders d.mask < m.model.holders d.mask
        · rw [decide_eq_true hleaves, decide_eq_false henters, Bool.toNat_true, Bool.toNat_false]
          omega
        · rw [decide_eq_false hleaves, decide_eq_false henters, Bool.toNat_false]
          omega
    · rw [honly hon hoff, huse, hon, hoff, entries]
      by_cases henters : m.model.holders d.mask < (m.serve disk r).model.holders d.mask
      · simp only [henters, if_true, decide_true, Bool.toNat_true]
        omega
      · simp only [henters, if_false, decide_false, Bool.toNat_false, Nat.sub_zero, ite_self]
        omega
    · simp only [huse, hon, hzero, Bool.toNat_false, Nat.add_zero, Nat.zero_sub, ite_self]

/-- What a whole request applies of the counted paths of a device. -/
theorem count_appliedBy_of_regular (disk : Disk) (hm : m.model.Regular) {r : Request}
    (hr : r.Whole m.model.outlines) (hd : m.model.devices.get? i = some d) (hglobal : d.isGlobal = false) :
    (m.appliedBy disk r).count (i, .on)
        = (if m.model.holders d.mask < (m.serve disk r).model.holders d.mask ∧ d.useCount = 0
          then (d.outline.declares .on).toNat else 0)
      ∧ (m.appliedBy disk r).count (i, .off)
        = if (m.serve disk r).model.holders d.mask < m.model.holders d.mask ∧ d.useCount ≤ 1
          then (d.outline.declares .off).toNat else 0 := by
  obtain ⟨e, -, -, htally⟩ := tally_serve disk hd r
  obtain ⟨-, hon, hoff⟩ := (traffic_serve disk hm hr hd hglobal).tally d.useCount
  rw [htally] at hon hoff
  rw [← count_idsOf, ← count_idsOf]
  exact ⟨hon, hoff⟩

/-- Whatever is asked for of a loaded configuration, the streams that hold a device are open. -/
theorem holders_eq_open {loaded : Loaded} (hrest : loaded.model.AtRest) (card : Card)
    (requests : List (Disk × Request)) (mask : DeviceMask) :
    let m := (ofLoaded card loaded).serveAll requests
    m.model.holders mask = m.model.streams.countP fun s => s.isOpen && s.routed.reaches mask := by
  intro m
  refine List.countP_congr fun s hs => ?_
  cases hopen : s.isOpen with
  | true => rw [Bool.true_and]
  | false =>
    have hclosed : s.refCount = 0 := by simpa [Stream.isOpen] using hopen
    rw [routed_of_closed (fun s hs _ => (hrest.idle s hs).2) requests s hs hclosed, DeviceMask.reaches_nothing,
      Bool.false_and]

/-- The request applies `on` to a device exactly if it leads the first stream to it. -/
def OnWithFirst (disk : Disk) (m : Manager) (i : Nat) (device : DeviceMask) (r : Request) : Prop :=
  (m.appliedBy disk r).count (i, .on)
    = if m.model.holders device = 0 ∧ 0 < (m.serve disk r).model.holders device then 1 else 0

/-- The request applies `off` to a device exactly if it takes the last stream away from it. -/
def OffWithLast (disk : Disk) (m : Manager) (i : Nat) (device : DeviceMask) (r : Request) : Prop :=
  (m.appliedBy disk r).count (i, .off)
    = if 0 < m.model.holders device ∧ (m.serve disk r).model.holders device = 0 then 1 else 0

/-- A device of a loaded configuration that has one of the two counted paths, whatever is asked for as long as
devices are taken as a whole.

With `on` only, its use count is the number of entries, so it is the number of streams that hold the device
exactly as long as none has left it. `on` is applied with the first entry of all, so it comes with the first
stream exactly as long as none has entered before.

With `off` only, its use count is zero, and `off` is applied with every exit, so it comes with the last stream
exactly if nobody stays. -/
theorem onePath_of_load {disk : Disk} {rack after : Rack} {file : Location} {loaded : Loaded}
    (hload : load disk rack file = (.ok loaded, after))
    (hpaths : ∀ s ∈ loaded.model.streams, s.enablePath ≠ some .off ∧ s.disablePath ≠ some .on) (card : Card)
    {requests : List (Disk × Request)} (hwhole : ∀ e ∈ requests, e.2.Whole loaded.model.outlines) {m : Manager}
    (hm : m = (ofLoaded card loaded).serveAll requests) {i : Nat} {d : Device}
    (hd : m.model.devices.get? i = some d) (hglobal : d.isGlobal = false) :
    m.model.holders d.mask = (m.model.streams.countP fun s => s.isOpen && s.routed.reaches d.mask)
      ∧ (d.outline.declares .on = true → d.outline.declares .off = false →
        d.useCount = (ofLoaded card loaded).entries d.mask requests ∧ d.useCount ≤ requests.length
          ∧ (d.useCount = m.model.holders d.mask ↔ (ofLoaded card loaded).exits d.mask requests = 0)
          ∧ ∀ disk r, r.Whole loaded.model.outlines →
            (m.appliedBy disk r).count (i, .on)
                = (if (ofLoaded card loaded).entries d.mask requests = 0
                    ∧ 0 < (m.serve disk r).model.holders d.mask then 1 else 0)
              ∧ (m.OnWithFirst disk i d.mask r
                ↔ (m.model.holders d.mask = 0 → 0 < (m.serve disk r).model.holders d.mask →
                  (ofLoaded card loaded).entries d.mask requests = 0)))
      ∧ (d.outline.declares .off = true → d.outline.declares .on = false →
        d.useCount = 0
          ∧ ∀ disk r, r.Whole loaded.model.outlines →
            (m.appliedBy disk r).count (i, .off)
                = (if (m.serve disk r).model.holders d.mask < m.model.holders d.mask then 1 else 0)
              ∧ (m.OffWithLast disk i d.mask r
                ↔ ((m.serve disk r).model.holders d.mask < m.model.holders d.mask →
                  (m.serve disk r).model.holders d.mask = 0))) := by
  have hrest := atRest_of_load hload
  have hstart : (ofLoaded card loaded).model.Regular := hrest.regular hpaths
  obtain ⟨hregular, houtlines⟩ := regular_serveAll hstart hwhole
  obtain ⟨d₀, hd₀, houtline⟩ := Model.exists_of_outlines houtlines (hm ▸ hd)
  have hglobal₀ : d₀.isGlobal = false := (Device.isGlobal_of_outline houtline).symm.trans hglobal
  have hunused : d₀.useCount = 0 := (hrest.unused d₀ (GranularArray.mem_of_get? hd₀)).1
  have hnone : (ofLoaded card loaded).model.holders d₀.mask = 0 := hrest.holders_eq_zero d₀.mask
  have hmask : d₀.mask = d.mask := congrArg DeviceOutline.mask houtline.symm
  obtain ⟨e, he, -, hholders, honly, hnever⟩ := useCount_serveAll hstart hwhole hd₀ hglobal₀
  have hle := entries_le (ofLoaded card loaded) d.mask requests
  rw [← hm] at hregular houtlines he
  obtain rfl : e = d := Option.some.inj (he.symm.trans hd)
  rw [hnone, hmask, ← hm, Nat.zero_add] at hholders
  rw [hunused, ← houtline, hmask, Nat.zero_add] at honly
  rw [← houtline] at hnever
  refine ⟨?_, fun hon hoff => ⟨honly hon hoff, by rw [honly hon hoff]; exact hle, ?_, fun disk r hr => ?_⟩,
    fun hoff hon => ⟨hnever hon hunused, fun disk r hr => ?_⟩⟩
  · rw [hm]
    exact holders_eq_open hrest card requests e.mask
  · rw [honly hon hoff]
    omega
  · obtain ⟨happlied, -⟩ := count_appliedBy_of_regular disk hregular (houtlines.symm ▸ hr) hd hglobal
    have hfirst : (m.model.holders e.mask < (m.serve disk r).model.holders e.mask
          ∧ (ofLoaded card loaded).entries e.mask requests = 0)
        ↔ ((ofLoaded card loaded).entries e.mask requests = 0 ∧ 0 < (m.serve disk r).model.holders e.mask) := by
      omega
    rw [honly hon hoff, hon, Bool.toNat_true] at happlied
    simp only [hfirst] at happlied
    refine ⟨happlied, ?_⟩
    rw [OnWithFirst, happlied]
    split <;> split <;> omega
  · obtain ⟨-, happlied⟩ := count_appliedBy_of_regular disk hregular (houtlines.symm ▸ hr) hd hglobal
    rw [hnever hon hunused, hoff, Bool.toNat_true] at happlied
    simp only [Nat.zero_le, and_true] at happlied
    refine ⟨happlied, ?_⟩
    rw [OffWithLast, happlied]
    split <;> split <;> omega

/-- Taking the first of the two devices of the board, or the second, or nothing. -/
theorem whole_board {r : Request}
    (h : r.mask? = none ∨ r.mask? = some 0x70#32 ∨ r.mask? = some 0x2#32) :
    r.Whole boardLoaded.model.outlines := by
  intro mask hmask
  rcases h with h | h | h
  · rw [h] at hmask
    cases hmask
  · obtain rfl := Option.some.inj (h.symm.trans hmask)
    decide
  · obtain rfl := Option.some.inj (h.symm.trans hmask)
    decide

/-- A stream has entered the device that has `on` only, and is about to leave it for the one that has `off`
only. -/
theorem onePath_of_load_board :
    let m := (ofLoaded boardCard.openMixer.2 boardLoaded).serveAll [(boardDisk, .acquire 0x70#32 .pcm16)]
    let leave : Request := .route ⟨.anonymous, 1⟩ 0x2#32
    load boardDisk ⟨[boardCard]⟩ ⟨"a"⟩ = (.ok boardLoaded, ⟨[boardCard.openMixer.2]⟩)
      ∧ (∀ s ∈ boardLoaded.model.streams, s.enablePath ≠ some .off ∧ s.disablePath ≠ some .on)
      ∧ (∃ d, m.model.devices.get? 1 = some d ∧ d.outline.declares .on = true ∧ d.outline.declares .off = false
        ∧ d.useCount = m.model.holders d.mask ∧ m.OnWithFirst boardDisk 1 d.mask leave)
      ∧ ∃ d, m.model.devices.get? 2 = some d ∧ d.outline.declares .off = true ∧ d.outline.declares .on = false
        ∧ d.useCount = 0 ∧ m.OffWithLast boardDisk 2 d.mask leave := by
  intro m leave
  have hwhole : ∀ e ∈ [(boardDisk, Request.acquire 0x70#32 .pcm16)], e.2.Whole boardLoaded.model.outlines := by
    rw [List.forall_mem_singleton]
    exact whole_board (Or.inr (Or.inl rfl))
  have hleave : leave.Whole boardLoaded.model.outlines := whole_board (Or.inr (Or.inr rfl))
  have hstate : (m.model.devices.get? 1).any (fun d => decide (d.isGlobal = false
      ∧ d.outline.declares .on = true ∧ d.outline.declares .off = false ∧ m.model.holders d.mask = 1
      ∧ (ofLoaded boardCard.openMixer.2 boardLoaded).exits d.mask [(boardDisk, .acquire 0x70#32 .pcm16)] = 0)) = true
    ∧ (m.model.devices.get? 2).any (fun d => decide (d.isGlobal = false
      ∧ d.outline.declares .off = true ∧ d.outline.declares .on = false ∧ m.model.holders d.mask = 0)) = true := by
    decide +kernel
  obtain ⟨d, hd, hon⟩ := (Option.any_eq_true _ _).mp hstate.1
  obtain ⟨e, he, hoff⟩ := (Option.any_eq_true _ _).mp hstate.2
  obtain ⟨hglobal, hdeclares, hlacks, hholders, hexits⟩ := of_decide_eq_true hon
  obtain ⟨hglobal', hdeclares', hlacks', hholders'⟩ := of_decide_eq_true hoff
  obtain ⟨-, hfirst, -⟩ := onePath_of_load load_board paths_board boardCard.openMixer.2 hwhole rfl hd hglobal
  obtain ⟨-, -, hlast⟩ := onePath_of_load load_board paths_board boardCard.openMixer.2 hwhole rfl he hglobal'
  obtain ⟨-, -, huse, hswitch⟩ := hfirst hdeclares hlacks
  obtain ⟨hzero, hswitch'⟩ := hlast hdeclares' hlacks'
  refine ⟨load_board, paths_board, ⟨d, hd, hdeclares, hlacks, huse.mpr hexits,
    (hswitch boardDisk leave hleave).2.mpr ?_⟩, e, he, hdeclares', hlacks', hzero,
    (hswitch' boardDisk leave hleave).2.mpr ?_⟩
  · rw [hholders]
    exact fun h => absurd h Nat.one_ne_zero
  · rw [hholders']
    exact fun h => absurd h (Nat.not_lt_zero _)

/-- A stream that comes back to the device without `off` does not switch it on again, and one that leaves the
device without `on` switches it off under the stream that stays. -/
theorem miscounted_on_board :
    let start := ofLoaded boardCard.openMixer.2 boardLoaded
    let back := start.serveAll [(boardDisk, .acquire 0x70#32 .pcm16), (boardDisk, .release ⟨.anonymous, 1⟩)]
    let shared := start.serveAll [(boardDisk, .acquire 0x2#32 .pcm16), (boardDisk, .acquire 0x2#32 .pcm16)]
    load boardDisk ⟨[boardCard]⟩ ⟨"a"⟩ = (.ok boardLoaded, ⟨[boardCard.openMixer.2]⟩)
      ∧ (∀ s ∈ boardLoaded.model.streams, s.enablePath ≠ some .off ∧ s.disablePath ≠ some .on)
      ∧ (∀ mask, (mask = 0x70#32 ∨ mask = 0x2#32) →
        Request.Whole boardLoaded.model.outlines (.acquire mask .pcm16))
      ∧ (∃ d, back.model.devices.get? 1 = some d ∧ d.outline.paths = [.on] ∧ d.useCount = 1
        ∧ back.model.holders d.mask = 0
        ∧ (back.serve boardDisk (.acquire 0x70#32 .pcm16)).model.holders d.mask = 1
        ∧ (back.appliedBy boardDisk (.acquire 0x70#32 .pcm16)).count (1, .on) = 0)
      ∧ ∃ d, shared.model.devices.get? 2 = some d ∧ d.outline.paths = [.off] ∧ d.useCount = 0
        ∧ shared.model.holders d.mask = 2
        ∧ (shared.serve boardDisk (.release ⟨.anonymous, 1⟩)).model.holders d.mask = 1
        ∧ (shared.appliedBy boardDisk (.release ⟨.anonymous, 1⟩)).count (2, .off) = 1 := by
  intro start back shared
  have hstate : (back.model.devices.get? 1).any (fun d => decide (d.outline.paths = [.on] ∧ d.useCount = 1
      ∧ back.model.holders d.mask = 0
      ∧ (back.serve boardDisk (.acquire 0x70#32 .pcm16)).model.holders d.mask = 1
      ∧ (back.appliedBy boardDisk (.acquire 0x70#32 .pcm16)).count (1, .on) = 0)) = true
    ∧ (shared.model.devices.get? 2).any (fun d => decide (d.outline.paths = [.off] ∧ d.useCount = 0
      ∧ shared.model.holders d.mask = 2
      ∧ (shared.serve boardDisk (.release ⟨.anonymous, 1⟩)).model.holders d.mask = 1
      ∧ (shared.appliedBy boardDisk (.release ⟨.anonymous, 1⟩)).count (2, .off) = 1)) = true := by
    decide +kernel
  obtain ⟨d, hd, hon⟩ := (Option.any_eq_true _ _).mp hstate.1
  obtain ⟨e, he, hoff⟩ := (Option.any_eq_true _ _).mp hstate.2
  refine ⟨load_board, paths_board, ?_, ⟨d, hd, of_decide_eq_true hon⟩, e, he, of_decide_eq_true hoff⟩
  rintro mask (rfl | rfl)
  · exact whole_board (Or.inr (Or.inl rfl))
  · exact whole_board (Or.inr (Or.inr rfl))

end Manager

end SoundRouting
