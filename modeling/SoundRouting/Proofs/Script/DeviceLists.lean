import Mathlib.Data.Bool.AllAny
import SoundRouting.Proofs.Directions
import SoundRouting.Script.Words
/-!
What a device list chooses.

A list of device names is read as one mask. As long as its names are of one direction, the devices that the mask chooses
are the declared ones among those that are named. Names of both directions share one direction bit; what becomes of the
other devices then is told device by device.
-/
namespace SoundRouting.Script

open Text DeviceMask

/-- Names as a device list has them: white space may stand around each of them, and a bar or a comma between two. -/
inductive Lists : List String → List Char → Prop
  | last {name : String} {before behind : List Char} (hbefore : ∀ c ∈ before, isBlank c = true)
      (hbehind : ∀ c ∈ behind, isBlank c = true) : Lists [name] (before ++ (name.toList ++ behind))
  | more {name : String} {names : List String} {before behind rest : List Char} {separator : Char}
      (hbefore : ∀ c ∈ before, isBlank c = true) (hbehind : ∀ c ∈ behind, isBlank c = true)
      (hseparator : separator = '|' ∨ separator = ',') (h : Lists names rest) :
      Lists (name :: names) (before ++ (name.toList ++ (behind ++ separator :: rest)))

/-- The devices that a name of a list stands for; `none` stands for no device. -/
def bitsOf (name : String) : DeviceMask :=
  (ofName? name).getD nothing

def Known (name : String) : Prop :=
  name = "none" ∨ (ofName? name).isSome = true

instance : DecidablePred Known := fun _ => inferInstanceAs (Decidable (_ ∨ _))

def unionOfNames (names : List String) : DeviceMask :=
  names.foldr (fun name mask => bitsOf name ||| mask) nothing

theorem mem_table_of_known {name : String} (h : Known name) : name ∈ "none" :: nameTable.map Prod.fst := by
  rcases h with rfl | h
  · exact List.mem_cons_self
  · obtain ⟨mask, hmask⟩ := Option.isSome_iff_exists.mp h
    obtain ⟨e, he, -⟩ := Option.map_eq_some_iff.mp hmask
    have hname := List.find?_some he
    exact List.mem_cons_of_mem _ (List.mem_map.mpr ⟨e, List.mem_of_find?_eq_some he, beq_iff_eq.mp hname⟩)

/-- A known name has no separator, and no white space around it. -/
theorem token_of_known {name : String} (h : Known name) : name ≠ "" ∧
    (∀ c ∈ name.toList, (c == '|' || c == ',') = false) ∧ trim name.toList = name.toList := by
  have hall : ∀ name ∈ "none" :: nameTable.map Prod.fst, name ≠ "" ∧
      (name.toList.all fun c => (c == '|' || c == ',') = false) ∧ trim name.toList = name.toList := by decide
  exact (hall name (mem_table_of_known h)).imp_right (And.imp_left List.all_iff_forall_prop.mp)

/-- White space around a known name ends no token, and is no part of its name. -/
theorem token_of_padded {name : String} {before behind : List Char} (h : Known name)
    (hbefore : ∀ c ∈ before, isBlank c = true) (hbehind : ∀ c ∈ behind, isBlank c = true) :
    (∀ c ∈ before ++ (name.toList ++ behind), (c == '|' || c == ',') = false)
      ∧ String.ofList (trim (before ++ (name.toList ++ behind))) = name := by
  obtain ⟨-, hseparator, htrim⟩ := token_of_known h
  have hblank : ∀ c, isBlank c = true → (c == '|' || c == ',') = false := by
    intro c hc
    simp only [Bool.or_eq_false_iff, beq_eq_false_iff_ne]
    constructor <;> rintro rfl <;> exact absurd hc (by decide)
  refine ⟨fun c hc => ?_, by rw [trim_append hbefore hbehind, htrim, String.ofList_toList]⟩
  rw [List.mem_append, List.mem_append] at hc
  rcases hc with hc | hc | hc
  · exact hblank c (hbefore c hc)
  · exact hseparator c hc
  · exact hblank c (hbehind c hc)

theorem deviceOfToken_of_known {name : String} (h : Known name) (list : String) :
    deviceOfToken list name = .ok (bitsOf name) := by
  obtain ⟨hne, -⟩ := token_of_known h
  rcases h with rfl | h
  · rfl
  · obtain ⟨mask, hmask⟩ := Option.isSome_iff_exists.mp h
    have hnone : name ≠ "none" := by
      rintro rfl
      cases hmask
    simp [deviceOfToken, hne, hnone, hmask, bitsOf]

theorem unionOf_known {names : List String} (hnames : ∀ name ∈ names, Known name) (list : String) (mask : DeviceMask) :
    unionOf list names mask = .ok (mask ||| unionOfNames names) := by
  induction names generalizing mask with
  | nil => simp [unionOf, unionOfNames, nothing]
  | cons name more ih =>
    rw [List.forall_mem_cons] at hnames
    simp only [unionOf, deviceOfToken_of_known hnames.1, ih hnames.2, unionOfNames, List.foldr_cons, BitVec.or_assoc]

/-- The names of a list are read in their order. -/
theorem deviceTokens_lists {names : List String} {text : String} (h : Lists names text.toList)
    (hnames : ∀ name ∈ names, Known name) : deviceTokens text = names := by
  rw [deviceTokens]
  generalize text.toList = s at h
  induction h with
  | last hbefore hbehind =>
    rw [List.forall_mem_singleton] at hnames
    obtain ⟨hpiece, hname⟩ := token_of_padded hnames hbefore hbehind
    rw [pieces_of_forall hpiece, List.map_singleton, hname]
  | @more name names before behind rest separator hbefore hbehind hseparator _ ih =>
    rw [List.forall_mem_cons] at hnames
    obtain ⟨hpiece, hname⟩ := token_of_padded hnames.1 hbefore hbehind
    have hline : before ++ (name.toList ++ (behind ++ separator :: rest))
        = before ++ (name.toList ++ behind) ++ separator :: rest := by simp
    rw [hline, pieces_append_cons hpiece (by rcases hseparator with rfl | rfl <;> rfl), List.map_cons, hname,
      ih hnames.2]

/-- A list of known names is never refused. -/
theorem devices_lists {names : List String} {text : String} (h : Lists names text.toList)
    (hnames : ∀ name ∈ names, Known name) : devices text = .ok (unionOfNames names) := by
  rw [devices, deviceTokens_lists h hnames, unionOf_known hnames, nothing, BitVec.zero_or]

theorem getLsbD_unionOfNames (names : List String) (i : Nat) :
    (unionOfNames names).getLsbD i = names.any fun name => (bitsOf name).getLsbD i := by
  induction names with
  | nil => simp [unionOfNames, nothing]
  | cons name more ih =>
    rw [unionOfNames, List.foldr_cons, BitVec.getLsbD_or, List.any_cons]
    exact congrArg _ ih

/-- In which order the names come, and how often, makes no difference. -/
theorem unionOfNames_congr {names others : List String} (h : ∀ name, name ∈ others ↔ name ∈ names) :
    unionOfNames others = unionOfNames names := by
  refine BitVec.eq_of_getLsbD_eq fun i _ => ?_
  rw [getLsbD_unionOfNames, getLsbD_unionOfNames, Bool.eq_iff_iff, List.any_eq_true, List.any_eq_true]
  exact exists_congr fun name => and_congr_left fun _ => h name

/-! ### Devices that are named -/

/-- The declared devices that are named, in the order of their declaration. The global device is none to be routed
to. -/
def devicesNamed (names : List String) (devices : List Device) : List (Nat × Device) :=
  (devices.zipIdx.filter fun (d, _) => !d.isGlobal && names.contains d.mask.name).map Prod.swap

/-- Whether names, one of an input device among them, confuse a device: an output device that they name is none to
input streams, and an input device that they do not name owns a bit of an output device that they name. -/
def Confuses (names : List String) (device : DeviceMask) : Prop :=
  (∃ name ∈ names, (bitsOf name).isInput = true)
    ∧ (device.isInput = false ∧ device.name ∈ names
      ∨ device.isInput = true ∧ device.name ∉ names
        ∧ ∃ name ∈ names, (bitsOf name).isInput = false ∧ device.meets (bitsOf name) = true)

instance (names : List String) (device : DeviceMask) : Decidable (Confuses names device) :=
  inferInstanceAs (Decidable (_ ∧ _))

theorem isListed_bitsOf {name : String} (h : Known name) : (bitsOf name).IsListed := by
  rcases h with rfl | h
  · exact ⟨"global", rfl⟩
  · obtain ⟨mask, hmask⟩ := Option.isSome_iff_exists.mp h
    exact ⟨name, by rw [bitsOf, hmask, Option.getD_some]⟩

/-- A name and its devices determine each other. -/
theorem name_eq_iff {name : String} (h : Known name) {mask : DeviceMask} (hmask : mask.IsListed)
    (hne : mask ≠ nothing) : mask.name = name ↔ bitsOf name = mask := by
  have hbits : ∀ e ∈ nameTable, bitsOf e.1 = e.2 := by
    intro e he
    rw [bitsOf, (ofName?_eq_some_of_mem e he).1, Option.getD_some]
  constructor
  · rintro rfl
    obtain ⟨e, he, rfl⟩ := List.mem_map.mp (mem_of_isListed hmask)
    rw [(ofName?_eq_some_of_mem e he).2]
    exact hbits e he
  · rintro rfl
    rcases List.mem_cons.mp (mem_table_of_known h) with rfl | hname
    · exact absurd (by decide) hne
    · obtain ⟨e, he, rfl⟩ := List.mem_map.mp hname
      rw [hbits e he]
      exact (ofName?_eq_some_of_mem e he).2

theorem isInput_unionOfNames (names : List String) :
    (unionOfNames names).isInput = names.any fun name => (bitsOf name).isInput := by
  simp only [isInput_eq, getLsbD_unionOfNames]

theorem meets_unionOfNames_iff {names : List String} {device : DeviceMask} :
    (unionOfNames names).deviceBits.meets device = true
      ↔ ∃ name ∈ names, (bitsOf name).deviceBits.meets device = true := by
  simp only [meets_iff, getLsbD_deviceBits, getLsbD_unionOfNames, Bool.and_eq_true, decide_eq_true_eq,
    List.any_eq_true]
  constructor
  · rintro ⟨i, ⟨⟨name, hname, hb⟩, hi⟩, hd⟩
    exact ⟨name, hname, i, ⟨hb, hi⟩, hd⟩
  · rintro ⟨name, hname, i, ⟨hb, hi⟩, hd⟩
    exact ⟨i, ⟨⟨name, hname, hb⟩, hi⟩, hd⟩

/-- Of the listed devices of its direction a device has bits in common with itself only. -/
theorem meets_iff_eq {a b : DeviceMask} (ha : a.IsListed) (hb : b.IsListed) (hne : b ≠ nothing)
    (hdir : a.isInput = b.isInput) : a.deviceBits.meets b = true ↔ a = b := by
  constructor
  · intro h
    by_contra hother
    have hreaches := not_reaches_of_isListed ha hb hother
    rw [reaches, hdir, h, beq_self_eq_true] at hreaches
    cases hreaches
  · rintro rfl
    have hall : ∀ e ∈ nameTable, e.2 ≠ nothing → e.2.deviceBits.meets e.2 = true := by decide
    obtain ⟨e, he, rfl⟩ := List.mem_map.mp (mem_of_isListed ha)
    exact hall e he hne

variable {names : List String}

/-- A device of the direction of a name has bits in common with it exactly if it is the one that is named. -/
theorem exists_meets_iff (hnames : ∀ name ∈ names, Known name) {device : DeviceMask} (hlisted : device.IsListed)
    (hne : device ≠ nothing) :
    (∃ name ∈ names, (bitsOf name).isInput = device.isInput ∧ (bitsOf name).deviceBits.meets device = true)
      ↔ device.name ∈ names := by
  constructor
  · rintro ⟨name, hname, hdir, hmeets⟩
    have hsame := (meets_iff_eq (isListed_bitsOf (hnames name hname)) hlisted hne hdir).mp hmeets
    rwa [(name_eq_iff (hnames name hname) hlisted hne).mpr hsame]
  · intro hname
    have hsame := (name_eq_iff (hnames _ hname) hlisted hne).mp rfl
    exact ⟨_, hname, congrArg isInput hsame,
      (meets_iff_eq (isListed_bitsOf (hnames _ hname)) hlisted hne (congrArg isInput hsame)).mpr hsame⟩

/-- Without a name of an input device, a list leads to the devices that it names. -/
theorem reaches_of_outputs (hnames : ∀ name ∈ names, Known name)
    (houtputs : ∀ name ∈ names, (bitsOf name).isInput = false) {device : DeviceMask} (hlisted : device.IsListed)
    (hne : device ≠ nothing) : (unionOfNames names).reaches device = true ↔ device.name ∈ names := by
  have hdir : (unionOfNames names).isInput = false := by
    rw [isInput_unionOfNames, List.any_eq_false]
    exact fun name hname => by simp [houtputs name hname]
  rw [← exists_meets_iff hnames hlisted hne, reaches, hdir, Bool.and_eq_true, beq_iff_eq, meets_unionOfNames_iff]
  constructor
  · rintro ⟨hd, name, hname, hmeets⟩
    exact ⟨name, hname, (houtputs name hname).trans hd, hmeets⟩
  · rintro ⟨name, hname, hd, hmeets⟩
    exact ⟨(houtputs name hname).symm.trans hd, name, hname, hmeets⟩

/-- With one, it leads to the input devices that own one of the bits of any device that it names. -/
theorem reaches_of_input (hinput : ∃ name ∈ names, (bitsOf name).isInput = true) (device : DeviceMask) :
    (unionOfNames names).reaches device = true
      ↔ device.isInput = true ∧ ∃ name ∈ names, (bitsOf name).deviceBits.meets device = true := by
  have hdir : (unionOfNames names).isInput = true := by
    rw [isInput_unionOfNames, List.any_eq_true]
    exact hinput
  rw [reaches, hdir, Bool.and_eq_true, beq_iff_eq, meets_unionOfNames_iff, eq_comm]

theorem reaches_of_global {d : Device} (h : d.isGlobal = true) (route : DeviceMask) : route.reaches d.mask = false := by
  rw [← Bool.not_eq_true, reaches_iff]
  rintro ⟨-, i, -, -, hi⟩
  exact ne_nothing_of_getLsbD hi (beq_iff_eq.mp h)

/-- The bits of an output device are all of its mask. -/
theorem deviceBits_meets_of_output {mask : DeviceMask} (h : mask.isInput = false) (device : DeviceMask) :
    mask.deviceBits.meets device = device.meets mask := by
  have hbits : mask.deviceBits = mask := by
    rw [isInput_eq] at h
    refine BitVec.eq_of_getLsbD_eq fun i _ => ?_
    rw [getLsbD_deviceBits]
    by_cases hi : i = 31
    · rw [hi, h, Bool.false_and]
    · simp [hi]
  rw [hbits, meets, meets, BitVec.and_comm]

/-- An input device has bits in common with what is named if it is named, or with an output device that is. -/
theorem exists_meets_of_input (hnames : ∀ name ∈ names, Known name) {device : DeviceMask} (hlisted : device.IsListed)
    (hdir : device.isInput = true) :
    (∃ name ∈ names, (bitsOf name).deviceBits.meets device = true) ↔ device.name ∈ names
      ∨ ∃ name ∈ names, (bitsOf name).isInput = false ∧ device.meets (bitsOf name) = true := by
  have hne : device ≠ nothing := by
    rintro rfl
    cases hdir
  rw [← exists_meets_iff hnames hlisted hne]
  constructor
  · rintro ⟨name, hname, hmeets⟩
    cases hside : (bitsOf name).isInput with
    | true => exact Or.inl ⟨name, hname, hside.trans hdir.symm, hmeets⟩
    | false => exact Or.inr ⟨name, hname, hside, by rwa [← deviceBits_meets_of_output hside]⟩
  · rintro (⟨name, hname, -, hmeets⟩ | ⟨name, hname, hside, hmeets⟩)
    · exact ⟨name, hname, hmeets⟩
    · exact ⟨name, hname, by rwa [deviceBits_meets_of_output hside]⟩

/-- A list leads to a device exactly if it names it, unless it confuses the device. -/
theorem reaches_iff_named (hnames : ∀ name ∈ names, Known name) {device : DeviceMask} (hlisted : device.IsListed)
    (hne : device ≠ nothing) :
    ((unionOfNames names).reaches device = true ↔ device.name ∈ names) ↔ ¬ Confuses names device := by
  by_cases hinput : ∃ name ∈ names, (bitsOf name).isInput = true
  · rw [reaches_of_input hinput, Confuses, and_iff_right hinput]
    cases hdir : device.isInput with
    | false => simp
    | true =>
      rw [exists_meets_of_input hnames hlisted hdir]
      simp only [Bool.true_eq_false, false_and, false_or, true_and]
      rw [or_iff_left_iff_imp, not_and', not_not]
  · have houtputs : ∀ name ∈ names, (bitsOf name).isInput = false := by simpa using hinput
    exact iff_of_true (reaches_of_outputs hnames houtputs hlisted hne) fun h => hinput h.1

end SoundRouting.Script

namespace SoundRouting.Plan

open DeviceMask Script

/-- Where no devices share bits, the devices that a mask chooses are those that it reaches. -/
theorem chosen_eq_filter {devices : List Device} (hsep : Separate devices) (mask : DeviceMask) :
    chosen devices mask = (devices.zipIdx.filter fun (d, _) => mask.reaches d.mask).map Prod.swap := by
  rw [chosen_eq_owners, owners]
  congr 1
  refine List.filter_congr fun e he => ?_
  obtain ⟨d, i⟩ := e
  rw [Bool.eq_iff_iff, decide_eq_true_eq]
  exact claims_iff_reaches hsep (List.mk_mem_zipIdx_iff_getElem?.mp he)

/-- A list chooses what it names exactly if it confuses none of the devices. -/
theorem chosen_eq_named_iff {names : List String} (hnames : ∀ name ∈ names, Known name) {devices : List Device}
    (hlisted : ∀ d ∈ devices, d.mask.IsListed) (hsep : Separate devices) :
    chosen devices (unionOfNames names) = devicesNamed names devices
      ↔ ∀ d ∈ devices, d.isGlobal = false → ¬ Confuses names d.mask := by
  have hdevice : ∀ d ∈ devices, (unionOfNames names).reaches d.mask = (!d.isGlobal && names.contains d.mask.name)
      ↔ (d.isGlobal = false → ¬ Confuses names d.mask) := by
    intro d hd
    rw [Bool.eq_iff_iff]
    cases hglobal : d.isGlobal with
    | true => simp [reaches_of_global hglobal]
    | false => simp [← reaches_iff_named hnames (hlisted d hd) (beq_eq_false_iff_ne.mp hglobal)]
  rw [chosen_eq_filter hsep, devicesNamed, (List.map_injective_iff.mpr Prod.swap_injective).eq_iff]
  constructor
  · intro h d hd
    obtain ⟨i, hi⟩ := List.mem_iff_getElem?.mp hd
    have hmem : (d, i) ∈ devices.zipIdx := List.mk_mem_zipIdx_iff_getElem?.mpr hi
    refine (hdevice d hd).mp ?_
    have hboth := congrArg ((d, i) ∈ ·) h
    simpa only [List.mem_filter, hmem, true_and, eq_iff_iff, ← Bool.eq_iff_iff] using hboth
  · intro h
    refine List.filter_congr fun e he => ?_
    obtain ⟨d, i⟩ := e
    have hd : d ∈ devices := List.mem_of_getElem? (List.mk_mem_zipIdx_iff_getElem?.mp he)
    exact (hdevice d hd).mpr (h d hd)

end SoundRouting.Plan

namespace SoundRouting.Manager

open DeviceMask Script Config

/-- Where a device list leads. -/
theorem chosen_of_deviceList {disk : Disk} {rack after : Rack} {file : Location} {loaded : Loaded}
    (hload : load disk rack file = (.ok loaded, after)) (card : Card) {requests : List (Disk × Request)} {m : Manager}
    (hm : m = (ofLoaded card loaded).serveAll requests) {names : List String} {text : String}
    (hlists : Lists names text.toList) (hnames : ∀ name ∈ names, Known name) :
    ∃ mask, devices text = .ok mask
      ∧ (Plan.chosen m.model.devices.toList mask = devicesNamed names m.model.devices.toList
        ↔ ∀ d ∈ m.model.devices.toList, d.isGlobal = false → ¬ Confuses names d.mask)
      ∧ ∀ others same, Lists others (String.toList same) → (∀ name, name ∈ others ↔ name ∈ names) →
        devices same = .ok mask := by
  have hrest := atRest_of_load hload
  obtain ⟨-, houtlines⟩ := routed_serveAll hrest card requests
  rw [← hm] at houtlines
  have hsep : Plan.Separate m.model.devices.toList := by
    have hpairwise := hrest.separate
    rw [← houtlines] at hpairwise
    exact List.pairwise_map.mp hpairwise
  have hlisted : ∀ d ∈ m.model.devices.toList, d.mask.IsListed := by
    intro d hd
    have ho : d.outline ∈ m.model.outlines := Model.mem_outlines.mpr ⟨d, hd, rfl⟩
    rw [houtlines] at ho
    exact hrest.listed_outline ho
  refine ⟨_, devices_lists hlists hnames, Plan.chosen_eq_named_iff hnames hlisted hsep,
    fun others same hothers hmem => ?_⟩
  rw [devices_lists hothers fun name hname => hnames name ((hmem name).mp hname), unionOfNames_congr hmem]

/-- While the microphone is in use, the list of two input devices names it twice, and one that is not declared. -/
theorem chosen_of_deviceList_handset :
    let m := (ofLoaded handsetCard.openMixer.2 handsetLoaded).serveAll [(handsetDisk, .acquire 0x80000004#32 .pcm16)]
    let names := ["mic", "none", "back mic", "mic"]
    load handsetDisk ⟨[handsetCard]⟩ ⟨"a"⟩ = (.ok handsetLoaded, ⟨[handsetCard.openMixer.2]⟩)
      ∧ Lists names " mic,none |\tback mic,mic".toList ∧ (∀ name ∈ names, Known name)
      ∧ ∃ mask, devices " mic,none |\tback mic,mic" = .ok mask
        ∧ Plan.chosen m.model.devices.toList mask = devicesNamed names m.model.devices.toList
        ∧ (devicesNamed names m.model.devices.toList).map Prod.fst = [1] := by
  intro m names
  have hlists : Lists names " mic,none |\tback mic,mic".toList :=
    @Lists.more "mic" _ [' '] [] _ ',' (List.all_eq_true.mp rfl) nofun (Or.inr rfl) <|
      @Lists.more "none" _ [] [' '] _ '|' nofun (List.all_eq_true.mp rfl) (Or.inl rfl) <|
      @Lists.more "back mic" _ ['\t'] [] _ ',' (List.all_eq_true.mp rfl) nofun (Or.inr rfl) <|
      @Lists.last "mic" [] [] nofun nofun
  have hknown : ∀ name ∈ names, Known name := by decide +kernel
  have hclear : ∀ d ∈ m.model.devices.toList, d.isGlobal = false → ¬ Confuses names d.mask := by decide +kernel
  obtain ⟨mask, hmask, hiff, -⟩ := chosen_of_deviceList load_handset handsetCard.openMixer.2 rfl hlists hknown
  exact ⟨load_handset, hlists, hknown, mask, hmask, hiff.mpr hclear, by decide +kernel⟩

/-- A list that names the headset and an input device that is not declared: the headset is missed, and the microphone,
which owns the same bit, is chosen in its place. -/
theorem misled_by_directions :
    let devices := handsetLoaded.model.devices.toList
    load handsetDisk ⟨[handsetCard]⟩ ⟨"a"⟩ = (.ok handsetLoaded, ⟨[handsetCard.openMixer.2]⟩)
      ∧ Lists ["headset", "back mic"] "headset|back mic".toList ∧ (∀ name ∈ ["headset", "back mic"], Known name)
      ∧ Script.devices "headset|back mic" = .ok 0x80000084#32
      ∧ (Plan.chosen devices 0x80000084#32).map Prod.fst = [1]
      ∧ (devicesNamed ["headset", "back mic"] devices).map Prod.fst = [0] := by
  intro devices
  have hlists : Lists ["headset", "back mic"] "headset|back mic".toList :=
    @Lists.more "headset" _ [] [] _ '|' nofun nofun (Or.inl rfl) <|
      @Lists.last "back mic" [] [] nofun nofun
  exact ⟨load_handset, hlists, by decide +kernel, by decide +kernel, by decide +kernel, by decide +kernel⟩

end SoundRouting.Manager
