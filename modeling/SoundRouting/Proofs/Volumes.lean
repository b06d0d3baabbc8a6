import Mathlib.Data.List.Forall2
import SoundRouting.Manager.Settings
/-!
The values of volumes.

A percentage is scaled to the range of a volume control, whose ends may come in either order. The scaling is done
with words of 64 bits on ends that are words of 32 bits; nothing is lost in it. What a stream is set to therefore
stays between the ends of its controls and moves from one to the other as the percentages grow.
-/
namespace SoundRouting

/-- The part of a span that lies behind a percentage, cut off towards zero. -/
def spanPart (span percent : Int) : Int :=
  Int.tdiv (span * percent) 100

def IsWord (v : Int) : Prop :=
  -0x80000000 ≤ v ∧ v < 0x80000000

def IsPercent (v : Int) : Prop :=
  0 ≤ v ∧ v ≤ 100

/-- A value between two ends, whichever of them is the greater. -/
def Between (low high value : Int) : Prop :=
  min low high ≤ value ∧ value ≤ max low high

/-- On the way from `low` to `high`, `first` does not come behind `second`. -/
def Toward (low high first second : Int) : Prop :=
  (low ≤ high → first ≤ second) ∧ (high ≤ low → second ≤ first)

section Part

variable {low high span percent more : Int}

theorem spanPart_neg (span percent : Int) : spanPart (-span) percent = -spanPart span percent := by
  rw [spanPart, Int.neg_mul, Int.neg_tdiv, spanPart]

@[simp] theorem spanPart_zero (span : Int) : spanPart span 0 = 0 := by
  rw [spanPart, Int.mul_zero, Int.zero_tdiv]

@[simp] theorem spanPart_hundred (span : Int) : spanPart span 100 = span :=
  Int.mul_tdiv_cancel span (by decide)

theorem natAbs_spanPart (span percent : Int) :
    (spanPart span percent).natAbs = span.natAbs * percent.natAbs / 100 := by
  rw [spanPart, Int.natAbs_tdiv, Int.natAbs_mul]
  rfl

theorem spanPart_mono (hspan : 0 ≤ span) (h : percent ≤ more) : spanPart span percent ≤ spanPart span more :=
  Int.tdiv_le_tdiv (by decide) (Int.mul_le_mul_of_nonneg_left h hspan)

/-- The larger the percentage, the further on the way to the second end. -/
theorem toward_add_spanPart (low high : Int) (h : percent ≤ more) :
    Toward low high (low + spanPart (high - low) percent) (low + spanPart (high - low) more) := by
  constructor
  · intro hle
    have := spanPart_mono (show 0 ≤ high - low by omega) h
    omega
  · intro hle
    have := spanPart_mono (show 0 ≤ low - high by omega) h
    have hneg (p : Int) : spanPart (high - low) p = -spanPart (low - high) p := by
      rw [← spanPart_neg, Int.neg_sub]
    rw [hneg, hneg]
    omega

theorem Toward.between {first value second : Int} (h : Toward low high first value)
    (h' : Toward low high value second) : Between first second value := by
  rcases Int.le_total low high with hle | hle
  · have := h.1 hle
    have := h'.1 hle
    constructor <;> omega
  · have := h.2 hle
    have := h'.2 hle
    constructor <;> omega

theorem between_add_spanPart (low high : Int) (h : IsPercent percent) :
    Between low high (low + spanPart (high - low) percent) := by
  have hlow := toward_add_spanPart low high h.1
  have hhigh := toward_add_spanPart low high h.2
  rw [spanPart_zero, Int.add_zero] at hlow
  rw [spanPart_hundred, show low + (high - low) = high by omega] at hhigh
  exact hlow.between hhigh

theorem Between.symm {value : Int} (h : Between low high value) : Between high low value := by
  obtain ⟨_, _⟩ := h
  constructor <;> omega

theorem Between.isWord {value : Int} (h : Between low high value) (hlow : IsWord low) (hhigh : IsWord high) :
    IsWord value := by
  obtain ⟨h, h'⟩ := h
  obtain ⟨hlow, hlow'⟩ := hlow
  obtain ⟨hhigh, hhigh'⟩ := hhigh
  constructor <;> omega

/-- Between words, the two ends are no exceptions, and cutting down to a word does nothing. -/
theorem scaleVolume_eq (hlow : IsWord low) (hhigh : IsWord high) (h : IsPercent percent) :
    scaleVolume low high percent = low + spanPart (high - low) percent := by
  by_cases h0 : percent = 0
  · subst h0
    simp [scaleVolume]
  · by_cases h100 : percent = 100
    · subst h100
      rw [spanPart_hundred, scaleVolume, if_neg h0, if_pos rfl]
      omega
    · rw [scaleVolume, if_neg h0, if_neg h100]
      exact Numeral.wrapSigned_of_range ((between_add_spanPart low high h).isWord hlow hhigh)

end Part

section Scale

variable {low high percent more : Int} (hlow : IsWord low) (hhigh : IsWord high)

include hlow hhigh

theorem between_scaleVolume (h : IsPercent percent) : Between low high (scaleVolume low high percent) := by
  rw [scaleVolume_eq hlow hhigh h]
  exact between_add_spanPart low high h

theorem toward_scaleVolume (h : IsPercent percent) (h' : IsPercent more) (hle : percent ≤ more) :
    Toward low high (scaleVolume low high percent) (scaleVolume low high more) := by
  rw [scaleVolume_eq hlow hhigh h, scaleVolume_eq hlow hhigh h']
  exact toward_add_spanPart low high hle

theorem natAbs_scaleVolume_sub (h : IsPercent percent) :
    (scaleVolume low high percent - low).natAbs = (high - low).natAbs * percent.natAbs / 100 := by
  rw [scaleVolume_eq hlow hhigh h, ← natAbs_spanPart]
  congr 1
  omega

end Scale

/-! ### Words -/

section Words

variable (low high percent : Int32)

def wideSpan : Int64 :=
  high.toInt64 - low.toInt64

def widePart : Int64 :=
  wideSpan low high * percent.toInt64 / 100

/-- The value at a percentage, scaled with words of 64 bits. -/
def scaleWords : Int32 :=
  if percent = 0 then low
  else if percent = 100 then high
  else (low.toInt64 + widePart low high percent).toInt32

/-- No step of the scaling leaves its words. -/
structure ScalesExactly : Prop where
  span : (wideSpan low high).toInt = high.toInt - low.toInt
  product : (wideSpan low high * percent.toInt64).toInt = (high.toInt - low.toInt) * percent.toInt
  part : (widePart low high percent).toInt = spanPart (high.toInt - low.toInt) percent.toInt
  sum : (low.toInt64 + widePart low high percent).toInt =
    low.toInt + spanPart (high.toInt - low.toInt) percent.toInt
  narrowed : (low.toInt64 + widePart low high percent).toInt32.toInt =
    low.toInt + spanPart (high.toInt - low.toInt) percent.toInt

variable {low high percent}

theorem isWord_toInt (w : Int32) : IsWord w.toInt :=
  ⟨w.le_toInt, w.toInt_lt⟩

theorem scalesExactly (h : IsPercent percent.toInt) : ScalesExactly low high percent := by
  obtain ⟨hlow, hlow'⟩ := isWord_toInt low
  obtain ⟨hhigh, hhigh'⟩ := isWord_toInt high
  have hspan : (wideSpan low high).toInt = high.toInt - low.toInt := by
    rw [wideSpan, Int64.toInt_sub, Int32.toInt_toInt64, Int32.toInt_toInt64]
    exact Int.bmod_eq_of_le (by omega) (by omega)
  have hproduct : (wideSpan low high * percent.toInt64).toInt = (high.toInt - low.toInt) * percent.toInt := by
    have hsize : ((high.toInt - low.toInt) * percent.toInt).natAbs ≤ 0x100000000 * 100 := by
      rw [Int.natAbs_mul]
      exact Nat.mul_le_mul (by omega) (by have := h.1; have := h.2; omega)
    rw [Int64.toInt_mul, Int32.toInt_toInt64, hspan]
    exact Int.bmod_eq_of_le (by omega) (by omega)
  have hword := (between_add_spanPart low.toInt high.toInt h).isWord (isWord_toInt low) (isWord_toInt high)
  have hpart : (widePart low high percent).toInt = spanPart (high.toInt - low.toInt) percent.toInt := by
    have hhundred : (100 : Int64).toInt = 100 := rfl
    rw [widePart, Int64.toInt_div, hproduct, hhundred, ← spanPart]
    exact Int.bmod_eq_of_le (by have := hword.1; omega) (by have := hword.2; omega)
  have hsum : (low.toInt64 + widePart low high percent).toInt =
      low.toInt + spanPart (high.toInt - low.toInt) percent.toInt := by
    rw [Int64.toInt_add, Int32.toInt_toInt64, hpart]
    exact Int.bmod_eq_of_le (by have := hword.1; omega) (by have := hword.2; omega)
  refine ⟨hspan, hproduct, hpart, hsum, ?_⟩
  rw [Int64.toInt_toInt32, hsum]
  exact Int.bmod_eq_of_le hword.1 hword.2

/-- Scaling with words is scaling with numbers. -/
theorem toInt_scaleWords (h : IsPercent percent.toInt) :
    (scaleWords low high percent).toInt = scaleVolume low.toInt high.toInt percent.toInt := by
  by_cases h0 : percent = 0
  · subst h0
    rfl
  · by_cases h100 : percent = 100
    · subst h100
      rfl
    · rw [scaleVolume_eq (isWord_toInt low) (isWord_toInt high) h, scaleWords, if_neg h0, if_neg h100]
      exact (scalesExactly h).narrowed

end Words

/-! ### What a stream is set to -/

def VolumeControl.HasWords (v : VolumeControl) : Prop :=
  IsWord v.low ∧ IsWord v.high

namespace Stream

def HasWords (s : Stream) : Prop :=
  (∀ v ∈ s.left, v.HasWords) ∧ ∀ v ∈ s.right, v.HasWords

/-- The percentage for the left control: the mean if there is no right one. -/
def leftPercent (s : Stream) (left right : Int) : Int :=
  if s.right.isNone then (left + right) / 2 else left

def handed (s : Stream) (left right : Int) : List (VolumeControl × Int) :=
  (s.left.toList.map fun v => (v, scaleVolume v.low v.high (s.leftPercent left right))) ++
    s.right.toList.map fun v => (v, scaleVolume v.low v.high right)

variable {s : Stream} {left right left' right' : Int}

theorem isPercent_leftPercent (s : Stream) (hleft : IsPercent left) (hright : IsPercent right) :
    IsPercent (s.leftPercent left right) := by
  obtain ⟨_, _⟩ := hleft
  obtain ⟨_, _⟩ := hright
  unfold leftPercent
  split
  · constructor <;> omega
  · constructor <;> omega

theorem leftPercent_mono (s : Stream) (hleft : left ≤ left') (hright : right ≤ right') :
    s.leftPercent left right ≤ s.leftPercent left' right' := by
  unfold leftPercent
  split <;> omega

/-- What a control is handed lies between its ends. -/
theorem between_of_mem_handed (hs : s.HasWords) (hleft : IsPercent left) (hright : IsPercent right)
    {entry : VolumeControl × Int} (h : entry ∈ s.handed left right) : Between entry.1.low entry.1.high entry.2 := by
  rcases List.mem_append.mp h with h | h
  · obtain ⟨v, hv, rfl⟩ := List.mem_map.mp h
    obtain ⟨hlow, hhigh⟩ := hs.1 v (Option.mem_toList.mp hv)
    exact between_scaleVolume hlow hhigh (s.isPercent_leftPercent hleft hright)
  · obtain ⟨v, hv, rfl⟩ := List.mem_map.mp h
    obtain ⟨hlow, hhigh⟩ := hs.2 v (Option.mem_toList.mp hv)
    exact between_scaleVolume hlow hhigh hright

/-- The larger the percentages, the further each control is on the way to its second end. -/
theorem handed_mono (hs : s.HasWords) (hleft : IsPercent left) (hright : IsPercent right) (hleft' : IsPercent left')
    (hright' : IsPercent right') (hl : left ≤ left') (hr : right ≤ right') :
    List.Forall₂ (fun entry entry' => entry.1 = entry'.1 ∧ Toward entry.1.low entry.1.high entry.2 entry'.2)
      (s.handed left right) (s.handed left' right') := by
  refine List.rel_append ?_ ?_
  · rw [List.forall₂_map_left_iff, List.forall₂_map_right_iff, List.forall₂_same]
    intro v hv
    obtain ⟨hlow, hhigh⟩ := hs.1 v (Option.mem_toList.mp hv)
    exact ⟨rfl, toward_scaleVolume hlow hhigh (s.isPercent_leftPercent hleft hright)
      (s.isPercent_leftPercent hleft' hright') (s.leftPercent_mono hl hr)⟩
  · rw [List.forall₂_map_left_iff, List.forall₂_map_right_iff, List.forall₂_same]
    intro v hv
    obtain ⟨hlow, hhigh⟩ := hs.2 v (Option.mem_toList.mp hv)
    exact ⟨rfl, toward_scaleVolume hlow hhigh hright hright' hr⟩

/-- A stream with a left control only is handed a value between those of the two percentages. -/
theorem handed_of_left_only (hs : s.HasWords) {v : VolumeControl} (hv : s.left = some v) (hnone : s.right = none)
    (hleft : IsPercent left) (hright : IsPercent right) :
    ∃ value, s.handed left right = [(v, value)] ∧
      Between (scaleVolume v.low v.high left) (scaleVolume v.low v.high right) value := by
  obtain ⟨hlow, hhigh⟩ := hs.1 v hv
  have hmean : IsPercent ((left + right) / 2) := by
    obtain ⟨_, _⟩ := hleft
    obtain ⟨_, _⟩ := hright
    constructor <;> omega
  refine ⟨scaleVolume v.low v.high ((left + right) / 2), by simp [handed, leftPercent, hv, hnone], ?_⟩
  rcases Int.le_total left right with hle | hle
  · exact (toward_scaleVolume hlow hhigh hleft hmean (by omega)).between
      (toward_scaleVolume hlow hhigh hmean hright (by omega))
  · exact ((toward_scaleVolume hlow hhigh hright hmean (by omega)).between
      (toward_scaleVolume hlow hhigh hmean hleft (by omega))).symm

end Stream

namespace Desk

/-- Hands a value to a volume control, if it can be found. -/
def hand (desk : Desk) (v : VolumeControl) (value : Int) : Desk :=
  let (mixer, _, outcome) := desk.mixer.bindVolume desk.card v
  match outcome with
  | .error _ => ⟨desk.card, mixer⟩
  | .ok id => ⟨mixer.attempt desk.card id (.value v.index value), mixer⟩

def handAll (desk : Desk) (entries : List (VolumeControl × Int)) : Desk :=
  entries.foldl (fun desk entry => desk.hand entry.1 entry.2) desk

end Desk

/-- Binding a volume control changes its binding only. -/
theorem Mixer.bindVolume_control (m : Mixer) (card : Card) (v : VolumeControl) :
    ∃ binding, (m.bindVolume card v).2.1 = { v with binding := binding } := by
  unfold bindVolume
  cases v.binding.id? with
  | some id => exact ⟨v.binding, rfl⟩
  | none =>
    dsimp only
    split
    · exact ⟨v.binding, rfl⟩
    · split
      · exact ⟨_, rfl⟩
      · exact ⟨v.binding, rfl⟩

namespace Manager

theorem desk_writeVolume (desk : Desk) (v : VolumeControl) (percent : Int) :
    (writeVolume desk v percent).1 = desk.hand v (scaleVolume v.low v.high percent) := by
  obtain ⟨binding, hbound⟩ := desk.mixer.bindVolume_control desk.card v
  rw [writeVolume, Desk.hand]
  cases hbind : desk.mixer.bindVolume desk.card v with
  | mk mixer rest =>
    obtain ⟨bound, outcome⟩ := rest
    obtain rfl : bound = { v with binding := binding } := by rw [← hbound, hbind]
    cases outcome <;> rfl

theorem desk_writeVolume? (desk : Desk) (v : Option VolumeControl) (percent : Int) :
    (writeVolume? desk v percent).1 =
      desk.handAll (v.toList.map fun w => (w, scaleVolume w.low w.high percent)) := by
  cases v with
  | none => rfl
  | some w => exact desk_writeVolume desk w percent

/-- Setting the volume hands the values of the stream to its controls, the left one first. -/
theorem desk_setVolume {m : Manager} {id : StreamId} {s : Stream} (hs : m.model.stream? id = some s)
    {left right : Int} (hleft : IsPercent left) (hright : IsPercent right) :
    (m.setVolume id left right).1.desk = m.desk.handAll (s.handed left right) := by
  have hgood : badPercent? [left, right] = none := by
    simp [badPercent?, hleft.1, hleft.2, hright.1, hright.2]
  simp only [setVolume, hgood, hs]
  split
  · rename_i hnone
    obtain ⟨hl, hr⟩ := Bool.and_eq_true_iff.mp hnone
    rw [Stream.handed, Option.isNone_iff_eq_none.mp hl, Option.isNone_iff_eq_none.mp hr]
    rfl
  · rw [Stream.handed, Desk.handAll, List.foldl_append]
    rw [← Desk.handAll, ← Desk.handAll, ← desk_writeVolume?, ← desk_writeVolume?]
    rfl

/-- A percentage is scaled to words exactly: no step leaves its words, and the value lies between the ends, as far
from the first one as the percentage says. The ends are met at 0 and at 100, and the value moves from one to the other
as the percentage grows. What the controls of a stream are handed therefore lies between their ends and moves with
the two percentages; a stream with a left control only is handed a value between those of the two. -/
theorem setVolume_scales :
    (∀ low high percent : Int32, IsPercent percent.toInt →
      ScalesExactly low high percent ∧
      (scaleWords low high percent).toInt = scaleVolume low.toInt high.toInt percent.toInt) ∧
    (∀ low high : Int, IsWord low → IsWord high →
      scaleVolume low high 0 = low ∧ scaleVolume low high 100 = high ∧
      ∀ percent, IsPercent percent →
        Between low high (scaleVolume low high percent) ∧
        (scaleVolume low high percent - low).natAbs = (high - low).natAbs * percent.natAbs / 100 ∧
        ∀ more, IsPercent more → percent ≤ more →
          Toward low high (scaleVolume low high percent) (scaleVolume low high more)) ∧
    ∀ (m : Manager) (id : StreamId) (s : Stream), m.model.stream? id = some s → s.HasWords →
      ∀ left right, IsPercent left → IsPercent right →
        (m.setVolume id left right).1.desk = m.desk.handAll (s.handed left right) ∧
        (∀ entry ∈ s.handed left right, Between entry.1.low entry.1.high entry.2) ∧
        (∀ left' right', IsPercent left' → IsPercent right' → left ≤ left' → right ≤ right' →
          List.Forall₂ (fun entry entry' => entry.1 = entry'.1 ∧ Toward entry.1.low entry.1.high entry.2 entry'.2)
            (s.handed left right) (s.handed left' right')) ∧
        ∀ v, s.left = some v → s.right = none → ∃ value, s.handed left right = [(v, value)] ∧
          Between (scaleVolume v.low v.high left) (scaleVolume v.low v.high right) value := by
  refine ⟨fun low high percent h => ⟨scalesExactly h, toInt_scaleWords h⟩, fun low high hlow hhigh => ?_,
    fun m id s hs hwords left right hleft hright => ?_⟩
  · refine ⟨if_pos rfl, (if_neg (by decide)).trans (if_pos rfl), fun percent h => ?_⟩
    exact ⟨between_scaleVolume hlow hhigh h, natAbs_scaleVolume_sub hlow hhigh h,
      fun more h' hle => toward_scaleVolume hlow hhigh h h' hle⟩
  · refine ⟨desk_setVolume hs hleft hright, fun entry => Stream.between_of_mem_handed hwords hleft hright, ?_, ?_⟩
    · exact fun left' right' hleft' hright' => Stream.handed_mono hwords hleft hright hleft' hright'
    · exact fun v hv hnone => Stream.handed_of_left_only hwords hv hnone hleft hright

/-- A stream with a left control only, which is the louder the smaller its value. -/
def faded : Manager where
  desk := ⟨.ofControls 0 none [.integer "Attenuation" 1 (-64) 10], ⟨0, [0]⟩⟩
  model :=
    { Model.blank with
      anonymous := ⟨#[{ Stream.blank none ⟨.pcmOut, 0, none, 0, 0, 0⟩ 1 with
        left := some ⟨"Attenuation", .unresolved, 0, 10, -64⟩ }], 1⟩ }

/-- From 10 down to -64, the mean of three and six percent is four percent, which is two of the seventy-four steps. -/
theorem setVolume_scales_faded :
    (∃ value, (faded.setVolume ⟨.anonymous, 0⟩ 3 6).1.desk =
        faded.desk.handAll [(⟨"Attenuation", .unresolved, 0, 10, -64⟩, value)] ∧
      Between (scaleVolume 10 (-64) 3) (scaleVolume 10 (-64) 6) value) ∧
    (faded.setVolume ⟨.anonymous, 0⟩ 3 6).1.desk.card.values "Attenuation" = [8] ∧
    Toward 10 (-64) (scaleVolume 10 (-64) 3) (scaleVolume 10 (-64) 6) ∧
    (scaleWords (-0x80000000) 0x7fffffff 99).toInt = scaleVolume (-0x80000000) 0x7fffffff 99 := by
  obtain ⟨hexact, hscale, hstream⟩ := setVolume_scales
  have hends : VolumeControl.HasWords ⟨"Attenuation", .unresolved, 0, 10, -64⟩ :=
    ⟨⟨by decide, by decide⟩, by decide, by decide⟩
  refine ⟨?_, by decide +kernel, ?_, (hexact (-0x80000000) 0x7fffffff 99 ⟨by decide, by decide⟩).2⟩
  · obtain ⟨hdesk, -, -, hmean⟩ := hstream faded ⟨.anonymous, 0⟩ _ rfl
      ⟨fun v hv => Option.some.inj hv ▸ hends, nofun⟩ 3 6 ⟨by decide, by decide⟩ ⟨by decide, by decide⟩
    obtain ⟨value, hvalue, hbetween⟩ := hmean _ rfl rfl
    exact ⟨value, hvalue ▸ hdesk, hbetween⟩
  · obtain ⟨-, -, hpercent⟩ := hscale 10 (-64) hends.1 hends.2
    exact (hpercent 3 ⟨by decide, by decide⟩).2.2 6 ⟨by decide, by decide⟩ (by decide)

end Manager

end SoundRouting
