import Mathlib.Data.List.Forall2
import Mathlib.Data.Nat.Digits.Defs
import SoundRouting.Proofs.Bindings
/-!
What literals are, and that they are read as such.

A literal is described by its shape: white space, a sign, and digits after the mark of their radix. The readers accept
a text exactly if it has this shape and its value is in their range, however many digits there are, and give that
value. So numbers are read back from every notation they are printed in, and binding a text to an integer control
gives the control the number with the same thirty-two bits, or fails. Plain numerals are read back from decimal.
-/
namespace SoundRouting

namespace Numeral

open Text

def IsDigit (d : Nat) (c : Char) : Prop :=
  c = d.digitChar ∨ c = d.digitChar.toUpper

/-- The digits of a number in a radix, the most significant one first, after any zeros. -/
def Spells (radix : Nat) (s : List Char) (n : Nat) : Prop :=
  ∃ ds : List Nat, ds ≠ [] ∧ (∀ d ∈ ds, d < radix) ∧ List.Forall₂ IsDigit ds s
    ∧ Nat.ofDigits radix ds.reverse = n

/-- A magnitude. What begins with `0` is hexadecimal or octal, unless it ends there. -/
inductive Magnitude : List Char → Nat → Prop
  | hexadecimal {x : Char} {s : List Char} {n : Nat} (hx : x = 'x' ∨ x = 'X') (h : Spells 16 s n) :
      Magnitude ('0' :: x :: s) n
  | octal {s : List Char} {n : Nat} (h : Spells 8 s n) : Magnitude ('0' :: s) n
  | zero : Magnitude ['0'] 0
  | decimal {c : Char} {s : List Char} {n : Nat} (hc : c ≠ '0') (h : Spells 10 (c :: s) n) : Magnitude (c :: s) n

/-- A magnitude after at most one sign. -/
inductive Signed : List Char → Int → Prop
  | bare {s : List Char} {n : Nat} (h : Magnitude s n) : Signed s n
  | plus {s : List Char} {n : Nat} (h : Magnitude s n) : Signed ('+' :: s) n
  | minus {s : List Char} {n : Nat} (h : Magnitude s n) : Signed ('-' :: s) (-n)

/-- A text is a literal with this value: white space may stand in front, and nothing may follow. -/
def Literal (text : String) (v : Int) : Prop :=
  ∃ blanks s, text.toList = blanks ++ s ∧ (∀ c ∈ blanks, isBlank c = true) ∧ Signed s v

theorem digitValue?_of_isDigit {d : Nat} (hd : d < 16) {c : Char} (h : IsDigit d c) : digitValue? c = some d := by
  have hall : ∀ d < 16, digitValue? d.digitChar = some d ∧ digitValue? d.digitChar.toUpper = some d := by decide
  rcases h with rfl | rfl
  · exact (hall d hd).1
  · exact (hall d hd).2

theorem isDigit_of_digitValue? {d : Nat} (hd : d < 16) {c : Char} (h : digitValue? c = some d) : IsDigit d c := by
  have hlower : ∀ d < 16, d.digitChar.toNat = if d < 10 then d + 48 else d + 87 := by decide
  have hupper : ∀ d < 16, d.digitChar.toUpper.toNat = if d < 10 then d + 48 else d + 55 := by decide
  have hle : ∀ a b : Char, a ≤ b ↔ a.toNat ≤ b.toNat := fun a b => by
    rw [Char.le_def, UInt32.le_iff_toNat_le]
    rfl
  have hdigits : '0'.toNat = 48 ∧ '9'.toNat = 57 := ⟨rfl, rfl⟩
  have hletters : 'a'.toNat = 97 ∧ 'z'.toNat = 122 ∧ 'A'.toNat = 65 ∧ 'Z'.toNat = 90 := ⟨rfl, rfl, rfl, rfl⟩
  rw [IsDigit, ← Char.toNat_inj, ← Char.toNat_inj, hlower d hd, hupper d hd]
  simp only [digitValue?, hle, hdigits, hletters] at h
  grind

/-- The digits of a radix are those that numbers are printed with, in either case. -/
theorem digit?_eq_some_iff {radix : Nat} (hradix : radix ≤ 16) {c : Char} {d : Nat} :
    digit? radix c = some d ↔ d < radix ∧ IsDigit d c := by
  rw [digit?, Option.filter_eq_some_iff, decide_eq_true_eq, and_comm]
  exact and_congr_right fun hd =>
    ⟨isDigit_of_digitValue? (Nat.lt_of_lt_of_le hd hradix), digitValue?_of_isDigit (Nat.lt_of_lt_of_le hd hradix)⟩

/-- Digits that follow those of a number. -/
theorem digitsFrom?_eq_some_iff {radix : Nat} (hradix : radix ≤ 16) {value : Nat} {s : List Char} {n : Nat} :
    digitsFrom? radix value s = some n ↔ ∃ ds : List Nat, (∀ d ∈ ds, d < radix)
      ∧ List.Forall₂ IsDigit ds s ∧ Nat.ofDigits radix ds.reverse + radix ^ ds.length * value = n := by
  induction s generalizing value with
  | nil =>
    simp only [digitsFrom?, Option.some.injEq]
    constructor
    · rintro rfl
      exact ⟨[], fun _ h => absurd h List.not_mem_nil, .nil, by simp⟩
    · rintro ⟨ds, -, hds, hn⟩
      cases hds
      simpa using hn
  | cons c rest ih =>
    simp only [digitsFrom?]
    constructor
    · intro h
      cases hd : digit? radix c with
      | none =>
        rw [hd] at h
        cases h
      | some d =>
        rw [hd] at h
        obtain ⟨hlt, hc⟩ := (digit?_eq_some_iff hradix).mp hd
        obtain ⟨ds, hall, hds, hn⟩ := ih.mp h
        refine ⟨d :: ds, List.forall_mem_cons.mpr ⟨hlt, hall⟩, .cons hc hds, ?_⟩
        rw [← hn, Nat.ofDigits_reverse_cons, List.length_cons]
        ring
    · rintro ⟨ds, hall, hds, hn⟩
      cases hds with
      | @cons d _ ds _ hc hds =>
        rw [List.forall_mem_cons] at hall
        rw [(digit?_eq_some_iff hradix).mpr ⟨hall.1, hc⟩]
        refine ih.mpr ⟨ds, hall.2, hds, ?_⟩
        rw [← hn, Nat.ofDigits_reverse_cons, List.length_cons]
        ring

/-- One or more digits are read as the number that they spell. -/
theorem digits?_eq_some_iff {radix : Nat} (hradix : radix ≤ 16) {s : List Char} {n : Nat} :
    digits? radix s = some n ↔ Spells radix s n := by
  cases s with
  | nil =>
    refine iff_of_false (Option.some_ne_none n).symm ?_
    rintro ⟨ds, hne, -, hds, -⟩
    cases hds
    exact hne rfl
  | cons c rest =>
    rw [digits?, List.isEmpty_cons, if_neg Bool.false_ne_true, digitsFrom?_eq_some_iff hradix, Spells]
    refine exists_congr fun ds => ⟨fun ⟨hall, hds, hn⟩ => ⟨?_, hall, hds, by simpa using hn⟩,
      fun ⟨_, hall, hds, hn⟩ => ⟨hall, hds, by simpa using hn⟩⟩
    rintro rfl
    cases hds

theorem Spells.head {radix : Nat} {c : Char} {s : List Char} {n : Nat} (h : Spells radix (c :: s) n) :
    ∃ d < radix, IsDigit d c := by
  obtain ⟨ds, -, hall, hds, -⟩ := h
  cases hds with
  | cons hc _ => exact ⟨_, hall _ List.mem_cons_self, hc⟩

/-- The letter that announces hexadecimal digits is none of the octal ones. -/
theorem not_spells_eight_of_x {x : Char} (hx : x = 'x' ∨ x = 'X') {s : List Char} {n : Nat} :
    ¬ Spells 8 (x :: s) n := by
  intro h
  obtain ⟨d, hd, hdigit⟩ := h.head
  have hall : ∀ d < 8, ¬ IsDigit d 'x' ∧ ¬ IsDigit d 'X' := by
    unfold IsDigit
    decide
  rcases hx with rfl | rfl
  · exact (hall d hd).1 hdigit
  · exact (hall d hd).2 hdigit

theorem magnitude?_of_octal {c : Char} (hx : c ≠ 'x') (hX : c ≠ 'X') (s : List Char) :
    magnitude? ('0' :: c :: s) = digits? 8 (c :: s) := by
  rw [magnitude?]
  · exact hx
  · exact hX

theorem magnitude?_of_decimal {c : Char} (hc : c ≠ '0') (s : List Char) :
    magnitude? (c :: s) = digits? 10 (c :: s) := by
  rw [magnitude?]
  · exact fun _ h => hc (List.cons.inj h).1
  · exact fun _ h => hc (List.cons.inj h).1
  · exact fun _ _ h => hc (List.cons.inj h).1

/-- A magnitude is read as what it is. -/
theorem magnitude?_eq_some_iff {s : List Char} {n : Nat} : magnitude? s = some n ↔ Magnitude s n := by
  constructor
  · intro h
    unfold magnitude? at h
    split at h
    · exact .hexadecimal (Or.inl rfl) ((digits?_eq_some_iff (by decide)).mp h)
    · exact .hexadecimal (Or.inr rfl) ((digits?_eq_some_iff (by decide)).mp h)
    · exact .octal ((digits?_eq_some_iff (by decide)).mp h)
    · rename_i hoctal
      cases s with
      | nil => cases h
      | cons c rest =>
        by_cases hc : c = '0'
        · subst hc
          cases rest with
          | nil =>
            cases h
            exact .zero
          | cons d rest => exact absurd rfl (hoctal d rest)
        · exact .decimal hc ((digits?_eq_some_iff (by decide)).mp h)
  · intro h
    cases h with
    | hexadecimal hx h =>
      have hdigits := (digits?_eq_some_iff (by decide)).mpr h
      rcases hx with rfl | rfl <;> exact hdigits
    | @octal s _ h =>
      have hdigits := (digits?_eq_some_iff (by decide)).mpr h
      cases s with
      | nil => cases hdigits
      | cons c rest =>
        rwa [magnitude?_of_octal]
        · rintro rfl
          exact not_spells_eight_of_x (Or.inl rfl) h
        · rintro rfl
          exact not_spells_eight_of_x (Or.inr rfl) h
    | zero => rfl
    | decimal hc h => rw [magnitude?_of_decimal hc, (digits?_eq_some_iff (by decide)).mpr h]

/-- A magnitude begins with a decimal digit. -/
theorem Magnitude.head {s : List Char} {n : Nat} (h : Magnitude s n) :
    ∃ d < 10, ∃ rest, s = d.digitChar :: rest := by
  cases h with
  | hexadecimal | octal | zero => exact ⟨0, by decide, _, rfl⟩
  | @decimal c rest _ _ h =>
    obtain ⟨d, hd, hc⟩ := h.head
    have hupper : ∀ d < 10, d.digitChar.toUpper = d.digitChar := by decide
    rw [IsDigit, hupper d hd, or_self] at hc
    exact ⟨d, hd, rest, by rw [hc]⟩

/-- What follows the sign is read as a magnitude. -/
theorem signed_eq_some_iff {s : List Char} {v : Int} :
    (magnitude? (sign s).2).map (signed (sign s).1) = some v ↔ Signed s v := by
  simp only [Option.map_eq_some_iff, magnitude?_eq_some_iff]
  constructor
  · rintro ⟨n, h, rfl⟩
    unfold sign at h ⊢
    split at h
    · exact .minus h
    · exact .plus h
    · exact .bare h
  · intro h
    cases h with
    | @bare _ n h =>
      obtain ⟨d, hd, rest, rfl⟩ := h.head
      have hsigns : ∀ d < 10, d.digitChar ≠ '-' ∧ d.digitChar ≠ '+' := by decide
      have hsign : sign (d.digitChar :: rest) = (false, d.digitChar :: rest) := by
        rw [sign]
        · exact fun _ he => (hsigns d hd).1 (List.cons.inj he).1
        · exact fun _ he => (hsigns d hd).2 (List.cons.inj he).1
      rw [hsign]
      exact ⟨n, h, rfl⟩
    | @plus _ n h | @minus _ n h => exact ⟨n, h, rfl⟩

theorem Signed.head {s : List Char} {v : Int} (h : Signed s v) : ∃ c rest, s = c :: rest ∧ isBlank c = false := by
  cases h with
  | bare h =>
    obtain ⟨d, hd, rest, rfl⟩ := h.head
    have hblank : ∀ d < 10, isBlank d.digitChar = false := by decide
    exact ⟨_, rest, rfl, hblank d hd⟩
  | plus | minus => exact ⟨_, _, rfl, by decide⟩

/-- A text is read as the literal that it is. -/
theorem literal?_eq_some_iff {text : String} {v : Int} : literal? text.toList = some v ↔ Literal text v := by
  have hread : literal? text.toList = some v ↔ Signed (trimStart text.toList) v := signed_eq_some_iff
  rw [hread, Literal]
  constructor
  · intro h
    exact ⟨text.toList.takeWhile isBlank, text.toList.dropWhile isBlank, List.takeWhile_append_dropWhile.symm,
      List.all_eq_true.mp List.all_takeWhile, h⟩
  · rintro ⟨blanks, s, htext, hblanks, h⟩
    obtain ⟨c, rest, rfl, hc⟩ := h.head
    rw [htext, trimStart_append hblanks, trimStart_cons hc]
    exact h

/-- A text has one value as a literal. -/
theorem Literal.unique {text : String} {v w : Int} (hv : Literal text v) (hw : Literal text w) : v = w :=
  Option.some.inj ((literal?_eq_some_iff.mpr hv).symm.trans (literal?_eq_some_iff.mpr hw))

theorem unsigned?_eq_some_iff {text : String} {n : Nat} :
    unsigned? text = some n ↔ Literal text n ∧ n < 2 ^ 32 := by
  rw [← literal?_eq_some_iff, unsigned?]
  cases literal? text.toList with
  | none => simp
  | some v =>
    simp only [Option.some.injEq, Option.ite_none_right_eq_some]
    omega

theorem signed?_eq_some_iff {text : String} {v : Int} :
    signed? text = some v ↔ Literal text v ∧ -2 ^ 31 ≤ v ∧ v < 2 ^ 31 := by
  rw [← literal?_eq_some_iff, signed?]
  cases literal? text.toList with
  | none => simp
  | some w =>
    simp only [Option.some.injEq, Option.ite_none_right_eq_some]
    omega

/-- A number is spelled by the digits it is printed with. -/
theorem spells_toDigits {radix : Nat} (hone : 1 < radix) (n : Nat) : Spells radix (Nat.toDigits radix n) n := by
  induction n using Nat.strongRecOn with
  | ind n ih =>
    rw [Nat.toDigits_eq_if hone]
    split
    · rename_i hn
      exact ⟨[n], List.cons_ne_nil _ _, List.forall_mem_singleton.mpr hn, .cons (Or.inl rfl) .nil, by simp⟩
    · rename_i hn
      obtain ⟨ds, -, hall, hds, hvalue⟩ := ih (n / radix) (Nat.div_lt_self (by omega) hone)
      refine ⟨ds ++ [n % radix], by simp, ?_, ?_, ?_⟩
      · rw [List.forall_mem_append, List.forall_mem_singleton]
        exact ⟨hall, Nat.mod_lt _ (by omega)⟩
      · exact List.rel_append hds (.cons (Or.inl rfl) .nil)
      · rw [List.reverse_append, List.reverse_singleton, List.singleton_append, Nat.ofDigits_cons, hvalue]
        exact Nat.mod_add_div n radix

/-- Letters can be printed in upper case instead. -/
theorem Spells.map_toUpper {radix : Nat} (hradix : radix ≤ 16) {s : List Char} {n : Nat} (h : Spells radix s n) :
    Spells radix (s.map Char.toUpper) n := by
  obtain ⟨ds, hne, hall, hds, hn⟩ := h
  have hupper : ∀ d < 16, d.digitChar.toUpper.toUpper = d.digitChar.toUpper := by decide
  refine ⟨ds, hne, hall, ?_, hn⟩
  rw [List.forall₂_map_right_iff]
  refine ((List.forall₂_and_left (p := (· < radix)) ds s).mpr ⟨hall, hds⟩).imp fun d c hdc => Or.inr ?_
  obtain ⟨hd, rfl | rfl⟩ := hdc
  · rfl
  · exact hupper d (Nat.lt_of_lt_of_le hd hradix)

/-- The decimal digits of a positive number do not begin with `0`. -/
theorem head_toDigits {n : Nat} (hn : 0 < n) : ∃ c s, Nat.toDigits 10 n = c :: s ∧ c ≠ '0' := by
  induction n using Nat.strongRecOn with
  | ind n ih =>
    rw [Nat.toDigits_eq_if (by decide)]
    split
    · exact ⟨_, [], rfl, fun h => absurd (Nat.digitChar_eq_zero.mp h) (by omega)⟩
    · obtain ⟨c, s, hs, hc⟩ := ih (n / 10) (Nat.div_lt_self hn (by decide)) (by omega)
      exact ⟨c, s ++ [(n % 10).digitChar], by rw [hs, List.cons_append], hc⟩

theorem magnitude_toDigits (n : Nat) : Magnitude (Nat.toDigits 10 n) n := by
  rcases Nat.eq_zero_or_pos n with rfl | hn
  · exact .zero
  · have hspells := spells_toDigits (by decide : 1 < 10) n
    obtain ⟨c, s, hs, hc⟩ := head_toDigits hn
    rw [hs] at hspells ⊢
    exact .decimal hc hspells

theorem Signed.literal {s : List Char} {v : Int} (h : Signed s v) : Literal (String.ofList s) v :=
  ⟨[], s, String.toList_ofList, fun _ hc => absurd hc List.not_mem_nil, h⟩

/-- An integer is a literal as it is printed. -/
theorem literal_toString (v : Int) : Literal (toString v) v := by
  have hprint : toString v = if 0 ≤ v then v.toNat.repr else "-" ++ (-v).toNat.repr := Int.repr_eq_if
  rw [hprint]
  split
  · rename_i hv
    have h := (Signed.bare (magnitude_toDigits v.toNat)).literal
    rwa [Int.toNat_of_nonneg hv, ← Nat.repr_eq_ofList_toDigits] at h
  · rename_i hv
    have h := (Signed.minus (magnitude_toDigits (-v).toNat)).literal
    rwa [Int.toNat_of_nonneg (by omega), Int.neg_neg, ← List.singleton_append, String.ofList_append,
      ← Nat.repr_eq_ofList_toDigits] at h

/-! ### Plain numerals -/

/-- A number in decimal, after a minus sign if it is below zero. -/
inductive Decimal : List Char → Int → Prop
  | natural {s : List Char} {n : Nat} (h : Spells 10 s n) : Decimal s n
  | negative {s : List Char} {n : Nat} (h : Spells 10 s n) : Decimal ('-' :: s) (-n)

/-- The characters of a number in decimal are those that digits are printed with. -/
theorem Spells.eq_digitChar {s : List Char} {n : Nat} (h : Spells 10 s n) : ∀ c ∈ s, ∃ d < 10, c = d.digitChar := by
  obtain ⟨ds, -, hall, hds, -⟩ := h
  have hupper : ∀ d < 10, d.digitChar.toUpper = d.digitChar := by decide
  induction hds with
  | nil => exact nofun
  | @cons d c ds s hc _ ih =>
    rw [List.forall_mem_cons] at hall
    rw [List.forall_mem_cons]
    rw [IsDigit, hupper d hall.1, or_self] at hc
    exact ⟨⟨d, hall.1, hc⟩, ih hall.2⟩

theorem Spells.ne_nil {radix : Nat} {s : List Char} {n : Nat} (h : Spells radix s n) : s ≠ [] := by
  obtain ⟨ds, hne, -, hds, -⟩ := h
  rintro rfl
  cases hds
  exact hne rfl

/-- Digits begin with no sign. -/
theorem Spells.sign {s : List Char} {n : Nat} (h : Spells 10 s n) : sign s = (false, s) := by
  have hsigns : ∀ d < 10, d.digitChar ≠ '-' ∧ d.digitChar ≠ '+' := by decide
  unfold Numeral.sign
  split
  · obtain ⟨d, hd, hc⟩ := h.eq_digitChar _ List.mem_cons_self
    exact absurd hc.symm (hsigns d hd).1
  · obtain ⟨d, hd, hc⟩ := h.eq_digitChar _ List.mem_cons_self
    exact absurd hc.symm (hsigns d hd).2
  · rfl

theorem Decimal.ne_nil {s : List Char} {v : Int} (h : Decimal s v) : s ≠ [] := by
  cases h with
  | natural h => exact h.ne_nil
  | negative h => exact List.cons_ne_nil _ _

theorem Decimal.eq_digitChar {s : List Char} {v : Int} (h : Decimal s v) :
    ∀ c ∈ s, c = '-' ∨ ∃ d < 10, c = d.digitChar := by
  cases h with
  | natural h => exact fun c hc => Or.inr (h.eq_digitChar c hc)
  | negative h => exact List.forall_mem_cons.mpr ⟨Or.inl rfl, fun c hc => Or.inr (h.eq_digitChar c hc)⟩

theorem plainUnsigned?_of_spells {bound : Nat} {s : List Char} {n : Nat} (h : Spells 10 s n) (hn : n < bound) :
    plainUnsigned? bound s = some n := by
  have hplus : ∀ rest, s ≠ '+' :: rest := by
    rintro rest rfl
    cases h.sign
  have hdigits : digits? 10 s = some n := (digits?_eq_some_iff (by decide)).mpr h
  simp [plainUnsigned?, hdigits, hn]

theorem plainSigned?_of_decimal {s : List Char} {v : Int} (h : Decimal s v) (hv : -2 ^ 31 ≤ v ∧ v < 2 ^ 31) :
    plainSigned? s = some v := by
  cases h with
  | natural h =>
    have hdigits := (digits?_eq_some_iff (by decide)).mpr h
    simp [plainSigned?, h.sign, hdigits, signed]
    omega
  | negative h =>
    have hdigits := (digits?_eq_some_iff (by decide)).mpr h
    simp [plainSigned?, sign, hdigits, signed]
    omega

end Numeral

namespace Value

open Numeral

/-- A text that is a literal gives an integer control the number with the same thirty-two bits. -/
theorem toInteger_pending {text : String} (control : String) {v : Int} (h : Literal text v) :
    (-2 ^ 31 ≤ v ∧ v < 2 ^ 31 → (pending text).toInteger control = .ok v)
      ∧ (2 ^ 31 ≤ v ∧ v < 2 ^ 32 → (pending text).toInteger control = .ok (v - 2 ^ 32)) := by
  simp only [toInteger]
  constructor
  · intro hrange
    rw [signed?_eq_some_iff.mpr ⟨h, hrange⟩]
  · intro hrange
    have hsigned : signed? text = none := by
      rw [Option.eq_none_iff_forall_ne_some]
      intro w hw
      obtain ⟨hlit, hw⟩ := signed?_eq_some_iff.mp hw
      have := h.unique hlit
      omega
    have hunsigned : unsigned? text = some v.toNat :=
      unsigned?_eq_some_iff.mpr ⟨by rwa [Int.toNat_of_nonneg (by omega)], by omega⟩
    rw [hsigned, hunsigned]
    simp only [wrapSigned, Int.toNat_of_nonneg (show 0 ≤ v by omega), Int.bmod_def]
    congr 1
    omega

/-- Any other text gives it nothing. -/
theorem toInteger_pending_error {text : String} (control : String)
    (h : ∀ v, Literal text v → v < -2 ^ 31 ∨ 2 ^ 32 ≤ v) :
    (pending text).toInteger control = .error (.value (.notANumber text)) := by
  have hsigned : signed? text = none := by
    rw [Option.eq_none_iff_forall_ne_some]
    intro v hv
    obtain ⟨hlit, hrange⟩ := signed?_eq_some_iff.mp hv
    have := h v hlit
    omega
  have hunsigned : unsigned? text = none := by
    rw [Option.eq_none_iff_forall_ne_some]
    intro n hn
    obtain ⟨hlit, hrange⟩ := unsigned?_eq_some_iff.mp hn
    have := h n hlit
    omega
  simp only [toInteger, hsigned, hunsigned]

end Value

namespace Numeral

/-- The notations that a number is printed in: decimal, octal, and hexadecimal with letters of either case. -/
def spellings (n : Nat) : List String :=
  let hexadecimal := Nat.toDigits 16 n
  [toString n, .ofList ('0' :: Nat.toDigits 8 n), .ofList ('0' :: 'x' :: hexadecimal),
    .ofList ('0' :: 'X' :: hexadecimal), .ofList ('0' :: 'x' :: hexadecimal.map Char.toUpper),
    .ofList ('0' :: 'X' :: hexadecimal.map Char.toUpper)]

theorem literal_of_spelling {n : Nat} {text : String} (h : text ∈ spellings n) : Literal text n := by
  have hsmall := spells_toDigits (by decide : 1 < 16) n
  have hcapital := hsmall.map_toUpper (by decide)
  simp only [spellings, List.mem_cons, List.not_mem_nil, or_false] at h
  rcases h with rfl | rfl | rfl | rfl | rfl | rfl
  · exact literal_toString n
  · exact (Signed.bare (.octal (spells_toDigits (by decide : 1 < 8) n))).literal
  · exact (Signed.bare (.hexadecimal (Or.inl rfl) hsmall)).literal
  · exact (Signed.bare (.hexadecimal (Or.inr rfl) hsmall)).literal
  · exact (Signed.bare (.hexadecimal (Or.inl rfl) hcapital)).literal
  · exact (Signed.bare (.hexadecimal (Or.inr rfl) hcapital)).literal

end Numeral

namespace Desk

open Numeral

/-- Binding a text to a control that is written as integers comes to reading it. -/
theorem bind_integer {desk : Desk} (disk : Disk) {a : Assignment} (ha : a.binding = .unresolved) {id : Nat}
    (hfound : (desk.mixer.lookup desk.card a.control).2 = .ok id) {c : LiveControl}
    (hc : desk.card.control? id = some c) (htype : c.spec.type.isInteger = true) :
    (desk.mixer.bind disk desk.card a).2 = match a.value.toInteger a.control with
      | .ok v => ({ a with value := .int v, binding := .bound id c.spec.type }, .ok ())
      | .error e => (a, .error e) := by
  rw [bind_of_found disk ha hfound hc]
  cases ht : c.spec.type <;> rw [ht] at htype <;> simp only [Assignment.convert]
  case switch | integer => cases a.value.toInteger a.control <;> rfl
  all_goals cases htype

/-- How an assignment with a text is bound to a control that is written as integers: it holds the number with the
same thirty-two bits as the literal that the text is, or is left as it was. -/
structure BindsText (disk : Disk) (desk : Desk) (a : Assignment) (id : Nat) (c : LiveControl) (text : String) :
    Prop where
  signed : ∀ v, Literal text v → -2 ^ 31 ≤ v → v < 2 ^ 31 → (desk.mixer.bind disk desk.card a).2
    = ({ a with value := .int v, binding := .bound id c.spec.type }, .ok ())
  unsigned : ∀ v, Literal text v → 2 ^ 31 ≤ v → v < 2 ^ 32 → (desk.mixer.bind disk desk.card a).2
    = ({ a with value := .int (v - 2 ^ 32), binding := .bound id c.spec.type }, .ok ())
  refused : (∀ v, Literal text v → v < -2 ^ 31 ∨ 2 ^ 32 ≤ v) →
    (desk.mixer.bind disk desk.card a).2 = (a, .error (.value (.notANumber text)))

theorem bindsText {desk : Desk} (disk : Disk) {a : Assignment} {text : String} (ha : a.binding = .unresolved)
    (hvalue : a.value = .pending text) {id : Nat} (hfound : (desk.mixer.lookup desk.card a.control).2 = .ok id)
    {c : LiveControl} (hc : desk.card.control? id = some c) (htype : c.spec.type.isInteger = true) :
    desk.BindsText disk a id c text := by
  have hbind := bind_integer disk ha hfound hc htype
  rw [hvalue] at hbind
  constructor
  · intro v h hlow hhigh
    rw [hbind, (Value.toInteger_pending a.control h).1 ⟨hlow, hhigh⟩]
  · intro v h hlow hhigh
    rw [hbind, (Value.toInteger_pending a.control h).2 ⟨hlow, hhigh⟩]
  · intro h
    rw [hbind, Value.toInteger_pending_error a.control h]

end Desk

namespace Numeral

/-- The two readers accept exactly the literals in their range, and give their values; so they agree where both accept
a text, and numbers are read back from the notations they are printed in. A text that is to be written to an integer
control is read in the same way. -/
theorem literals_read_exactly (text : String) :
    (∀ n : Nat, unsigned? text = some n ↔ Literal text n ∧ n < 2 ^ 32)
      ∧ (∀ v, signed? text = some v ↔ Literal text v ∧ -2 ^ 31 ≤ v ∧ v < 2 ^ 31)
      ∧ (∀ n v, unsigned? text = some n → signed? text = some v → v = n)
      ∧ (∀ n < 2 ^ 32, text ∈ spellings n → unsigned? text = some n)
      ∧ (∀ v, -2 ^ 31 ≤ v → v < 2 ^ 31 → text = toString v → signed? text = some v)
      ∧ ∀ (disk : Disk) (desk : Desk) (a : Assignment) (id : Nat) (c : LiveControl), a.binding = .unresolved →
          a.value = .pending text → (desk.mixer.lookup desk.card a.control).2 = .ok id →
          desk.card.control? id = some c → c.spec.type.isInteger = true → desk.BindsText disk a id c text := by
  refine ⟨fun n => unsigned?_eq_some_iff, fun v => signed?_eq_some_iff, ?_, ?_, ?_, ?_⟩
  · intro n v hn hv
    exact (signed?_eq_some_iff.mp hv).1.unique (unsigned?_eq_some_iff.mp hn).1
  · intro n hn htext
    exact unsigned?_eq_some_iff.mpr ⟨literal_of_spelling htext, hn⟩
  · rintro v hlow hhigh rfl
    exact signed?_eq_some_iff.mpr ⟨literal_toString v, hlow, hhigh⟩
  · intro disk desk a id c ha hvalue hfound hc htype
    exact Desk.bindsText disk ha hvalue hfound hc htype

/-- All thirty-two bits set, behind a no-break space, come to minus one. -/
theorem literals_read_exactly_ones :
    let card := Card.ofControls 0 none [.integer "Gain" 1 (-1) 5]
    let desk : Desk := ⟨card.openMixer.2, card.openMixer.1⟩
    let text := "\u00A0+0XfFFFffff"
    let a := Assignment.declared "Gain" .all (.pending text)
    Literal text 4294967295 ∧ (desk.mixer.lookup desk.card a.control).2 = .ok 0
      ∧ (desk.mixer.bind ⟨default, ⟨""⟩⟩ desk.card a).2
        = ({ a with value := .int (-1), binding := .bound 0 .integer }, .ok ()) := by
  intro card desk text a
  obtain ⟨hunsigned, -, -, -, -, hbinds⟩ := literals_read_exactly text
  have hliteral : Literal text 4294967295 := ((hunsigned 4294967295).mp (by decide +kernel)).1
  have hfound : (desk.mixer.lookup desk.card a.control).2 = .ok 0 := rfl
  have hbind := hbinds ⟨default, ⟨""⟩⟩ desk a 0 ⟨.integer "Gain" 1 (-1) 5, true, [-1], []⟩ rfl rfl hfound rfl
    rfl
  exact ⟨hliteral, hfound, hbind.unsigned _ hliteral (by decide) (by decide)⟩

end Numeral

end SoundRouting
