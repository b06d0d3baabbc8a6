import SoundRouting.Text.Blank
/-!
Integer numerals.

A literal, as attributes and control values use it, has an optional sign and is written in
decimal, in hexadecimal after `0x`, or in octal after a leading `0`; white space in front is
skipped and nothing may follow. A plain numeral, as scripts and directory names use it, is decimal
only and skips nothing. Both have as many digits as they like: only the value is bounded.
-/
namespace SoundRouting.Numeral

open SoundRouting.Text

/-- The value of a digit or letter, in the order `0` to `9`, `a` to `z`, in either case. -/
def digitValue? (c : Char) : Option Nat :=
  if '0' ≤ c ∧ c ≤ '9' then some (c.toNat - 48)
  else if 'a' ≤ c ∧ c ≤ 'z' then some (c.toNat - 87)
  else if 'A' ≤ c ∧ c ≤ 'Z' then some (c.toNat - 55)
  else none

def digit? (radix : Nat) (c : Char) : Option Nat :=
  (digitValue? c).filter (· < radix)

/-- The number that digits spell after the digits of `value`. -/
def digitsFrom? (radix : Nat) : Nat → List Char → Option Nat
  | value, [] => some value
  | value, c :: rest =>
    match digit? radix c with
    | some d => digitsFrom? radix (radix * value + d) rest
    | none => none

def digits? (radix : Nat) (s : List Char) : Option Nat :=
  if s.isEmpty then none else digitsFrom? radix 0 s

/-- A sign, if there is one, and what follows it; `true` for minus. -/
def sign : List Char → Bool × List Char
  | '-' :: rest => (true, rest)
  | '+' :: rest => (false, rest)
  | s => (false, s)

/-- A magnitude in one of the three notations. -/
def magnitude? : List Char → Option Nat
  | '0' :: 'x' :: rest => digits? 16 rest
  | '0' :: 'X' :: rest => digits? 16 rest
  | '0' :: c :: rest => digits? 8 (c :: rest)
  | s => digits? 10 s

def signed (negative : Bool) (magnitude : Nat) : Int :=
  if negative then -(magnitude : Int) else magnitude

/-- The value of a literal, without bounds. -/
def literal? (s : List Char) : Option Int :=
  let (negative, body) := sign (trimStart s)
  (magnitude? body).map (signed negative)

/-- A literal from 0 to 2³² - 1. -/
def unsigned? (s : String) : Option Nat :=
  match literal? s.toList with
  | some v => if 0 ≤ v ∧ v < 0x100000000 then some v.toNat else none
  | none => none

theorem lt_of_unsigned? {s : String} {n : Nat} (h : unsigned? s = some n) : n < UInt32.size := by
  have hword : UInt32.size = 0x100000000 := rfl
  simp only [unsigned?] at h
  split at h
  · split at h
    · obtain rfl := Option.some.inj h
      omega
    · cases h
  · cases h

/-- A literal from -2³¹ to 2³¹ - 1. -/
def signed? (s : String) : Option Int :=
  match literal? s.toList with
  | some v => if -0x80000000 ≤ v ∧ v < 0x80000000 then some v else none
  | none => none

/-- The thirty-two low bits of an integer, read as a number from -2³¹ to 2³¹ - 1. -/
def wrapSigned (v : Int) : Int :=
  v.bmod 0x100000000

theorem wrapSigned_range (v : Int) : -0x80000000 ≤ wrapSigned v ∧ wrapSigned v < 0x80000000 := by
  simp only [wrapSigned]
  rw [Int.bmod_def]
  omega

/-- What is in the range stays as it is. -/
theorem wrapSigned_of_range {v : Int} (h : -0x80000000 ≤ v ∧ v < 0x80000000) : wrapSigned v = v := by
  simp only [wrapSigned]
  rw [Int.bmod_def]
  omega

/-- A plain numeral below a bound; a plus sign may stand in front. -/
def plainUnsigned? (bound : Nat) (s : List Char) : Option Nat :=
  let body := match s with
    | '+' :: rest => rest
    | s => s
  (digits? 10 body).filter (· < bound)

/-- A plain numeral from -2³¹ to 2³¹ - 1; a sign may stand in front. -/
def plainSigned? (s : List Char) : Option Int :=
  let (negative, body) := sign s
  ((digits? 10 body).map (signed negative)).filter fun v => -0x80000000 ≤ v ∧ v < 0x80000000

end SoundRouting.Numeral
