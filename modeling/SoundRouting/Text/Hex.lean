/-!
Numbers and bytes in hexadecimal, lower case.
-/
namespace SoundRouting.Text

def hexDigit (n : Nat) : Char :=
  if n < 10 then Char.ofNat (48 + n) else Char.ofNat (87 + n)

def hexValue? (c : Char) : Option Nat :=
  if '0' ≤ c ∧ c ≤ '9' then some (c.toNat - 48)
  else if 'a' ≤ c ∧ c ≤ 'f' then some (c.toNat - 87)
  else if 'A' ≤ c ∧ c ≤ 'F' then some (c.toNat - 55)
  else none

def hexDigits (n : Nat) : List Char :=
  Nat.toDigits 16 n

/-- A number as `0x` and its digits, as few as it has. -/
def hexNumber (n : Nat) : String :=
  "0x" ++ String.ofList (hexDigits n)

/-- A number as `0x` and at least eight digits. -/
def hexWord (n : Nat) : String :=
  "0x" ++ String.ofList ((hexDigits n).leftpad 8 '0')

def hexByte (b : UInt8) : List Char :=
  [hexDigit (b.toNat / 16), hexDigit (b.toNat % 16)]

def hexBlock (bytes : List UInt8) : String :=
  String.ofList (bytes.flatMap hexByte)

def bytesOfHex? : List Char → Option (List UInt8)
  | [] => some []
  | [_] => none
  | high :: low :: rest => do
    let h ← hexValue? high
    let l ← hexValue? low
    let more ← bytesOfHex? rest
    return UInt8.ofNat (16 * h + l) :: more

theorem hexValue?_hexDigit : ∀ n < 16, hexValue? (hexDigit n) = some n := by decide

/-- Reading the digits of a block gives the block. -/
theorem bytesOfHex?_flatMap_hexByte (bytes : List UInt8) :
    bytesOfHex? (bytes.flatMap hexByte) = some bytes := by
  induction bytes with
  | nil => rfl
  | cons b rest ih =>
    have hb : b.toNat < 256 := b.toNat_lt
    have hh := hexValue?_hexDigit (b.toNat / 16) (by omega)
    have hl := hexValue?_hexDigit (b.toNat % 16) (by omega)
    have hs : UInt8.ofNat (16 * (b.toNat / 16) + b.toNat % 16) = b := by
      rw [Nat.div_add_mod, UInt8.ofNat_toNat]
    simp only [List.flatMap_cons, hexByte, List.cons_append, List.nil_append, bytesOfHex?, hh, hl,
      ih, Option.bind_eq_bind, Option.bind_some, hs]
    rfl

end SoundRouting.Text
