import SoundRouting.Text.Hex
import SoundRouting.Text.Scan
/-!
Numbers of TOML.

An integer is read with its value. Of a floating-point number only the end is found, for no
description uses one; it must not be greater than every number of the double format, whose numbers
it would be rounded to.
-/
namespace SoundRouting.Toml

open SoundRouting.Text

/-- The digits of a numeral, between each two of which one underscore may stand. -/
def digitRun? (isDigit : Char → Bool) : List Char → Option (List Char × List Char)
  | [] => none
  | c :: rest =>
    if !isDigit c then none
    else match rest with
    | '_' :: more => (digitRun? isDigit more).map fun (digits, rest) => (c :: digits, rest)
    | d :: more =>
      if isDigit d then
        (digitRun? isDigit (d :: more)).map fun (digits, rest) => (c :: digits, rest)
      else some ([c], d :: more)
    | [] => some ([c], [])

def numberOf (radix : Nat) (digits : List Char) : Nat :=
  digits.foldl (fun n c => radix * n + (hexValue? c).getD 0) 0

def isDigitOf (radix : Nat) (c : Char) : Bool :=
  (hexValue? c).any (· < radix)

/-- Reads a decimal numeral, which has no zero in front of other digits. -/
def decimal? (s : List Char) : Option (Nat × List Char) :=
  match s with
  | '0' :: rest => some (0, rest)
  | _ => (digitRun? (isDigitOf 10) s).map fun (digits, rest) => (numberOf 10 digits, rest)

def inRadix? (radix : Nat) (s : List Char) : Option (Int × List Char) :=
  (digitRun? (isDigitOf radix) s).map fun (digits, rest) => ((numberOf radix digits : Int), rest)

/-- Reads an integer of 64 bits. -/
def integer? (s : List Char) : Option (Int × List Char) := do
  let (value, rest) ← match s with
    | '0' :: 'x' :: rest => inRadix? 16 rest
    | '0' :: 'o' :: rest => inRadix? 8 rest
    | '0' :: 'b' :: rest => inRadix? 2 rest
    | '-' :: rest => (decimal? rest).map fun (n, rest) => (-(n : Int), rest)
    | '+' :: rest => (decimal? rest).map fun (n, rest) => ((n : Int), rest)
    | _ => (decimal? s).map fun (n, rest) => ((n : Int), rest)
  if -0x8000000000000000 ≤ value ∧ value < 0x8000000000000000 then return (value, rest) else none

/-- The least number that is rounded to infinity: halfway from the greatest double, which is
`(2 ^ 53 - 1) * 2 ^ 971`, to the next power of two. -/
def doubleLimit : Nat := (Nat.pow 2 54 - 1) * Nat.pow 2 970

/-- Whether `digits * 10 ^ exponent` is rounded to infinity. The number of digits decides, unless
the first of them stands for `10 ^ 308`. -/
def isBeyondDoubles (digits : Nat) (exponent : Int) : Bool :=
  let size := (Nat.toDigits 10 digits).length + exponent
  digits != 0 && (309 < size
    || (size == 309 && doubleLimit * Nat.pow 10 (-exponent).toNat ≤ digits * Nat.pow 10 exponent.toNat))

def fraction? (s : List Char) : Option (List Char × List Char) :=
  after? "." s >>= digitRun? (isDigitOf 10)

def exponentDigits? (s : List Char) : Option (Nat × List Char) :=
  (digitRun? (isDigitOf 10) s).map fun (digits, rest) => (numberOf 10 digits, rest)

def exponent? : List Char → Option (Int × List Char)
  | 'e' :: rest | 'E' :: rest =>
    match rest with
    | '-' :: rest => (exponentDigits? rest).map fun (n, rest) => (-(n : Int), rest)
    | '+' :: rest => (exponentDigits? rest).map fun (n, rest) => ((n : Int), rest)
    | _ => (exponentDigits? rest).map fun (n, rest) => ((n : Int), rest)
  | _ => none

/-- Reads a decimal numeral with a fraction, an exponent or both: the number that all its digits
spell, and the power of ten that the last of them stands for. -/
def scientific? (s : List Char) : Option ((Nat × Int) × List Char) := do
  let (whole, rest) ← decimal? s
  match fraction? rest with
  | some (digits, rest) =>
    let (exponent, rest) := (exponent? rest).getD (0, rest)
    let all := whole * Nat.pow 10 digits.length + numberOf 10 digits
    return ((all, exponent - digits.length), rest)
  | none =>
    let (exponent, rest) ← exponent? rest
    return ((whole, exponent), rest)

def afterSpecial? (s : List Char) : Option (List Char) :=
  after? "inf" s <|> after? "nan" s

/-- What follows a floating-point number. A negative one may be less than every double. -/
def afterFloat? (s : List Char) : Option (List Char) :=
  match s with
  | '-' :: rest => afterSpecial? rest <|> (scientific? rest).map Prod.snd
  | _ => do
    let unsigned := (after? "+" s).getD s
    afterSpecial? unsigned <|> do
      let ((digits, exponent), rest) ← scientific? unsigned
      if isBeyondDoubles digits exponent then none else some rest

end SoundRouting.Toml
