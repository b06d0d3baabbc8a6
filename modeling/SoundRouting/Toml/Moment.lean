import SoundRouting.Toml.Number
/-!
Dates and times of TOML.

A date is one of the Gregorian calendar, counted back to the year 0; a time may have a leap second.
No description uses either, so that only the end is found.
-/
namespace SoundRouting.Toml

open SoundRouting.Text

def digitsIn? (count low high : Nat) (s : List Char) : Option (Nat × List Char) :=
  let digits := s.take count
  let n := numberOf 10 digits
  if digits.length = count ∧ digits.all (isDigitOf 10) ∧ low ≤ n ∧ n ≤ high then
    some (n, s.drop count)
  else none

def isLeapYear (year : Nat) : Bool :=
  year % 4 == 0 && (year % 100 != 0 || year % 400 == 0)

def daysIn (year month : Nat) : Nat :=
  if month = 2 then if isLeapYear year then 29 else 28
  else if month = 4 ∨ month = 6 ∨ month = 9 ∨ month = 11 then 30
  else 31

def afterDate? (s : List Char) : Option (List Char) := do
  let (year, rest) ← digitsIn? 4 0 9999 s
  let rest ← after? "-" rest
  let (month, rest) ← digitsIn? 2 1 12 rest
  let rest ← after? "-" rest
  let (_, rest) ← digitsIn? 2 1 (daysIn year month) rest
  return rest

/-- What follows a point and digits, any number of them. -/
def afterSecondFraction? : List Char → Option (List Char)
  | '.' :: c :: rest => if isDigitOf 10 c then some (rest.dropWhile (isDigitOf 10)) else none
  | _ => none

def afterMinutes? (s : List Char) : Option (List Char) := do
  let (_, rest) ← digitsIn? 2 0 23 s
  let rest ← after? ":" rest
  let (_, rest) ← digitsIn? 2 0 59 rest
  return rest

def afterTime? (s : List Char) : Option (List Char) := do
  let rest ← afterMinutes? s
  let rest ← after? ":" rest
  let (_, rest) ← digitsIn? 2 0 60 rest
  return (afterSecondFraction? rest).getD rest

def afterOffset? : List Char → Option (List Char)
  | 'Z' :: rest | 'z' :: rest => some rest
  | '+' :: rest | '-' :: rest => afterMinutes? rest
  | _ => none

def afterTimeOfDate? : List Char → Option (List Char)
  | 'T' :: rest | 't' :: rest | ' ' :: rest =>
    (afterTime? rest).map fun rest => (afterOffset? rest).getD rest
  | _ => none

/-- What follows a date, a date with a time of day, or a time of day. -/
def afterMoment? (s : List Char) : Option (List Char) :=
  match afterDate? s with
  | some rest => some ((afterTimeOfDate? rest).getD rest)
  | none => afterTime? s

end SoundRouting.Toml
