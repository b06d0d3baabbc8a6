import SoundRouting.Text.Scan
/-!
The characters and names of XML.

A qualified name is a local name, perhaps with the prefix of a namespace and a colon in front.
-/
namespace SoundRouting.Xml

def isSpace (c : Char) : Bool :=
  c == ' ' || c == '\t' || c == '\n' || c == '\r'

def isChar (c : Char) : Bool :=
  if c.toNat < 0x20 then c == '\t' || c == '\n' || c == '\r'
  else c.toNat != 0xFFFE && c.toNat != 0xFFFF

def inRanges (ranges : List (Nat × Nat)) (n : Nat) : Bool :=
  ranges.any fun r => r.1 ≤ n && n ≤ r.2

def nameStartRanges : List (Nat × Nat) := [
  (0x3A, 0x3A), (0x41, 0x5A), (0x5F, 0x5F), (0x61, 0x7A), (0xC0, 0xD6), (0xD8, 0xF6),
  (0xF8, 0x2FF), (0x370, 0x37D), (0x37F, 0x1FFF), (0x200C, 0x200D), (0x2070, 0x218F),
  (0x2C00, 0x2FEF), (0x3001, 0xD7FF), (0xF900, 0xFDCF), (0xFDF0, 0xFFFD), (0x10000, 0xEFFFF)]

def nameRestRanges : List (Nat × Nat) := [
  (0x2D, 0x2E), (0x30, 0x39), (0xB7, 0xB7), (0x300, 0x36F), (0x203F, 0x2040)]

def isNameStart (c : Char) : Bool :=
  inRanges nameStartRanges c.toNat

def isNameChar (c : Char) : Bool :=
  inRanges nameStartRanges c.toNat || inRanges nameRestRanges c.toNat

def skipSpace (s : List Char) : List Char :=
  s.dropWhile isSpace

def someSpace? : List Char → Option (List Char)
  | c :: rest => if isSpace c then some (skipSpace rest) else none
  | [] => none

/-- Reads a name; a colon is a letter here. -/
def name? : List Char → Option (List Char × List Char)
  | c :: rest =>
    if isNameStart c then some (c :: rest.takeWhile isNameChar, rest.dropWhile isNameChar)
    else none
  | [] => none

/-- A name with the prefix in front of its colon; the prefix is empty if there is none. -/
structure QName where
  space : String
  name : String
  deriving DecidableEq, Repr, Inhabited

def startsName (s : List Char) : Bool :=
  match s with
  | c :: _ => isNameStart c
  | [] => false

/-- Reads a qualified name, which has at most one colon. -/
def qname? (s : List Char) : Option (QName × List Char) :=
  let word := s.takeWhile isNameChar
  let rest := s.dropWhile isNameChar
  let (front, back) := (word.takeWhile (· != ':'), word.dropWhile (· != ':'))
  match back with
  | [] => if startsName front then some (⟨"", String.ofList front⟩, rest) else none
  | _ :: part =>
    if (front.isEmpty || startsName front) && startsName part && !part.contains ':' then
      some (⟨String.ofList front, String.ofList part⟩, rest)
    else none

def upTo? (quote : Char) (s : List Char) : Option (List Char × List Char) :=
  match s.dropWhile (· != quote) with
  | _ :: rest => some (s.takeWhile (· != quote), rest)
  | [] => none

def quoted? : List Char → Option (List Char × List Char)
  | '"' :: rest => upTo? '"' rest
  | '\'' :: rest => upTo? '\'' rest
  | _ => none

/-- Reads the value of an attribute as it is written: quoted, without `<`. -/
def rawValue? (s : List Char) : Option (List Char × List Char) :=
  match quoted? s with
  | some (value, rest) =>
    if value.all fun c => isChar c && c != '<' then some (value, rest) else none
  | none => none

def rawAttribute? (s : List Char) : Option (QName × List Char × List Char) := do
  let (name, rest) ← qname? s
  let rest ← Text.after? "=" (skipSpace rest)
  let (value, rest) ← rawValue? (skipSpace rest)
  return (name, value, rest)

end SoundRouting.Xml
