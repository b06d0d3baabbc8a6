import SoundRouting.Text.Hex
import SoundRouting.Xml.Name
/-!
References in text and in attribute values, and the entities they refer to.

A reference stands for a character, by its number or as one of five names, or for the text of an
entity that the document declares. Entities may refer to entities; how deep and how often is
bounded, so that a reference to itself ends in an error.
-/
namespace SoundRouting.Xml

/-- A declared entity. `linesAfter` counts the line feeds of the document behind its text. -/
structure Entity where
  name : List Char
  text : List Char
  linesAfter : Nat

/-- A piece of text: a character as it is written, a character that is referred to, or an entity
that is referred to. -/
inductive Piece where
  | plain (c : Char)
  | char (c : Char)
  | entity (name : List Char)
  deriving DecidableEq, Repr

/-- The character with this number; a number that is no character stands for the replacement
character. -/
def charOfNumber (n : Nat) : Char :=
  if n.isValidChar then Char.ofNat n else '\uFFFD'

/-- The value of digits, if there are some and it is below 2³². -/
def charNumber? (radix : Nat) (digits : List Char) : Option Nat :=
  if digits.isEmpty then none
  else (some (digits.foldl (fun n c => radix * n + (Text.hexValue? c).getD 0) 0)).filter
    (· < 0x100000000)

def predefined? (name : List Char) : Option Char :=
  match String.ofList name with
  | "quot" => some '"'
  | "amp" => some '&'
  | "apos" => some '\''
  | "lt" => some '<'
  | "gt" => some '>'
  | _ => none

/-- Reads what stands between an ampersand and its semicolon. -/
def reference? (s : List Char) : Option (Piece × List Char) :=
  match s with
  | '#' :: 'x' :: rest => numbered 16 (fun c => (Text.hexValue? c).isSome) rest
  | '#' :: rest => numbered 10 Char.isDigit rest
  | _ => do
    let (name, rest) ← name? s
    let rest ← Text.after? ";" rest
    match predefined? name with
    | some c => some (.char c, rest)
    | none => some (.entity name, rest)
where
  numbered (radix : Nat) (isDigit : Char → Bool) (s : List Char) : Option (Piece × List Char) := do
    let n ← charNumber? radix (s.takeWhile isDigit)
    let rest ← Text.after? ";" (s.dropWhile isDigit)
    let c := charOfNumber n
    if isChar c then some (.char c, rest) else none

def piecesStep (s : List Char) (found : List Piece) : Option (List Char × List Piece × Bool) :=
  match s with
  | [] => some ([], found, false)
  | '&' :: rest => (reference? rest).map fun (piece, rest) => (rest, piece :: found, true)
  | c :: rest => some (rest, .plain c :: found, true)

def pieces? (s : List Char) : Option (List Piece) :=
  (Text.repeatStep piecesStep s []).map fun (_, found) => found.reverse

def maxDepth : Nat := 10

/-- How many references may be followed within one that stands in the document itself. -/
def maxExpansions : Nat := 255

/-- The count of followed references when one more is followed; `depth` is the number of entities
around it. -/
def countExpansion? (depth expansions : Nat) : Option Nat :=
  if depth = 0 then some expansions
  else if expansions < maxExpansions then some (expansions + 1)
  else none

def settledCount (depth expansions : Nat) : Nat :=
  if depth = 0 then 0 else expansions

/-- How white space in an attribute value is read: as a space, and a carriage return before a line
feed not at all. -/
def readBlank (c : Char) (next : Option Char) : List Char :=
  if c = '\r' ∧ next = some '\n' then []
  else if c = '\n' ∨ c = '\r' ∨ c = '\t' then [' ']
  else [c]

/-- The character that the next piece begins with, as far as a carriage return asks for it. -/
def nextPlain : List Piece → Option Char
  | .plain c :: _ => some c
  | _ => none

/-- The value that pieces stand for. `follow` gives the text of an entity; a character reference is
taken as it is in the document itself, and read like written text within an entity, where it must
not be `<`. -/
def valueOfPieces (follow : List Char → Nat → Option (List Char × Nat)) (depth : Nat) :
    List Piece → Nat → Option (List Char × Nat)
  | [], count => some ([], count)
  | .plain c :: more, count => do
    let (rest, count) ← valueOfPieces follow depth more count
    return (readBlank c (nextPlain more) ++ rest, count)
  | .char c :: more, count => do
    if depth ≠ 0 ∧ c = '<' then none
    let (rest, count) ← valueOfPieces follow depth more count
    return ((if depth = 0 then [c] else readBlank c none) ++ rest, count)
  | .entity name :: more, count => do
    let count ← countExpansion? depth count
    let (text, count) ← follow name count
    let (rest, count) ← valueOfPieces follow depth more (settledCount depth count)
    return (text ++ rest, count)

/-- The value of an attribute whose text stands within `maxDepth - room` entities. -/
def attributeValue? (entities : List Entity) : Nat → List Char → Nat → Option (List Char × Nat)
  | room, text, count => do
    let pieces ← pieces? text
    match room with
    | 0 => valueOfPieces (fun _ _ => none) maxDepth pieces count
    | room + 1 =>
      valueOfPieces
        (fun name count => do
          let e ← entities.find? (·.name == name)
          attributeValue? entities room e.text count)
        (maxDepth - (room + 1)) pieces count

end SoundRouting.Xml
