import SoundRouting.Toml.Text
import SoundRouting.Toml.Moment
import SoundRouting.Toml.Datum
/-!
Reading TOML documents.

How deep arrays and tables in braces may be nested is bounded.
-/
namespace SoundRouting.Toml

open SoundRouting.Text

/-- Reads a comment, if there is one, up to the end of its line. -/
def comment? (s : List Char) : Option (List Char) :=
  match s with
  | '#' :: rest =>
    let stays := fun c => isPrintable c
    let after := rest.dropWhile stays
    if after.isEmpty || (newline? after).isSome then some after else none
  | _ => some s

/-- Reads the rest of a line: blanks, perhaps a comment, and its end or that of the document. -/
def lineEnd? (s : List Char) : Option (List Char) := do
  let rest ← comment? (skipBlank s)
  if rest.isEmpty then some [] else newline? rest

def fillerStep (s : List Char) (_ : Unit) : Option (List Char × Unit × Bool) :=
  let rest := skipLines s
  match rest with
  | '#' :: _ => (comment? rest).map fun rest => (rest, (), true)
  | _ => some (rest, (), false)

/-- Skips what may stand between the items of an array. -/
def skipFiller? (s : List Char) : Option (List Char) :=
  (repeatStep fillerStep s ()).map Prod.fst

/-- Reads one item of an array and what separates it from the next, or the end of the array. -/
def itemStep (item : List Char → Option (Datum × List Char)) (s : List Char)
    (found : List Datum) : Option (List Char × List Datum × Bool) := do
  let s ← skipFiller? s
  match s with
  | ']' :: rest => return (rest, found, false)
  | _ =>
    let (value, rest) ← item s
    let rest ← skipFiller? rest
    match rest with
    | ',' :: rest => return (rest, value :: found, true)
    | ']' :: rest => return (rest, value :: found, false)
    | _ => none

def pair? (item : List Char → Option (Datum × List Char)) (s : List Char) :
    Option (List String × Datum × List Char) := do
  let (key, rest) ← key? s
  let rest ← after? "=" rest
  let (value, rest) ← item (skipBlank rest)
  return (key, value, skipBlank rest)

def pairStep (item : List Char → Option (Datum × List Char)) (s : List Char)
    (found : Entries) : Option (List Char × Entries × Bool) := do
  let (key, value, rest) ← pair? item s
  let found ← Entries.addAt? value key found
  match rest with
  | ',' :: rest => return (rest, found, true)
  | '\x7d' :: rest => return (rest, found, false)
  | _ => none

/-- Reads a number, a date or a time. A date begins like a number, and a floating-point number like
an integer. -/
def numeric? (s : List Char) : Option (Datum × List Char) :=
  match afterMoment? s, afterFloat? s with
  | some rest, _ => some (.moment, rest)
  | none, some rest => some (.float, rest)
  | none, none => (integer? s).map fun (value, rest) => (.integer value, rest)

/-- Reads a value in which arrays and tables in braces are nested at most `room` deep. -/
def valueAt? : Nat → List Char → Option (Datum × List Char)
  | room, s =>
    match s, room with
    | '[' :: rest, room + 1 =>
      (repeatStep (itemStep (valueAt? room)) rest []).map fun (rest, found) =>
        (.array found.reverse, rest)
    | '\x7b' :: rest, room + 1 =>
      match skipBlank rest with
      | '\x7d' :: rest => some (.table .braces [], rest)
      | rest => (repeatStep (pairStep (valueAt? room)) rest []).map fun (rest, found) =>
        (.table .braces found, rest)
    | '"' :: _, _ | '\'' :: _, _ => (string? s).map fun (text, rest) => (.string text, rest)
    | 't' :: _, _ => (after? "true" s).map fun rest => (.boolean true, rest)
    | 'f' :: _, _ => (after? "false" s).map fun rest => (.boolean false, rest)
    | _, _ => numeric? s

def value? (s : List Char) : Option (Datum × List Char) :=
  valueAt? maxNesting s

/-- The part of a document under one header: the header's key and whether its brackets are double,
and the pairs, the last one first. The part before the first header has none. -/
structure Part where
  header : Option (List String × Bool)
  pairs : List (List String × Datum)

def addPairs? : List (List String × Datum) → Entries → Option Entries
  | [], entries => some entries
  | (key, value) :: more, entries => Entries.addAt? value key entries >>= addPairs? more

def addPart? (root : Entries) (part : Part) : Option Entries :=
  let body := addPairs? part.pairs.reverse
  match part.header with
  | none => body root
  | some (key, isList) => Entries.openAt? isList body key root

def header? (isList : Bool) (s : List Char) : Option (Part × List Char) := do
  let (key, rest) ← key? s
  let rest ← after? (if isList then "]]" else "]") rest
  return (⟨some (key, isList), []⟩, rest)

/-- Reads one line, or one pair that spans several. -/
def lineStep (s : List Char) (state : Entries × Part) :
    Option (List Char × (Entries × Part) × Bool) := do
  let (root, part) := state
  let s := skipBlank s
  match s with
  | [] => return ([], (root, part), false)
  | '[' :: rest =>
    let root ← addPart? root part
    let (part, rest) ← match rest with
      | '[' :: rest => header? true rest
      | _ => header? false rest
    let rest ← lineEnd? rest
    return (rest, (root, part), true)
  | c :: _ =>
    if c == '#' || (newline? s).isSome then
      let rest ← lineEnd? s
      return (rest, (root, part), true)
    else
      let (key, value, rest) ← pair? value? s
      let rest ← lineEnd? rest
      return (rest, (root, { part with pairs := (key, value) :: part.pairs }), true)

def document? (text : String) : Option Entries := do
  let s := match text.toList with
    | '\uFEFF' :: rest => rest
    | s => s
  let (_, root, part) ← repeatStep lineStep s ([], ⟨none, []⟩)
  addPart? root part

end SoundRouting.Toml
