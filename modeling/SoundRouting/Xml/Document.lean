import SoundRouting.Xml.Reference
import SoundRouting.Xml.Tree
/-!
Reading a document: its prolog, its element, and what an entity adds to its content.

The result is the element tree, or nothing if the text is not a well-formed document with declared
namespaces. A document type declaration may declare entities; its other declarations are skipped,
and nothing outside the document is read.
-/
namespace SoundRouting.Xml

open SoundRouting.Text

/-- Where content stands: the entities that are declared, how many entities deep a reference may
still lead, and how the line of a place is found. `lines` counts the line feeds of the document,
`linesAfter` those behind the text that is being read. -/
structure Place where
  entities : List Entity
  room : Nat
  lines : Nat
  linesAfter : Nat

namespace Place

def depth (p : Place) : Nat :=
  maxDepth - p.room

def lineOf (p : Place) (s : List Char) : Nat :=
  p.lines + 1 - (s.count '\n' + p.linesAfter)

def within (p : Place) (room : Nat) (e : Entity) : Place :=
  { p with room := room, linesAfter := e.linesAfter }

end Place

/-- Reads a comment after its opening; two hyphens only stand at its end. -/
def comment? (s : List Char) : Option (List Char) := do
  let (text, rest) ← splitAt? "-->" s
  if text.all isChar && (splitAt? "--" text).isNone && text.getLast? != some '-' then rest
  else none

/-- Reads a processing instruction. It must not be spelled like the declaration of a document. -/
def instruction? (s : List Char) : Option (List Char) := do
  if startsWith "<?xml " s then none
  let rest ← after? "<?" s
  let (_, rest) ← name? rest
  let (text, rest) ← splitAt? "?>" (skipSpace rest)
  if text.all isChar then rest else none

def miscStep (s : List Char) (_ : Unit) : Option (List Char × Unit × Bool) :=
  let s := skipSpace s
  match after? "<!--" s with
  | some rest => (comment? rest).map fun rest => (rest, (), true)
  | none =>
    if startsWith "<?" s then (instruction? s).map fun rest => (rest, (), true)
    else some (s, (), false)

def misc? (s : List Char) : Option (List Char) :=
  (repeatStep miscStep s ()).map Prod.fst

/-- After a part of the document's declaration: white space, the end of the declaration, or the end
of the text. -/
def declarationGap? (s : List Char) : Option (List Char) :=
  match s with
  | [] => some []
  | c :: _ => if isSpace c then some (skipSpace s) else if startsWith "?>" s then some s else none

def declarationPart? (word : String) (s : List Char) : Option (List Char) :=
  if startsWith word s then (rawAttribute? s).map fun (_, _, rest) => rest else some s

/-- Reads the declaration of a document after its opening: a version, then perhaps an encoding and
whether the document stands alone. -/
def declaration? (s : List Char) : Option (List Char) := do
  let rest ← declarationGap? s
  if !startsWith "version" rest then none
  let rest ← declarationPart? "version" rest
  let rest ← declarationGap? rest
  let rest ← if startsWith "encoding" rest then
      declarationPart? "encoding" rest >>= declarationGap?
    else some rest
  let rest ← declarationPart? "standalone" rest
  after? "?>" (skipSpace rest)

/-- Reads the name of something outside the document; it is a part of what it belongs to, or it is
not there. -/
def externalId? (s : List Char) : Option (Bool × List Char) :=
  match after? "SYSTEM" s, after? "PUBLIC" s with
  | some rest, _ => do
    let rest ← someSpace? rest
    let (_, rest) ← quoted? rest
    return (true, rest)
  | none, some rest => do
    let rest ← someSpace? rest
    let (_, rest) ← quoted? rest
    let rest ← someSpace? rest
    let (_, rest) ← quoted? rest
    return (true, rest)
  | none, none => some (false, s)

def entityText? (general : Bool) (s : List Char) :
    Option (Option (List Char × List Char) × List Char) :=
  match s with
  | '"' :: _ | '\'' :: _ => (quoted? s).map fun (text, rest) => (some (text, rest), rest)
  | _ => do
    let (found, rest) ← externalId? s
    if !found then none
    match general, after? "NDATA" (skipSpace rest) with
    | true, some more => do
      let more ← someSpace? more
      let (_, more) ← name? more
      return (none, more)
    | _, _ => return (none, rest)

def entity? (s : List Char) (entities : List Entity) : Option (List Char × List Entity) := do
  let rest ← someSpace? s
  let parameter := after? "%" rest
  let rest ← match parameter with
    | some rest => someSpace? rest
    | none => some rest
  let (name, rest) ← name? rest
  let rest ← someSpace? rest
  let (text, rest) ← entityText? parameter.isNone rest
  let rest ← after? ">" (skipSpace rest)
  match text with
  | some (text, behind) => return (rest, entities ++ [⟨name, text, behind.count '\n'⟩])
  | none => return (rest, entities)

def subsetStep (s : List Char) (entities : List Entity) :
    Option (List Char × List Entity × Bool) :=
  let s := skipSpace s
  if let some rest := after? "<!ENTITY" s then
    (entity? rest entities).map fun (rest, entities) => (rest, entities, true)
  else if let some rest := after? "<!--" s then
    (comment? rest).map fun rest => (rest, entities, true)
  else if startsWith "<?" s then (instruction? s).map fun rest => (rest, entities, true)
  else if let some rest := after? "]" s then
    (after? ">" (skipSpace rest)).map fun rest => (rest, entities, false)
  else if startsWith "<!ELEMENT" s || startsWith "<!ATTLIST" s || startsWith "<!NOTATION" s then
    (upTo? '>' s).map fun (_, rest) => (rest, entities, true)
  else none

def documentType? (s : List Char) : Option (List Char × List Entity) := do
  let rest ← someSpace? s
  let (_, rest) ← name? rest
  let (_, rest) ← externalId? (skipSpace rest)
  match skipSpace rest with
  | '>' :: rest => some (rest, [])
  | '[' :: rest => repeatStep subsetStep rest []
  | _ => none

/-- Reads one attribute of a start tag, or its end. The flag of the state says that the tag has
content behind it. -/
def tagStep (place : Place) (s : List Char) (state : Builder × Bool) :
    Option (List Char × (Builder × Bool) × Bool) :=
  let b := state.1
  if s.isEmpty then some (s, (b, false), false)
  else match skipSpace s with
  | [] => none
  | '/' :: rest => do
    let rest ← after? ">" rest
    let b ← b.empty?
    return (rest, (b, false), false)
  | '>' :: rest => do
    let b ← b.open?
    return (rest, (b, true), false)
  | c :: rest => do
    if !s.head?.any isSpace then none
    let (name, raw, rest) ← rawAttribute? (c :: rest)
    let (value, expansions) ← attributeValue? place.entities place.room raw b.expansions
    let b ← b.attribute? name (String.ofList value)
    return (rest, ({ b with expansions := expansions }, false), true)

/-- Reads a start tag; says whether there is content behind it. -/
def startTag? (place : Place) (s : List Char) (b : Builder) :
    Option (List Char × (Builder × Bool)) := do
  let (name, rest) ← after? "<" s >>= qname?
  let b ← b.begin? ⟨name, place.lineOf s⟩
  repeatStep (tagStep place) rest (b, false)

def endTag? (s : List Char) (b : Builder) : Option (List Char × Builder) := do
  let (name, rest) ← qname? s
  let rest ← after? ">" (skipSpace rest)
  let b ← b.close? name
  return (rest, b)

/-- Takes the pieces of a text in order; what `follow` does with an entity is part of the
document. -/
def foldPieces (follow : List Char → Builder → Option Builder) (depth : Nat) :
    List Piece → Builder → Option Builder
  | [], b => some b
  | .entity name :: more, b => do
    let count ← countExpansion? depth b.expansions
    let inner ← follow name { b with start := none, expansions := count }
    foldPieces follow depth more
      { inner with start := b.start, expansions := settledCount depth inner.expansions }
  | _ :: more, b => foldPieces follow depth more b

def text? (follow : List Char → Builder → Option Builder) (depth : Nat) (s : List Char)
    (b : Builder) : Option (List Char × Builder) := do
  let text := s.takeWhile (· != '<')
  if !text.all isChar || (splitAt? "]]>" text).isSome then none
  let pieces ← pieces? text
  let b ← foldPieces follow depth pieces b
  return (s.dropWhile (· != '<'), b)

/-- Reads one part of the content of an element. The number in the state counts the elements that
were opened in this content; an end tag beyond them ends it. -/
def contentStep (follow : List Char → Builder → Option Builder) (place : Place) (s : List Char)
    (state : Builder × Nat) : Option (List Char × (Builder × Nat) × Bool) :=
  let (b, level) := state
  match s with
  | [] => some ([], (b, level), false)
  | '<' :: '!' :: _ =>
    if let some rest := after? "<!--" s then
      (comment? rest).map fun rest => (rest, (b, level), true)
    else if let some rest := after? "<![CDATA[" s then do
      let (text, rest) ← splitAt? "]]>" rest
      if text.all isChar then some (rest, (b, level), true) else none
    else none
  | '<' :: '?' :: _ => (instruction? s).map fun rest => (rest, (b, level), true)
  | '<' :: '/' :: rest => do
    let (rest, b) ← endTag? rest b
    return (rest, (b, level - 1), level != 0)
  | '<' :: _ => do
    let (rest, b, hasContent) ← startTag? place s b
    return (rest, (b, if hasContent then level + 1 else level), true)
  | _ => do
    let (rest, b) ← text? follow place.depth s b
    return (rest, (b, level), true)

/-- Reads content up to the end tag that closes it, or to the end of the text. -/
def content? (follow : List Char → Builder → Option Builder) (place : Place) (s : List Char)
    (b : Builder) : Option (List Char × Builder) :=
  (repeatStep (contentStep follow place) s (b, 0)).map fun (rest, b, _) => (rest, b)

/-- Reads the text of an entity as content; `room` bounds how many entities deep it may lead. -/
def follow? (place : Place) : Nat → List Char → Builder → Option Builder
  | 0, _, _ => none
  | room + 1, name, b => do
    let e ← place.entities.find? (·.name == name)
    let (_, b) ← content? (follow? place room) (place.within room e) e.text b
    return b

def element? (place : Place) (s : List Char) : Option (List Char × Builder) := do
  let (rest, b, hasContent) ← startTag? place s .blank
  if hasContent then content? (follow? place place.room) place rest b else return (rest, b)

def prologType? (s : List Char) : Option (List Char × List Entity) :=
  match after? "<!DOCTYPE" s with
  | some rest => do
    let (rest, entities) ← documentType? rest
    let rest ← misc? rest
    return (rest, entities)
  | none => some (s, [])

def dropMark : List Char → List Char
  | '\uFEFF' :: rest => rest
  | s => s

def elements? (text : String) : Option (List Element) := do
  let s := dropMark text.toList
  let rest ← match after? "<?xml " s with
    | some rest => declaration? (' ' :: rest)
    | none => some s
  let rest ← misc? rest
  let (rest, entities) ← prologType? (skipSpace rest)
  let (rest, b) ← element? ⟨entities, maxDepth, s.count '\n', 0⟩ (skipSpace rest)
  let rest ← misc? rest
  if rest.isEmpty then b.elements? else none

end SoundRouting.Xml
