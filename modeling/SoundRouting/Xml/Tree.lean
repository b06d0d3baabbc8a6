import SoundRouting.Xml.Name
/-!
The element tree of a document, and how it grows while the document is read.

Reading a document yields tags one after the other. The open elements form a stack; an end tag
closes the innermost one and has to repeat its name. The prefix of every element and attribute name
has to be declared on the element or around it.
-/
namespace SoundRouting.Xml

/-- An element: its name without prefix, the line its start tag begins on, its attributes in the
order in which they are written, without the declarations of namespaces, and its children. -/
inductive Element where
  | mk (tag : String) (line : Nat) (attributes : List (String × String)) (children : List Element)
  deriving Inhabited

namespace Element

def tag : Element → String
  | .mk tag _ _ _ => tag

def line : Element → Nat
  | .mk _ line _ _ => line

def attributes : Element → List (String × String)
  | .mk _ _ attributes _ => attributes

def children : Element → List Element
  | .mk _ _ _ children => children

end Element

def xmlSpace : String := "http://www.w3.org/XML/1998/namespace"

def declarationSpace : String := "http://www.w3.org/2000/xmlns/"

/-- Prefixes and the namespaces they stand for; the first entry of a prefix counts, and the empty
prefix is that of the default namespace. -/
abbrev Scope := List (String × String)

structure StartTag where
  name : QName
  line : Nat
  deriving Inhabited

/-- An element whose end tag has not been read yet; its children so far, the last one first. -/
structure OpenElement where
  start : StartTag
  scope : Scope
  attributes : List (String × String)
  children : List Element

/-- A document that is being read. `start` is the tag read last; `declared` and `attributes` belong
to the tag that is being read, the latter in reverse order. `expansions` counts the references that
were followed within an entity. -/
structure Builder where
  start : Option StartTag
  declared : Scope
  attributes : List (QName × String)
  opened : List OpenElement
  closed : List Element
  expansions : Nat

namespace Builder

def blank : Builder :=
  ⟨none, [], [], [], [], 0⟩

def begin? (b : Builder) (start : StartTag) : Option Builder :=
  if start.name.space == "xmlns" then none else some { b with start := some start }

/-- Declares a prefix for the tag that is being read. The reserved prefix and the reserved
namespaces belong to each other, and a prefix is declared once. -/
def declare? (b : Builder) (space uri : String) : Option Builder :=
  if uri == declarationSpace then none
  else if (space == "xml") != (uri == xmlSpace) then none
  else if b.declared.any fun e => e.1 == space then none
  else if uri == xmlSpace then some b
  else some { b with declared := b.declared ++ [(space, uri)] }

def declareDefault? (b : Builder) (uri : String) : Option Builder :=
  if uri == declarationSpace || uri == xmlSpace then none
  else some { b with declared := b.declared ++ [("", uri)] }

/-- Adds an attribute to the tag that is being read; some attributes declare namespaces. -/
def attribute? (b : Builder) (name : QName) (value : String) : Option Builder :=
  if name.space == "xmlns" then b.declare? name.name value
  else if name.name == "xmlns" then b.declareDefault? value
  else some { b with attributes := (name, value) :: b.attributes }

def scope (b : Builder) : Scope :=
  b.declared ++ ((b.opened.head?.map (·.scope)).getD [])

/-- The namespace of an attribute name. A name without prefix has none. -/
def attributeSpace? (scope : Scope) (name : QName) : Option (Option String) :=
  if name.space == "xml" then some (some xmlSpace)
  else if name.space.isEmpty then some none
  else (scope.find? fun e => e.1 == name.space).map fun e => some e.2

/-- Resolves the names of attributes, no two of which may be the same after that. -/
def resolve? (scope : Scope) (seen : List (Option String × String)) :
    List (QName × String) → Option (List (String × String))
  | [] => some []
  | (name, value) :: more => do
    let space ← attributeSpace? scope name
    if seen.contains (space, name.name) then none
    let others ← resolve? scope ((space, name.name) :: seen) more
    return (name.name, value) :: others

def resolved? (b : Builder) : Option (List (String × String)) :=
  resolve? b.scope [] b.attributes.reverse

def cleared (b : Builder) : Builder :=
  { b with declared := [], attributes := [] }

def append (b : Builder) (e : Element) : Builder :=
  match b.opened with
  | [] => { b with closed := e :: b.closed }
  | inner :: outer => { b with opened := { inner with children := e :: inner.children } :: outer }

/-- The start tag that has been read, if the prefix of its name is declared. -/
def knownStart? (b : Builder) : Option StartTag :=
  b.start.filter fun start =>
    start.name.space.isEmpty || b.scope.any fun e => e.1 == start.name.space

def open? (b : Builder) : Option Builder := do
  let attributes ← b.resolved?
  let start ← b.knownStart?
  return { b.cleared with opened := ⟨start, b.scope, attributes, []⟩ :: b.opened }

def empty? (b : Builder) : Option Builder := do
  let attributes ← b.resolved?
  let start ← b.knownStart?
  return b.cleared.append (.mk start.name.name start.line attributes [])

/-- Closes the innermost open element. An end tag that no start tag was read before, in the same
text, is refused. -/
def close? (b : Builder) (name : QName) : Option Builder := do
  let _ ← b.start
  let _ ← b.resolved?
  match b.opened with
  | [] => none
  | inner :: outer =>
    if inner.start.name == name then
      return { b.cleared with opened := outer }.append
        (.mk inner.start.name.name inner.start.line inner.attributes inner.children.reverse)
    else none

/-- The elements of a document that has been read to its end: every element is closed, and there is
one. -/
def elements? (b : Builder) : Option (List Element) :=
  if b.opened.isEmpty && !b.closed.isEmpty then some b.closed.reverse else none

end Builder

end SoundRouting.Xml
