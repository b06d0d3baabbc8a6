import SoundRouting.Text.Blank
/-!
Locations of files, as text.

A location is what a configuration or a command names a file by. Joining two locations is joining
their texts: `.` and `..` stay where they are written. Two locations are the same name when they
have the same parts; that leaves out repeated slashes and a `.` inside, and keeps `..` as it is.
-/
namespace SoundRouting

/-- The name of a file or folder: its steps with slashes between them. -/
structure Location where
  text : String
  deriving DecidableEq, Repr, Inhabited

namespace Location

open SoundRouting.Text

def chars (p : Location) : List Char :=
  p.text.toList

def isAbsolute (p : Location) : Bool :=
  p.chars.head? == some '/'

/-- A relative location that says `.` in front. -/
def startsHere (p : Location) : Bool :=
  match p.chars with
  | ['.'] => true
  | '.' :: '/' :: _ => true
  | _ => false

/-- What is found at `name` when seen from the folder `dir`. -/
def join (dir name : Location) : Location :=
  if name.isAbsolute || dir.chars.isEmpty then name
  else if dir.chars.getLast? = some '/' then ⟨dir.text ++ name.text⟩
  else ⟨dir.text ++ "/" ++ name.text⟩

/-- A step that leads nowhere: nothing, or a single dot. -/
def isIdle (step : List Char) : Bool :=
  step.isEmpty || step == ['.']

/-- The front of a location that is no step of its own: the root, a leading dot, or nothing. -/
def anchor (p : Location) : List Char :=
  if p.isAbsolute then ['/'] else if p.startsHere then ['.'] else []

/-- The steps after the anchor, idle ones included. -/
def steps (p : Location) : List (List Char) :=
  pieces (· == '/') (p.chars.drop p.anchor.length)

/-- The steps that lead somewhere. -/
def trail (p : Location) : List (List Char) :=
  p.steps.filter fun step => !isIdle step

/-- What tells locations apart: where they start and the steps they take. -/
def parts (p : Location) : List Char × List (List Char) :=
  (p.anchor, p.trail)

def sameAs (p q : Location) : Bool :=
  p.parts == q.parts

def dropIdleEnd (steps : List (List Char)) : List (List Char) :=
  (steps.reverse.dropWhile isIdle).reverse

def joinSteps : List (List Char) → List Char
  | [] => []
  | [s] => s
  | s :: more => s ++ '/' :: joinSteps more

/-- The folder that holds the location: all but the last step that leads somewhere. A leading dot
counts as a step here; the root and the empty location have no folder. -/
def parent? (p : Location) : Option Location :=
  match dropIdleEnd p.steps with
  | [] => if p.startsHere then some ⟨""⟩ else none
  | step :: more =>
    some ⟨String.ofList (p.anchor ++ joinSteps (dropIdleEnd (step :: more).dropLast))⟩

def trimmed (text : String) : Location :=
  ⟨String.ofList (trimStart text.toList)⟩

/-- A name that the file `owner` gives: it is looked for beside the file unless it is absolute.
White space in front of the name does not count. -/
def resolve (owner : Location) (name : String) : Location :=
  let target := trimmed name
  if target.isAbsolute then target
  else match owner.parent? with
    | some dir => dir.join target
    | none => target

/-- A location made absolute by the working folder, without white space in front. -/
def absolute (folder p : Location) : Location :=
  let target := trimmed p.text
  if target.isAbsolute then target else folder.join target

@[simp] theorem sameAs_refl (p : Location) : p.sameAs p = true := by
  simp [sameAs]

end Location

end SoundRouting
