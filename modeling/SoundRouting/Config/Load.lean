import SoundRouting.Config.Handlers
import SoundRouting.LoadOptions
import SoundRouting.Xml.Document
/-!
Loading a configuration.

The elements of a file act in document order, each when it begins and when it ends. A codec probe
may hand over to another file, which is then read from its top with what has been loaded so far. A
fault in a file carries the line of the element that caused it.
-/
namespace SoundRouting.Config

open LoadM

/-- Opens an element: it has to be allowed where it stands, with the attributes it has. -/
def openElement (disk : Disk) (tag : String) (attributes : List (String × String)) :
    LoadM Unit := do
  let s ← get
  let parent := s.frames.head?.getD ⟨none, []⟩
  let element ← need (.elementNotAllowed tag)
    ((Grammar.elementOfTag? parent.children tag).filter fun _ =>
      s.frames.length - 1 < Grammar.maxDepth)
  let values ← ofResult (AttributeValues.ofWritten element attributes)
  beginElement disk parent.element values element
  modify fun s =>
    { s with frames := ⟨some element, element.children⟩ :: narrowed element s.frames }
where
  /-- The open frames, once an element has begun in the innermost one. -/
  narrowed (element : ElementKind) (frames : List Frame) : List Frame :=
    match element, frames with
    | .init, inner :: outer =>
      { inner with
        children := inner.children.filter fun e => !Grammar.initExcludes.contains e } :: outer
    | _, frames => frames

def closeElement (disk : Disk) : LoadM (Option Location) := do
  match (← get).frames with
  | [] => return none
  | frame :: outer =>
    modify fun s => { s with frames := widened frame.element outer }
    match frame.element with
    | some element => endElement disk element
    | none => return none
where
  /-- The frames left, once an element has ended in the innermost one. -/
  widened (element : Option ElementKind) (frames : List Frame) : List Frame :=
    match element, frames with
    | some .mixer, inner :: outer => { inner with children := Grammar.afterMixer } :: outer
    | _, frames => frames

mutual

/-- Takes an element and what stands in it. The next file ends the walk. -/
def walkElement (disk : Disk) : Xml.Element → LoadM (Option Location)
  | .mk tag line attributes children => do
    atLine line (openElement disk tag attributes)
    match ← walkElements disk children with
    | some next => return some next
    | none => atLine line (closeElement disk)

def walkElements (disk : Disk) : List Xml.Element → LoadM (Option Location)
  | [] => pure none
  | e :: more => do
    match ← walkElement disk e with
    | some next => return some next
    | none => walkElements disk more

end

def readTree (disk : Disk) (file : Location) : Except Error (List Xml.Element) :=
  match disk.readText file with
  | .error fault => .error (.unreadable file fault)
  | .ok text => match Xml.elements? text with
    | some elements => .ok elements
    | none => .error (.malformed file)

/-- Loads one file; says which file comes next, if one does. -/
def loadFile (disk : Disk) (file : Location) : LoadM (Option Location) := do
  let elements ← ofResult (readTree disk file)
  modify fun s => s.enter file
  walkElements disk elements

/-- Loads a file and those it hands over to, at most `bound` of them. -/
def loadChain (disk : Disk) : Nat → Location → LoadM Unit
  | 0, file => fault (.loadedTwice file)
  | bound + 1, file => do
    match ← loadFile disk file with
    | none => pure ()
    | some next => loadChain disk bound next

/-- There are fewer locations than this that a disk can find anything at, so a chain of files with
different locations is shorter. -/
def chainBound : Nat :=
  Nat.pow 256 (Disk.maxLocation + 1)

/-- A configuration that has been loaded, and the mixer of its card. -/
structure Loaded where
  model : Model
  mixer : Mixer
  card : Nat
  deriving DecidableEq, Inhabited

/-- Applies the initial writes, once all files have been read. -/
def finish (disk : Disk) : LoadM Loaded := do
  let s ← get
  let desk ← need .mixerMissing s.desk?
  let (desk, _) := desk.apply disk s.init.toList
  set (s.withDesk desk)
  return ⟨s.model.compress, desk.mixer, s.card⟩

/-- Loads a configuration; the cards are left as the writes of loading have changed them, also if
it fails. -/
def load (disk : Disk) (rack : Rack) (file : Location) : Except Error Loaded × Rack :=
  let action : LoadM Loaded := do
    loadChain disk chainBound (Location.absolute disk.folder file)
    finish disk
  let (result, s) := action.run.run (.start rack)
  (result, s.rack)

def loadProduct (disk : Disk) (rack : Rack) (options : LoadOptions) (product : String) :
    Except Error Loaded × Rack :=
  load disk rack (options.productFile product)

end SoundRouting.Config
