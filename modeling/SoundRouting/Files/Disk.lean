import SoundRouting.Files.Location
/-!
A disk: a tree of folders and files, and a working folder.

Looking a location up walks the tree one step at a time, as an operating system does: `..` goes
back to the folder above, a name must stand in the folder reached so far, and nothing lies below a
file. So two different locations may lead to the same file.
-/
namespace SoundRouting

/-- A file with its bytes, or a folder with named entries. -/
inductive FileTree where
  | file (bytes : List UInt8)
  | folder (entries : List (String × FileTree))
  deriving Inhabited

inductive FileFault where
  | notFound
  | notAFolder
  | isAFolder
  | nameTooLong
  | invalidName
  | notText
  | denied
  deriving DecidableEq, Repr

namespace FileTree

def entry? (entries : List (String × FileTree)) (name : String) : Option FileTree :=
  (entries.find? fun e => e.1 == name).map Prod.snd

/-- Names of folder entries are at most this many bytes long. -/
def maxName : Nat := 255

/-- Follows steps from `here`, whose folders above are `above`, the nearest first. -/
def follow : List FileTree → FileTree → List String → Except FileFault FileTree
  | _, here, [] => .ok here
  | _, .file _, _ :: _ => .error .notAFolder
  | above, .folder entries, step :: more =>
    if step == "" || step == "." then follow above (.folder entries) more
    else if step == ".." then
      match above with
      | [] => follow [] (.folder entries) more
      | up :: rest => follow rest up more
    else if maxName < step.utf8ByteSize then .error .nameTooLong
    else match entry? entries step with
      | some tree => follow (.folder entries :: above) tree more
      | none => .error .notFound

/-- Changes the entry of this name, or adds it at the end. -/
def setEntry (name : String) (change : Option FileTree → FileTree) :
    List (String × FileTree) → List (String × FileTree)
  | [] => [(name, change none)]
  | e :: more =>
    if e.1 == name then (name, change (some e.2)) :: more else e :: setEntry name change more

/-- Puts `tree` at the steps, with the folders that are missing on the way. -/
def put (tree : FileTree) : List String → Option FileTree → FileTree
  | [], _ => tree
  | step :: more, some (.folder entries) => .folder (setEntry step (put tree more) entries)
  | step :: more, _ => .folder [(step, put tree more none)]

end FileTree

/-- A tree of files and the folder that relative locations start from. -/
structure Disk where
  root : FileTree
  folder : Location

namespace Disk

/-- Locations are at most this many bytes long. -/
def maxLocation : Nat := 4095

def writtenSteps (text : String) : List String :=
  (Text.pieces (· == '/') text.toList).map String.ofList

def find (d : Disk) (p : Location) : Except FileFault FileTree :=
  if p.chars.isEmpty then .error .notFound
  else if p.chars.any (· == '\x00') then .error .invalidName
  else if maxLocation < p.text.utf8ByteSize then .error .nameTooLong
  else FileTree.follow [] d.root (writtenSteps (d.folder.join p).text)

def holds (d : Disk) (p : Location) : Bool :=
  (d.find p).isOk

def read (d : Disk) (p : Location) : Except FileFault (List UInt8) :=
  match d.find p with
  | .ok (.file bytes) => .ok bytes
  | .ok (.folder _) => .error .isAFolder
  | .error fault => .error fault

def decode? (bytes : List UInt8) : Option String :=
  String.fromUTF8? ⟨bytes.toArray⟩

def readText (d : Disk) (p : Location) : Except FileFault String :=
  match d.read p with
  | .ok bytes => match decode? bytes with
    | some text => .ok text
    | none => .error .notText
  | .error fault => .error fault

def names? (d : Disk) (p : Location) : Option (List String) :=
  match d.find p with
  | .ok (.folder entries) => some (entries.map Prod.fst)
  | _ => none

def put (d : Disk) (p : Location) (tree : FileTree) : Disk :=
  let steps := (writtenSteps (d.folder.join p).text).filter fun s => s != "" && s != "."
  { d with root := FileTree.put tree steps (some d.root) }

end Disk

end SoundRouting
