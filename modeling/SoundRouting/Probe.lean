import SoundRouting.Error
/-!
Probe files, which name the hardware that is fitted.
-/
namespace SoundRouting.Probe

open Text

def firstLine (bytes : List UInt8) : List UInt8 :=
  bytes.takeWhile (· != 10)

/-- The name on the first line of a file's contents, without white space around it. A line that is
blank or is no text names nothing. -/
def nameIn? (bytes : List UInt8) : Option String :=
  match Disk.decode? (firstLine bytes) with
  | none => none
  | some line =>
    let name := trim line.toList
    if name.isEmpty then none else some (String.ofList name)

/-- The name that a probe file gives. A file that does not come to exist is an error; one that
cannot be read names nothing. -/
def read (disk : Disk) (file : Location) : Except Error (Option String) :=
  match disk.find file with
  | .ok (.file bytes) => .ok (nameIn? bytes)
  | .ok (.folder _) => .ok none
  | .error fault => .error (.unreadable file fault)

end SoundRouting.Probe
