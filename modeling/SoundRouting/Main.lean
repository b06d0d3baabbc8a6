import SoundRouting.Command.Check
import SoundRouting.Command.Dump
import SoundRouting.Command.Simulate
import SoundRouting.Config.References
/-!
The command line.

    check CONFIG [--controls FILE] [--options FILE]
    dump CONFIG [--controls FILE] [--options FILE]
    simulate CONFIG --script FILE [--controls FILE] [--options FILE]

The files that a command needs are read first, those that a configuration names among them; the
command then runs on what was read.
-/
namespace SoundRouting.CommandLine

structure Request where
  command : String
  target : Command.Target
  script : Option Location

def Request.add? (r : Request) : List String → Option Request
  | [] => some r
  | "--controls" :: file :: more =>
    { r with target.controls := some ⟨file⟩ }.add? more
  | "--options" :: file :: more =>
    { r with target.options := some ⟨file⟩ }.add? more
  | "--script" :: file :: more => { r with script := some ⟨file⟩ }.add? more
  | _ => none

def Request.ofArguments? : List String → Option Request
  | command :: config :: more => Request.add? ⟨command, ⟨⟨config⟩, none, none⟩, none⟩ more
  | _ => none

def usage : String :=
  "usage: (check | dump | simulate) CONFIG [--controls FILE] [--options FILE] [--script FILE]"

/-- The steps of a location without idle ones, each `..` with the step before it removed. -/
def directSteps (p : Location) : List String :=
  (Disk.writtenSteps p.text).foldl (fun steps step =>
    if step == "" || step == "." then steps
    else if step == ".." then steps.dropLast
    else steps ++ [step]) []

def ofSteps (steps : List String) : Location :=
  ⟨"/" ++ Text.joinWith "/" steps⟩

def foldersOf (p : Location) : List Location :=
  let steps := Disk.writtenSteps p.text
  (List.range (steps.length - 1)).map fun n =>
    ofSteps (directSteps ⟨Text.joinWith "/" (steps.take (n + 1))⟩)

/-- The disk with a file that has been read, and the folders on the way to it. -/
def withFile (disk : Disk) (p : Location) (bytes : List UInt8) : Disk :=
  let disk := (foldersOf p).foldl (fun disk folder =>
    if disk.holds folder then disk else disk.put folder (.folder [])) disk
  disk.put (ofSteps (directSteps p)) (.file bytes)

/-- Reads files, and those they name, as far as they can be read. -/
partial def gather (disk : Disk) : List Location → IO Disk
  | [] => pure disk
  | p :: more => do
    let file := Location.absolute disk.folder p
    if disk.holds file then gather disk more
    else
      let bytes ← try
          let bytes ← IO.FS.readBinFile file.text
          pure (some bytes.toList)
        catch _ => pure none
      match bytes with
      | none => gather disk more
      | some bytes =>
        let named := match Disk.decode? bytes with
          | some text => Config.references file text
          | none => []
        gather (withFile disk file bytes) (named ++ more)

def settingsFolder : IO Location := do
  match ← IO.getEnv "XDG_CONFIG_HOME", ← IO.getEnv "HOME" with
  | some folder, home =>
    if (Location.mk folder).isAbsolute then return ⟨folder⟩
    else return Location.join ⟨home.getD "."⟩ ⟨".config"⟩
  | none, some home => return Location.join ⟨home⟩ ⟨".config"⟩
  | none, none => return ⟨"."⟩

def prepare (r : Request) (settings : Location) : IO Command.Environment := do
  let folder ← IO.currentDir
  let empty : Command.Environment := ⟨⟨.folder [], ⟨folder.toString⟩⟩, settings⟩
  let disk ← gather empty.disk [empty.defaultsFile]
  let env := { empty with disk := disk }
  let defaultControls := match env.defaults with
    | .ok defaults => defaults.controls
    | .error _ => none
  let named := [r.target.controls, defaultControls, r.target.options, r.script].filterMap id
  let disk ← gather disk (r.target.config :: named)
  return { env with disk := disk }

/-- The text of a script; a hyphen stands for standard input. -/
def scriptText (env : Command.Environment) (file : Location) :
    IO (Except Command.Failure String) := do
  if file.text == "-" then
    return .ok (← (← IO.getStdin).readToEnd)
  else return Command.readScript env file

def answer (env : Command.Environment) (r : Request) :
    IO (List String × Except Command.Failure Unit) := do
  match r.command, r.script with
  | "check", none => return Command.check env r.target
  | "dump", none => return Command.dump env r.target
  | "simulate", some file =>
    match ← scriptText env file with
    | .ok text => return Command.simulate env r.target text
    | .error e => return ([], .error e)
  | _, _ => throw (IO.userError usage)

end SoundRouting.CommandLine

open SoundRouting in
def main (arguments : List String) : IO UInt32 := do
  match CommandLine.Request.ofArguments? arguments with
  | none =>
    IO.eprintln CommandLine.usage
    return 2
  | some r =>
    let env ← CommandLine.prepare r (← CommandLine.settingsFolder)
    let (rows, outcome) ← CommandLine.answer env r
    rows.forM IO.println
    match outcome with
    | .ok () => return 0
    | .error e =>
      IO.eprintln ("Error: " ++ Text.joinWith "\n\nCaused by:\n    " e.report)
      return 1
