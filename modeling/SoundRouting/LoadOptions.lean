import SoundRouting.Files.Disk
import SoundRouting.Toml.Decode
import SoundRouting.Toml.Print
/-!
Options of loading a configuration, and the defaults of the command line.

Options are read from a TOML document in which every field may be missing, and are written back as
one.
-/
namespace SoundRouting

/-- Where the configurations of products lie, and how long a probe file is waited for; times are in
milliseconds. -/
structure LoadOptions where
  folder : Location
  pollInterval : Nat
  timeout : Nat
  deriving DecidableEq, Repr, Inhabited

inductive OptionsError where
  | unreadable (file : Location)
  | malformed
  | tooLarge
  deriving DecidableEq, Repr

namespace LoadOptions

open Toml

def standard : LoadOptions :=
  ⟨⟨"/system/etc"⟩, 50, 10000⟩

def fieldNames : List String :=
  ["etc_dir", "probe_poll_interval_ms", "probe_timeout_ms"]

def ofDatum? (d : Datum) : Option LoadOptions := do
  let r ← d.record? fieldNames
  let folder ← r.optional? "etc_dir" 0 (fun d => d.string?.map Location.mk) standard.folder
  let interval ← r.optional? "probe_poll_interval_ms" 1 (Datum.unsigned? 64) standard.pollInterval
  let timeout ← r.optional? "probe_timeout_ms" 2 (Datum.unsigned? 64) standard.timeout
  return ⟨folder, interval, timeout⟩

def ofDocument (text : String) : Except OptionsError LoadOptions :=
  match document? text >>= fun entries => ofDatum? (.table .header entries) with
  | some options => .ok options
  | none => .error .malformed

def load (disk : Disk) (file : Location) : Except OptionsError LoadOptions :=
  match disk.readText file with
  | .ok text => ofDocument text
  | .error _ => .error (.unreadable file)

/-- The document that describes the options. The integers of documents have 64 bits and a sign. -/
def toDocument (o : LoadOptions) : Except OptionsError String :=
  if o.pollInterval < 0x8000000000000000 ∧ o.timeout < 0x8000000000000000 then
    .ok ("etc_dir = " ++ writeString o.folder.text ++ "\nprobe_poll_interval_ms = "
      ++ toString o.pollInterval ++ "\nprobe_timeout_ms = " ++ toString o.timeout ++ "\n")
  else .error .tooLarge

def productFile (o : LoadOptions) (product : String) : Location :=
  o.folder.join ⟨"audio." ++ product ++ ".xml"⟩

end LoadOptions

/-- What the command line takes when its arguments do not say it. -/
structure Defaults where
  controls : Option Location
  options : LoadOptions
  deriving DecidableEq, Repr, Inhabited

namespace Defaults

open Toml

def standard : Defaults :=
  ⟨none, LoadOptions.standard⟩

def ofDocument? (text : String) : Option Defaults := do
  let entries ← document? text
  let r ← (Datum.table .header entries).record? ["controls", "loader"]
  let controls ← r.optional? "controls" 0 (fun d => d.string?.map fun s => some ⟨s⟩) none
  let options ← r.optional? "loader" 1 LoadOptions.ofDatum? LoadOptions.standard
  return ⟨controls, options⟩

end Defaults

end SoundRouting
