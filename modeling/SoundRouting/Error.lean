import SoundRouting.Assignment
import SoundRouting.Files.Disk
/-!
What can go wrong, as causes.

Every error has a class and a cause within it; `Error.message` is the only place where the wording
stands. A fault of a configuration carries the line of the element it was found at, or 0 while that
is not known. Each class has a cause `stated` for faults that are reported in words from outside
this library.
-/
namespace SoundRouting

open Text (joinWith)

/-- A violation of the configuration grammar, or a reference to something that is not declared. -/
inductive ConfigFault where
  | elementNotAllowed (tag : String)
  | attributeNotAllowed (name : String)
  | attributesRequired (names : List String)
  | badNumber (text field : String)
  | cardAndName
  | neitherCardNorName
  | noCardNamed (name : String)
  | mixerMissing
  | mixerNotOpen
  | unknownDevice (name : String)
  | deviceRepeated (name : String)
  | pathOutsideDevice
  | pathRepeated (name : String)
  | unknownPath (name : String)
  | controlWithoutValue (control : String)
  | controlOutsideList
  | outsideStream
  | streamRepeated (name : String)
  | directionMissing
  | unknownDirection (text : String)
  | anonymousHardware
  | unknownStreamType (text : String)
  | controlMissing (control : String)
  | controlNotInteger (control : String)
  | unknownFunction (text : String)
  | caseOutsideUseCase
  | caseOutsideProbe
  | probeRepeated
  | loadedTwice (file : Location)
  | stated (text : String)
  deriving DecidableEq, Repr

namespace ConfigFault

def message : ConfigFault → String
  | .elementNotAllowed tag => "Element '" ++ tag ++ "' not allowed here"
  | .attributeNotAllowed name => "Attribute '" ++ name ++ "' not allowed here"
  | .attributesRequired names => "Attribute '" ++ joinWith "', '" names ++ "' required"
  | .badNumber text field =>
    "'" ++ text ++ "' is not a valid value for '" ++ field ++ "'"
  | .cardAndName => "Mixer must be configured by only one of 'card' or 'name'"
  | .neitherCardNorName => "Mixer needs 'card' or 'name'"
  | .noCardNamed name => "No sound card named '" ++ name ++ "'"
  | .mixerMissing => "No <mixer> element"
  | .mixerNotOpen => "No mixer opened"
  | .unknownDevice name => "'" ++ name ++ "' is not a valid device"
  | .deviceRepeated name => "Device '" ++ name ++ "' already defined"
  | .pathOutsideDevice => "'path' outside a device"
  | .pathRepeated name => "Path '" ++ name ++ "' already defined for this device"
  | .unknownPath name => "Path '" ++ name ++ "' not defined"
  | .controlWithoutValue control => "Control '" ++ control ++ "' needs 'val' or 'file'"
  | .controlOutsideList => "'ctl' outside a control list"
  | .outsideStream => "element outside a stream"
  | .streamRepeated name => "Stream '" ++ name ++ "' already declared"
  | .directionMissing => "'dir' is required"
  | .unknownDirection text => "'" ++ text ++ "' is not a valid direction"
  | .anonymousHardware => "Anonymous stream cannot be type hw"
  | .unknownStreamType text => "'" ++ text ++ "' not a valid stream type"
  | .controlMissing control => "Control '" ++ control ++ "' not found"
  | .controlNotInteger control => "Control '" ++ control ++ "' is not an integer"
  | .unknownFunction text => "'" ++ text ++ "' is not a valid control function"
  | .caseOutsideUseCase => "'case' outside a usecase"
  | .caseOutsideProbe => "'case' outside codec_probe"
  | .probeRepeated => "The codec_probe block redefined"
  | .loadedTwice file => "Codec probe redirect to " ++ file.text ++ " would load it twice"
  | .stated text => text

end ConfigFault

inductive CapacityFault where
  | controlTooLarge (control : String) (count limit : Nat)
  | listOverflows (offset length count : Nat)
  | blockNoLongerFits (control : String) (offset length count : Nat)
  | blockOverflows (offset length count : Nat)
  | stated (text : String)
  deriving DecidableEq, Repr

namespace CapacityFault

def message : CapacityFault → String
  | .controlTooLarge control count limit =>
    "byte control '" ++ control ++ "' has " ++ toString count ++ " elements, limit is "
      ++ toString limit
  | .listOverflows offset length count =>
    "array overflows control (" ++ toString offset ++ "+" ++ toString length ++ " > "
      ++ toString count ++ ")"
  | .blockNoLongerFits control offset length count =>
    "byte data " ++ toString offset ++ "+" ++ toString length ++ " no longer fits control '"
      ++ control ++ "' (" ++ toString count ++ ")"
  | .blockOverflows offset length count =>
    "byte data " ++ toString offset ++ "+" ++ toString length ++ " exceeds control size "
      ++ toString count
  | .stated text => text

end CapacityFault

inductive ValueFault where
  | notANumber (text : String)
  | unsupportedType (control : String)
  | controlNotInteger (control : String)
  | indexOutOfRange (index count : Nat)
  | noBytes
  | wrongForm (value : Value) (control : String)
  | stated (text : String)
  deriving DecidableEq, Repr

namespace ValueFault

def message : ValueFault → String
  | .notANumber text => "'" ++ text ++ "' is not a valid number"
  | .unsupportedType control => "mixer control '" ++ control ++ "' has unsupported type"
  | .controlNotInteger control => "control '" ++ control ++ "' is not an integer"
  | .indexOutOfRange index count =>
    "control index out of range (" ++ toString index ++ " >= " ++ toString count ++ ")"
  | .noBytes => "no values for byte array"
  | .wrongForm value control =>
    "value " ++ value.describe ++ " does not fit the type of control '" ++ control ++ "'"
  | .stated text => text

end ValueFault

inductive ArgumentFault where
  | percentOutOfRange (percent : Int)
  | unknownStream
  | constantNotUnsigned (name text : String)
  | constantNotInteger (name text : String)
  | stated (text : String)
  deriving DecidableEq, Repr

namespace ArgumentFault

def message : ArgumentFault → String
  | .percentOutOfRange percent =>
    "volume percent " ++ toString percent ++ " is out of range 0..100"
  | .unknownStream => "unknown stream"
  | .constantNotUnsigned name text =>
    "constant '" ++ name ++ "' = '" ++ text ++ "' is not an unsigned integer"
  | .constantNotInteger name text =>
    "constant '" ++ name ++ "' = '" ++ text ++ "' is not an integer"
  | .stated text => text

end ArgumentFault

/-- A feature that a stream does not declare. -/
inductive SupportFault where
  | noVolume
  | noCase (setting caseName : String)
  | stated (text : String)
  deriving DecidableEq, Repr

namespace SupportFault

def message : SupportFault → String
  | .noVolume => "stream has no volume control"
  | .noCase setting caseName => "use-case '" ++ setting ++ "' has no case '" ++ caseName ++ "'"
  | .stated text => text

end SupportFault

inductive MissingFault where
  | constant (name : String)
  | stated (text : String)
  deriving DecidableEq, Repr

namespace MissingFault

def message : MissingFault → String
  | .constant name => "constant '" ++ name ++ "'"
  | .stated text => text

end MissingFault

inductive OpenFault where
  | noSuchCard
  | stated (text : String)
  deriving DecidableEq, Repr

namespace OpenFault

def message : OpenFault → String
  | .noSuchCard => "no such card"
  | .stated text => text

end OpenFault

inductive ControlFault where
  | noSuchControl
  | notKnown
  | indexOutOfRange (index count : Nat)
  | valueOutOfRange (value low high : Int)
  | unsupportedType
  | notInteger
  | notEnumerated
  | noItem (item : String)
  | notBytes
  | tooManyBytes (length size : Nat)
  | stated (text : String)
  deriving DecidableEq, Repr

namespace ControlFault

def message : ControlFault → String
  | .noSuchControl => "no such control"
  | .notKnown => "control not known to this mixer"
  | .indexOutOfRange index count =>
    "index " ++ toString index ++ " out of range (" ++ toString count ++ ")"
  | .valueOutOfRange value low high =>
    "value " ++ toString value ++ " outside " ++ toString low ++ "..=" ++ toString high
  | .unsupportedType => "unsupported type"
  | .notInteger => "not an integer control"
  | .notEnumerated => "not an enum control"
  | .noItem item => "no enum item '" ++ item ++ "'"
  | .notBytes => "not a byte control"
  | .tooManyBytes length size =>
    toString length ++ " bytes exceed control size " ++ toString size
  | .stated text => text

end ControlFault

inductive Error where
  | config (line : Nat) (fault : ConfigFault)
  | malformed (file : Location)
  | controlNotFound (control : String)
  | capacity (fault : CapacityFault)
  | value (fault : ValueFault)
  | argument (fault : ArgumentFault)
  | notSupported (fault : SupportFault)
  | notFound (fault : MissingFault)
  | outOfMemory
  | unreadable (file : Location) (fault : FileFault)
  | mixerOpen (card : Nat) (fault : OpenFault)
  | mixer (control : String) (fault : ControlFault)
  deriving DecidableEq, Repr

/-- A coarse class of errors, for those who only need to know why a load failed. -/
inductive ErrorKind where
  | notFound
  | invalidData
  | outOfMemory
  | invalidArgument
  | notSupported
  | io
  deriving DecidableEq, Repr

namespace Error

/-- A configuration fault whose line is not known yet. -/
def ofConfig (fault : ConfigFault) : Error :=
  .config 0 fault

def atLine (line : Nat) : Error → Error
  | .config 0 fault => .config line fault
  | e => e

def kind : Error → ErrorKind
  | .config .. | .malformed _ | .controlNotFound _ | .capacity _ | .value _ | .mixerOpen .. =>
    .invalidData
  | .argument _ => .invalidArgument
  | .notSupported _ => .notSupported
  | .notFound _ => .notFound
  | .outOfMemory => .outOfMemory
  | .unreadable _ .notFound => .notFound
  | .unreadable .. | .mixer .. => .io

def message : Error → String
  | .config line fault =>
    "config syntax error at line " ++ toString line ++ ": " ++ fault.message
  | .malformed file => "malformed XML in '" ++ file.text ++ "'"
  | .controlNotFound control => "mixer control '" ++ control ++ "' not found"
  | .capacity fault => "capacity exceeded: " ++ fault.message
  | .value fault => "invalid value: " ++ fault.message
  | .argument fault => "invalid argument: " ++ fault.message
  | .notSupported fault => "not supported: " ++ fault.message
  | .notFound fault => "not found: " ++ fault.message
  | .outOfMemory => "out of memory"
  | .unreadable file _ => "failed to read file '" ++ file.text ++ "'"
  | .mixerOpen card fault =>
    "failed to open mixer card " ++ toString card ++ ": " ++ fault.message
  | .mixer control fault => "mixer I/O error on '" ++ control ++ "': " ++ fault.message

end Error

end SoundRouting
