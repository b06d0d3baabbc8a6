import SoundRouting.Error
/-!
The grammar of configurations: elements, their attributes and their children.

Two elements are written `ctl` and two are written `case`. Which one a tag means depends on the
elements that are allowed where it stands.
-/
namespace SoundRouting

/-- The elements of a configuration. `control` is a write in a list of writes, `volume` a volume
control of a stream; `useCaseCase` is an alternative of a use-case, `codecCase` one of a codec
probe. -/
inductive ElementKind where
  | control
  | path
  | device
  | stream
  | enable
  | disable
  | useCaseCase
  | useCase
  | constant
  | volume
  | init
  | preInit
  | mixer
  | root
  | codecProbe
  | codecCase
  deriving DecidableEq, Repr, Inhabited

inductive AttributeKind where
  | name
  | value
  | path
  | function
  | type
  | index
  | direction
  | card
  | device
  | instances
  | rate
  | periodSize
  | periodCount
  | low
  | high
  | file
  deriving DecidableEq, Repr, Inhabited

namespace AttributeKind

/-- The attributes in the order in which missing ones are reported. -/
def all : List AttributeKind := [
  .name, .value, .path, .function, .type, .index, .direction, .card, .device, .instances, .rate,
  .periodSize, .periodCount, .low, .high, .file]

def text : AttributeKind → String
  | .name => "name"
  | .value => "val"
  | .path => "path"
  | .function => "function"
  | .type => "type"
  | .index => "index"
  | .direction => "dir"
  | .card => "card"
  | .device => "device"
  | .instances => "instances"
  | .rate => "rate"
  | .periodSize => "period_size"
  | .periodCount => "period_count"
  | .low => "min"
  | .high => "max"
  | .file => "file"

theorem mem_all (a : AttributeKind) : a ∈ all := by cases a <;> decide

theorem text_injective {a b : AttributeKind} (h : a.text = b.text) : a = b := by
  revert h
  cases a <;> cases b <;> decide

end AttributeKind

namespace ElementKind

/-- The elements in the order in which a tag is matched with them. -/
def all : List ElementKind := [
  .control, .path, .device, .stream, .enable, .disable, .useCaseCase, .useCase, .constant,
  .volume, .init, .preInit, .mixer, .root, .codecProbe, .codecCase]

theorem mem_all (e : ElementKind) : e ∈ all := by cases e <;> decide

def tag : ElementKind → String
  | .control | .volume => "ctl"
  | .path => "path"
  | .device => "device"
  | .stream => "stream"
  | .enable => "enable"
  | .disable => "disable"
  | .useCaseCase | .codecCase => "case"
  | .useCase => "usecase"
  | .constant => "set"
  | .init => "init"
  | .preInit => "pre_init"
  | .mixer => "mixer"
  | .root => "audiohal"
  | .codecProbe => "codec_probe"

def attributes : ElementKind → List AttributeKind
  | .control => [.name, .value, .index, .file]
  | .path | .device | .useCaseCase | .useCase => [.name]
  | .stream =>
    [.name, .type, .direction, .card, .device, .instances, .rate, .periodSize, .periodCount]
  | .enable | .disable => [.path]
  | .constant => [.name, .value]
  | .volume => [.name, .function, .index, .low, .high]
  | .init | .preInit | .root => []
  | .mixer => [.name, .card]
  | .codecProbe => [.file]
  | .codecCase => [.name, .file]

def required : ElementKind → List AttributeKind
  | .control | .path | .device | .useCaseCase | .useCase => [.name]
  | .stream => [.type]
  | .enable | .disable => [.path]
  | .constant => [.name, .value]
  | .volume => [.name, .function]
  | .init | .preInit | .mixer | .root => []
  | .codecProbe => [.file]
  | .codecCase => [.name, .file]

/-- The elements that may stand in the element when it begins. -/
def children : ElementKind → List ElementKind
  | .path | .useCaseCase | .init | .preInit => [.control]
  | .device => [.path]
  | .stream => [.enable, .disable, .useCase, .constant, .volume]
  | .useCase => [.useCaseCase]
  | .mixer => [.init, .preInit]
  | .root => [.mixer, .codecProbe]
  | .codecProbe => [.codecCase]
  | .control | .enable | .disable | .constant | .volume | .codecCase => []

end ElementKind

namespace Grammar

/-- What may stand at the top of a document. -/
def topLevel : List ElementKind := [.root]

/-- What may stand in the root element once the mixer has been declared. -/
def afterMixer : List ElementKind := [.device, .stream]

/-- What may not stand in the mixer any more once the initial writes have begun. -/
def initExcludes : List ElementKind := [.init, .preInit]

def maxDepth : Nat := 6

/-- The element that a tag means where these elements are allowed. -/
def elementOfTag? (allowed : List ElementKind) (tag : String) : Option ElementKind :=
  ElementKind.all.find? fun e => allowed.contains e && e.tag == tag

end Grammar

structure AttributeValues where
  values : List (AttributeKind × String)
  deriving DecidableEq, Repr, Inhabited

namespace AttributeValues

def blank : AttributeValues := ⟨[]⟩

def get? (a : AttributeValues) (kind : AttributeKind) : Option String :=
  (a.values.find? fun e => e.1 == kind).map Prod.snd

def set (a : AttributeValues) (kind : AttributeKind) (value : String) : AttributeValues :=
  ⟨(kind, value) :: a.values.filter fun e => e.1 != kind⟩

/-- The value of an attribute that has to be there. -/
def required (a : AttributeValues) (kind : AttributeKind) : Except Error String :=
  match a.get? kind with
  | some value => .ok value
  | none => .error (.ofConfig (.attributesRequired [kind.text]))

def kindOf? (element : ElementKind) (name : String) : Option AttributeKind :=
  AttributeKind.all.find? fun a => element.attributes.contains a && a.text == name

/-- Takes over written attributes in order; the last value of an attribute counts. -/
def collect (element : ElementKind) (a : AttributeValues) :
    List (String × String) → Except Error AttributeValues
  | [] => .ok a
  | (name, value) :: more =>
    match kindOf? element name with
    | some kind => collect element (a.set kind value) more
    | none => .error (.ofConfig (.attributeNotAllowed name))

def missing (element : ElementKind) (a : AttributeValues) : List AttributeKind :=
  AttributeKind.all.filter fun kind => element.required.contains kind && (a.get? kind).isNone

def ofWritten (element : ElementKind) (written : List (String × String)) :
    Except Error AttributeValues :=
  match collect element blank written with
  | .error e => .error e
  | .ok a =>
    match missing element a with
    | [] => .ok a
    | kinds => .error (.ofConfig (.attributesRequired (kinds.map AttributeKind.text)))

@[simp] theorem get?_blank (kind : AttributeKind) : blank.get? kind = none := rfl

@[simp] theorem get?_set_self (a : AttributeValues) (kind : AttributeKind) (value : String) :
    (a.set kind value).get? kind = some value := by
  simp [set, get?]

theorem get?_set_other (a : AttributeValues) {kind other : AttributeKind} (value : String)
    (h : kind ≠ other) : (a.set kind value).get? other = a.get? other := by
  have hne : (kind == other) = false := by simpa using h
  simp only [set, get?, List.find?_cons, hne, List.find?_filter]
  congr 1
  congr 1
  funext e
  by_cases he : e.1 = other
  · simp [he, Ne.symm h]
  · simp [he]

end AttributeValues

end SoundRouting
