import SoundRouting.Config.State
import SoundRouting.Probe
/-!
What the elements of a configuration do when they begin and when they end.
-/
namespace SoundRouting.Config

open LoadM

/-- How many instances of a stream may be open when it does not say. -/
def unlimitedInstances : Nat := 0x7FFFFFFF

def unsignedAttribute (a : AttributeValues) (kind : AttributeKind) : LoadM (Option Nat) :=
  match a.get? kind with
  | none => pure none
  | some text => match Numeral.unsigned? text with
    | some n => pure (some n)
    | none => fault (.badNumber text kind.text)

def signedAttribute (a : AttributeValues) (kind : AttributeKind) : LoadM (Option Int) :=
  match a.get? kind with
  | none => pure none
  | some text => match Numeral.signed? text with
    | some n => pure (some n)
    | none => fault (.badNumber text kind.text)

def requiredAttribute (a : AttributeValues) (kind : AttributeKind) : LoadM String :=
  ofResult (a.required kind)

def openMixer (number : Nat) : LoadM Unit := do
  let (mixer, rack) ← ofResult ((← get).rack.openMixer number)
  modify fun s => { s with rack := rack, mixer := some mixer }

/-- The card that a mixer names, by its number or by its name. -/
def mixerCard (a : AttributeValues) : LoadM Nat := do
  match a.get? .card, a.get? .name with
  | some _, some _ => fault .cardAndName
  | some _, none => return (← unsignedAttribute a .card).getD 0
  | none, some name => need (.noCardNamed name) ((← get).rack.numberOf? name)
  | none, none => fault .neitherCardNorName

/-- Opens the mixer that the configuration declares. A mixer that is open already is replaced. -/
def beginMixer (a : AttributeValues) : LoadM Unit := do
  let number ← mixerCard a
  if (← get).mixer.isSome then
    modify fun s => { s.unbind with mixer := none }
  openMixer number
  modify fun s => { s with card := number }

/-- Applies the writes that come before everything else, and opens the mixer again, so that the
controls they created are seen. -/
def endPreInit (disk : Disk) : LoadM Unit := do
  let s ← get
  let desk ← need .mixerNotOpen s.desk?
  let (desk, _) := desk.apply disk s.preInit.toList
  set { s.withDesk desk with preInit := .empty, mixer := none }
  openMixer s.card
  modify State.unbind

/-- Declares a device. The bits of the devices of one direction are declared once. -/
def beginDevice (a : AttributeValues) : LoadM Unit := do
  let name ← requiredAttribute a .name
  let mask ← need (.unknownDevice name) (DeviceMask.ofName? name)
  let m := (← get).model
  if mask == DeviceMask.nothing then
    if m.globalPlace?.isSome then fault (.deviceRepeated name)
  else if mask.isInput then
    if m.inputs &&& mask == mask then fault (.deviceRepeated name)
    modify fun s => { s with model := { s.model with inputs := s.model.inputs ||| mask } }
  else
    if m.outputs &&& mask == mask then fault (.deviceRepeated name)
    modify fun s => { s with model := { s.model with outputs := s.model.outputs ||| mask } }
  let devices ← ofResult ((← get).model.devices.push (.blank mask))
  modify fun s =>
    { s with
      model := { s.model with devices := devices }
      cursor := { s.cursor with device := some (devices.size - 1) } }

/-- The id of a path name, which is new if the name is. -/
def pathIdOf (name : String) : LoadM PathId := do
  match (← get).model.pathId? name with
  | some id => return id
  | none =>
    let names ← ofResult ((← get).model.pathNames.push name)
    modify fun s => { s with model := { s.model with pathNames := names } }
    return names.size - 1

def beginPath (a : AttributeValues) : LoadM Unit := do
  let name ← requiredAttribute a .name
  let id ← pathIdOf name
  let s ← get
  let place ← need .pathOutsideDevice s.cursor.device
  let device ← need .pathOutsideDevice (s.model.devices.get? place)
  if (device.pathPlace? id).isSome then fault (.pathRepeated name)
  let paths ← ofResult (device.paths.push (.blank id))
  set { s with
    model := s.model.modifyDevice place fun d => { d with paths := paths }
    cursor := { s.cursor with path := some (paths.size - 1) } }

def pushToPath (a : Assignment) : LoadM Unit := do
  let s ← get
  let d ← need .controlOutsideList s.cursor.device
  let p ← need .controlOutsideList s.cursor.path
  let device ← need .controlOutsideList (s.model.devices.get? d)
  let path ← need .controlOutsideList (device.paths.get? p)
  let assignments ← ofResult (path.assignments.push a)
  set { s with
    model := s.model.modifyDevice d fun dev =>
      { dev with paths := dev.paths.modify p fun q => { q with assignments := assignments } } }

def pushToCase (a : Assignment) : LoadM Unit := do
  let s ← get
  let u ← need .controlOutsideList s.cursor.useCase
  let c ← need .controlOutsideList s.cursor.useCaseCase
  let id ← need .controlOutsideList s.cursor.stream
  let stream ← need .controlOutsideList (s.model.stream? id)
  let useCase ← need .controlOutsideList (stream.useCases.get? u)
  let caseOf ← need .controlOutsideList (useCase.cases.get? c)
  let assignments ← ofResult (caseOf.assignments.push a)
  set { s with
    model := s.model.modifyStream id fun st =>
      { st with
        useCases := st.useCases.modify u fun uc =>
          { uc with
            cases := uc.cases.modify c fun k => { k with assignments := assignments } } } }

/-- Adds an assignment to the list of the element around it. -/
def pushAssignment (parent : Option ElementKind) (a : Assignment) : LoadM Unit := do
  match parent with
  | some .path => pushToPath a
  | some .useCaseCase => pushToCase a
  | some .init =>
    let list ← ofResult ((← get).init.push a)
    modify fun s => { s with init := list }
  | some .preInit =>
    let list ← ofResult ((← get).preInit.push a)
    modify fun s => { s with preInit := list }
  | _ => fault .controlOutsideList

/-- Binds an assignment if a mixer is open. A control that is not there yet is no fault. -/
def bindEarly (disk : Disk) (a : Assignment) : LoadM Assignment := do
  match (← get).desk? with
  | none => return a
  | some desk =>
    let (mixer, a, outcome) := desk.mixer.bind disk desk.card a
    modify fun s => { s with mixer := some mixer }
    match outcome with
    | .ok () => return a
    | .error (.controlNotFound _) => return a
    | .error e => throw e

def beginControl (disk : Disk) (parent : Option ElementKind) (a : AttributeValues) :
    LoadM Unit := do
  let name ← requiredAttribute a .name
  let index ← match ← unsignedAttribute a .index with
    | some i => pure (Selector.at i)
    | none => pure Selector.all
  let value ← match a.get? .file, a.get? .value with
    | some file, _ => pure (Value.pendingFile ((← get).file.resolve file))
    | none, some text => pure (Value.pending text)
    | none, none => fault (.controlWithoutValue name)
  let assignment ← bindEarly disk (.declared name index value)
  pushAssignment parent assignment

/-- The direction of a stream; `true` for output. The global stream need not tell one. -/
def streamDirection (a : AttributeValues) (isGlobal : Bool) : LoadM Bool :=
  match a.get? .direction with
  | none => if isGlobal then pure true else fault .directionMissing
  | some "out" => pure true
  | some "in" => pure false
  | some other => fault (.unknownDirection other)

def streamType (a : AttributeValues) (isOutput : Bool) : LoadM StreamType := do
  match ← requiredAttribute a .type with
  | "hw" =>
    if (a.get? .name).isNone then fault .anonymousHardware
    else return if isOutput then .hardwareOut else .hardwareIn
  | "pcm" => return .forRequest (!isOutput) true
  | "compress" => return .forRequest (!isOutput) false
  | other => fault (.unknownStreamType other)

/-- The endpoint of a stream, on the card of the mixer if it names no other. -/
def streamEndpoint (a : AttributeValues) (type : StreamType) : LoadM Endpoint := do
  let card := (← unsignedAttribute a .card).getD (← get).card
  let device ← unsignedAttribute a .device
  let rate ← unsignedAttribute a .rate
  let periodSize ← unsignedAttribute a .periodSize
  let periodCount ← unsignedAttribute a .periodCount
  return ⟨type, card, device.bind Endpoint.deviceOfNumber, rate.getD 0, periodSize.getD 0,
    periodCount.getD 0⟩

def pushStream (stream : Stream) : LoadM Unit := do
  let m := (← get).model
  if stream.name.isSome then
    let named ← ofResult (m.named.push stream)
    modify fun s => { s with
      model := { s.model with named := named }
      cursor := { s.cursor with stream := some ⟨.named, named.size - 1⟩ } }
  else
    let anonymous ← ofResult (m.anonymous.push stream)
    modify fun s => { s with
      model := { s.model with anonymous := anonymous }
      cursor := { s.cursor with stream := some ⟨.anonymous, anonymous.size - 1⟩ } }

def beginStream (a : AttributeValues) : LoadM Unit := do
  let name := a.get? .name
  if let some name := name then
    if ((← get).model.namedPlace? name).isSome then fault (.streamRepeated name)
  let isGlobal := name == some "global"
  let isOutput ← streamDirection a isGlobal
  let type ← if isGlobal then pure StreamType.global else streamType a isOutput
  let endpoint ← streamEndpoint a type
  let instances ← unsignedAttribute a .instances
  pushStream (.blank name endpoint (instances.getD unlimitedInstances))

def modifyOpenStream (f : Stream → LoadM Stream) : LoadM Unit := do
  let s ← get
  let id ← need .outsideStream s.cursor.stream
  let stream ← need .outsideStream (s.model.stream? id)
  let changed ← f stream
  modify fun s => { s with model := s.model.modifyStream id fun _ => changed }

/-- Declares a path that is applied when the stream is routed to a device or away from it. -/
def beginRoutePath (enable : Bool) (a : AttributeValues) : LoadM Unit := do
  let name ← requiredAttribute a .path
  let id ← need (.unknownPath name) ((← get).model.pathId? name)
  modifyOpenStream fun stream => pure <|
    if enable then { stream with enablePath := some id } else { stream with disablePath := some id }

def bindVolumeEarly (v : VolumeControl) : LoadM (Desk × VolumeControl × Nat) := do
  let desk ← need .mixerNotOpen (← get).desk?
  let (mixer, v, outcome) := desk.mixer.bindVolume desk.card v
  modify fun s => { s with mixer := some mixer }
  match outcome with
  | .ok id => return (⟨desk.card, mixer⟩, v, id)
  | .error (.controlNotFound _) => fault (.controlMissing v.control)
  | .error (.value _) => fault (.controlNotInteger v.control)
  | .error e => throw e

/-- Whether a function is that of the left volume; the other one is that of the right volume. -/
def isLeftVolume (function : String) : LoadM Bool :=
  match function with
  | "leftvol" => pure true
  | "rightvol" => pure false
  | other => fault (.unknownFunction other)

/-- Declares a volume control of the stream. Its ends are those of the control where they are not
declared; a second declaration replaces the first. -/
def beginVolume (a : AttributeValues) : LoadM Unit := do
  let name ← requiredAttribute a .name
  let function ← requiredAttribute a .function
  let index ← unsignedAttribute a .index
  let (desk, v, id) ← bindVolumeEarly ⟨name, .unresolved, index.getD 0, 0, 0⟩
  let left ← isLeftVolume function
  let (low, high) ← ofResult (desk.card.range id)
  let low := (← signedAttribute a .low).getD low
  let high := (← signedAttribute a .high).getD high
  let v := { v with low := low, high := high }
  modifyOpenStream fun stream => pure <|
    if left then { stream with left := some v } else { stream with right := some v }

def beginUseCase (a : AttributeValues) : LoadM Unit := do
  let name ← requiredAttribute a .name
  modifyOpenStream fun stream => do
    let useCases ← ofResult (stream.useCases.push ⟨name, .empty⟩)
    modify fun s => { s with cursor := { s.cursor with useCase := some (useCases.size - 1) } }
    return { stream with useCases := useCases }

def beginUseCaseCase (a : AttributeValues) : LoadM Unit := do
  let name ← requiredAttribute a .name
  let place ← need .caseOutsideUseCase (← get).cursor.useCase
  modifyOpenStream fun stream => do
    let useCase ← need .caseOutsideUseCase (stream.useCases.get? place)
    let cases ← ofResult (useCase.cases.push ⟨name, .empty⟩)
    modify fun s => { s with cursor := { s.cursor with useCaseCase := some (cases.size - 1) } }
    return { stream with
      useCases := stream.useCases.modify place fun u => { u with cases := cases } }

def beginConstant (a : AttributeValues) : LoadM Unit := do
  let name ← requiredAttribute a .name
  let value ← requiredAttribute a .value
  modifyOpenStream fun stream => do
    let constants ← ofResult (stream.constants.push ⟨name, value⟩)
    return { stream with constants := constants }

/-- Declares a codec probe, of which a file has one. -/
def beginCodecProbe (a : AttributeValues) : LoadM Unit := do
  if (← get).probe.isSome then fault .probeRepeated
  let file ← requiredAttribute a .file
  modify fun s => { s with probe := some ⟨s.file.resolve file, .empty⟩ }

def beginCodecCase (a : AttributeValues) : LoadM Unit := do
  let codec ← requiredAttribute a .name
  let file ← requiredAttribute a .file
  let s ← get
  let probe ← need .caseOutsideProbe s.probe
  let cases ← ofResult (probe.cases.push ⟨codec, s.file.resolve file⟩)
  set { s with probe := some { probe with cases := cases } }

/-- Reads the probe file. If it names a codec that has a configuration, that is the next file,
which must not have been loaded before. -/
def endCodecProbe (disk : Disk) : LoadM (Option Location) := do
  let s ← get
  match s.probe with
  | none => return none
  | some probe =>
    match ← ofResult (Probe.read disk probe.file) with
    | none => return none
    | some codec =>
      match probe.cases.toList.find? (·.codec == codec) with
      | none => return none
      | some c =>
        if s.visited.any (·.sameAs c.file) then fault (.loadedTwice c.file)
        else return some c.file

/-- What an element does when it begins, inside of `parent`. -/
def beginElement (disk : Disk) (parent : Option ElementKind) (a : AttributeValues) :
    ElementKind → LoadM Unit
  | .control => beginControl disk parent a
  | .path => beginPath a
  | .device => beginDevice a
  | .stream => beginStream a
  | .enable => beginRoutePath true a
  | .disable => beginRoutePath false a
  | .useCaseCase => beginUseCaseCase a
  | .useCase => beginUseCase a
  | .constant => beginConstant a
  | .volume => beginVolume a
  | .mixer => beginMixer a
  | .codecProbe => beginCodecProbe a
  | .codecCase => beginCodecCase a
  | .init | .preInit | .root => pure ()

/-- What an element does when it ends; a codec probe may name the next file. -/
def endElement (disk : Disk) : ElementKind → LoadM (Option Location)
  | .preInit => do
    endPreInit disk
    return none
  | .codecProbe => endCodecProbe disk
  | .device => leave fun c => { c with device := none }
  | .path => leave fun c => { c with path := none }
  | .stream => leave fun c => { c with stream := none }
  | .useCase => leave fun c => { c with useCase := none }
  | .useCaseCase => leave fun c => { c with useCaseCase := none }
  | _ => pure none
where
  leave (f : Cursor → Cursor) : LoadM (Option Location) := do
    modify fun s => { s with cursor := f s.cursor }
    return none

end SoundRouting.Config
