import SoundRouting.Proofs.Load.Accepted
/-!
What elements fail with.

An element acts once its attributes have been checked. Whatever it fails with then, a fault of the configuration has
no line yet, so that it gets the line of the element, and no attribute is found missing any more.
-/
namespace SoundRouting

def ConfigFault.missing? : ConfigFault → Option (List String)
  | .attributesRequired names => some names
  | _ => none

def Error.Unlined (e : Error) : Prop :=
  ∀ line fault, e = .config line fault → line = 0

/-- What an element may fail with when it acts: a fault of the configuration has no line yet, and is not that
attributes are missing. -/
structure Error.Plain (e : Error) : Prop where
  unlined : e.Unlined
  complete : ∀ line fault, e = .config line fault → fault.missing? = none

namespace Error

variable {e : Error} {fault : ConfigFault}

theorem plain_of_foreign (h : e.fault? = none) : e.Plain := by
  constructor
  · rintro line fault rfl
    cases h
  · rintro line fault rfl
    cases h

theorem unlined_ofConfig (fault : ConfigFault) : (ofConfig fault).Unlined :=
  fun _ _ he => (Error.config.inj he).1.symm

theorem plain_ofConfig (h : fault.missing? = none) : (ofConfig fault).Plain :=
  ⟨unlined_ofConfig fault, fun _ _ he => (Error.config.inj he).2 ▸ h⟩

/-- What is no fault of the configuration is left as it is. -/
theorem atLine_of_foreign (h : e.fault? = none) (line : Nat) : e.atLine line = e := by
  cases e with
  | config => cases h
  | _ => rfl

/-- A fault that gets a line has this one from then on. -/
theorem Unlined.atLine_eq_config_iff (h : e.Unlined) {line line' : Nat} :
    e.atLine line = .config line' fault ↔ e = .ofConfig fault ∧ line' = line := by
  cases e with
  | config n other =>
    obtain rfl := h n other rfl
    rw [atLine, ofConfig, config.injEq, config.injEq]
    exact ⟨fun ⟨hline, hfault⟩ => ⟨⟨rfl, hfault⟩, hline.symm⟩, fun ⟨⟨_, hfault⟩, hline⟩ => ⟨hline.symm, hfault⟩⟩
  | _ => exact iff_of_false nofun nofun

theorem Plain.ne_attributesRequired (h : e.Plain) (line : Nat) (names : List String) :
    e ≠ .config line (.attributesRequired names) :=
  fun he => nomatch h.complete line _ he

end Error

def AttributeValues.Complete (a : AttributeValues) (e : ElementKind) : Prop :=
  ∀ kind ∈ e.required, (a.get? kind).isSome = true

/-- An attribute with a value is found. -/
theorem AttributeValues.required_eq_ok {a : AttributeValues} {kind : AttributeKind} {value : String}
    (h : a.get? kind = some value) : a.required kind = .ok value := by
  rw [required, h]

namespace Config

open LoadM

def FailsPlain {α : Type} (x : LoadM α) : Prop :=
  ∀ s e t, x.run.run s = (.error e, t) → e.Plain

variable {α β : Type} {a : AttributeValues} {disk : Disk}

theorem failsPlain_pure (c : α) : FailsPlain (pure c) := by
  rintro s e t ⟨⟩

theorem failsPlain_throw {e : Error} (h : e.Plain) : FailsPlain (throw e : LoadM α) := by
  rintro s _ t ⟨⟩
  exact h

theorem failsPlain_fault {f : ConfigFault} (h : f.missing? = none) :
    FailsPlain (fault f : LoadM α) :=
  failsPlain_throw (Error.plain_ofConfig h)

theorem failsPlain_need {f : ConfigFault} (h : f.missing? = none) (o : Option α) :
    FailsPlain (need f o) := by
  cases o with
  | none => exact failsPlain_fault h
  | some c => exact failsPlain_pure c

theorem failsPlain_ofResult {r : Except Error α} (h : Foreign r) : FailsPlain (ofResult r) := by
  cases r with
  | error e => exact failsPlain_throw (Error.plain_of_foreign (h e rfl))
  | ok c => exact failsPlain_pure c

theorem failsPlain_bind {x : LoadM α} {f : α → LoadM β} (h : FailsPlain x) (hf : ∀ c, FailsPlain (f c)) :
    FailsPlain (x >>= f) := by
  intro s e t hrun
  rcases Runs.error_bind_iff.mp hrun with hfirst | ⟨c, u, -, hrest⟩
  · exact h s e t hfirst
  · exact hf c u e t hrest

theorem failsPlain_get : FailsPlain (get : LoadM State) := by
  rintro s e t ⟨⟩

theorem failsPlain_get_bind {f : State → LoadM α} (h : ∀ s, FailsPlain (f s)) : FailsPlain (get >>= f) :=
  failsPlain_bind failsPlain_get h

theorem failsPlain_set (u : State) : FailsPlain (set u : LoadM PUnit) := by
  rintro s e t ⟨⟩

theorem failsPlain_modify (f : State → State) : FailsPlain (modify f : LoadM PUnit) := by
  rintro s e t ⟨⟩

/-- An action that goes on with a change of the state. -/
theorem failsPlain_then_modify {x : LoadM α} (h : FailsPlain x) (f : α → State → State) :
    FailsPlain (x >>= fun c => (modify (f c) : LoadM PUnit)) :=
  failsPlain_bind h fun c => failsPlain_modify (f c)

/-! ### The elements -/

theorem failsPlain_requiredAttribute {e : ElementKind} (h : a.Complete e) {kind : AttributeKind}
    (hkind : kind ∈ e.required) : FailsPlain (requiredAttribute a kind) := by
  obtain ⟨value, hvalue⟩ := Option.isSome_iff_exists.mp (h kind hkind)
  rw [requiredAttribute, AttributeValues.required_eq_ok hvalue]
  exact failsPlain_pure value

theorem failsPlain_unsignedAttribute (a : AttributeValues) (kind : AttributeKind) :
    FailsPlain (unsignedAttribute a kind) := by
  rw [unsignedAttribute]
  split
  · exact failsPlain_pure _
  · split
    · exact failsPlain_pure _
    · exact failsPlain_fault rfl

theorem failsPlain_signedAttribute (a : AttributeValues) (kind : AttributeKind) :
    FailsPlain (signedAttribute a kind) := by
  rw [signedAttribute]
  split
  · exact failsPlain_pure _
  · split
    · exact failsPlain_pure _
    · exact failsPlain_fault rfl

theorem failsPlain_openMixer (number : Nat) : FailsPlain (openMixer number) :=
  failsPlain_get_bind fun _ => failsPlain_bind (failsPlain_ofResult (foreign_openMixer _ _)) fun _ =>
    failsPlain_modify _

theorem failsPlain_mixerCard (a : AttributeValues) : FailsPlain (mixerCard a) := by
  rw [mixerCard]
  split
  · exact failsPlain_fault rfl
  · exact failsPlain_bind (failsPlain_unsignedAttribute a _) fun _ => failsPlain_pure _
  · exact failsPlain_get_bind fun _ => failsPlain_need rfl _
  · exact failsPlain_fault rfl

theorem failsPlain_beginMixer (a : AttributeValues) : FailsPlain (beginMixer a) := by
  refine failsPlain_bind (failsPlain_mixerCard a) fun number => failsPlain_get_bind fun s => ?_
  have hopen := failsPlain_then_modify (failsPlain_openMixer number) fun _ s => { s with card := number }
  split
  · exact failsPlain_bind (failsPlain_modify _) fun _ => hopen
  · exact hopen

theorem failsPlain_endPreInit (disk : Disk) : FailsPlain (endPreInit disk) := by
  refine failsPlain_get_bind fun s => failsPlain_bind (failsPlain_need rfl _) fun desk => ?_
  refine failsPlain_bind (failsPlain_set _) fun _ => ?_
  exact failsPlain_then_modify (failsPlain_openMixer _) _

theorem failsPlain_beginDevice (h : a.Complete .device) : FailsPlain (beginDevice a) := by
  refine failsPlain_bind (failsPlain_requiredAttribute h (by decide)) fun name => ?_
  refine failsPlain_bind (failsPlain_need rfl _) fun mask => failsPlain_get_bind fun s => ?_
  dsimp only
  have hdeclare : FailsPlain (do
      let devices ← ofResult ((← get).model.devices.push (.blank mask))
      modify fun s =>
        { s with
          model := { s.model with devices := devices }
          cursor := { s.cursor with device := some (devices.size - 1) } }) :=
    failsPlain_get_bind fun _ => failsPlain_then_modify (failsPlain_ofResult (foreign_push _)) _
  have hrepeated : FailsPlain (fault (.deviceRepeated name) : LoadM PUnit) := failsPlain_fault rfl
  split
  · split
    · exact failsPlain_bind hrepeated fun _ => hdeclare
    · exact hdeclare
  · split
    · split
      · exact failsPlain_bind hrepeated fun _ => failsPlain_bind (failsPlain_modify _) fun _ => hdeclare
      · exact failsPlain_bind (failsPlain_modify _) fun _ => hdeclare
    · split
      · exact failsPlain_bind hrepeated fun _ => failsPlain_bind (failsPlain_modify _) fun _ => hdeclare
      · exact failsPlain_bind (failsPlain_modify _) fun _ => hdeclare

theorem failsPlain_pathIdOf (name : String) : FailsPlain (pathIdOf name) := by
  refine failsPlain_get_bind fun s => ?_
  split
  · exact failsPlain_pure _
  · refine failsPlain_get_bind fun _ => failsPlain_bind (failsPlain_ofResult (foreign_push _)) fun names => ?_
    exact failsPlain_bind (failsPlain_modify _) fun _ => failsPlain_pure _

theorem failsPlain_beginPath (h : a.Complete .path) : FailsPlain (beginPath a) := by
  refine failsPlain_bind (failsPlain_requiredAttribute h (by decide)) fun name => ?_
  refine failsPlain_bind (failsPlain_pathIdOf name) fun id => failsPlain_get_bind fun s => ?_
  refine failsPlain_bind (failsPlain_need rfl _) fun place => ?_
  refine failsPlain_bind (failsPlain_need rfl _) fun device => ?_
  have hpush : ∀ paths : Except Error (GranularArray Path), Foreign paths → FailsPlain (do
      let paths ← ofResult paths
      set { s with
        model := s.model.modifyDevice place fun d => { d with paths := paths }
        cursor := { s.cursor with path := some (paths.size - 1) } }) :=
    fun _ hpaths => failsPlain_bind (failsPlain_ofResult hpaths) fun _ => failsPlain_set _
  split
  · exact failsPlain_bind (failsPlain_fault rfl) fun _ => hpush _ (foreign_push _)
  · exact hpush _ (foreign_push _)

theorem failsPlain_pushToPath (b : Assignment) : FailsPlain (pushToPath b) := by
  refine failsPlain_get_bind fun s => ?_
  refine failsPlain_bind (failsPlain_need rfl _) fun d => ?_
  refine failsPlain_bind (failsPlain_need rfl _) fun p => ?_
  refine failsPlain_bind (failsPlain_need rfl _) fun device => ?_
  refine failsPlain_bind (failsPlain_need rfl _) fun path => ?_
  exact failsPlain_bind (failsPlain_ofResult (foreign_push _)) fun _ => failsPlain_set _

theorem failsPlain_pushToCase (b : Assignment) : FailsPlain (pushToCase b) := by
  refine failsPlain_get_bind fun s => ?_
  refine failsPlain_bind (failsPlain_need rfl _) fun u => ?_
  refine failsPlain_bind (failsPlain_need rfl _) fun c => ?_
  refine failsPlain_bind (failsPlain_need rfl _) fun id => ?_
  refine failsPlain_bind (failsPlain_need rfl _) fun stream => ?_
  refine failsPlain_bind (failsPlain_need rfl _) fun useCase => ?_
  refine failsPlain_bind (failsPlain_need rfl _) fun caseOf => ?_
  exact failsPlain_bind (failsPlain_ofResult (foreign_push _)) fun _ => failsPlain_set _

theorem failsPlain_pushAssignment (parent : Option ElementKind) (b : Assignment) :
    FailsPlain (pushAssignment parent b) := by
  unfold pushAssignment
  split
  · exact failsPlain_pushToPath b
  · exact failsPlain_pushToCase b
  · exact failsPlain_get_bind fun _ => failsPlain_then_modify (failsPlain_ofResult (foreign_push _)) _
  · exact failsPlain_get_bind fun _ => failsPlain_then_modify (failsPlain_ofResult (foreign_push _)) _
  · exact failsPlain_fault rfl

theorem failsPlain_bindEarly (disk : Disk) (b : Assignment) : FailsPlain (bindEarly disk b) := by
  refine failsPlain_get_bind fun s => ?_
  split
  · exact failsPlain_pure b
  · rename_i desk _
    have hforeign := foreign_bindMixer disk desk.card desk.mixer b
    refine failsPlain_bind (failsPlain_modify _) fun _ => ?_
    split
    · exact failsPlain_pure _
    · exact failsPlain_pure _
    · rename_i e _ he
      exact failsPlain_throw (Error.plain_of_foreign (hforeign e he))

theorem failsPlain_beginControl (parent : Option ElementKind) (h : a.Complete .control) :
    FailsPlain (beginControl disk parent a) := by
  refine failsPlain_bind (failsPlain_requiredAttribute h (by decide)) fun name => ?_
  refine failsPlain_bind (failsPlain_unsignedAttribute a _) fun i => ?_
  have hdeclared : ∀ index value, FailsPlain (do
      let b ← bindEarly disk (.declared name index value)
      pushAssignment parent b) :=
    fun _ _ => failsPlain_bind (failsPlain_bindEarly disk _) fun b => failsPlain_pushAssignment parent b
  cases i
  all_goals
    refine failsPlain_bind (failsPlain_pure _) fun index => ?_
    split
    · exact failsPlain_get_bind fun _ => failsPlain_bind (failsPlain_pure _) fun value => hdeclared index value
    · exact failsPlain_bind (failsPlain_pure _) fun value => hdeclared index value
    · exact failsPlain_bind (failsPlain_fault rfl) fun value => hdeclared index value

theorem failsPlain_streamDirection (a : AttributeValues) (isGlobal : Bool) :
    FailsPlain (streamDirection a isGlobal) := by
  unfold streamDirection
  split
  · split
    · exact failsPlain_pure _
    · exact failsPlain_fault rfl
  · exact failsPlain_pure _
  · exact failsPlain_pure _
  · exact failsPlain_fault rfl

theorem failsPlain_streamType (h : a.Complete .stream) (isOutput : Bool) : FailsPlain (streamType a isOutput) := by
  refine failsPlain_bind (failsPlain_requiredAttribute h (by decide)) fun text => ?_
  split
  · split
    · exact failsPlain_fault rfl
    · split <;> exact failsPlain_pure _
  · exact failsPlain_pure _
  · exact failsPlain_pure _
  · exact failsPlain_fault rfl

theorem failsPlain_streamEndpoint (a : AttributeValues) (type : StreamType) :
    FailsPlain (streamEndpoint a type) := by
  refine failsPlain_bind (failsPlain_unsignedAttribute a _) fun card => failsPlain_get_bind fun _ => ?_
  refine failsPlain_bind (failsPlain_unsignedAttribute a _) fun device => ?_
  refine failsPlain_bind (failsPlain_unsignedAttribute a _) fun rate => ?_
  refine failsPlain_bind (failsPlain_unsignedAttribute a _) fun periodSize => ?_
  exact failsPlain_bind (failsPlain_unsignedAttribute a _) fun periodCount => failsPlain_pure _

theorem failsPlain_pushStream (stream : Stream) : FailsPlain (pushStream stream) := by
  refine failsPlain_get_bind fun s => ?_
  split
  · exact failsPlain_then_modify (failsPlain_ofResult (foreign_push _)) _
  · exact failsPlain_then_modify (failsPlain_ofResult (foreign_push _)) _

theorem failsPlain_beginStream (h : a.Complete .stream) : FailsPlain (beginStream a) := by
  have htyped : ∀ (name : Option String) (type : StreamType), FailsPlain (do
      let endpoint ← streamEndpoint a type
      let instances ← unsignedAttribute a .instances
      pushStream (.blank name endpoint (instances.getD unlimitedInstances))) :=
    fun _ type => failsPlain_bind (failsPlain_streamEndpoint a type) fun _ =>
      failsPlain_bind (failsPlain_unsignedAttribute a _) fun _ => failsPlain_pushStream _
  have hnamed : ∀ name : Option String, FailsPlain (do
      let isGlobal := name == some "global"
      let isOutput ← streamDirection a isGlobal
      let type ← if isGlobal then pure StreamType.global else streamType a isOutput
      let endpoint ← streamEndpoint a type
      let instances ← unsignedAttribute a .instances
      pushStream (.blank name endpoint (instances.getD unlimitedInstances))) := by
    intro name
    refine failsPlain_bind (failsPlain_streamDirection a _) fun isOutput => ?_
    split
    · exact failsPlain_bind (failsPlain_pure _) fun type => htyped name type
    · exact failsPlain_bind (failsPlain_streamType h isOutput) fun type => htyped name type
  simp only [beginStream]
  split
  · refine failsPlain_get_bind fun s => ?_
    split
    · exact failsPlain_bind (failsPlain_fault rfl) fun _ => hnamed _
    · exact hnamed _
  · exact hnamed _

theorem failsPlain_modifyOpenStream {f : Stream → LoadM Stream} (h : ∀ stream, FailsPlain (f stream)) :
    FailsPlain (modifyOpenStream f) := by
  refine failsPlain_get_bind fun s => ?_
  refine failsPlain_bind (failsPlain_need rfl _) fun id => ?_
  refine failsPlain_bind (failsPlain_need rfl _) fun stream => ?_
  exact failsPlain_then_modify (h stream) _

theorem failsPlain_beginRoutePath {e : ElementKind} (h : a.Complete e) (hpath : .path ∈ e.required) (enable : Bool) :
    FailsPlain (beginRoutePath enable a) := by
  refine failsPlain_bind (failsPlain_requiredAttribute h hpath) fun name => failsPlain_get_bind fun s => ?_
  refine failsPlain_bind (failsPlain_need rfl _) fun id => ?_
  exact failsPlain_modifyOpenStream fun _ => failsPlain_pure _

theorem failsPlain_bindVolumeEarly (v : VolumeControl) : FailsPlain (bindVolumeEarly v) := by
  refine failsPlain_get_bind fun s => failsPlain_bind (failsPlain_need rfl _) fun desk => ?_
  have hforeign := foreign_bindVolume desk.card desk.mixer v
  refine failsPlain_bind (failsPlain_modify _) fun _ => ?_
  split
  · exact failsPlain_pure _
  · exact failsPlain_fault rfl
  · exact failsPlain_fault rfl
  · rename_i e _ _ he
    exact failsPlain_throw (Error.plain_of_foreign (hforeign e he))

theorem failsPlain_isLeftVolume (function : String) : FailsPlain (isLeftVolume function) := by
  unfold isLeftVolume
  split
  · exact failsPlain_pure _
  · exact failsPlain_pure _
  · exact failsPlain_fault rfl

theorem failsPlain_beginVolume (h : a.Complete .volume) : FailsPlain (beginVolume a) := by
  refine failsPlain_bind (failsPlain_requiredAttribute h (by decide)) fun name => ?_
  refine failsPlain_bind (failsPlain_requiredAttribute h (by decide)) fun function => ?_
  refine failsPlain_bind (failsPlain_unsignedAttribute a _) fun index => ?_
  refine failsPlain_bind (failsPlain_bindVolumeEarly _) fun ⟨desk, bound, id⟩ => ?_
  refine failsPlain_bind (failsPlain_isLeftVolume function) fun left => ?_
  refine failsPlain_bind (failsPlain_ofResult (foreign_range _ _)) fun ends => ?_
  refine failsPlain_bind (failsPlain_signedAttribute a _) fun low => ?_
  refine failsPlain_bind (failsPlain_signedAttribute a _) fun high => ?_
  exact failsPlain_modifyOpenStream fun _ => failsPlain_pure _

theorem failsPlain_beginUseCase (h : a.Complete .useCase) : FailsPlain (beginUseCase a) := by
  refine failsPlain_bind (failsPlain_requiredAttribute h (by decide)) fun name => ?_
  refine failsPlain_modifyOpenStream fun stream => ?_
  refine failsPlain_bind (failsPlain_ofResult (foreign_push _)) fun _ => ?_
  exact failsPlain_bind (failsPlain_modify _) fun _ => failsPlain_pure _

theorem failsPlain_beginUseCaseCase (h : a.Complete .useCaseCase) : FailsPlain (beginUseCaseCase a) := by
  refine failsPlain_bind (failsPlain_requiredAttribute h (by decide)) fun name => failsPlain_get_bind fun s => ?_
  refine failsPlain_bind (failsPlain_need rfl _) fun place => ?_
  refine failsPlain_modifyOpenStream fun stream => ?_
  refine failsPlain_bind (failsPlain_need rfl _) fun useCase => ?_
  refine failsPlain_bind (failsPlain_ofResult (foreign_push _)) fun _ => ?_
  exact failsPlain_bind (failsPlain_modify _) fun _ => failsPlain_pure _

theorem failsPlain_beginConstant (h : a.Complete .constant) : FailsPlain (beginConstant a) := by
  refine failsPlain_bind (failsPlain_requiredAttribute h (by decide)) fun name => ?_
  refine failsPlain_bind (failsPlain_requiredAttribute h (by decide)) fun value => ?_
  refine failsPlain_modifyOpenStream fun stream => ?_
  exact failsPlain_bind (failsPlain_ofResult (foreign_push _)) fun _ => failsPlain_pure _

theorem failsPlain_beginCodecProbe (h : a.Complete .codecProbe) : FailsPlain (beginCodecProbe a) := by
  have hdeclare : FailsPlain (do
      let file ← requiredAttribute a .file
      modify fun s => { s with probe := some ⟨s.file.resolve file, .empty⟩ }) :=
    failsPlain_then_modify (failsPlain_requiredAttribute h (by decide)) _
  refine failsPlain_get_bind fun s => ?_
  split
  · exact failsPlain_bind (failsPlain_fault rfl) fun _ => hdeclare
  · exact hdeclare

theorem failsPlain_beginCodecCase (h : a.Complete .codecCase) : FailsPlain (beginCodecCase a) := by
  refine failsPlain_bind (failsPlain_requiredAttribute h (by decide)) fun codec => ?_
  refine failsPlain_bind (failsPlain_requiredAttribute h (by decide)) fun file => failsPlain_get_bind fun s => ?_
  refine failsPlain_bind (failsPlain_need rfl _) fun probe => ?_
  exact failsPlain_bind (failsPlain_ofResult (foreign_push _)) fun _ => failsPlain_set _

theorem failsPlain_endCodecProbe (disk : Disk) : FailsPlain (endCodecProbe disk) := by
  refine failsPlain_get_bind fun s => ?_
  split
  · exact failsPlain_pure _
  · refine failsPlain_bind (failsPlain_ofResult (foreign_readProbe disk _)) fun codec => ?_
    split
    · exact failsPlain_pure _
    · split
      · exact failsPlain_pure _
      · split
        · exact failsPlain_fault rfl
        · exact failsPlain_pure _

/-- What an element with all its attributes may fail with when it begins. -/
theorem failsPlain_beginElement (disk : Disk) (parent : Option ElementKind) {e : ElementKind} (h : a.Complete e) :
    FailsPlain (beginElement disk parent a e) := by
  cases e with
  | control => exact failsPlain_beginControl parent h
  | path => exact failsPlain_beginPath h
  | device => exact failsPlain_beginDevice h
  | stream => exact failsPlain_beginStream h
  | enable => exact failsPlain_beginRoutePath h (by decide) true
  | disable => exact failsPlain_beginRoutePath h (by decide) false
  | useCaseCase => exact failsPlain_beginUseCaseCase h
  | useCase => exact failsPlain_beginUseCase h
  | constant => exact failsPlain_beginConstant h
  | volume => exact failsPlain_beginVolume h
  | mixer => exact failsPlain_beginMixer a
  | codecProbe => exact failsPlain_beginCodecProbe h
  | codecCase => exact failsPlain_beginCodecCase h
  | init | preInit | root => exact failsPlain_pure ()

/-- What an element may fail with when it ends. -/
theorem failsPlain_endElement (disk : Disk) (e : ElementKind) : FailsPlain (endElement disk e) := by
  cases e with
  | preInit => exact failsPlain_bind (failsPlain_endPreInit disk) fun _ => failsPlain_pure none
  | codecProbe => exact failsPlain_endCodecProbe disk
  | device | path | stream | useCase | useCaseCase =>
    exact failsPlain_bind (failsPlain_modify _) fun _ => failsPlain_pure none
  | control | enable | disable | constant | volume | init | mixer | root | codecCase => exact failsPlain_pure none

theorem failsPlain_closeElement (disk : Disk) : FailsPlain (closeElement disk) := by
  refine failsPlain_get_bind fun s => ?_
  split
  · exact failsPlain_pure none
  · refine failsPlain_bind (failsPlain_modify _) fun _ => ?_
    split
    · exact failsPlain_endElement disk _
    · exact failsPlain_pure none

end Config

end SoundRouting
