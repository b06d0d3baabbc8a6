import SoundRouting.Proofs.Load.Handlers
/-!
What elements do not look at.

An element that is no part of a codec probe does the same whatever probe the file has declared and whatever
files have been taken up before, and on any disk on which the files it names have the same bytes. What it
does never fails as an element that is not allowed where it stands, and fails as one without what it belongs to
only if that is not there.
-/
namespace SoundRouting

/-- What is wrong with the place of an element: it is not allowed there, or what it belongs to is not there. -/
inductive Misplacement where
  | refused
  | astray
  deriving DecidableEq, Repr

def ConfigFault.misplacement? : ConfigFault → Option Misplacement
  | .elementNotAllowed _ => some .refused
  | .pathOutsideDevice | .controlOutsideList | .outsideStream | .caseOutsideUseCase | .caseOutsideProbe
  | .mixerNotOpen => some .astray
  | _ => none

def Error.misplacement? : Error → Option Misplacement
  | .config _ fault => fault.misplacement?
  | _ => none

def Error.fault? : Error → Option ConfigFault
  | .config _ fault => some fault
  | _ => none

@[simp] theorem Error.misplacement?_atLine (e : Error) (line : Nat) :
    (e.atLine line).misplacement? = e.misplacement? := by
  cases e with
  | config l fault => cases l <;> rfl
  | _ => rfl

namespace Config

open LoadM Runs

/-- A result that finds no fault with the place of an element. -/
def Spares {α : Type} (r : Except Error α) : Prop :=
  ∀ e, r = .error e → e.misplacement? = none

/-- A result that finds no fault with the configuration. -/
def Foreign {α : Type} (r : Except Error α) : Prop :=
  ∀ e, r = .error e → e.fault? = none

def Avoids {α : Type} (k : Misplacement) (r : Except Error α) : Prop :=
  ∀ e, r = .error e → e.misplacement? ≠ some k

def State.device? (s : State) : Option Device := do
  let d ← s.cursor.device
  s.model.devices.get? d

def State.path? (s : State) : Option Path := do
  let d ← s.cursor.device
  let p ← s.cursor.path
  let device ← s.model.devices.get? d
  device.paths.get? p

def State.stream? (s : State) : Option Stream := do
  let id ← s.cursor.stream
  s.model.stream? id

def State.useCase? (s : State) : Option UseCase := do
  let u ← s.cursor.useCase
  let stream ← s.stream?
  stream.useCases.get? u

def State.useCaseCase? (s : State) : Option Case := do
  let u ← s.cursor.useCase
  let c ← s.cursor.useCaseCase
  let id ← s.cursor.stream
  let stream ← s.model.stream? id
  let useCase ← stream.useCases.get? u
  useCase.cases.get? c

/-- Whether the list of this element is there to be added to. -/
def State.lists (s : State) : Option ElementKind → Bool
  | some .path => s.path?.isSome
  | some .useCaseCase => s.useCaseCase?.isSome
  | some .init | some .preInit => true
  | _ => false

/-- Whether what an element belongs to is there when it begins inside of `parent`. -/
def State.receives (s : State) (parent : Option ElementKind) : ElementKind → Bool
  | .control => s.lists parent
  | .path => s.device?.isSome
  | .enable | .disable | .useCase | .constant => s.stream?.isSome
  | .volume => s.desk?.isSome && s.stream?.isSome
  | .useCaseCase => s.useCase?.isSome
  | .codecCase => s.probe.isSome
  | _ => true

/-- The same state with another codec probe, and after other files. -/
def State.reframe (s : State) (probe : Option CodecProbe) (visited : List Location) : State :=
  { s with probe := probe, visited := visited }

theorem State.frames_reframe (s : State) (probe : Option CodecProbe) (visited : List Location) :
    (s.reframe probe visited).frames = s.frames :=
  rfl

theorem State.preInit_reframe (s : State) (probe : Option CodecProbe) (visited : List Location) :
    (s.reframe probe visited).preInit = s.preInit :=
  rfl

/-- From states that differ in the codec probe and in the earlier files only, the actions have the same
result and get to such states again; they do not find this fault with the place of an element. -/
def Alike {α : Type} (k : Misplacement) (probe : Option CodecProbe) (visited : List Location) (s : State)
    (x y : LoadM α) : Prop :=
  x.run.run (s.reframe probe visited) = ((y.run.run s).1, (y.run.run s).2.reframe probe visited)
    ∧ Avoids k (y.run.run s).1

variable {α β : Type} {k : Misplacement} {probe : Option CodecProbe} {visited : List Location} {s t : State} {x y : LoadM α}
  {disk disk' : Disk} {a : AttributeValues}

theorem spares_ok (c : α) : Spares (.ok c : Except Error α) := nofun

theorem spares_error {e : Error} (h : e.misplacement? = none) : Spares (.error e : Except Error α) := by
  rintro _ ⟨⟩
  exact h

theorem foreign_ok (c : α) : Foreign (.ok c : Except Error α) := nofun

theorem foreign_error {e : Error} (h : e.fault? = none) : Foreign (.error e : Except Error α) := by
  rintro _ ⟨⟩
  exact h

theorem Foreign.spares {r : Except Error α} (h : Foreign r) : Spares r := by
  intro e he
  have hforeign := h e he
  cases e with
  | config => cases hforeign
  | _ => rfl

theorem Spares.avoids {r : Except Error α} (h : Spares r) : Avoids k r := by
  intro e he
  rw [h e he]
  nofun

theorem avoids_ok (c : α) : Avoids k (.ok c : Except Error α) := nofun

theorem avoids_error {e : Error} (h : e.misplacement? ≠ some k) : Avoids k (.error e : Except Error α) := by
  rintro _ ⟨⟩
  exact h

theorem Alike.runs (h : Alike k probe visited s x y) {c : α} (hrun : Runs y s c t) :
    Runs x (s.reframe probe visited) c (t.reframe probe visited) := by
  rw [Runs] at *
  rw [h.1, hrun]

theorem alike_pure (c : α) : Alike k probe visited s (pure c) (pure c) :=
  ⟨rfl, avoids_ok c⟩

theorem alike_throw {e : Error} (h : e.misplacement? = none) :
    Alike k probe visited s (throw e : LoadM α) (throw e) :=
  ⟨rfl, (spares_error h).avoids⟩

theorem alike_fault {f : ConfigFault} (h : (Error.ofConfig f).misplacement? = none) :
    Alike k probe visited s (LoadM.fault f : LoadM α) (LoadM.fault f) :=
  alike_throw h

theorem alike_need {f : ConfigFault} (h : (Error.ofConfig f).misplacement? = none) (o : Option α) :
    Alike k probe visited s (LoadM.need f o) (LoadM.need f o) := by
  cases o with
  | none => exact alike_fault h
  | some c => exact alike_pure c

/-- What an element belongs to is found missing only if it is. -/
theorem alike_belongs {f : ConfigFault} (hf : (Error.ofConfig f).misplacement? = some .astray) {o : Option α}
    (h : k = .astray → o.isSome = true) : Alike k probe visited s (LoadM.need f o) (LoadM.need f o) := by
  cases o with
  | none =>
    refine ⟨rfl, avoids_error ?_⟩
    rw [hf]
    rintro ⟨⟩
    exact Bool.false_ne_true (h rfl)
  | some c => exact alike_pure c

theorem alike_ofResult {r : Except Error α} (h : Spares r) :
    Alike k probe visited s (LoadM.ofResult r) (LoadM.ofResult r) := by
  cases r with
  | error e => exact alike_throw (h e rfl)
  | ok c => exact alike_pure c

theorem alike_bind {f g : α → LoadM β} (h : Alike k probe visited s x y)
    (hf : ∀ c t, Runs y s c t → Alike k probe visited t (f c) (g c)) :
    Alike k probe visited s (x >>= f) (y >>= g) := by
  rw [Alike, run_bind, run_bind, h.1]
  cases hrun : y.run.run s with
  | mk result t =>
    cases result with
    | ok c => exact hf c t hrun
    | error e => exact ⟨rfl, avoids_error (h.2 e (by rw [hrun]))⟩

/-- One thing that an element belongs to after the other is found missing only if it is. -/
theorem alike_belongs_bind {γ : Type} {fault : ConfigFault} (hf : (Error.ofConfig fault).misplacement? = some .astray)
    {o : Option α} {more : α → Option γ} {f g : α → LoadM β} (h : k = .astray → (o >>= more).isSome = true)
    (hfg : ∀ c, o = some c → (k = .astray → (more c).isSome = true) → Alike k probe visited s (f c) (g c)) :
    Alike k probe visited s (LoadM.need fault o >>= f) (LoadM.need fault o >>= g) := by
  cases o with
  | none =>
    refine alike_bind (alike_belongs hf h) fun c t hc => ?_
    cases (need_iff.mp hc).1
  | some c => exact hfg c rfl h

theorem alike_get {f g : State → LoadM α} (h : Alike k probe visited s (f (s.reframe probe visited)) (g s)) :
    Alike k probe visited s (get >>= f) (get >>= g) :=
  h

theorem alike_set {u u' : State} (h : u' = u.reframe probe visited) :
    Alike k probe visited s (set u' : LoadM PUnit) (set u) := by
  rw [h]
  exact ⟨rfl, avoids_ok _⟩

theorem alike_modify {f f' : State → State} (h : f' (s.reframe probe visited) = (f s).reframe probe visited) :
    Alike k probe visited s (modify f' : LoadM PUnit) (modify f) := by
  refine ⟨?_, avoids_ok _⟩
  change (_, f' (s.reframe probe visited)) = _
  rw [h]
  rfl

/-! ### Results that find no fault with the configuration, or with the place of an element -/

theorem foreign_push {a : GranularArray α} (c : α) : Foreign (a.push c) := by
  simp only [GranularArray.push, GranularArray.grownCapacity]
  split
  · exact foreign_ok _
  · rename_i hgrown
    split at hgrown
    · cases hgrown
    · split at hgrown <;> cases hgrown
      exact foreign_error rfl

theorem spares_required (a : AttributeValues) (kind : AttributeKind) : Spares (a.required kind) := by
  rw [AttributeValues.required]
  split
  · exact spares_ok _
  · exact spares_error rfl

theorem spares_ofWritten (e : ElementKind) (written : List (String × String)) :
    Spares (AttributeValues.ofWritten e written) := by
  have hcollect : ∀ (written : List (String × String)) (a : AttributeValues),
      Spares (AttributeValues.collect e a written) := by
    intro written
    induction written with
    | nil => exact fun a => spares_ok _
    | cons first more ih =>
      intro a
      rw [AttributeValues.collect]
      split
      · exact ih _
      · exact spares_error rfl
  rw [AttributeValues.ofWritten]
  split
  · rename_i error herror
    exact spares_error (hcollect _ _ error herror)
  · split
    · exact spares_ok _
    · exact spares_error rfl

theorem foreign_openMixer (rack : Rack) (number : Nat) : Foreign (rack.openMixer number) := by
  rw [Rack.openMixer]
  split
  · exact foreign_error rfl
  · exact foreign_ok _

theorem foreign_range (card : Card) (id : Nat) : Foreign (card.range id) := by
  simp only [Card.range, Card.query, Card.control]
  split
  · rename_i herror
    split at herror <;> cases herror
    exact foreign_error rfl
  · split
    · exact foreign_ok _
    · exact foreign_error rfl

theorem foreign_readProbe (disk : Disk) (file : Location) : Foreign (Probe.read disk file) := by
  rw [Probe.read]
  split
  · exact foreign_ok _
  · exact foreign_ok _
  · exact foreign_error rfl

/-! ### The elements -/

theorem alike_unsignedAttribute (a : AttributeValues) (kind : AttributeKind) :
    Alike k probe visited s (unsignedAttribute a kind) (unsignedAttribute a kind) := by
  rw [unsignedAttribute]
  split
  · exact alike_pure _
  · split
    · exact alike_pure _
    · exact alike_fault rfl

theorem alike_signedAttribute (a : AttributeValues) (kind : AttributeKind) :
    Alike k probe visited s (signedAttribute a kind) (signedAttribute a kind) := by
  rw [signedAttribute]
  split
  · exact alike_pure _
  · split
    · exact alike_pure _
    · exact alike_fault rfl

theorem alike_requiredAttribute (a : AttributeValues) (kind : AttributeKind) :
    Alike k probe visited s (requiredAttribute a kind) (requiredAttribute a kind) :=
  alike_ofResult (spares_required a kind)

theorem alike_openMixer (number : Nat) :
    Alike k probe visited s (openMixer number) (openMixer number) :=
  alike_get (alike_bind (alike_ofResult (foreign_openMixer _ _).spares) fun _ _ _ => alike_modify rfl)

theorem alike_mixerCard (a : AttributeValues) : Alike k probe visited s (mixerCard a) (mixerCard a) := by
  rw [mixerCard]
  split
  · exact alike_fault rfl
  · exact alike_bind (alike_unsignedAttribute a _) fun _ _ _ => alike_pure _
  · exact alike_get (alike_need rfl _)
  · exact alike_fault rfl

theorem alike_beginMixer (a : AttributeValues) : Alike k probe visited s (beginMixer a) (beginMixer a) := by
  refine alike_bind (alike_mixerCard a) fun number t _ => alike_get ?_
  by_cases hmixer : t.mixer.isSome = true
  · rw [if_pos hmixer, if_pos (by exact hmixer)]
    refine alike_bind (alike_modify rfl) fun _ _ _ => ?_
    exact alike_bind (alike_openMixer number) fun _ _ _ => alike_modify rfl
  · rw [if_neg hmixer, if_neg (by exact hmixer)]
    exact alike_bind (alike_openMixer number) fun _ _ _ => alike_modify rfl

/-- Writes that come before everything else are applied alike if the files they name have the same bytes. -/
theorem alike_endPreInit (hdesk : k = .astray → s.desk?.isSome = true)
    (happly : ∀ desk, s.desk? = some desk → desk.apply disk' s.preInit.toList = desk.apply disk s.preInit.toList) :
    Alike k probe visited s (endPreInit disk') (endPreInit disk) := by
  refine alike_get (alike_bind (alike_belongs rfl hdesk) fun desk t hneed => ?_)
  obtain ⟨hsome, rfl⟩ := need_iff.mp hneed
  rw [State.preInit_reframe, happly desk hsome]
  refine alike_bind (alike_set rfl) fun _ _ _ => ?_
  exact alike_bind (alike_openMixer s.card) fun _ _ _ => alike_modify rfl

theorem alike_beginDevice (a : AttributeValues) : Alike k probe visited s (beginDevice a) (beginDevice a) := by
  have hdeclare : ∀ (mask : DeviceMask) (t : State), Alike k probe visited t
      (do
        let devices ← ofResult ((← get).model.devices.push (.blank mask))
        modify fun s =>
          { s with
            model := { s.model with devices := devices }
            cursor := { s.cursor with device := some (devices.size - 1) } })
      (do
        let devices ← ofResult ((← get).model.devices.push (.blank mask))
        modify fun s =>
          { s with
            model := { s.model with devices := devices }
            cursor := { s.cursor with device := some (devices.size - 1) } }) :=
    fun mask t => alike_get (alike_bind (alike_ofResult (foreign_push _).spares) fun _ _ _ => alike_modify rfl)
  refine alike_bind (alike_requiredAttribute a _) fun name t _ => ?_
  refine alike_bind (alike_need rfl _) fun mask t _ => alike_get ?_
  dsimp only [State.reframe]
  split
  · split
    · exact alike_bind (alike_fault rfl) fun _ t _ => hdeclare mask t
    · exact hdeclare mask t
  · split
    · split
      · exact alike_bind (alike_fault rfl) fun _ t _ => alike_bind (alike_modify rfl) fun _ t _ => hdeclare mask t
      · exact alike_bind (alike_modify rfl) fun _ t _ => hdeclare mask t
    · split
      · exact alike_bind (alike_fault rfl) fun _ t _ => alike_bind (alike_modify rfl) fun _ t _ => hdeclare mask t
      · exact alike_bind (alike_modify rfl) fun _ t _ => hdeclare mask t

theorem alike_pathIdOf (name : String) : Alike k probe visited s (pathIdOf name) (pathIdOf name) := by
  refine alike_get ?_
  dsimp only [State.reframe]
  split
  · exact alike_pure _
  · refine alike_get (alike_bind (alike_ofResult (foreign_push _).spares) fun names t _ => ?_)
    exact alike_bind (alike_modify rfl) fun _ _ _ => alike_pure _

theorem isSome_of_bind {o : Option α} {f : α → Option β} (h : (o >>= f).isSome = true) : o.isSome = true := by
  cases o with
  | none => cases h
  | some c => rfl

theorem alike_beginPath (hdevice : k = .astray → s.device?.isSome = true) (a : AttributeValues) :
    Alike k probe visited s (beginPath a) (beginPath a) := by
  refine alike_bind (alike_requiredAttribute a _) fun name t ht => ?_
  obtain ⟨-, rfl⟩ := ofResult_iff.mp ht
  refine alike_bind (alike_pathIdOf name) fun id t ht => alike_get ?_
  obtain ⟨names, rfl, -⟩ := runs_pathIdOf ht
  refine alike_belongs_bind rfl hdevice fun place _ hplace => ?_
  refine alike_bind (alike_belongs rfl hplace) fun device u hu => ?_
  obtain ⟨-, rfl⟩ := need_iff.mp hu
  split
  · exact alike_bind (alike_fault rfl) fun _ _ h => absurd h fault_iff
  · exact alike_bind (alike_ofResult (foreign_push _).spares) fun _ _ _ => alike_set rfl

theorem alike_pushToPath (hpath : k = .astray → s.path?.isSome = true) (b : Assignment) :
    Alike k probe visited s (pushToPath b) (pushToPath b) := by
  refine alike_get ?_
  refine alike_belongs_bind rfl hpath fun d _ hpath => ?_
  refine alike_belongs_bind rfl hpath fun p _ hpath => ?_
  refine alike_belongs_bind rfl hpath fun device _ hpath => ?_
  refine alike_bind (alike_belongs rfl hpath) fun path _ _ => ?_
  exact alike_bind (alike_ofResult (foreign_push _).spares) fun _ _ _ => alike_set rfl

theorem alike_pushToCase (hcase : k = .astray → s.useCaseCase?.isSome = true) (b : Assignment) :
    Alike k probe visited s (pushToCase b) (pushToCase b) := by
  refine alike_get ?_
  refine alike_belongs_bind rfl hcase fun u _ hcase => ?_
  refine alike_belongs_bind rfl hcase fun c _ hcase => ?_
  refine alike_belongs_bind rfl hcase fun id _ hcase => ?_
  refine alike_belongs_bind rfl hcase fun stream _ hcase => ?_
  refine alike_belongs_bind rfl hcase fun useCase _ hcase => ?_
  refine alike_bind (alike_belongs rfl hcase) fun caseOf _ _ => ?_
  exact alike_bind (alike_ofResult (foreign_push _).spares) fun _ _ _ => alike_set rfl

theorem alike_pushAssignment {parent : Option ElementKind} (hlists : k = .astray → s.lists parent = true)
    (b : Assignment) : Alike k probe visited s (pushAssignment parent b) (pushAssignment parent b) := by
  unfold pushAssignment
  split
  · exact alike_pushToPath hlists b
  · exact alike_pushToCase hlists b
  · exact alike_get (alike_bind (alike_ofResult (foreign_push _).spares) fun _ _ _ => alike_modify rfl)
  · exact alike_get (alike_bind (alike_ofResult (foreign_push _).spares) fun _ _ _ => alike_modify rfl)
  · rename_i hpath hcase hinit hpre
    refine ⟨rfl, avoids_error ?_⟩
    rintro ⟨⟩
    refine Bool.false_ne_true (Eq.trans ?_ (hlists rfl))
    unfold State.lists
    split <;> first | rfl | contradiction

theorem foreign_lookup (m : Mixer) (card : Card) (name : String) : Foreign (m.lookup card name).2 := by
  rw [Mixer.lookup]
  split
  · exact foreign_ok _
  · dsimp only
    split
    · exact foreign_ok _
    · exact foreign_error rfl

theorem foreign_lowBytes (fields : List String) : Foreign (Value.lowBytes fields) := by
  induction fields with
  | nil => exact foreign_ok _
  | cons field more ih =>
    rw [Value.lowBytes]
    split
    · exact foreign_error rfl
    · split
      · exact foreign_ok _
      · rename_i e he
        exact foreign_error (ih e he)

theorem foreign_toBytes (disk : Disk) (control : String) (offset count : Nat) (value : Value) :
    Foreign (value.toBytes disk control offset count) := by
  have hlisted : ∀ text, Foreign (Value.listedBytes text offset count) := by
    intro text
    simp only [Value.listedBytes]
    split
    · exact foreign_error rfl
    · split
      · exact foreign_error rfl
      · exact foreign_lowBytes _
  unfold Value.toBytes
  split
  · split
    · exact foreign_ok _
    · rename_i e he
      exact foreign_error (hlisted _ e he)
  · split
    · exact foreign_ok _
    · exact foreign_error rfl
  · split
    · exact foreign_ok _
    · exact foreign_error rfl
  · exact foreign_error rfl

theorem foreign_toInteger (control : String) (value : Value) : Foreign (value.toInteger control) := by
  unfold Value.toInteger
  split
  · exact foreign_ok _
  · split
    · exact foreign_ok _
    · split
      · exact foreign_ok _
      · exact foreign_error rfl
  · exact foreign_error rfl

theorem foreign_toItem (control : String) (value : Value) : Foreign (value.toItem control) := by
  unfold Value.toItem
  split
  · exact foreign_ok _
  · exact foreign_ok _
  · exact foreign_error rfl

theorem foreign_byteValue (disk : Disk) (b : Assignment) (count : Nat) : Foreign (b.byteValue disk count) := by
  simp only [Assignment.byteValue]
  split
  · exact foreign_error rfl
  · split
    · exact foreign_ok _
    · rename_i e he
      exact foreign_error (foreign_toBytes disk b.control b.index.offset count b.value e he)

theorem foreign_convert (disk : Disk) (b : Assignment) (type : ControlType) (count : Nat) :
    Foreign (b.convert disk type count).2 := by
  cases type with
  | switch | integer =>
    simp only [Assignment.convert]
    split
    · exact foreign_ok _
    · rename_i e he
      exact foreign_error (foreign_toInteger b.control b.value e he)
  | enumerated =>
    simp only [Assignment.convert]
    split
    · exact foreign_ok _
    · rename_i e he
      exact foreign_error (foreign_toItem b.control b.value e he)
  | bytes =>
    simp only [Assignment.convert]
    split
    · exact foreign_error rfl
    · split
      · exact foreign_ok _
      · rename_i e he
        exact foreign_error (foreign_byteValue disk _ count e he)
  | iec958 | integer64 | unknown => exact foreign_error rfl

/-- Binding fails by what it looks up, or by the value. -/
theorem foreign_bindMixer (disk : Disk) (card : Card) (m : Mixer) (b : Assignment) :
    Foreign (m.bind disk card b).2.2 := by
  simp only [Mixer.bind]
  split
  · exact foreign_ok _
  · cases hlookup : m.lookup card b.control with
    | mk seen found =>
      have hfound := foreign_lookup m card b.control
      rw [hlookup] at hfound
      cases found with
      | error e => exact foreign_error (hfound e rfl)
      | ok id =>
        dsimp only
        split
        · exact foreign_error rfl
        · rename_i info _
          have hconvert := foreign_convert disk b info.type info.count
          cases hresult : b.convert disk info.type info.count with
          | mk converted outcome =>
            rw [hresult] at hconvert
            cases outcome with
            | error e => exact foreign_error (hconvert e rfl)
            | ok u => exact foreign_ok _

theorem foreign_bindVolume (card : Card) (m : Mixer) (v : VolumeControl) :
    Foreign (m.bindVolume card v).2.2 := by
  simp only [Mixer.bindVolume]
  split
  · exact foreign_ok _
  · cases hlookup : m.lookup card v.control with
    | mk seen found =>
      have hfound := foreign_lookup m card v.control
      rw [hlookup] at hfound
      cases found with
      | error e => exact foreign_error (hfound e rfl)
      | ok id =>
        dsimp only
        split
        · exact foreign_ok _
        · exact foreign_error rfl

theorem alike_bindEarly {b : Assignment}
    (hbind : ∀ desk, s.desk? = some desk → desk.mixer.bind disk' desk.card b = desk.mixer.bind disk desk.card b) :
    Alike k probe visited s (bindEarly disk' b) (bindEarly disk b) := by
  have hsame : (s.reframe probe visited).desk? = s.desk? := rfl
  refine alike_get ?_
  cases hdesk : s.desk? with
  | none =>
    simp only [hsame, hdesk]
    exact alike_pure b
  | some desk =>
    have hspares := (foreign_bindMixer disk desk.card desk.mixer b).spares
    simp only [hsame, hdesk, hbind desk hdesk]
    cases hresult : desk.mixer.bind disk desk.card b with
    | mk mixer rest =>
      obtain ⟨bound, outcome⟩ := rest
      rw [hresult] at hspares
      refine alike_bind (alike_modify rfl) fun _ t _ => ?_
      cases outcome with
      | ok u => exact alike_pure _
      | error e =>
        have he := hspares e rfl
        cases e with
        | controlNotFound => exact alike_pure _
        | _ => exact alike_throw he

theorem alike_declared {parent : Option ElementKind} (hlists : k = .astray → s.lists parent = true) {b : Assignment}
    (hbind : ∀ desk, s.desk? = some desk → desk.mixer.bind disk' desk.card b = desk.mixer.bind disk desk.card b) :
    Alike k probe visited s (do pushAssignment parent (← bindEarly disk' b))
      (do pushAssignment parent (← bindEarly disk b)) :=
  alike_bind (alike_bindEarly hbind) fun _ t ht => alike_pushAssignment (fun hk => by
    rcases bindEarly_cases ht with ⟨-, -, rfl⟩ | ⟨_, _, _, -, -, rfl⟩ <;> exact hlists hk) _

/-- Binding reads a file only if the value is one. -/
theorem bind_congr_disk {b : Assignment} (h : ∀ file, b.value = .pendingFile file → disk'.read file = disk.read file)
    (m : Mixer) (card : Card) : m.bind disk' card b = m.bind disk card b := by
  have hconvert : ∀ type count, b.convert disk' type count = b.convert disk type count := by
    intro type count
    cases type with
    | bytes =>
      have hbytes : ∀ offset, b.value.toBytes disk' b.control offset count
          = b.value.toBytes disk b.control offset count := by
        intro offset
        cases hvalue : b.value with
        | pendingFile file => simp only [Value.toBytes, h file hvalue]
        | _ => rfl
      simp only [Assignment.convert, Assignment.byteValue, hbytes]
    | _ => rfl
  simp only [Mixer.bind, hconvert]

/-- An assignment is declared alike if the file it names has the same bytes. -/
theorem alike_beginControl {parent : Option ElementKind} (hlists : k = .astray → s.lists parent = true)
    (hread : ∀ name, a.get? .file = some name → disk'.read (s.file.resolve name) = disk.read (s.file.resolve name)) :
    Alike k probe visited s (beginControl disk' parent a) (beginControl disk parent a) := by
  refine alike_bind (alike_requiredAttribute a _) fun name t hname => ?_
  obtain ⟨-, rfl⟩ := ofResult_iff.mp hname
  refine alike_bind (alike_unsignedAttribute a _) fun i t hi => ?_
  obtain rfl := reads_unsignedAttribute _ _ _ _ _ hi
  have hvalued : ∀ (index : Selector) (value : Value),
      (∀ file, value = .pendingFile file → disk'.read file = disk.read file) →
      Alike k probe visited s
        (do
          let b ← bindEarly disk' (.declared name index value)
          pushAssignment parent b)
        (do
          let b ← bindEarly disk (.declared name index value)
          pushAssignment parent b) :=
    fun index value hvalue =>
      alike_declared hlists fun desk _ => bind_congr_disk (b := .declared name index value) hvalue desk.mixer desk.card
  cases i
  all_goals
    refine alike_bind (alike_pure _) fun index t hindex => ?_
    obtain ⟨-, rfl⟩ := pure_iff.mp hindex
    cases hfile : a.get? .file with
    | some file =>
      refine alike_get (alike_bind (alike_pure _) fun value t hvalue => ?_)
      obtain ⟨rfl, rfl⟩ := pure_iff.mp hvalue
      refine hvalued index _ ?_
      rintro _ ⟨⟩
      exact hread file hfile
    | none =>
      cases a.get? .value with
      | some text =>
        refine alike_bind (alike_pure _) fun value t hvalue => ?_
        obtain ⟨rfl, rfl⟩ := pure_iff.mp hvalue
        exact hvalued index _ nofun
      | none => exact alike_bind (alike_fault rfl) fun _ _ h => absurd h fault_iff

theorem alike_streamDirection (a : AttributeValues) (isGlobal : Bool) :
    Alike k probe visited s (streamDirection a isGlobal) (streamDirection a isGlobal) := by
  unfold streamDirection
  split
  · split
    · exact alike_pure _
    · exact alike_fault rfl
  · exact alike_pure _
  · exact alike_pure _
  · exact alike_fault rfl

theorem alike_streamType (a : AttributeValues) (isOutput : Bool) :
    Alike k probe visited s (streamType a isOutput) (streamType a isOutput) := by
  refine alike_bind (alike_requiredAttribute a _) fun text t _ => ?_
  split
  · split
    · exact alike_fault rfl
    · split <;> exact alike_pure _
  · exact alike_pure _
  · exact alike_pure _
  · exact alike_fault rfl

theorem alike_streamEndpoint (a : AttributeValues) (type : StreamType) :
    Alike k probe visited s (streamEndpoint a type) (streamEndpoint a type) := by
  refine alike_bind (alike_unsignedAttribute a _) fun card t _ => alike_get ?_
  refine alike_bind (alike_unsignedAttribute a _) fun device _ _ => ?_
  refine alike_bind (alike_unsignedAttribute a _) fun rate _ _ => ?_
  refine alike_bind (alike_unsignedAttribute a _) fun periodSize _ _ => ?_
  exact alike_bind (alike_unsignedAttribute a _) fun periodCount _ _ => alike_pure _

theorem alike_pushStream (stream : Stream) :
    Alike k probe visited s (pushStream stream) (pushStream stream) := by
  refine alike_get ?_
  dsimp only [State.reframe]
  split
  · exact alike_bind (alike_ofResult (foreign_push _).spares) fun _ _ _ => alike_modify rfl
  · exact alike_bind (alike_ofResult (foreign_push _).spares) fun _ _ _ => alike_modify rfl

theorem alike_beginStream (a : AttributeValues) : Alike k probe visited s (beginStream a) (beginStream a) := by
  have htyped : ∀ (name : Option String) (type : StreamType) (t : State), Alike k probe visited t
      (do
        let endpoint ← streamEndpoint a type
        let instances ← unsignedAttribute a .instances
        pushStream (.blank name endpoint (instances.getD unlimitedInstances)))
      (do
        let endpoint ← streamEndpoint a type
        let instances ← unsignedAttribute a .instances
        pushStream (.blank name endpoint (instances.getD unlimitedInstances))) :=
    fun name type t => alike_bind (alike_streamEndpoint a type) fun _ _ _ =>
      alike_bind (alike_unsignedAttribute a _) fun _ _ _ => alike_pushStream _
  have hnamed : ∀ (name : Option String) (t : State), Alike k probe visited t
      (do
        let isGlobal := name == some "global"
        let isOutput ← streamDirection a isGlobal
        let type ← if isGlobal then pure StreamType.global else streamType a isOutput
        let endpoint ← streamEndpoint a type
        let instances ← unsignedAttribute a .instances
        pushStream (.blank name endpoint (instances.getD unlimitedInstances)))
      (do
        let isGlobal := name == some "global"
        let isOutput ← streamDirection a isGlobal
        let type ← if isGlobal then pure StreamType.global else streamType a isOutput
        let endpoint ← streamEndpoint a type
        let instances ← unsignedAttribute a .instances
        pushStream (.blank name endpoint (instances.getD unlimitedInstances))) := by
    intro name t
    refine alike_bind (alike_streamDirection a _) fun isOutput t _ => ?_
    split
    · exact alike_bind (alike_pure _) fun type t _ => htyped name type t
    · exact alike_bind (alike_streamType a isOutput) fun type t _ => htyped name type t
  simp only [beginStream]
  split
  · refine alike_get ?_
    dsimp only [State.reframe]
    split
    · exact alike_bind (alike_fault rfl) fun _ _ h => absurd h fault_iff
    · exact hnamed _ s
  · exact hnamed _ s

/-- The stream that is open is changed alike if what it becomes is settled alike. -/
theorem alike_modifyOpenStream (hstream : k = .astray → s.stream?.isSome = true) {f g : Stream → LoadM Stream}
    (h : ∀ stream, s.stream? = some stream → Alike k probe visited s (f stream) (g stream)) :
    Alike k probe visited s (modifyOpenStream f) (modifyOpenStream g) := by
  refine alike_get ?_
  refine alike_belongs_bind rfl hstream fun id hid hstream => ?_
  refine alike_bind (alike_belongs rfl hstream) fun stream t ht => ?_
  obtain ⟨hfound, rfl⟩ := need_iff.mp ht
  refine alike_bind (h stream ?_) fun _ _ _ => alike_modify rfl
  rw [State.stream?, show s.cursor.stream = some id from hid]
  exact hfound

theorem alike_beginRoutePath (hstream : k = .astray → s.stream?.isSome = true) (enable : Bool) (a : AttributeValues) :
    Alike k probe visited s (beginRoutePath enable a) (beginRoutePath enable a) := by
  refine alike_bind (alike_requiredAttribute a _) fun name t ht => alike_get ?_
  obtain ⟨-, rfl⟩ := ofResult_iff.mp ht
  refine alike_bind (alike_need rfl (s.model.pathId? name)) fun id t ht => ?_
  obtain ⟨-, rfl⟩ := need_iff.mp ht
  exact alike_modifyOpenStream hstream fun _ _ => alike_pure _

theorem alike_beginUseCase (hstream : k = .astray → s.stream?.isSome = true) (a : AttributeValues) :
    Alike k probe visited s (beginUseCase a) (beginUseCase a) := by
  refine alike_bind (alike_requiredAttribute a _) fun name t ht => ?_
  obtain ⟨-, rfl⟩ := ofResult_iff.mp ht
  refine alike_modifyOpenStream hstream fun stream _ => ?_
  refine alike_bind (alike_ofResult (foreign_push _).spares) fun _ _ _ => ?_
  exact alike_bind (alike_modify rfl) fun _ _ _ => alike_pure _

theorem alike_beginUseCaseCase (huseCase : k = .astray → s.useCase?.isSome = true) (a : AttributeValues) :
    Alike k probe visited s (beginUseCaseCase a) (beginUseCaseCase a) := by
  refine alike_bind (alike_requiredAttribute a _) fun name t ht => alike_get ?_
  obtain ⟨-, rfl⟩ := ofResult_iff.mp ht
  refine alike_belongs_bind rfl huseCase fun place _ huseCase => ?_
  refine alike_modifyOpenStream (fun hk => isSome_of_bind (huseCase hk)) fun stream hstream => ?_
  rw [hstream] at huseCase
  refine alike_bind (alike_belongs rfl huseCase) fun useCase _ _ => ?_
  refine alike_bind (alike_ofResult (foreign_push _).spares) fun _ _ _ => ?_
  exact alike_bind (alike_modify rfl) fun _ _ _ => alike_pure _

theorem alike_beginConstant (hstream : k = .astray → s.stream?.isSome = true) (a : AttributeValues) :
    Alike k probe visited s (beginConstant a) (beginConstant a) := by
  refine alike_bind (alike_requiredAttribute a _) fun name t ht => ?_
  obtain ⟨-, rfl⟩ := ofResult_iff.mp ht
  refine alike_bind (alike_requiredAttribute a _) fun value t ht => ?_
  obtain ⟨-, rfl⟩ := ofResult_iff.mp ht
  refine alike_modifyOpenStream hstream fun stream _ => ?_
  exact alike_bind (alike_ofResult (foreign_push _).spares) fun _ _ _ => alike_pure _

theorem alike_bindVolumeEarly (hdesk : k = .astray → s.desk?.isSome = true) (v : VolumeControl) :
    Alike k probe visited s (bindVolumeEarly v) (bindVolumeEarly v) := by
  refine alike_get (alike_bind (alike_belongs rfl hdesk) fun desk t _ => ?_)
  have hspares := (foreign_bindVolume desk.card desk.mixer v).spares
  cases hresult : desk.mixer.bindVolume desk.card v with
  | mk mixer rest =>
    obtain ⟨bound, outcome⟩ := rest
    rw [hresult] at hspares
    refine alike_bind (alike_modify rfl) fun _ t _ => ?_
    cases outcome with
    | ok id => exact alike_pure _
    | error e =>
      have he := hspares e rfl
      cases e with
      | controlNotFound | value => exact alike_fault rfl
      | _ => exact alike_throw he

theorem alike_isLeftVolume (function : String) :
    Alike k probe visited s (isLeftVolume function) (isLeftVolume function) := by
  unfold isLeftVolume
  split
  · exact alike_pure _
  · exact alike_pure _
  · exact alike_fault rfl

theorem alike_beginVolume (hdesk : k = .astray → s.desk?.isSome = true)
    (hstream : k = .astray → s.stream?.isSome = true) (a : AttributeValues) :
    Alike k probe visited s (beginVolume a) (beginVolume a) := by
  refine alike_bind (alike_requiredAttribute a _) fun name t ht => ?_
  obtain ⟨-, rfl⟩ := ofResult_iff.mp ht
  refine alike_bind (alike_requiredAttribute a _) fun function t ht => ?_
  obtain ⟨-, rfl⟩ := ofResult_iff.mp ht
  refine alike_bind (alike_unsignedAttribute a _) fun index t ht => ?_
  obtain rfl := reads_unsignedAttribute _ _ _ _ _ ht
  refine alike_bind (alike_bindVolumeEarly hdesk _) fun ⟨desk, bound, id⟩ u hbind => ?_
  have hopen : k = .astray → u.stream?.isSome = true := by
    obtain ⟨_, -, -, -, rfl⟩ := bindVolumeEarly_cases hbind
    exact hstream
  refine alike_bind (alike_isLeftVolume function) fun left t ht => ?_
  obtain rfl := reads_isLeftVolume _ _ _ _ ht
  refine alike_bind (alike_ofResult (foreign_range _ _).spares) fun ends t ht => ?_
  obtain ⟨-, rfl⟩ := ofResult_iff.mp ht
  refine alike_bind (alike_signedAttribute a _) fun low t ht => ?_
  obtain rfl := reads_signedAttribute _ _ _ _ _ ht
  refine alike_bind (alike_signedAttribute a _) fun high t ht => ?_
  obtain rfl := reads_signedAttribute _ _ _ _ _ ht
  exact alike_modifyOpenStream hopen fun _ _ => alike_pure _

/-- Every element but a codec probe and what stands in it begins alike. -/
theorem alike_beginElement {parent : Option ElementKind} {e : ElementKind} (hprobe : e ≠ .codecProbe)
    (hcase : e ≠ .codecCase) (hplace : k = .astray → s.receives parent e = true)
    (hread : e = .control → ∀ name, a.get? .file = some name →
      disk'.read (s.file.resolve name) = disk.read (s.file.resolve name)) :
    Alike k probe visited s (beginElement disk' parent a e) (beginElement disk parent a e) := by
  cases e with
  | control => exact alike_beginControl hplace (hread rfl)
  | path => exact alike_beginPath hplace a
  | device => exact alike_beginDevice a
  | stream => exact alike_beginStream a
  | enable => exact alike_beginRoutePath hplace true a
  | disable => exact alike_beginRoutePath hplace false a
  | useCaseCase => exact alike_beginUseCaseCase hplace a
  | useCase => exact alike_beginUseCase hplace a
  | constant => exact alike_beginConstant hplace a
  | volume =>
    exact alike_beginVolume (fun hk => (Bool.and_eq_true_iff.mp (hplace hk)).1)
      (fun hk => (Bool.and_eq_true_iff.mp (hplace hk)).2) a
  | mixer => exact alike_beginMixer a
  | codecProbe => exact absurd rfl hprobe
  | codecCase => exact absurd rfl hcase
  | init | preInit | root => exact alike_pure ()

/-- Every element but a codec probe ends alike. -/
theorem alike_endElement {e : ElementKind} (hprobe : e ≠ .codecProbe)
    (hdesk : k = .astray → e = .preInit → s.desk?.isSome = true)
    (happly : e = .preInit → ∀ desk, s.desk? = some desk →
      desk.apply disk' s.preInit.toList = desk.apply disk s.preInit.toList) :
    Alike k probe visited s (endElement disk' e) (endElement disk e) := by
  cases e with
  | preInit =>
    exact alike_bind (alike_endPreInit (fun hk => hdesk hk rfl) (happly rfl)) fun _ _ _ => alike_pure none
  | codecProbe => exact absurd rfl hprobe
  | device | path | stream | useCase | useCaseCase =>
    exact alike_bind (alike_modify rfl) fun _ _ _ => alike_pure none
  | control | enable | disable | constant | volume | init | mixer | root | codecCase => exact alike_pure none

/-! ### Faults with the place of an element -/

theorem avoids_bind {f : α → LoadM β} (h : Avoids k (x.run.run s).1)
    (hf : ∀ c t, Runs x s c t → Avoids k ((f c).run.run t).1) : Avoids k ((x >>= f).run.run s).1 := by
  rw [run_bind]
  cases hrun : x.run.run s with
  | mk result t =>
    cases result with
    | ok c => exact hf c t hrun
    | error e => exact avoids_error (h e (by rw [hrun]))

theorem avoids_ofResult {r : Except Error α} (h : Spares r) : Avoids k ((ofResult r).run.run s).1 := by
  cases r with
  | error e => exact (spares_error (h e rfl)).avoids
  | ok c => exact avoids_ok c

theorem avoids_belongs {f : ConfigFault} (hf : (Error.ofConfig f).misplacement? = some .astray) {o : Option α}
    (h : k = .astray → o.isSome = true) : Avoids k ((LoadM.need f o).run.run s).1 := by
  have halike : Alike k none [] s (LoadM.need f o) (LoadM.need f o) := alike_belongs hf h
  exact halike.2

theorem avoids_beginCodecProbe (a : AttributeValues) (s : State) :
    Avoids k ((beginCodecProbe a).run.run s).1 := by
  refine avoids_bind (avoids_ok s) fun u t hget => ?_
  split
  · exact avoids_bind (spares_error rfl).avoids fun _ _ h => absurd h fault_iff
  · exact avoids_bind (avoids_ofResult (spares_required a _)) fun _ _ _ => avoids_ok _

theorem avoids_beginCodecCase (hprobe : k = .astray → s.probe.isSome = true) (a : AttributeValues) :
    Avoids k ((beginCodecCase a).run.run s).1 := by
  refine avoids_bind (avoids_ofResult (spares_required a _)) fun codec t ht => ?_
  obtain ⟨-, rfl⟩ := ofResult_iff.mp ht
  refine avoids_bind (avoids_ofResult (spares_required a _)) fun file t ht => ?_
  obtain ⟨-, rfl⟩ := ofResult_iff.mp ht
  refine avoids_bind (avoids_ok s) fun u t ht => ?_
  obtain ⟨rfl, rfl⟩ := get_iff.mp ht
  refine avoids_bind (avoids_belongs rfl hprobe) fun probe t _ => ?_
  exact avoids_bind (avoids_ofResult (foreign_push _).spares) fun _ _ _ => avoids_ok _

theorem avoids_endCodecProbe (disk : Disk) (s : State) : Avoids k ((endCodecProbe disk).run.run s).1 := by
  refine avoids_bind (avoids_ok s) fun u t _ => ?_
  split
  · exact avoids_ok _
  · refine avoids_bind (avoids_ofResult (foreign_readProbe disk _).spares) fun codec t _ => ?_
    split
    · exact avoids_ok _
    · split
      · exact avoids_ok _
      · split
        · exact (spares_error rfl).avoids
        · exact avoids_ok _

/-- An element that begins does not fail as one that is not allowed, nor as one without what it belongs to if
that is there. -/
theorem avoids_beginElement (disk : Disk) {parent : Option ElementKind} (a : AttributeValues) {e : ElementKind}
    (hplace : k = .astray → s.receives parent e = true) :
    Avoids k ((beginElement disk parent a e).run.run s).1 := by
  by_cases hprobe : e = .codecProbe
  · rw [hprobe]
    exact avoids_beginCodecProbe a s
  · by_cases hcase : e = .codecCase
    · subst hcase
      exact avoids_beginCodecCase hplace a
    · have halike : Alike k none [] s (beginElement disk parent a e) (beginElement disk parent a e) :=
        alike_beginElement hprobe hcase hplace fun _ _ _ => rfl
      exact halike.2

theorem avoids_endElement (disk : Disk) {e : ElementKind}
    (hdesk : k = .astray → e = .preInit → s.desk?.isSome = true) :
    Avoids k ((endElement disk e).run.run s).1 := by
  by_cases hprobe : e = .codecProbe
  · rw [hprobe]
    exact avoids_endCodecProbe disk s
  · have halike : Alike k none [] s (endElement disk e) (endElement disk e) :=
      alike_endElement hprobe hdesk fun _ _ _ => rfl
    exact halike.2

end Config

end SoundRouting
