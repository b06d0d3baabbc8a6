import SoundRouting.Proofs.Load.Course
import SoundRouting.Proofs.Load.Settled
/-!
What an event that fails leaves behind.

Only two things that loading does touch the cards: opening a mixer, and applying the writes that come before
everything else. Neither has touched them when it fails, and nothing that comes behind them in the same event can
fail. So an event that fails leaves all cards as they were.
-/
namespace SoundRouting.Config

open LoadM

variable {α β : Type} {rack : Rack} {disk : Disk} {s t : State} {a : AttributeValues}

/-- Started with these cards, the action ends with them, whether it succeeds or fails. -/
def Keeps (rack : Rack) (x : LoadM α) : Prop :=
  ∀ s, s.rack = rack → (x.run.run s).2.rack = rack

theorem keeps_pure (c : α) : Keeps rack (pure c) :=
  fun _ hs => hs

theorem keeps_throw (e : Error) : Keeps rack (throw e : LoadM α) :=
  fun _ hs => hs

theorem keeps_fault (f : ConfigFault) : Keeps rack (fault f : LoadM α) :=
  keeps_throw _

theorem keeps_need (f : ConfigFault) (o : Option α) : Keeps rack (need f o) := by
  cases o with
  | none => exact keeps_fault f
  | some c => exact keeps_pure c

theorem keeps_ofResult (r : Except Error α) : Keeps rack (ofResult r) := by
  cases r with
  | error e => exact keeps_throw e
  | ok c => exact keeps_pure c

theorem keeps_modify {f : State → State} (h : ∀ s, (f s).rack = s.rack) : Keeps rack (modify f) :=
  fun s hs => (h s).trans hs

theorem keeps_set {u : State} (h : u.rack = rack) : Keeps rack (set u) :=
  fun _ _ => h

theorem keeps_bind {x : LoadM β} {f : β → LoadM α} (hx : Keeps rack x) (hf : ∀ c, Keeps rack (f c)) :
    Keeps rack (x >>= f) := by
  intro s hs
  have hfirst := hx s hs
  rw [run_bind]
  cases hrun : x.run.run s with
  | mk result t =>
    rw [hrun] at hfirst
    cases result with
    | error e => exact hfirst
    | ok c => exact hf c t hfirst

theorem keeps_get {f : State → LoadM α} (h : ∀ s, s.rack = rack → Keeps rack (f s)) : Keeps rack (get >>= f) := by
  intro s hs
  rw [run_get_bind]
  exact h s hs s hs

theorem keeps_unsignedAttribute (a : AttributeValues) (kind : AttributeKind) :
    Keeps rack (unsignedAttribute a kind) := by
  unfold unsignedAttribute
  split
  · exact keeps_pure _
  · split
    · exact keeps_pure _
    · exact keeps_fault _

theorem keeps_signedAttribute (a : AttributeValues) (kind : AttributeKind) : Keeps rack (signedAttribute a kind) := by
  unfold signedAttribute
  split
  · exact keeps_pure _
  · split
    · exact keeps_pure _
    · exact keeps_fault _

theorem keeps_mixerCard (a : AttributeValues) : Keeps rack (mixerCard a) := by
  unfold mixerCard
  split
  · exact keeps_fault _
  · exact keeps_bind (keeps_unsignedAttribute a .card) fun _ => keeps_pure _
  · exact keeps_get fun s _ => keeps_need _ _
  · exact keeps_fault _

theorem keeps_beginDevice (a : AttributeValues) : Keeps rack (beginDevice a) := by
  have hpush : ∀ mask, Keeps rack (do
      let devices ← ofResult ((← get).model.devices.push (.blank mask))
      modify fun s =>
        { s with
          model := { s.model with devices := devices }
          cursor := { s.cursor with device := some (devices.size - 1) } } : LoadM Unit) := fun mask =>
    keeps_get fun s _ => keeps_bind (keeps_ofResult _) fun _ => keeps_modify fun _ => rfl
  refine keeps_bind (keeps_ofResult _) fun name => keeps_bind (keeps_need _ _) fun mask => keeps_get fun s _ => ?_
  dsimp only
  split
  · split
    · exact keeps_bind (keeps_fault _) fun _ => hpush mask
    · exact hpush mask
  · split
    · split
      · exact keeps_bind (keeps_fault _) fun _ => keeps_bind (keeps_modify fun _ => rfl) fun _ => hpush mask
      · exact keeps_bind (keeps_modify fun _ => rfl) fun _ => hpush mask
    · split
      · exact keeps_bind (keeps_fault _) fun _ => keeps_bind (keeps_modify fun _ => rfl) fun _ => hpush mask
      · exact keeps_bind (keeps_modify fun _ => rfl) fun _ => hpush mask

theorem keeps_pathIdOf (name : String) : Keeps rack (pathIdOf name) := by
  refine keeps_get fun s _ => ?_
  split
  · exact keeps_pure _
  · exact keeps_get fun s _ => keeps_bind (keeps_ofResult _) fun _ =>
      keeps_bind (keeps_modify fun _ => rfl) fun _ => keeps_pure _

theorem keeps_beginPath (a : AttributeValues) : Keeps rack (beginPath a) := by
  refine keeps_bind (keeps_ofResult _) fun name => keeps_bind (keeps_pathIdOf name) fun id => keeps_get fun s hs =>
    keeps_bind (keeps_need _ _) fun place => keeps_bind (keeps_need _ _) fun device => ?_
  dsimp only
  have hpush : Keeps rack (do
      let paths ← ofResult (device.paths.push (.blank id))
      set { s with
        model := s.model.modifyDevice place fun d => { d with paths := paths }
        cursor := { s.cursor with path := some (paths.size - 1) } } : LoadM Unit) :=
    keeps_bind (keeps_ofResult _) fun _ => keeps_set hs
  split
  · exact keeps_bind (keeps_fault _) fun _ => hpush
  · exact hpush

theorem keeps_pushAssignment (parent : Option ElementKind) (b : Assignment) : Keeps rack (pushAssignment parent b) := by
  unfold pushAssignment
  split
  · exact keeps_get fun s hs => keeps_bind (keeps_need _ _) fun _ => keeps_bind (keeps_need _ _) fun _ =>
      keeps_bind (keeps_need _ _) fun _ => keeps_bind (keeps_need _ _) fun _ =>
      keeps_bind (keeps_ofResult _) fun _ => keeps_set hs
  · exact keeps_get fun s hs => keeps_bind (keeps_need _ _) fun _ => keeps_bind (keeps_need _ _) fun _ =>
      keeps_bind (keeps_need _ _) fun _ => keeps_bind (keeps_need _ _) fun _ => keeps_bind (keeps_need _ _) fun _ =>
      keeps_bind (keeps_need _ _) fun _ => keeps_bind (keeps_ofResult _) fun _ => keeps_set hs
  · exact keeps_get fun s _ => keeps_bind (keeps_ofResult _) fun _ => keeps_modify fun _ => rfl
  · exact keeps_get fun s _ => keeps_bind (keeps_ofResult _) fun _ => keeps_modify fun _ => rfl
  · exact keeps_fault _

theorem keeps_bindEarly (disk : Disk) (b : Assignment) : Keeps rack (bindEarly disk b) := by
  refine keeps_get fun s _ => ?_
  split
  · exact keeps_pure _
  · refine keeps_bind (keeps_modify fun _ => rfl) fun _ => ?_
    split
    · exact keeps_pure _
    · exact keeps_pure _
    · exact keeps_throw _

theorem keeps_beginControl (disk : Disk) (parent : Option ElementKind) (a : AttributeValues) :
    Keeps rack (beginControl disk parent a) := by
  refine keeps_bind (keeps_ofResult _) fun name => keeps_bind (keeps_unsignedAttribute a .index) fun i => ?_
  have hdeclared : ∀ b, Keeps rack (do
      let bound ← bindEarly disk b
      pushAssignment parent bound : LoadM Unit) := fun b =>
    keeps_bind (keeps_bindEarly disk b) fun bound => keeps_pushAssignment parent bound
  cases i
  all_goals
    refine keeps_bind (keeps_pure _) fun index => ?_
    cases a.get? .file with
    | some file => exact keeps_get fun s _ => keeps_bind (keeps_pure _) fun value => hdeclared _
    | none =>
      cases a.get? .value with
      | some text => exact keeps_bind (keeps_pure _) fun value => hdeclared _
      | none => exact keeps_bind (keeps_fault _) fun value => hdeclared _

theorem keeps_streamDirection (a : AttributeValues) (isGlobal : Bool) : Keeps rack (streamDirection a isGlobal) := by
  unfold streamDirection
  split
  · split
    · exact keeps_pure _
    · exact keeps_fault _
  · exact keeps_pure _
  · exact keeps_pure _
  · exact keeps_fault _

theorem keeps_streamType (a : AttributeValues) (isOutput : Bool) : Keeps rack (streamType a isOutput) := by
  refine keeps_bind (keeps_ofResult _) fun text => ?_
  split
  · split
    · exact keeps_fault _
    · split
      · exact keeps_pure _
      · exact keeps_pure _
  · exact keeps_pure _
  · exact keeps_pure _
  · exact keeps_fault _

theorem keeps_streamEndpoint (a : AttributeValues) (type : StreamType) : Keeps rack (streamEndpoint a type) :=
  keeps_bind (keeps_unsignedAttribute a .card) fun _ => keeps_get fun _ _ =>
    keeps_bind (keeps_unsignedAttribute a .device) fun _ => keeps_bind (keeps_unsignedAttribute a .rate) fun _ =>
    keeps_bind (keeps_unsignedAttribute a .periodSize) fun _ =>
    keeps_bind (keeps_unsignedAttribute a .periodCount) fun _ => keeps_pure _

theorem keeps_pushStream (stream : Stream) : Keeps rack (pushStream stream) := by
  refine keeps_get fun s _ => ?_
  split
  · exact keeps_bind (keeps_ofResult _) fun _ => keeps_modify fun _ => rfl
  · exact keeps_bind (keeps_ofResult _) fun _ => keeps_modify fun _ => rfl

theorem keeps_beginStream (a : AttributeValues) : Keeps rack (beginStream a) := by
  have htyped : ∀ (name : Option String) (type : StreamType), Keeps rack (do
      let endpoint ← streamEndpoint a type
      let instances ← unsignedAttribute a .instances
      pushStream (.blank name endpoint (instances.getD unlimitedInstances)) : LoadM Unit) := fun _ type =>
    keeps_bind (keeps_streamEndpoint a type) fun _ => keeps_bind (keeps_unsignedAttribute a _) fun _ =>
      keeps_pushStream _
  have hnamed : ∀ name : Option String, Keeps rack (do
      let isGlobal := name == some "global"
      let isOutput ← streamDirection a isGlobal
      let type ← if isGlobal then pure StreamType.global else streamType a isOutput
      let endpoint ← streamEndpoint a type
      let instances ← unsignedAttribute a .instances
      pushStream (.blank name endpoint (instances.getD unlimitedInstances)) : LoadM Unit) := by
    intro name
    refine keeps_bind (keeps_streamDirection a _) fun isOutput => ?_
    split
    · exact keeps_bind (keeps_pure _) fun type => htyped name type
    · exact keeps_bind (keeps_streamType a isOutput) fun type => htyped name type
  simp only [beginStream]
  split
  · refine keeps_get fun s _ => ?_
    split
    · exact keeps_bind (keeps_fault _) fun _ => hnamed _
    · exact hnamed _
  · exact hnamed _

theorem keeps_modifyOpenStream {f : Stream → LoadM Stream} (hf : ∀ stream, Keeps rack (f stream)) :
    Keeps rack (modifyOpenStream f) :=
  keeps_get fun _ _ => keeps_bind (keeps_need _ _) fun _ => keeps_bind (keeps_need _ _) fun stream =>
    keeps_bind (hf stream) fun _ => keeps_modify fun _ => rfl

theorem keeps_beginRoutePath (enable : Bool) (a : AttributeValues) : Keeps rack (beginRoutePath enable a) :=
  keeps_bind (keeps_ofResult _) fun _ => keeps_get fun _ _ => keeps_bind (keeps_need _ _) fun _ =>
    keeps_modifyOpenStream fun _ => keeps_pure _

theorem keeps_beginUseCase (a : AttributeValues) : Keeps rack (beginUseCase a) :=
  keeps_bind (keeps_ofResult _) fun _ => keeps_modifyOpenStream fun _ => keeps_bind (keeps_ofResult _) fun _ =>
    keeps_bind (keeps_modify fun _ => rfl) fun _ => keeps_pure _

theorem keeps_beginUseCaseCase (a : AttributeValues) : Keeps rack (beginUseCaseCase a) :=
  keeps_bind (keeps_ofResult _) fun _ => keeps_get fun _ _ => keeps_bind (keeps_need _ _) fun _ =>
    keeps_modifyOpenStream fun _ => keeps_bind (keeps_need _ _) fun _ => keeps_bind (keeps_ofResult _) fun _ =>
    keeps_bind (keeps_modify fun _ => rfl) fun _ => keeps_pure _

theorem keeps_beginConstant (a : AttributeValues) : Keeps rack (beginConstant a) :=
  keeps_bind (keeps_ofResult _) fun _ => keeps_bind (keeps_ofResult _) fun _ => keeps_modifyOpenStream fun _ =>
    keeps_bind (keeps_ofResult _) fun _ => keeps_pure _

theorem keeps_bindVolumeEarly (v : VolumeControl) : Keeps rack (bindVolumeEarly v) := by
  refine keeps_get fun s _ => keeps_bind (keeps_need _ _) fun desk => keeps_bind (keeps_modify fun _ => rfl) fun _ => ?_
  split
  · exact keeps_pure _
  · exact keeps_fault _
  · exact keeps_fault _
  · exact keeps_throw _

theorem keeps_isLeftVolume (function : String) : Keeps rack (isLeftVolume function) := by
  unfold isLeftVolume
  split
  · exact keeps_pure _
  · exact keeps_pure _
  · exact keeps_fault _

theorem keeps_beginVolume (a : AttributeValues) : Keeps rack (beginVolume a) :=
  keeps_bind (keeps_ofResult _) fun _ => keeps_bind (keeps_ofResult _) fun function =>
    keeps_bind (keeps_unsignedAttribute a _) fun _ => keeps_bind (keeps_bindVolumeEarly _) fun _ =>
    keeps_bind (keeps_isLeftVolume function) fun _ => keeps_bind (keeps_ofResult _) fun _ =>
    keeps_bind (keeps_signedAttribute a _) fun _ => keeps_bind (keeps_signedAttribute a _) fun _ =>
    keeps_modifyOpenStream fun _ => keeps_pure _

theorem keeps_beginCodecProbe (a : AttributeValues) : Keeps rack (beginCodecProbe a) := by
  have hdeclared : Keeps rack (do
      let file ← requiredAttribute a .file
      modify fun s => { s with probe := some ⟨s.file.resolve file, .empty⟩ } : LoadM Unit) :=
    keeps_bind (keeps_ofResult _) fun _ => keeps_modify fun _ => rfl
  refine keeps_get fun s _ => ?_
  split
  · exact keeps_bind (keeps_fault _) fun _ => hdeclared
  · exact hdeclared

theorem keeps_beginCodecCase (a : AttributeValues) : Keeps rack (beginCodecCase a) :=
  keeps_bind (keeps_ofResult _) fun _ => keeps_bind (keeps_ofResult _) fun _ => keeps_get fun _ hs =>
    keeps_bind (keeps_need _ _) fun _ => keeps_bind (keeps_ofResult _) fun _ => keeps_set hs

theorem keeps_endCodecProbe (disk : Disk) : Keeps rack (endCodecProbe disk) := by
  refine keeps_get fun s _ => ?_
  split
  · exact keeps_pure _
  · refine keeps_bind (keeps_ofResult _) fun codec => ?_
    split
    · exact keeps_pure _
    · split
      · exact keeps_pure _
      · split
        · exact keeps_fault _
        · exact keeps_pure _

/-- No element but a mixer changes the cards when it begins. -/
theorem keeps_beginElement (disk : Disk) (parent : Option ElementKind) (a : AttributeValues) {e : ElementKind}
    (he : e ≠ .mixer) : Keeps rack (beginElement disk parent a e) := by
  cases e with
  | mixer => exact absurd rfl he
  | control => exact keeps_beginControl disk parent a
  | path => exact keeps_beginPath a
  | device => exact keeps_beginDevice a
  | stream => exact keeps_beginStream a
  | enable => exact keeps_beginRoutePath true a
  | disable => exact keeps_beginRoutePath false a
  | useCaseCase => exact keeps_beginUseCaseCase a
  | useCase => exact keeps_beginUseCase a
  | constant => exact keeps_beginConstant a
  | volume => exact keeps_beginVolume a
  | codecProbe => exact keeps_beginCodecProbe a
  | codecCase => exact keeps_beginCodecCase a
  | init | preInit | root => exact keeps_pure ()

/-- No element but early writes changes the cards when it ends. -/
theorem keeps_endElement (disk : Disk) {e : ElementKind} (he : e ≠ .preInit) : Keeps rack (endElement disk e) := by
  cases e with
  | preInit => exact absurd rfl he
  | codecProbe => exact keeps_endCodecProbe disk
  | device | path | stream | useCase | useCaseCase => exact keeps_bind (keeps_modify fun _ => rfl) fun _ => keeps_pure _
  | control | enable | disable | constant | volume | init | mixer | root | codecCase => exact keeps_pure _

/-! ### Failures -/

/-- Started with these cards, the action ends with them if it fails. -/
def Withdraws (rack : Rack) (x : LoadM α) : Prop :=
  ∀ s e t, s.rack = rack → x.run.run s = (.error e, t) → t.rack = rack

theorem Keeps.withdraws {x : LoadM α} (h : Keeps rack x) : Withdraws rack x := by
  intro s e t hs hrun
  have hkept := h s hs
  rwa [hrun] at hkept

theorem withdraws_bind {x : LoadM β} {f : β → LoadM α} (hx : Keeps rack x) (hf : ∀ c, Withdraws rack (f c)) :
    Withdraws rack (x >>= f) := by
  intro s e t hs hrun
  rcases Runs.error_bind_iff.mp hrun with hfails | ⟨c, u, hfirst, hrest⟩
  · exact hx.withdraws s e t hs hfails
  · have hkept := hx s hs
    rw [hfirst] at hkept
    exact hf c u e t hkept hrest

/-- What comes behind an action without failing does not matter. -/
theorem withdraws_then {x : LoadM β} {f : β → LoadM α} (hx : Withdraws rack x)
    (hf : ∀ c s e t, (f c).run.run s ≠ (.error e, t)) : Withdraws rack (x >>= f) := by
  intro s e t hs hrun
  rcases Runs.error_bind_iff.mp hrun with hfails | ⟨c, u, -, hrest⟩
  · exact hx s e t hs hfails
  · exact absurd hrest (hf c u e t)

theorem withdraws_get {f : State → LoadM α} (h : ∀ s, s.rack = rack → Withdraws rack (f s)) :
    Withdraws rack (get >>= f) := by
  intro s e t hs hrun
  rw [run_get_bind] at hrun
  exact h s hs s e t hs hrun

theorem modify_ne_error (f : State → State) (s : State) (e : Error) (t : State) :
    (modify f : LoadM PUnit).run.run s ≠ (.error e, t) :=
  fun h => nomatch (congrArg Prod.fst h : Except.ok _ = _)

theorem run_openMixer (number : Nat) (s : State) : (openMixer number).run.run s
    = match s.rack.openMixer number with
      | .error e => (.error e, s)
      | .ok (mixer, rack) => (.ok (), { s with rack := rack, mixer := some mixer }) := by
  rw [openMixer, run_get_bind]
  cases s.rack.openMixer number with
  | error e => rfl
  | ok opened => rfl

theorem withdraws_openMixer (number : Nat) : Withdraws rack (openMixer number) := by
  intro s e t hs hrun
  rw [run_openMixer] at hrun
  split at hrun <;> cases hrun
  exact hs

theorem withdraws_beginMixer (a : AttributeValues) : Withdraws rack (beginMixer a) := by
  have hopen : ∀ number, Withdraws rack (do
      openMixer number
      modify fun s => { s with card := number } : LoadM Unit) := fun number =>
    withdraws_then (withdraws_openMixer number) fun _ => modify_ne_error _
  refine withdraws_bind (keeps_mixerCard a) fun number => withdraws_get fun s _ => ?_
  split
  · exact withdraws_bind (keeps_modify fun _ => rfl) fun _ => hopen number
  · exact hopen number

theorem withdraws_openElement (disk : Disk) (tag : String) (attributes : List (String × String)) :
    Withdraws rack (openElement disk tag attributes) := by
  refine withdraws_get fun s _ => withdraws_bind (keeps_need _ _) fun e =>
    withdraws_bind (keeps_ofResult _) fun values => withdraws_then ?_ fun _ => modify_ne_error _
  by_cases he : e = .mixer
  · subst he
    exact withdraws_beginMixer values
  · exact (keeps_beginElement disk _ values he).withdraws

/-- The mixer that is open is one of the card that the configuration has selected. -/
def State.Aimed (s : State) : Prop :=
  ∀ mixer, s.mixer = some mixer → mixer.card = s.card

/-- Early writes that could be applied have not failed: the mixer can be opened again. -/
theorem rack_of_endPreInit_error (haimed : s.Aimed) {e : Error}
    (h : (endPreInit disk).run.run s = (.error e, t)) : t.rack = s.rack := by
  rw [endPreInit, run_get_bind] at h
  cases hdesk : s.desk? with
  | none =>
    rw [hdesk] at h
    cases h
    rfl
  | some desk =>
    -- The card is still there, so that nothing can go wrong behind the writes.
    obtain ⟨hmixer, hcard⟩ := desk?_eq_some_iff.mp hdesk
    have hnumber : desk.card.number = s.card := (Rack.number_of_card? hcard).trans (haimed _ hmixer)
    rw [haimed _ hmixer, ← hnumber, ← Desk.number_apply disk desk s.preInit.toList] at hcard
    have hopen := Rack.openMixer_of_card? (Rack.card?_setCard_same hcard)
    rw [Desk.number_apply, hnumber] at hopen
    rw [hdesk] at h
    change (openMixer s.card >>= fun _ => modify State.unbind : LoadM Unit).run.run
      { s.withDesk (desk.apply disk s.preInit.toList).1 with preInit := .empty, mixer := none } = (.error e, t) at h
    rw [run_bind, run_openMixer] at h
    dsimp only [State.withDesk] at h
    rw [hopen] at h
    cases h

theorem rack_of_closeElement_error (haimed : s.Aimed) {e : Error}
    (h : (closeElement disk).run.run s = (.error e, t)) : t.rack = s.rack := by
  rw [closeElement, run_get_bind] at h
  split at h
  · cases h
  · rename_i frame outer _
    rw [run_modify_bind] at h
    split at h
    · rename_i element _
      by_cases hearly : element = .preInit
      · subst hearly
        rcases Runs.error_bind_iff.mp h with hend | ⟨_, _, -, hrest⟩
        · have hlater : State.Aimed { s with frames := closeElement.widened frame.element outer } := haimed
          have hrack := rack_of_endPreInit_error hlater hend
          exact hrack
        · cases hrest
      · have hkeeps : Keeps s.rack (endElement disk element) := keeps_endElement disk hearly
        exact hkeeps.withdraws { s with frames := closeElement.widened frame.element outer } e t rfl h
    · cases h

/-- An event that fails leaves the cards as they were. -/
theorem rack_of_take_error (haimed : s.Aimed) {event : Event} {e : Error}
    (h : (event.take disk).run.run s = (.error e, t)) : t.rack = s.rack := by
  cases event with
  | opens line tag attributes =>
    have hwithdraws : Withdraws s.rack (openElement disk tag attributes) := withdraws_openElement disk tag attributes
    obtain ⟨cause, hopen, -⟩ := error_take_opens_iff.mp h
    exact hwithdraws s cause t rfl hopen
  | closes line =>
    obtain ⟨cause, hclose, -⟩ := Runs.error_atLine_iff.mp h
    exact rack_of_closeElement_error haimed hclose

end SoundRouting.Config
