import SoundRouting.Command.Simulate
import SoundRouting.Proofs.Instances
import SoundRouting.Proofs.Loaded
/-!
The slots of a session and the instances of the streams.

A session keeps a handle in a slot for every stream that a script has opened and not closed again. However the steps
end, these slots and the counters of the manager stay in step, and no slot is ever given again.
-/
namespace SoundRouting.Command.Session

open Script Config

/-- The number of slots that are open and hold a handle to the stream. -/
def holding (slots : List (Option Handle)) (id : StreamId) : Nat :=
  slots.countP fun slot => slot.any (·.id == id)

/-- Every stream has an instance for each slot that holds it, and one without instances is routed nowhere. -/
structure Balanced (s : Session) : Prop where
  instances : ∀ id, s.manager.model.instances id = holding s.slots id
  closed : ∀ t ∈ s.manager.model.streams, t.refCount = 0 → t.routed = DeviceMask.nothing

/-- A later state of the slots: each is still there, with what it held or closed, and closed if it was. -/
def Keeps (s t : Session) : Prop :=
  ∀ (slot : Nat) (held : Option Handle), s.slots[slot]? = some held →
    t.slots[slot]? = some held ∨ t.slots[slot]? = some none

theorem Keeps.refl (s : Session) : s.Keeps s :=
  fun _ _ h => Or.inl h

theorem Keeps.trans {s t u : Session} (h : s.Keeps t) (h' : t.Keeps u) : s.Keeps u := by
  intro slot held hslot
  rcases h slot held hslot with ht | ht
  · exact h' slot held ht
  · exact Or.inr ((h' slot none ht).elim id id)

/-- What a step can make of a session: nothing, what a request does that neither opens nor closes a stream, one
stream more in a new slot, or one less in a slot that was open. -/
inductive Change (disk : Disk) (s : Session) : Session → Prop
  | stays : Change disk s s
  | serves {r : Request} (hgrants : s.manager.granted? disk r = none)
      (hreleases : ∀ id, s.manager.releases id r = false) : Change disk s ⟨s.manager.serve disk r, s.slots⟩
  | opens {r : Request} {h : Handle} (hgrants : s.manager.granted? disk r = some h.id)
      (hreleases : ∀ id, s.manager.releases id r = false) :
      Change disk s ⟨s.manager.serve disk r, s.slots ++ [some h]⟩
  | closes {slot : Nat} {h : Handle} (hslot : s.slots[slot]? = some (some h)) :
      Change disk s ⟨s.manager.serve disk (.release h.id), s.slots.set slot none⟩

variable {disk : Disk} {s t : Session}

theorem stream_eq_ok {slot : Nat} {h : Handle} (hstream : s.stream slot = .ok h) :
    s.slots[slot]? = some (some h) := by
  simp only [stream] at hstream
  split at hstream <;> cases hstream
  assumption

theorem change_onStream {slot : Nat} {f : Handle → Session × Except Cause String}
    (h : ∀ handle, s.slots[slot]? = some (some handle) → Change disk s (f handle).1) :
    Change disk s (s.onStream slot f).1 := by
  rw [onStream]
  cases hstream : s.stream slot with
  | error cause => exact .stays
  | ok handle => exact h handle (stream_eq_ok hstream)

/-- A target that is understood is acquired by one of the two requests. -/
theorem exists_request_of_acquire {target : String} {formatText : Option String} {answer : Manager × Option Handle}
    (h : s.acquire disk target formatText = .ok answer) :
    ∃ r, s.manager.serve disk r = answer.1 ∧ s.manager.granted? disk r = answer.2.map (·.id)
      ∧ ∀ id, s.manager.releases id r = false := by
  simp only [acquire] at h
  split at h
  · cases h
    exact ⟨.acquireNamed target, rfl, rfl, fun _ => rfl⟩
  · cases hmask : ofScript (devices target) with
    | error cause =>
      rw [hmask] at h
      cases h
    | ok mask =>
      rw [hmask] at h
      cases formatText with
      | none =>
        cases h
        exact ⟨.acquire mask .pcm16, rfl, rfl, fun _ => rfl⟩
      | some text =>
        cases hformat : ofScript (format text) with
        | error cause =>
          simp only [hformat] at h
          cases h
        | ok word =>
          simp only [hformat] at h
          cases h
          exact ⟨.acquire mask word, rfl, rfl, fun _ => rfl⟩

/-- Every step, one that fails included, makes one of these changes. -/
theorem change_run (disk : Disk) (s : Session) (step : Step) : Change disk s (s.run disk step).1 := by
  cases step with
  | acquire target formatText =>
    simp only [run]
    cases hacquire : s.acquire disk target formatText with
    | error cause => exact .stays
    | ok answer =>
      obtain ⟨m, handle⟩ := answer
      obtain ⟨r, rfl, hgrants, hreleases⟩ := exists_request_of_acquire hacquire
      cases handle with
      | none => exact .serves hgrants hreleases
      | some h => exact .opens hgrants hreleases
  | route slot list =>
    refine change_onStream fun h _ => ?_
    cases ofScript (devices list) with
    | error cause => exact .stays
    | ok mask => exact .serves (r := .route h.id mask) rfl fun _ => rfl
  | useCase slot setting caseName =>
    refine change_onStream fun h _ => ?_
    have hserves : Change disk s ⟨(s.manager.applyUseCase disk h.id setting caseName).1, s.slots⟩ :=
      .serves (r := .applyUseCase h.id setting caseName) rfl fun _ => rfl
    cases hanswer : s.manager.applyUseCase disk h.id setting caseName with
    | mk m outcome =>
      rw [hanswer] at hserves
      cases outcome <;> exact hserves
  | volume slot left right =>
    refine change_onStream fun h _ => ?_
    have hserves : Change disk s ⟨(s.manager.setVolume h.id left right).1, s.slots⟩ :=
      .serves (r := .setVolume h.id left right) rfl fun _ => rfl
    cases hanswer : s.manager.setVolume h.id left right with
    | mk m outcome =>
      rw [hanswer] at hserves
      cases outcome <;> exact hserves
  | close slot => exact change_onStream fun h hslot => .closes hslot

theorem keeps_change (h : Change disk s t) : s.Keeps t := by
  intro slot held hslot
  cases h with
  | stays | serves => exact Or.inl hslot
  | opens =>
    rw [List.getElem?_append_left (List.getElem?_eq_some_iff.mp hslot).1]
    exact Or.inl hslot
  | @closes closed h hopen =>
    by_cases hsame : closed = slot
    · subst hsame
      exact Or.inr (List.getElem?_set_self (List.getElem?_eq_some_iff.mp hslot).1)
    · rw [List.getElem?_set_ne hsame]
      exact Or.inl hslot

theorem holding_append (slots : List (Option Handle)) (h : Handle) (id : StreamId) :
    holding (slots ++ [some h]) id = holding slots id + (h.id == id).toNat := by
  rw [holding, List.countP_append, List.countP_singleton, Option.any_some]
  cases h.id == id <;> rfl

theorem holding_set {slots : List (Option Handle)} {slot : Nat} {h : Handle} (hslot : slots[slot]? = some (some h))
    (id : StreamId) : holding (slots.set slot none) id + (h.id == id).toNat = holding slots id := by
  rw [holding, List.set_eq_modify]
  exact Model.countP_modify (p := fun slot => slot.any (·.id == id)) (fun _ => none) hslot

/-- In a balanced session, a stream with a handle in a slot is open. -/
theorem Balanced.isOpen (hs : s.Balanced) {slot : Nat} {h : Handle} (hslot : s.slots[slot]? = some (some h)) :
    (s.manager.model.stream? h.id).any (·.isOpen) = true := by
  have hcount := hs.instances h.id
  have hset := holding_set hslot h.id
  rw [beq_self_eq_true, Bool.toNat_true] at hset
  cases hstream : s.manager.model.stream? h.id with
  | none =>
    rw [Model.instances, hstream, Option.map_none, Option.getD_none] at hcount
    omega
  | some t =>
    rw [Model.instances_of_stream? hstream] at hcount
    rw [Option.any_some, Stream.isOpen, decide_eq_true_eq]
    omega

/-- A slot more or less is an instance more or less of the stream that it holds. -/
theorem balanced_change (h : Change disk s t) (hs : s.Balanced) : t.Balanced := by
  have hclosed : ∀ r, ∀ u ∈ (s.manager.serve disk r).model.streams, u.refCount = 0 → u.routed = DeviceMask.nothing :=
    fun r => Manager.routed_of_closed hs.closed [(disk, r)]
  cases h with
  | stays => exact hs
  | @serves r hgrants hreleases =>
    refine ⟨fun id => ?_, hclosed r⟩
    have hcount := Manager.instances_serve disk s.manager r id
    rw [hgrants, hreleases, hs.instances] at hcount
    exact hcount
  | @opens r h hgrants hreleases =>
    refine ⟨fun id => ?_, hclosed r⟩
    have hcount := Manager.instances_serve disk s.manager r id
    rw [hgrants, hreleases, hs.instances, Option.some_beq_some] at hcount
    rw [holding_append]
    exact hcount
  | @closes slot h hslot =>
    refine ⟨fun id => ?_, hclosed _⟩
    have hcount := Manager.instances_serve disk s.manager (.release h.id) id
    have hgrants : s.manager.granted? disk (.release h.id) = none := rfl
    have hreleases : s.manager.releases id (.release h.id) = (h.id == id) := by
      rw [Manager.releases]
      by_cases hsame : h.id = id
      · subst hsame
        rw [hs.isOpen hslot, Bool.and_true, beq_self_eq_true, beq_self_eq_true]
      · rw [beq_eq_false_iff_ne.mpr hsame, Bool.and_eq_false_iff]
        exact Or.inl (beq_eq_false_iff_ne.mpr fun he => hsame (by cases he; rfl))
    have hset := holding_set hslot id
    rw [hgrants, hreleases, hs.instances, Option.none_beq_some, Bool.toNat_false] at hcount
    change (s.manager.serve disk (.release h.id)).model.instances id = holding (s.slots.set slot none) id
    omega

/-- The report of the writes concerns the card only. -/
theorem balanced_reportWrites (hs : s.Balanced) : s.reportWrites.2.Balanced :=
  ⟨hs.instances, hs.closed⟩

/-- What every change and every report keeps, running lines keeps, also where a line fails. -/
theorem runLines_induction {I : Session → Prop} (disk : Disk) (hchange : ∀ s t, Change disk s t → I s → I t)
    (hreport : ∀ s : Session, I s → I s.reportWrites.2) (number : Nat) (lines : List (List Char)) (h : I s) :
    I (s.runLines disk number lines).2.1 := by
  induction lines generalizing s number with
  | nil => exact h
  | cons line more ih =>
    cases hline : Step.ofLine line with
    | error fault =>
      simp only [runLines, hline]
      exact h
    | ok step? =>
      cases step? with
      | none =>
        simp only [runLines, hline]
        exact ih _ h
      | some step =>
        have hstep : I (s.run disk step).1 := hchange _ _ (change_run disk s step) h
        cases hrun : s.run disk step with
        | mk t outcome =>
          rw [hrun] at hstep
          cases outcome with
          | error cause =>
            simp only [runLines, hline, hrun]
            exact hstep
          | ok answer =>
            simp only [runLines, hline, hrun]
            exact ih _ (hreport t hstep)

/-- Running more lines goes on from where the first ones ended, unless one of them has failed. -/
theorem runLines_append (disk : Disk) (s : Session) (number : Nat) (lines more : List (List Char)) :
    (s.runLines disk number (lines ++ more)).2.1 = (s.runLines disk number lines).2.1
      ∨ ∃ later, (s.runLines disk number (lines ++ more)).2.1
        = ((s.runLines disk number lines).2.1.runLines disk later more).2.1 := by
  induction lines generalizing s number with
  | nil => exact Or.inr ⟨number, rfl⟩
  | cons line rest ih =>
    rw [List.cons_append]
    cases hline : Step.ofLine line with
    | error fault =>
      simp only [runLines, hline]
      exact Or.inl trivial
    | ok step? =>
      cases step? with
      | none =>
        simp only [runLines, hline]
        exact ih s _
      | some step =>
        cases hrun : s.run disk step with
        | mk t outcome =>
          simp only [runLines, hline, hrun]
          cases outcome with
          | error cause => exact Or.inl rfl
          | ok answer => exact ih _ _

/-- A command is set up if there are defaults, a card and options for it and the configuration can be loaded. -/
theorem setUp_eq_ok_iff {t : Target} {env : Environment} {m : Manager} :
    t.setUp env = .ok m ↔ ∃ defaults card options loaded after, env.defaults = .ok defaults
      ∧ t.card env defaults = .ok card ∧ t.loadOptions env defaults = .ok options
      ∧ load env.disk ⟨[card]⟩ t.config = (.ok loaded, after)
      ∧ m = Manager.ofLoaded ((after.card? loaded.mixer.card).getD card) loaded := by
  constructor
  · intro h
    simp only [Target.setUp, bind, Except.bind] at h
    split at h
    · cases h
    · rename_i defaults hdefaults
      split at h
      · cases h
      · rename_i card hcard
        split at h
        · cases h
        · rename_i options hoptions
          split at h
          · cases h
          · rename_i loaded after hload
            cases h
            exact ⟨defaults, card, options, loaded, after, hdefaults, hcard, hoptions, hload, rfl⟩
  · rintro ⟨defaults, card, options, loaded, after, hdefaults, hcard, hoptions, hload, rfl⟩
    simp only [Target.setUp, hdefaults, hcard, hoptions, hload, bind, Except.bind]
    rfl

/-- Before the first line, no stream has an instance and there is no slot. -/
theorem balanced_start {t : Target} {env : Environment} {m : Manager} (h : t.setUp env = .ok m) :
    Balanced ⟨m, []⟩ := by
  obtain ⟨defaults, card, options, loaded, after, -, -, -, hload, rfl⟩ := setUp_eq_ok_iff.mp h
  have hrest := atRest_of_load hload
  exact ⟨Model.instances_of_idle fun u hu => (hrest.idle u hu).1, fun u hu _ => (hrest.idle u hu).2⟩

def after (env : Environment) (m : Manager) (script : String) (count : Nat) : Session :=
  ((Session.mk m []).reportWrites.2.runLines env.disk 1 ((Text.lines script.toList).take count)).2.1

/-- After each line of a script, the last one or one that has failed included, a stream has as many instances as
there are slots that hold it, and when every slot is closed no stream has an instance or is routed anywhere. A slot
keeps what it was given until it is closed, and stays closed from then on. -/
theorem slots_balance {t : Target} {env : Environment} {m : Manager} (h : t.setUp env = .ok m) (script : String)
    (count : Nat) :
    (∀ id u, (after env m script count).manager.model.stream? id = some u →
        u.refCount = holding (after env m script count).slots id)
      ∧ ((∀ slot ∈ (after env m script count).slots, slot = none) →
        ∀ u ∈ (after env m script count).manager.model.streams, u.refCount = 0 ∧ u.routed = DeviceMask.nothing)
      ∧ ∀ more, (after env m script count).Keeps (after env m script (count + more)) := by
  have hbalanced : (after env m script count).Balanced :=
    runLines_induction env.disk (fun _ _ => balanced_change) (fun _ => balanced_reportWrites) 1 _
      (balanced_reportWrites (balanced_start h))
  have hcount : ∀ id u, (after env m script count).manager.model.stream? id = some u →
      u.refCount = holding (after env m script count).slots id := by
    intro id u hu
    rw [← hbalanced.instances, Model.instances_of_stream? hu]
  refine ⟨hcount, fun hclosed u hu => ?_, fun more => ?_⟩
  · obtain ⟨id, hid⟩ := Model.mem_streams_iff.mp hu
    have hzero : u.refCount = 0 := by
      rw [hcount id u hid, holding, List.countP_eq_zero]
      intro slot hslot
      rw [hclosed slot hslot]
      exact Bool.false_ne_true
    exact ⟨hzero, hbalanced.closed u hu hzero⟩
  · rw [after, after, List.take_add]
    rcases runLines_append env.disk (Session.mk m []).reportWrites.2 1 ((Text.lines script.toList).take count)
      (((Text.lines script.toList).drop count).take more) with he | ⟨later, he⟩
    · rw [he]
      exact Keeps.refl _
    · rw [he]
      exact runLines_induction (I := Keeps _) env.disk (fun _ _ hchange hkeeps => hkeeps.trans (keeps_change hchange))
        (fun _ hkeeps => hkeeps) later _ (Keeps.refl _)

def deckCardText : String :=
  "[[control]]\nname = 'S'\ntype = 'bool'\nmax = 1\n"

def deckEnvironment : Environment :=
  ⟨⟨.folder [("a", .file Manager.scoText.toUTF8.toList), ("c", .file deckCardText.toUTF8.toList)], ⟨"/"⟩⟩, ⟨"/"⟩⟩

def deckTarget : Target :=
  ⟨⟨"a"⟩, some ⟨"c"⟩, none⟩

theorem card_deck : Card.load deckEnvironment.disk ⟨"c"⟩ = .ok Manager.scoCard := by
  have hread : deckEnvironment.disk.readText ⟨"c"⟩ = .ok deckCardText :=
    Disk.readText_of_find (congrArg Except.ok (FileTree.file_toUTF8 deckCardText))
  rw [Card.load, hread]
  exact eq_ok_of_toOption (by decide +kernel)

theorem load_deck :
    load deckEnvironment.disk ⟨[Manager.scoCard]⟩ ⟨"a"⟩ = (.ok Manager.scoLoaded, ⟨[Manager.scoCard.openMixer.2]⟩) := by
  have hstart : TakesUp deckEnvironment.disk ⟨[Manager.scoCard]⟩ ⟨"a"⟩ [] ⟨"/a"⟩ _ := TakesUp.start (by decide)
  have hfind : deckEnvironment.disk.find ⟨"/a"⟩ = .ok (.ofText Manager.scoText) :=
    congrArg Except.ok (FileTree.file_toUTF8 Manager.scoText)
  rw [(hstart.load_of_events (Manager.readTree_scoText hfind) (by decide +kernel) rfl Manager.scoLoaded (by decide +kernel)).2, Prod.mk.injEq]
  exact ⟨rfl, by decide +kernel⟩

theorem setUp_deck :
    deckTarget.setUp deckEnvironment = .ok (Manager.ofLoaded Manager.scoCard.openMixer.2 Manager.scoLoaded) := by
  have hdefaults : deckEnvironment.defaults = .ok .standard := by
    rw [Environment.defaults, if_neg (by decide)]
  have hcard : deckTarget.card deckEnvironment .standard = .ok Manager.scoCard := by
    have hfile : (deckTarget.controls <|> Defaults.standard.controls) = some ⟨"c"⟩ := rfl
    rw [Target.card, hfile]
    simp only [card_deck]
  exact setUp_eq_ok_iff.mpr ⟨_, _, _, _, _, hdefaults, hcard, rfl, load_deck, rfl⟩

/-- The stream is opened twice, and a slot is closed twice: the last step fails. -/
theorem slots_balance_deck :
    let m := Manager.ofLoaded Manager.scoCard.openMixer.2 Manager.scoLoaded
    let script := "open sco\nopen 0x70\nclose 0\nclose 0\n"
    deckTarget.setUp deckEnvironment = .ok m
      ∧ ∃ u, (after deckEnvironment m script 4).manager.model.stream? ⟨.anonymous, 0⟩ = some u
        ∧ u.refCount = holding (after deckEnvironment m script 4).slots ⟨.anonymous, 0⟩ ∧ u.refCount = 1
        ∧ (after deckEnvironment m script 2).Keeps (after deckEnvironment m script 4) := by
  intro m script
  obtain ⟨hcount, -, -⟩ := slots_balance setUp_deck script 4
  obtain ⟨-, -, hkeeps⟩ := slots_balance setUp_deck script 2
  have hstate : ((after deckEnvironment m script 4).manager.model.stream? ⟨.anonymous, 0⟩).any
      (fun u => u.refCount == 1) = true := by decide +kernel
  obtain ⟨u, hu, hone⟩ := (Option.any_eq_true _ _).mp hstate
  exact ⟨setUp_deck, u, hu, hcount _ u hu, beq_iff_eq.mp hone, hkeeps 2⟩

end SoundRouting.Command.Session
