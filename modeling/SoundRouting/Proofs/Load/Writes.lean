import SoundRouting.Proofs.Load.Ledger
import SoundRouting.Proofs.WellFormed
/-!
What a load writes.

A load writes where early writes end, and once more when it has succeeded: exactly what its ledger says. What it
reads besides leaves the cards alone, and so does an event that fails.
-/
namespace SoundRouting

theorem Mixer.card_bindVolume (card : Card) (m : Mixer) (v : VolumeControl) :
    (m.bindVolume card v).1.card = m.card := by
  simp only [bindVolume]
  split
  · rfl
  · split
    · simp
    · split <;> simp

theorem Assignment.unbind_of_unresolved {a : Assignment} (h : a.binding = .unresolved) : a.unbind = a := by
  rw [unbind, ← h]

namespace Config

open Runs

variable {disk : Disk} {rack : Rack} {s t : State} {l : Ledger}

/-- Of what a ledger tells, nothing has changed; the open mixer may know more controls. -/
structure Aside (s t : State) : Prop where
  mixer : ∀ mixer, t.mixer = some mixer → ∃ before, s.mixer = some before ∧ before.card = mixer.card
  card : t.card = s.card
  early : t.preInit = s.preInit
  initial : t.init = s.init
  rack : t.rack = s.rack

theorem Aside.trans {u : State} (h : Aside s t) (h' : Aside t u) : Aside s u := by
  refine ⟨fun mixer hmixer => ?_, h'.card.trans h.card, h'.early.trans h.early, h'.initial.trans h.initial,
    h'.rack.trans h.rack⟩
  obtain ⟨between, hbetween, hcard⟩ := h'.mixer mixer hmixer
  obtain ⟨before, hbefore, hcard'⟩ := h.mixer between hbetween
  exact ⟨before, hbefore, hcard'.trans hcard⟩

theorem Aside.of_eq (hmixer : t.mixer = s.mixer) (hcard : t.card = s.card) (hearly : t.preInit = s.preInit)
    (hinitial : t.init = s.init) (hrack : t.rack = s.rack) : Aside s t :=
  ⟨fun mixer h => ⟨mixer, hmixer ▸ h, rfl⟩, hcard, hearly, hinitial, hrack⟩

/-- A mixer of the same card has taken the place of the open one. -/
theorem Aside.of_mixer {before mixer : Mixer} (hbefore : s.mixer = some before) (hcard : mixer.card = before.card) :
    Aside s { s with mixer := some mixer } := by
  refine ⟨?_, rfl, rfl, rfl, rfl⟩
  rintro _ ⟨⟩
  exact ⟨before, hbefore, hcard.symm⟩

/-- Binding an assignment where it is declared leaves everything aside. -/
theorem aside_bindEarly {a b : Assignment} (h : Runs (bindEarly disk a) s b t) : b = s.bindNow disk a ∧ Aside s t := by
  rw [State.bindNow]
  rcases bindEarly_cases h with ⟨hdesk, rfl, rfl⟩ | ⟨desk, mixer, outcome, hdesk, hbind, rfl⟩
  · rw [hdesk]
    exact ⟨rfl, .of_eq rfl rfl rfl rfl rfl⟩
  · rw [hdesk]
    dsimp only
    have hcard : (desk.mixer.bind disk desk.card a).1.card = desk.mixer.card :=
      Mixer.card_bind disk desk.card desk.mixer a
    rw [hbind] at hcard ⊢
    exact ⟨rfl, .of_mixer (desk?_eq_some_iff.mp hdesk).1 hcard⟩

theorem aside_bindVolumeEarly {v : VolumeControl} {r : Desk × VolumeControl × Nat}
    (h : Runs (bindVolumeEarly v) s r t) : Aside s t := by
  obtain ⟨desk, bound, id⟩ := r
  obtain ⟨before, hdesk, hbind, -, rfl⟩ := bindVolumeEarly_cases h
  have hcard : (before.mixer.bindVolume before.card v).1.card = before.mixer.card :=
    Mixer.card_bindVolume before.card before.mixer v
  rw [hbind] at hcard
  exact .of_mixer (desk?_eq_some_iff.mp hdesk).1 hcard

/-- What begins leaves everything aside, unless it opens a mixer or declares an assignment. -/
theorem aside_begins {parent : Option ElementKind} {e : ElementKind} (h : Begins disk s parent e t)
    (hmixer : e ≠ .mixer) (hcontrol : e ≠ .control) : Aside s t := by
  cases h with
  | mixer => exact absurd rfl hmixer
  | control => exact absurd rfl hcontrol
  | volume _ hbind => exact (aside_bindVolumeEarly hbind).trans (.of_eq rfl rfl rfl rfl rfl)
  | aside | device | path | anonymous | named | setting => exact .of_eq rfl rfl rfl rfl rfl

/-- When a mixer is declared, nothing that has been listed is bound any more. -/
theorem init_detached (h : Bound s) : s.detached.init.toList = s.init.toList.map Assignment.unbind := by
  have hunresolved := (unresolved_detached h).1
  by_cases hmixer : s.mixer.isSome = true
  · rw [State.detached, if_pos hmixer]
    exact GranularArray.toList_map _ _
  · rw [State.detached, if_neg hmixer] at hunresolved ⊢
    have hsame : ∀ a ∈ s.init.toList, a.unbind = a := fun a ha => Assignment.unbind_of_unresolved (hunresolved a ha)
    rw [List.map_congr_left hsame, List.map_id']

namespace Ledger

/-- The ledger tells which card is selected, what is listed, and what has become of the cards. -/
structure Tells (disk : Disk) (rack : Rack) (l : Ledger) (s : State) : Prop where
  card : ∀ mixer, s.mixer = some mixer → mixer.card = s.card ∧ l.card = some s.card
  early : s.preInit.toList = l.early
  initial : s.init.toList = l.initial
  rack : s.rack = l.effects.foldl (Effect.perform disk) rack

theorem Tells.aside (h : l.Tells disk rack s) (haside : Aside s t) : l.Tells disk rack t := by
  refine ⟨fun mixer hmixer => ?_, by rw [haside.early, h.early], by rw [haside.initial, h.initial],
    haside.rack.trans h.rack⟩
  obtain ⟨before, hbefore, hsame⟩ := haside.mixer mixer hmixer
  obtain ⟨hcard, hselected⟩ := h.card before hbefore
  rw [haside.card, ← hsame]
  exact ⟨hcard, hselected⟩

/-- What the open mixer applies is applied by the one of the selected card. -/
theorem Tells.perform_applied (h : l.Tells disk rack s) {desk : Desk} (hdesk : s.desk? = some desk)
    (list : List Assignment) : l.card = some s.card
      ∧ (Effect.applied ⟨s.card, s.known⟩ list).perform disk s.rack = s.rack.setCard (desk.apply disk list).1.card := by
  obtain ⟨hmixer, hcard⟩ := desk?_eq_some_iff.mp hdesk
  obtain ⟨hnumber, hselected⟩ := h.card _ hmixer
  have hsame : (⟨s.card, s.known⟩ : Mixer) = desk.mixer := by
    rw [State.known, hmixer, ← hnumber]
    rfl
  refine ⟨hselected, ?_⟩
  rw [hsame, Effect.perform, Effect.number, hcard]
  rfl

theorem tells_start (disk : Disk) (rack : Rack) : blank.Tells disk rack (State.start rack) :=
  ⟨nofun, rfl, rfl, rfl⟩

theorem Tells.enter (h : l.Tells disk rack s) (file : Location) : l.Tells disk rack (s.enter file) :=
  h.aside (.of_eq rfl rfl rfl rfl rfl)

/-- A mixer is opened on the card that it names, and forgets what was bound. -/
theorem Tells.select (h : l.Tells disk rack s) (hbound : Bound s) {number : Nat} {mixer : Mixer} {opened : Rack}
    (hopen : s.rack.openMixer number = .ok (mixer, opened)) :
    (l.select number).Tells disk rack { s.detached with rack := opened, mixer := some mixer, card := number } := by
  have hearly : s.detached.preInit = s.preInit := by
    rw [State.detached]
    split <;> rfl
  obtain ⟨card, -, -, rfl, -⟩ := Rack.openMixer_eq_ok hopen
  refine ⟨?_, (congrArg GranularArray.toList hearly).trans h.early,
    (init_detached hbound).trans (congrArg (List.map Assignment.unbind) h.initial), ?_⟩
  · rintro _ ⟨⟩
    exact ⟨rfl, rfl⟩
  · rw [Ledger.select, List.foldl_append, ← h.rack, List.foldl_cons, List.foldl_nil, Rack.perform_opened hopen]

/-- Where early writes end they are applied, and the mixer is opened again. -/
theorem Tells.applyEarly (h : l.Tells disk rack s) (hend : Ends disk s .preInit t) :
    (l.applyEarly s.known).Tells disk rack t := by
  cases hend with
  | aside _ hne => exact absurd rfl hne
  | @preInit desk mixer opened hdesk hopen =>
    obtain ⟨hselected, happlied⟩ := h.perform_applied hdesk s.preInit.toList
    rw [h.early] at happlied hopen
    obtain ⟨_, -, -, rfl, -⟩ := Rack.openMixer_eq_ok hopen
    refine ⟨?_, rfl, ?_, ?_⟩
    · rintro _ ⟨⟩
      exact ⟨rfl, hselected⟩
    · exact (GranularArray.toList_map _ _).trans (congrArg (List.map Assignment.unbind) h.initial)
    · rw [Ledger.applyEarly, hselected, Option.toList_some, List.flatMap_singleton, List.foldl_append, ← h.rack,
        List.foldl_cons, happlied, List.foldl_cons, List.foldl_nil, Rack.perform_opened hopen]

/-- An assignment is listed in the element that it stands in. -/
theorem Tells.list (h : l.Tells disk rack s) {a : Assignment} {parent : Option ElementKind}
    (hlists : Lists a s parent t) :
    (l.list (if parent = some .preInit then some a else none)
      (if parent = some .init then some a else none)).Tells disk rack t := by
  have hother : ∀ {kind : ElementKind} (list : List Assignment), parent ≠ some kind →
      list = list ++ (if parent = some kind then some a else none).toList := by
    intro kind list hne
    rw [if_neg hne, Option.toList_none, List.append_nil]
  cases hlists with
  | path | useCaseCase =>
    exact ⟨h.card, h.early.trans (hother _ (by decide)), h.initial.trans (hother _ (by decide)), h.rack⟩
  | init hpush =>
    refine ⟨h.card, h.early.trans (hother _ (by decide)), ?_, h.rack⟩
    rw [Ledger.list, if_pos rfl, GranularArray.toList_push hpush, h.initial]
    rfl
  | preInit hpush =>
    refine ⟨h.card, ?_, h.initial.trans (hother _ (by decide)), h.rack⟩
    rw [Ledger.list, if_pos rfl, GranularArray.toList_push hpush, h.early]
    rfl

end Ledger

/-! ### Events -/

theorem eq_control_of_tag {e : ElementKind} (h : e.tag = ElementKind.control.tag) : e = .control ∨ e = .volume := by
  revert h
  cases e <;> decide

namespace Event

variable {line : Nat} {attributes : List (String × String)} {values : AttributeValues}

theorem mixerCard?_other {e : ElementKind} (he : e ≠ .mixer) : (opens line e.tag attributes).mixerCard? s = none :=
  congrArg (Option.bind · _) (values?_other (tag_ne (by decide) he))

theorem listed?_control {b : Assignment} (hvalues : AttributeValues.ofWritten .control attributes = .ok values)
    (hb : values.assignment? s.file = some b) (kind : ElementKind) :
    (opens line ElementKind.control.tag attributes).listed? disk s kind
      = if s.inner.element = some kind then some (s.bindNow disk b) else none := by
  rw [listed?, values?_opens hvalues, Option.bind_some, hb, Option.map_some]

/-- In lists of writes stands nothing else that has their tag. -/
theorem listed?_other (hnested : Nested s) {e kind : ElementKind} (he : e ∈ s.inner.children) (hne : e ≠ .control)
    (hkind : kind ∈ [.preInit, .init]) : (opens line e.tag attributes).listed? disk s kind = none := by
  rw [listed?]
  by_cases htag : e.tag = ElementKind.control.tag
  · obtain rfl := (eq_control_of_tag htag).resolve_left hne
    have hinner : s.inner.element ≠ some kind := by
      intro hinner
      have hallowed := (hnested.allowed he).1
      rw [hinner] at hallowed
      have hnone : ∀ k ∈ [ElementKind.preInit, .init], ElementKind.volume ∉ allowedIn (some k) := by decide
      exact hnone kind hkind hallowed
    simp only [if_neg hinner, Option.bind_fun_none]
  · rw [values?_other htag, Option.bind_none]

end Event

namespace Ledger

theorem note_listed {e : Event} (hcard : e.mixerCard? s = none) (hends : e.endsEarly s = false) :
    l.note disk (s, e) = l.list (e.listed? disk s .preInit) (e.listed? disk s .init) := by
  simp only [note, hcard, hends, Bool.false_eq_true, if_false]

theorem note_of_not_listed {e : Event} (hcard : e.mixerCard? s = none) (hends : e.endsEarly s = false)
    (hearly : e.listed? disk s .preInit = none) (hinitial : e.listed? disk s .init = none) :
    l.note disk (s, e) = l := by
  rw [note_listed hcard hends, hearly, hinitial, list, Option.toList_none, List.append_nil, List.append_nil]

theorem tells_opens (h : l.Tells disk rack s) (hnested : Nested s) (hbound : Bound s) {line : Nat} {tag : String}
    {attributes : List (String × String)} (hopen : Runs (openElement disk tag attributes) s () t) :
    (l.note disk (s, .opens line tag attributes)).Tells disk rack t := by
  obtain ⟨e, values, u, he, rfl, hvalues, hbegin, rfl⟩ := runs_openElement hopen
  -- The frames that come with the element are nothing to the ledger.
  suffices hu : (l.note disk (s, .opens line e.tag attributes)).Tells disk rack u from
    hu.aside (.of_eq rfl rfl rfl rfl rfl)
  by_cases hmixer : e = .mixer
  · subst hmixer
    obtain ⟨number, mixer, opened, hnumber, hopened, rfl⟩ := runs_beginMixer hbegin
    have hcard : (Event.opens line ElementKind.mixer.tag attributes).mixerCard? s = some number := by
      rw [Event.mixerCard?, Event.values?_opens hvalues, Option.bind_some, hnumber]
    rw [note, hcard]
    exact h.select hbound hopened
  have hcard : (Event.opens line e.tag attributes).mixerCard? s = none := Event.mixerCard?_other hmixer
  by_cases hcontrol : e = .control
  · subst hcontrol
    obtain ⟨b, bound, v, hb, -, -, -, hbind, hlists⟩ := runs_beginControl hbegin
    obtain ⟨rfl, haside⟩ := aside_bindEarly hbind
    rw [note_listed hcard rfl, Event.listed?_control hvalues hb, Event.listed?_control hvalues hb]
    exact (h.aside haside).list hlists
  · rw [note_of_not_listed hcard rfl (Event.listed?_other hnested he hcontrol (by decide))
      (Event.listed?_other hnested he hcontrol (by decide))]
    exact h.aside (aside_begins (begins_of_runs hbegin) hmixer hcontrol)

theorem tells_closes (h : l.Tells disk rack s) {line : Nat} {next : Option Location}
    (hclose : Runs (closeElement disk) s next t) : (l.note disk (s, .closes line)).Tells disk rack t := by
  rcases runs_closeElement hclose with ⟨hinner, -, rfl⟩ | ⟨e, hinner, hend, -⟩
  · rw [note_of_not_listed rfl (by rw [Event.endsEarly, hinner]; rfl) rfl rfl]
    exact h.aside (.of_eq rfl rfl rfl rfl rfl)
  · by_cases hearly : e = .preInit
    · subst hearly
      have hwidened : Aside s { s with frames := closeElement.widened (some .preInit) s.frames.tail } :=
        .of_eq rfl rfl rfl rfl rfl
      have hends : (Event.closes line).endsEarly s = true := by
        rw [Event.endsEarly, hinner]
        rfl
      have hnote : l.note disk (s, .closes line) = l.applyEarly s.known := if_pos hends
      rw [hnote]
      exact (h.aside hwidened).applyEarly hend
    · have hends : (Event.closes line).endsEarly s = false := by
        rw [Event.endsEarly, hinner]
        simpa using hearly
      rw [note_of_not_listed rfl hends rfl rfl]
      cases hend with
      | aside => exact h.aside (.of_eq rfl rfl rfl rfl rfl)
      | preInit => exact absurd rfl hearly

/-- A ledger that tells what becomes of the cards does so after one event more. -/
theorem tells_take (h : l.Tells disk rack s) (hnested : Nested s) (hbound : Bound s) {e : Event}
    {next : Option Location} (hrun : Runs (e.take disk) s next t) : (l.note disk (s, e)).Tells disk rack t := by
  cases e with
  | opens line tag attributes =>
    obtain ⟨_, _, hopen, hrest⟩ := bind_iff.mp hrun
    obtain ⟨-, rfl⟩ := pure_iff.mp hrest
    exact tells_opens h hnested hbound (atLine_iff.mp hopen)
  | closes line => exact tells_closes h (atLine_iff.mp hrun)

/-- All along a load its ledger tells what becomes of the cards. -/
theorem tells_of_stops {file : Location} {done : List (State × Event)} {result : Except Error Loaded × Rack}
    (h : Stops disk rack file done s result) : (ofSteps disk done).Tells disk rack s := by
  refine h.induction (I := fun done s => (ofSteps disk done).Tells disk rack s) (tells_start disk rack)
    (fun _ _ next hs => hs.enter next) fun done s e events next t hcourse hs hrun => ?_
  rw [ofSteps_append]
  exact tells_take hs (nested_of_reaches hcourse.reaches) (bound_of_reaches hcourse.reaches) hrun

theorem Tells.aimed (h : l.Tells disk rack s) : s.Aimed :=
  fun mixer hmixer => (h.card mixer hmixer).1

end Ledger

/-! ### Loads -/

/-- Without an open mixer nothing is finished; otherwise the writes that come last are applied. -/
theorem finish_cases (disk : Disk) (s : State) :
    ((finish disk).run.run s).1.isOk = false ∧ ((finish disk).run.run s).2 = s
      ∨ ((finish disk).run.run s).1.isOk = true ∧ ∃ desk, s.desk? = some desk
        ∧ ((finish disk).run.run s).2 = s.withDesk (desk.apply disk s.init.toList).1 := by
  rw [finish, run_get_bind]
  cases hdesk : s.desk? with
  | none => exact Or.inl ⟨rfl, rfl⟩
  | some desk => exact Or.inr ⟨rfl, desk, rfl, rfl⟩

/-- What a load leaves of the cards is what its ledger says, whether it succeeds or fails. -/
theorem rack_of_stops {file : Location} {done : List (State × Event)} {result : Except Error Loaded × Rack}
    (h : Stops disk rack file done s result) :
    result.2 = ((Ledger.ofSteps disk done).total s result.1.isOk).foldl (Effect.perform disk) rack := by
  have htells := Ledger.tells_of_stops h
  cases h with
  | unread => rfl
  | fails _ hfails =>
    -- The event that fails is not noted, and leaves the cards as the ones before it did.
    change _ = ((Ledger.ofSteps disk done).total s false).foldl _ _
    rw [Ledger.total_of_failure, ← htells.rack]
    exact rack_of_take_error htells.aimed hfails
  | astray =>
    change _ = ((Ledger.ofSteps disk _).total s false).foldl _ _
    rw [Ledger.total_of_failure, ← htells.rack]
  | finishes =>
    rcases finish_cases disk s with ⟨hfails, hsame⟩ | ⟨hsucceeds, desk, hdesk, hafter⟩
    · rw [hfails, hsame, Ledger.total_of_failure, ← htells.rack]
    · obtain ⟨hselected, happlied⟩ := htells.perform_applied hdesk s.init.toList
      rw [hsucceeds, hafter, Ledger.total, if_pos rfl, hselected, Option.toList_some, List.map_singleton,
        ← htells.initial, List.foldl_append, ← htells.rack, List.foldl_cons, List.foldl_nil, happlied]
      rfl

open Ledger in
/-- What a load writes, whether it succeeds or fails. It applies the writes that come before everything else where
they end, and the ones that come last if and only if it succeeds. All of them have been declared in the elements for
them, and go to the card that a mixer selects; nothing is written to any other card. A load that fails before the end
of any early writes writes nothing at all. -/
theorem writes_of_load (disk : Disk) (rack : Rack) (file : Location) :
    (∃ done s, Stops disk rack file done s (load disk rack file))
      ∧ ∀ done s effects, Stops disk rack file done s (load disk rack file) →
        effects = (ofSteps disk done).total s (load disk rack file).1.isOk →
          (load disk rack file).2 = effects.foldl (Effect.perform disk) rack
          ∧ (∀ mixer list, .applied mixer list ∈ effects →
              (∃ step ∈ done, step.2.mixerCard? step.1 = some mixer.card)
              ∧ ∀ a ∈ list, Declares disk done .preInit a ∨ Declares disk done .init a)
          ∧ (∀ i, (∀ mixer list, .applied mixer list ∈ effects → rack.place? mixer.card ≠ some i) →
              rack.Unwritten (load disk rack file).2 i)
          ∧ ((load disk rack file).1.isOk = false →
              (∀ mixer list, .applied mixer list ∈ effects → ∀ a ∈ list, Declares disk done .preInit a)
              ∧ ((∀ step ∈ done, step.2.endsEarly step.1 = false) →
                ∀ i, rack.Unwritten (load disk rack file).2 i)) := by
  refine ⟨load_stops disk rack file, fun done s effects hstops heffects => ?_⟩
  have hgrounded := grounded_ofSteps disk done
  have hrack := rack_of_stops hstops
  rw [← heffects] at hrack
  have hframe : ∀ i, (∀ mixer list, .applied mixer list ∈ effects → rack.place? mixer.card ≠ some i) →
      rack.Unwritten (load disk rack file).2 i := by
    rw [hrack]
    exact fun i hnot => Effect.unwritten_performAll hnot
  refine ⟨hrack, fun mixer list hmem => hgrounded.total (heffects ▸ hmem), hframe, fun hfails => ?_⟩
  rw [hfails, total_of_failure] at heffects
  subst heffects
  refine ⟨hgrounded.applied, fun hnever i => hframe i fun mixer list hmem => ?_⟩
  obtain ⟨step, hstep, hends⟩ := hgrounded.ended mixer list hmem
  rw [hnever step hstep] at hends
  cases hends

def phoneEffects : List Effect := [
  .opened 0, .applied ⟨0, [0]⟩ [⟨"T", .all, .int 1, .bound 0 .switch⟩],
  .opened 0, .applied ⟨0, [0, 1]⟩ [⟨"N", .all, .int 1, .bound 1 .switch⟩]]

/-- The early write makes the control appear that the other one is for; nothing is written to the second card. -/
theorem writes_of_load_phone : ∃ done s, Stops phoneDisk phoneRack ⟨"a"⟩ done s (load phoneDisk phoneRack ⟨"a"⟩)
    ∧ phoneAfter = phoneEffects.foldl (Effect.perform phoneDisk) phoneRack ∧ phoneRack.Unwritten phoneAfter 1 := by
  obtain ⟨⟨done, s⟩, htrail⟩ := Option.isSome_iff_exists.mp (by decide +kernel : (trail phoneDisk
    (eventsOfAll phoneElements) ((State.start phoneRack).enter ⟨"/a"⟩)).isSome = true)
  have hfinish : (trail phoneDisk (eventsOfAll phoneElements) ((State.start phoneRack).enter ⟨"/a"⟩)).map
      (fun last => (((finish phoneDisk).run.run last.2).1.toOption, ((finish phoneDisk).run.run last.2).2.rack))
        = some (some phoneLoaded, phoneAfter) := by
    decide +kernel
  have htotal : (trail phoneDisk (eventsOfAll phoneElements) ((State.start phoneRack).enter ⟨"/a"⟩)).map
      (fun last => (Ledger.ofSteps phoneDisk last.1).total last.2 true) = some phoneEffects := by
    decide +kernel
  rw [htrail, Option.map_some, Option.some.injEq] at hfinish htotal
  have hfirst : Course phoneDisk phoneRack ⟨"a"⟩ [] ((State.start phoneRack).enter ⟨"/a"⟩)
      (eventsOfAll phoneElements) := .first_of_events (by decide) readTree_phone
  have hstops := Stops.finishes (hfirst.trail htrail)
  obtain ⟨hloaded, hafter⟩ := Prod.mk.inj hfinish
  rw [List.nil_append, eq_ok_of_toOption hloaded, hafter, ← load_phone] at hstops
  obtain ⟨-, hwrites⟩ := writes_of_load phoneDisk phoneRack ⟨"a"⟩
  obtain ⟨heffects, -, hframe, -⟩ := hwrites done s phoneEffects hstops (by rw [load_phone]; exact htotal.symm)
  rw [load_phone] at heffects hframe
  refine ⟨done, s, hstops, heffects, hframe 1 fun mixer list hmem => ?_⟩
  have hcards : phoneEffects.all (fun effect => phoneRack.place? effect.number != some 1) = true := by decide +kernel
  exact bne_iff_ne.mp (List.all_eq_true.mp hcards _ hmem)

end Config

end SoundRouting
