import Mathlib.Data.List.Chain
import SoundRouting.Proofs.Load.Handlers
/-!
The elements that are open while a configuration is loaded.

An event begins an element in the innermost open one, or ends that one. What may stand in an element is
settled by the grammar, so that writes that come before everything else are only ever listed while the
element for them is open, and none are left when a mixer is declared or another file is read.
-/
namespace SoundRouting.Config

open Runs

def State.inner (s : State) : Frame :=
  s.frames.head?.getD ⟨none, []⟩

def State.opened (s : State) : List (Option ElementKind) :=
  s.frames.map (·.element)

inductive Steps (disk : Disk) (s : State) : Option Location → State → Prop
  | opens {e : ElementKind} {t : State} (he : e ∈ s.inner.children)
      (h : Begins disk s s.inner.element e t) :
      Steps disk s none { t with
        frames := ⟨some e, e.children⟩ :: openElement.narrowed e t.frames }
  | closes {frame : Frame} {outer : List Frame} {e : ElementKind} {next : Option Location} {t : State}
      (hframes : s.frames = frame :: outer) (he : frame.element = some e)
      (h : Ends disk { s with frames := closeElement.widened frame.element outer } e t)
      (hnext : ∀ file, next = some file → e = .codecProbe ∧ s.HandsOver file) : Steps disk s next t
  | leaves {frame : Frame} {outer : List Frame} (hframes : s.frames = frame :: outer)
      (he : frame.element = none) :
      Steps disk s none { s with frames := closeElement.widened frame.element outer }
  | rests (hframes : s.frames = []) : Steps disk s none s

variable {disk : Disk} {s t : State}

/-- An element that opens may stand in the innermost open one, has this tag and begins with the attributes that
are written. -/
theorem runs_openElement {tag : String} {attributes : List (String × String)}
    (h : Runs (openElement disk tag attributes) s () t) : ∃ e values u, e ∈ s.inner.children ∧ e.tag = tag
      ∧ AttributeValues.ofWritten e attributes = .ok values
      ∧ Runs (beginElement disk s.inner.element values e) s () u
      ∧ t = { u with frames := ⟨some e, e.children⟩ :: openElement.narrowed e u.frames } := by
  simp only [openElement, bind_iff, get_iff, modify_iff, need_iff, ofResult_iff] at h
  obtain ⟨_, _, ⟨rfl, rfl⟩, e, _, ⟨he, rfl⟩, values, _, ⟨hvalues, rfl⟩, _, u, hbegin, rfl⟩ := h
  obtain ⟨hfound, -⟩ := Option.filter_eq_some_iff.mp he
  have hallowed := List.find?_some hfound
  rw [Bool.and_eq_true, List.contains_iff_mem, beq_iff_eq] at hallowed
  exact ⟨e, values, u, hallowed.1, hallowed.2, hvalues, hbegin, rfl⟩

theorem steps_of_openElement {tag : String} {attributes : List (String × String)}
    (h : Runs (openElement disk tag attributes) s () t) : Steps disk s none t := by
  obtain ⟨e, values, u, he, -, -, hbegin, rfl⟩ := runs_openElement h
  exact .opens he (begins_of_runs hbegin)

/-- The end of an element is that of the innermost open one. -/
theorem runs_closeElement {next : Option Location} (h : Runs (closeElement disk) s next t) :
    (s.inner.element = none ∧ next = none ∧ t = { s with frames := s.frames.tail })
      ∨ ∃ e, s.inner.element = some e
        ∧ Ends disk { s with frames := closeElement.widened (some e) s.frames.tail } e t
        ∧ ∀ file, next = some file → e = .codecProbe ∧ s.HandsOver file := by
  simp only [closeElement, bind_iff, get_iff] at h
  obtain ⟨_, _, ⟨rfl, rfl⟩, h⟩ := h
  rw [State.inner]
  split at h
  · rename_i hframes
    obtain ⟨rfl, rfl⟩ := pure_iff.mp h
    refine Or.inl ⟨by rw [hframes]; rfl, rfl, ?_⟩
    rw [hframes, List.tail_nil, ← hframes]
  · rename_i frame outer hframes
    rw [hframes, List.head?_cons, Option.getD_some, List.tail_cons]
    simp only [bind_iff, modify_iff] at h
    obtain ⟨_, _, rfl, h⟩ := h
    split at h
    · rename_i e he
      rw [he] at h
      obtain ⟨hend, hnext⟩ := ends_of_runs h
      exact Or.inr ⟨e, he, hend, hnext⟩
    · rename_i he
      rw [he] at h
      obtain ⟨rfl, rfl⟩ := pure_iff.mp h
      exact Or.inl ⟨he, rfl, rfl⟩

theorem steps_of_closeElement {next : Option Location} (h : Runs (closeElement disk) s next t) :
    Steps disk s next t := by
  cases hframes : s.frames with
  | nil =>
    rcases runs_closeElement h with ⟨-, rfl, rfl⟩ | ⟨e, he, -⟩
    · rw [hframes, List.tail_nil, ← hframes]
      exact .rests hframes
    · rw [State.inner, hframes] at he
      cases he
  | cons frame outer =>
    have hclose := runs_closeElement h
    rw [State.inner, hframes, List.head?_cons, Option.getD_some, List.tail_cons] at hclose
    rcases hclose with ⟨he, rfl, rfl⟩ | ⟨e, he, hend, hnext⟩
    · have hleaves : Steps disk s none { s with frames := closeElement.widened frame.element outer } :=
        .leaves hframes he
      rwa [he] at hleaves
    · exact .closes hframes he (by rwa [he]) hnext

theorem steps_of_take {e : Event} {next : Option Location} (h : Runs (e.take disk) s next t) :
    Steps disk s next t := by
  cases e with
  | opens line tag attributes =>
    obtain ⟨_, u, hopen, h⟩ := bind_iff.mp h
    obtain ⟨rfl, rfl⟩ := pure_iff.mp h
    exact steps_of_openElement (atLine_iff.mp hopen)
  | closes line => exact steps_of_closeElement (atLine_iff.mp h)

/-- What every event keeps, and every change to another file, holds all along a load. -/
theorem Reaches.induction {rack : Rack} {file : Location} {I : State → Prop}
    (hfirst : I ((State.start rack).enter (Location.absolute disk.folder file)))
    (hstep : ∀ s events t next, Reaches disk rack file s events → I s → Steps disk s next t → I t)
    (hnext : ∀ s t next, I s → Steps disk s (some next) t → I t → I (t.enter next)) {events : List Event}
    (h : Reaches disk rack file s events) : I s := by
  induction h with
  | first => exact hfirst
  | event h hrun ih => exact hstep _ _ _ _ h ih (steps_of_take hrun)
  | next h hrun hread ih =>
    exact hnext _ _ _ ih (steps_of_take hrun) (hstep _ _ _ _ h ih (steps_of_take hrun))

def allowedIn : Option ElementKind → List ElementKind
  | none => Grammar.topLevel
  | some .root => ElementKind.root.children ++ Grammar.afterMixer
  | some e => e.children

theorem children_subset (e : ElementKind) : ∀ c ∈ e.children, c ∈ allowedIn (some e) := by
  cases e <;> decide

/-- Three elements stand in one other only. -/
theorem place_of_allowed {outer : Option ElementKind} {e : ElementKind} (h : e ∈ allowedIn outer) :
    (e = .mixer → outer = some .root) ∧ (e = .init → outer = some .mixer)
      ∧ (e = .codecCase → outer = some .codecProbe) := by
  have hall : ∀ k ∈ allowedIn outer, (k = .mixer → outer = some .root) ∧ (k = .init → outer = some .mixer)
      ∧ (k = .codecCase → outer = some .codecProbe) := by
    cases outer with
    | none => decide
    | some outer => cases outer <;> decide
  exact hall e h

def StandsIn (inner outer : Option ElementKind) : Prop :=
  ∀ e, inner = some e → e ∈ allowedIn outer

/-- The open elements stand in one another as the grammar allows, and writes that come before everything
else are listed only while the element for them is open. -/
structure Nested (s : State) : Prop where
  children : ∀ f ∈ s.frames, ∀ e ∈ f.children, e ∈ allowedIn f.element
  chain : s.opened.IsChain StandsIn
  early : s.preInit.toList = [] ∨ (∃ outer, s.opened = some .preInit :: outer)
    ∨ ∃ outer, s.opened = some .control :: some .preInit :: outer

theorem map_element_narrowed (e : ElementKind) (frames : List Frame) :
    (openElement.narrowed e frames).map (·.element) = frames.map (·.element) := by
  cases frames with
  | nil => cases e <;> rfl
  | cons f outer => cases e <;> rfl

theorem map_element_widened (e : Option ElementKind) (frames : List Frame) :
    (closeElement.widened e frames).map (·.element) = frames.map (·.element) := by
  cases frames with
  | nil => cases e with
    | none => rfl
    | some e => cases e <;> rfl
  | cons f outer => cases e with
    | none => rfl
    | some e => cases e <;> rfl

theorem children_narrowed {e : ElementKind} {frames : List Frame} {f : Frame}
    (hf : f ∈ openElement.narrowed e frames) :
    ∃ g ∈ frames, f.element = g.element ∧ ∀ c ∈ f.children, c ∈ g.children := by
  unfold openElement.narrowed at hf
  split at hf
  · rename_i inner outer
    rcases List.mem_cons.mp hf with rfl | hf
    · exact ⟨inner, List.mem_cons_self, rfl, fun c hc => List.mem_of_mem_filter hc⟩
    · exact ⟨f, List.mem_cons_of_mem _ hf, rfl, fun _ hc => hc⟩
  · exact ⟨f, hf, rfl, fun _ hc => hc⟩

theorem frames_lists {a : Assignment} {parent : Option ElementKind} (h : Lists a s parent t) :
    t.frames = s.frames ∧ (t.preInit = s.preInit ∨ parent = some .preInit) := by
  cases h with
  | path | useCaseCase | init => exact ⟨rfl, Or.inl rfl⟩
  | preInit => exact ⟨rfl, Or.inr rfl⟩

/-- What begins leaves the open elements alone, and lists no early write unless it is one. -/
theorem frames_begins {parent : Option ElementKind} {e : ElementKind} (h : Begins disk s parent e t) :
    t.frames = s.frames ∧ (t.preInit = s.preInit ∨ e = .control ∧ parent = some .preInit) := by
  cases h with
  | mixer =>
    simp only [State.detached]
    split <;> exact ⟨rfl, Or.inl rfl⟩
  | @control a b u _ ha hbind hlists =>
    have hu : u.frames = s.frames ∧ u.preInit = s.preInit := by
      rcases bindEarly_cases hbind with ⟨-, -, rfl⟩ | ⟨_, _, _, -, -, rfl⟩ <;> exact ⟨rfl, rfl⟩
    obtain ⟨hframes, hpre⟩ := frames_lists hlists
    exact ⟨hframes.trans hu.1, hpre.imp (fun h => h.trans hu.2) fun h => ⟨rfl, h⟩⟩
  | volume _ hbind =>
    obtain ⟨_, -, -, -, rfl⟩ := bindVolumeEarly_cases hbind
    exact ⟨rfl, Or.inl rfl⟩
  | aside | device | path | anonymous | named | setting => exact ⟨rfl, Or.inl rfl⟩

/-- An element that has begun is the innermost one. -/
theorem opened_of_begins {parent : Option ElementKind} {e : ElementKind} (h : Begins disk s parent e t) :
    State.opened { t with frames := ⟨some e, e.children⟩ :: openElement.narrowed e t.frames } = some e :: s.opened := by
  rw [State.opened, List.map_cons, map_element_narrowed, (frames_begins h).1, State.opened]

theorem frames_ends {e : ElementKind} (h : Ends disk s e t) :
    t.frames = s.frames ∧ (t.preInit = s.preInit ∧ e ≠ .preInit ∨ t.preInit.toList = []) := by
  cases h with
  | aside _ hne => exact ⟨rfl, Or.inl ⟨rfl, hne⟩⟩
  | preInit => exact ⟨rfl, Or.inr rfl⟩

theorem Nested.allowed (h : Nested s) {e : ElementKind} (he : e ∈ s.inner.children) :
    e ∈ allowedIn s.inner.element ∧ s.opened.head? = some s.inner.element := by
  rw [State.inner, State.opened] at *
  cases hframes : s.frames with
  | nil => simp [hframes] at he
  | cons f outer =>
    rw [hframes] at he
    exact ⟨h.children f (by rw [hframes]; exact List.mem_cons_self) e he, rfl⟩

/-- No element but another early write can begin while there are early writes. -/
theorem Nested.early_of_mem (h : Nested s) {e : ElementKind} (he : e ∈ s.inner.children) :
    s.preInit.toList = [] ∨ e = .control ∧ ∃ outer, s.opened = some .preInit :: outer := by
  obtain ⟨hallowed, hhead⟩ := h.allowed he
  rcases h.early with hnil | ⟨outer, ho⟩ | ⟨outer, ho⟩
  · exact Or.inl hnil
  · rw [ho, List.head?_cons, Option.some.injEq] at hhead
    rw [← hhead] at hallowed
    exact Or.inr ⟨List.mem_singleton.mp hallowed, outer, ho⟩
  · rw [ho, List.head?_cons, Option.some.injEq] at hhead
    rw [← hhead] at hallowed
    exact absurd hallowed List.not_mem_nil

theorem nested_opens (h : Nested s) {e : ElementKind} (he : e ∈ s.inner.children)
    (hbegin : Begins disk s s.inner.element e t) :
    Nested { t with frames := ⟨some e, e.children⟩ :: openElement.narrowed e t.frames } := by
  obtain ⟨hframes, hpre⟩ := frames_begins hbegin
  obtain ⟨hallowed, hhead⟩ := h.allowed he
  have hopened := opened_of_begins hbegin
  refine ⟨?_, ?_, ?_⟩
  · rw [hframes, List.forall_mem_cons]
    refine ⟨children_subset e, fun f hf c hc => ?_⟩
    obtain ⟨g, hg, hsame, hsub⟩ := children_narrowed hf
    rw [hsame]
    exact h.children g hg c (hsub c hc)
  · rw [hopened, List.isChain_cons]
    refine ⟨fun outer houter => ?_, h.chain⟩
    rw [hhead, Option.mem_some_iff] at houter
    rintro _ ⟨⟩
    rwa [← houter]
  · rw [hopened]
    rcases h.early_of_mem he with hnil | ⟨rfl, outer, ho⟩
    · rcases hpre with hpre | ⟨rfl, hparent⟩
      · exact Or.inl (by rw [hpre, hnil])
      · rw [hparent, List.head?_eq_some_iff] at hhead
        obtain ⟨outer, houter⟩ := hhead
        exact Or.inr (Or.inr ⟨outer, by rw [houter]⟩)
    · exact Or.inr (Or.inr ⟨outer, by rw [ho]⟩)

/-- Ending an element leaves what is allowed in the open ones as it was, or as the grammar has it after
the mixer. -/
theorem nested_widened {frame : Frame} {outer : List Frame} (h : Nested s)
    (hframes : s.frames = frame :: outer) :
    (∀ f ∈ closeElement.widened frame.element outer, ∀ e ∈ f.children, e ∈ allowedIn f.element)
      ∧ (outer.map (·.element)).IsChain StandsIn := by
  have hchain := h.chain
  rw [State.opened, hframes, List.map_cons, List.isChain_cons] at hchain
  refine ⟨?_, hchain.2⟩
  have hchildren := h.children
  rw [hframes, List.forall_mem_cons] at hchildren
  unfold closeElement.widened
  split
  · rename_i inner outer' helement
    rw [List.forall_mem_cons] at hchildren ⊢
    refine ⟨?_, hchildren.2.2⟩
    have hroot : inner.element = some .root := (place_of_allowed (hchain.1 _ rfl _ helement)).1 rfl
    simp only [hroot]
    decide
  · exact hchildren.2

theorem nested_closes (h : Nested s) {frame : Frame} {outer : List Frame} (hframes : s.frames = frame :: outer)
    (ht : t.frames = closeElement.widened frame.element outer)
    (hpre : t.preInit = s.preInit ∧ frame.element ≠ some .preInit ∨ t.preInit.toList = []) : Nested t := by
  obtain ⟨hchildren, hchain⟩ := nested_widened h hframes
  have hopened : s.opened = frame.element :: t.opened := by
    rw [State.opened, State.opened, ht, hframes, map_element_widened, List.map_cons]
  refine ⟨by rwa [ht], by rwa [State.opened, ht, map_element_widened], ?_⟩
  rcases hpre with ⟨hpre, hne⟩ | hpre
  · rcases h.early with hnil | ⟨outer', ho⟩ | ⟨outer', ho⟩
    · exact Or.inl (by rw [hpre, hnil])
    · rw [hopened, List.cons.injEq] at ho
      exact absurd ho.1 hne
    · rw [hopened, List.cons.injEq] at ho
      exact Or.inr (Or.inl ⟨outer', ho.2⟩)
  · exact Or.inl hpre

/-- Every event keeps the open elements nested. -/
theorem nested_steps {next : Option Location} (h : Nested s) (hsteps : Steps disk s next t) : Nested t := by
  cases hsteps with
  | opens he hbegin => exact nested_opens h he hbegin
  | @closes frame outer e _ _ hframes he hend hnext =>
    obtain ⟨hkept, hpre⟩ := frames_ends hend
    refine nested_closes h hframes hkept (hpre.imp_left fun hp => ⟨hp.1, ?_⟩)
    rw [he]
    exact fun heq => hp.2 (Option.some.inj heq)
  | @leaves frame outer hframes he =>
    exact nested_closes h hframes rfl (Or.inl ⟨rfl, by rw [he]; nofun⟩)
  | rests => exact h

/-- Before another file is read no early writes are left. -/
theorem early_of_next {next : Location} (h : Nested s) (hsteps : Steps disk s (some next) t) :
    t.preInit.toList = [] := by
  cases hsteps with
  | @closes frame outer e _ _ hframes he hend hnext =>
    obtain ⟨rfl, -⟩ := hnext _ rfl
    have hhead : s.opened.head? = some (some .codecProbe) := by
      rw [State.opened, hframes, List.map_cons, List.head?_cons, he]
    have hnil : s.preInit.toList = [] := by
      rcases h.early with hnil | ⟨_, ho⟩ | ⟨_, ho⟩
      · exact hnil
      · rw [ho] at hhead
        cases hhead
      · rw [ho] at hhead
        cases hhead
    cases hend with
    | aside => exact hnil

theorem nested_enter (hpre : s.preInit.toList = []) (next : Location) : Nested (s.enter next) := by
  refine ⟨?_, .singleton _, Or.inl hpre⟩
  simp only [State.enter, List.forall_mem_cons, List.not_mem_nil, false_implies, implies_true, and_true]
  exact fun _ he => he

theorem nested_of_reaches {rack : Rack} {file : Location} {events : List Event}
    (h : Reaches disk rack file s events) : Nested s :=
  h.induction (nested_enter rfl _) (fun _ _ _ _ _ h hsteps => nested_steps h hsteps)
    fun _ _ next h hsteps _ => nested_enter (early_of_next h hsteps) next

/-! ### The cards -/

/-- What begins opens a card, or leaves the cards as they are. -/
theorem rack_begins {parent : Option ElementKind} {e : ElementKind} (h : Begins disk s parent e t) :
    t.rack = s.rack ∨ ∃ number mixer, s.rack.openMixer number = .ok (mixer, t.rack) := by
  cases h with
  | mixer hopen => exact Or.inr ⟨_, _, hopen⟩
  | control _ hbind hlists =>
    left
    rcases bindEarly_cases hbind with ⟨-, -, rfl⟩ | ⟨_, _, _, -, -, rfl⟩ <;> cases hlists <;> rfl
  | volume _ hbind =>
    obtain ⟨_, -, -, -, rfl⟩ := bindVolumeEarly_cases hbind
    exact Or.inl rfl
  | aside | device | path | anonymous | named | setting => exact Or.inl rfl

/-- An event changes cards only by opening one, and by applying the early writes where they end. -/
theorem rack_steps {R : Rack → Prop}
    (hopen : ∀ rack number mixer opened, rack.openMixer number = .ok (mixer, opened) → R rack → R opened)
    (happly : ∀ desk, s.desk? = some desk → R s.rack → R (s.rack.setCard (desk.apply disk s.preInit.toList).1.card))
    (h : R s.rack) {next : Option Location} (hsteps : Steps disk s next t) : R t.rack := by
  cases hsteps with
  | @opens _ u _ hbegin =>
    change R u.rack
    rcases rack_begins hbegin with hrack | ⟨number, mixer, hmixer⟩
    · rwa [hrack]
    · exact hopen _ _ _ _ hmixer h
  | closes _ _ hend =>
    cases hend with
    | aside => exact h
    | preInit hdesk hmixer => exact hopen _ _ _ _ hmixer (happly _ hdesk h)
  | leaves | rests => exact h

end SoundRouting.Config
