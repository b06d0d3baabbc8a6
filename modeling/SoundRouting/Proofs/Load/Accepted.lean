import SoundRouting.Proofs.Load.Alike
import SoundRouting.Proofs.Load.Chain
import SoundRouting.Proofs.Load.Language
/-!
What loading accepts.

The frames of the open elements say what the levels of the language say, so that an element is refused
where the document leaves the language and nowhere else. Elements are never nested as deep as the limit.
-/
namespace SoundRouting.Config

open Runs

variable {disk : Disk} {s t : State} {frames outer : List Frame} {f : Frame} {l : Level} {levels : List Level}
  {e : ElementKind} {tag : String} {line : Nat} {attributes : List (String × String)}

/-- The frames are those of the levels: each of them allows the followers of its level, once what is open
in it has ended. -/
def Tracks : List Frame → List Level → Prop
  | [], [] => True
  | f :: frames, l :: levels =>
    f.element = l.element ∧ f.children = l.followers ∧ Tracks (closeElement.widened f.element frames) levels
  | _, _ => False

/-- Once an element has begun, the followers are those that were, unless it is a mixer or the initial
writes. -/
theorem followers_concat (he : e ∈ l.followers) (hmixer : e ≠ .mixer) (hinit : e ≠ .init) :
    Level.followers { l with begun := l.begun ++ [e] } = l.followers := by
  obtain ⟨element, begun⟩ := l
  cases element with
  | none => rfl
  | some element =>
    cases element with
    | root =>
      have hmem : .mixer ∈ begun ++ [e] ↔ .mixer ∈ begun := by simp [Ne.symm hmixer]
      simp only [Level.followers, hmem]
    | mixer =>
      have hmem : .init ∈ begun ++ [e] ↔ .init ∈ begun := by simp [Ne.symm hinit]
      simp only [Level.followers, hmem]
    | _ => rfl

theorem allowed_of_follows (h : e ∈ l.followers) : e ∈ allowedIn l.element := by
  obtain ⟨element, begun⟩ := l
  cases element with
  | none => exact h
  | some element =>
    cases element with
    | root =>
      rw [Level.followers] at h
      split at h
      · exact List.mem_append_right _ h
      · exact List.mem_append_left _ h
    | mixer =>
      rw [Level.followers] at h
      split at h
      · exact absurd h List.not_mem_nil
      · exact h
    | _ => exact h

/-- A mixer begins in the root element, which has none yet. -/
theorem root_of_mixer (h : .mixer ∈ l.followers) : l.element = some .root ∧ .mixer ∉ l.begun := by
  have hroot : l.element = some .root := (place_of_allowed (allowed_of_follows h)).1 rfl
  refine ⟨hroot, fun hmem => ?_⟩
  obtain ⟨element, begun⟩ := l
  subst hroot
  rw [Level.followers, if_pos hmem] at h
  exact absurd h (by decide)

/-- Initial writes begin in a mixer, which has none yet. -/
theorem mixer_of_init (h : .init ∈ l.followers) : l.element = some .mixer ∧ .init ∉ l.begun := by
  have hmixer : l.element = some .mixer := (place_of_allowed (allowed_of_follows h)).2.1 rfl
  refine ⟨hmixer, fun hmem => ?_⟩
  obtain ⟨element, begun⟩ := l
  subst hmixer
  rw [Level.followers, if_pos hmem] at h
  exact absurd h List.not_mem_nil

theorem followers_blank (e : ElementKind) : Level.followers ⟨some e, []⟩ = e.children := by
  cases e <;> rfl

/-- Frames go on with the levels when an element begins. -/
theorem tracks_opens (h : Tracks (f :: outer) (l :: levels)) (he : e ∈ l.followers) :
    Tracks (⟨some e, e.children⟩ :: openElement.narrowed e (f :: outer))
      (⟨some e, []⟩ :: { l with begun := l.begun ++ [e] } :: levels) := by
  obtain ⟨helement, hchildren, houter⟩ := h
  obtain ⟨element, begun⟩ := l
  refine ⟨rfl, (followers_blank e).symm, ?_⟩
  by_cases hmixer : e = .mixer
  · subst hmixer
    obtain ⟨rfl, -⟩ := root_of_mixer he
    refine ⟨helement, ?_, houter⟩
    rw [Level.followers, if_pos (by simp)]
  · by_cases hinit : e = .init
    · subst hinit
      obtain ⟨rfl, hnew⟩ := mixer_of_init he
      rw [Level.followers, if_neg hnew] at hchildren
      refine ⟨helement, ?_, houter⟩
      rw [Level.followers, if_pos (by simp)]
      change f.children.filter _ = []
      rw [hchildren]
      rfl
    · have hsame : closeElement.widened (some e) (openElement.narrowed e (f :: outer)) = f :: outer := by
        cases e <;> first | exact absurd rfl hmixer | exact absurd rfl hinit | rfl
      rw [hsame]
      exact ⟨helement, hchildren.trans (followers_concat he hmixer hinit).symm, houter⟩

/-! ### Depth -/

def depthOf : Option ElementKind → Nat
  | none => 0
  | some .root => 1
  | some .mixer | some .device | some .stream | some .codecProbe => 2
  | some .preInit | some .init | some .path | some .useCase | some .enable | some .disable | some .constant
  | some .volume | some .codecCase => 3
  | some .useCaseCase => 4
  | some .control => 5

/-- No level is below more levels than its element may stand below. -/
def Shallow : List Level → Prop
  | [] => True
  | l :: outer => outer.length ≤ depthOf l.element ∧ Shallow outer

/-- What stands in an element stands deeper. -/
theorem depthOf_of_allowed {outer : Option ElementKind} (h : e ∈ allowedIn outer) :
    depthOf outer < depthOf (some e) ∧ depthOf outer < 5 := by
  have hall : ∀ k ∈ allowedIn outer, depthOf outer < depthOf (some k) ∧ depthOf outer < 5 := by
    cases outer with
    | none => decide
    | some outer => cases outer <;> decide
  exact hall e h

theorem depthOf_of_follows (h : e ∈ l.followers) :
    depthOf l.element < depthOf (some e) ∧ depthOf l.element < 5 :=
  depthOf_of_allowed (allowed_of_follows h)

theorem shallow_opens (h : Shallow (l :: levels)) (he : e ∈ l.followers) :
    Shallow (⟨some e, []⟩ :: { l with begun := l.begun ++ [e] } :: levels) := by
  obtain ⟨hlength, houter⟩ := h
  refine ⟨?_, hlength, houter⟩
  have hdepth := (depthOf_of_follows he).1
  rw [List.length_cons]
  exact Nat.lt_of_le_of_lt hlength hdepth

/-! ### Events -/

/-- The open frames are those of these levels, which are not nested too deep. -/
structure Follows (s : State) (levels : List Level) : Prop where
  tracks : Tracks s.frames levels
  shallow : Shallow levels

theorem length_of_tracks : ∀ {frames : List Frame} {levels : List Level}, Tracks frames levels →
    frames.length = levels.length
  | [], [], _ => rfl
  | f :: frames, l :: levels, ⟨_, _, h⟩ => by
    have hlength := length_of_tracks h
    have hwidened := congrArg List.length (map_element_widened f.element frames)
    rw [List.length_map, List.length_map] at hwidened
    rw [List.length_cons, List.length_cons, ← hlength, hwidened]

/-- What may begin is what follows; the limit of depth excludes nothing. -/
theorem Follows.element (h : Follows s levels) (tag : String) :
    ((Grammar.elementOfTag? s.inner.children tag).filter fun _ => s.frames.length - 1 < Grammar.maxDepth)
        = Grammar.elementOfTag? s.inner.children tag
      ∧ (s.frames = [] ∧ levels = [] ∨ ∃ f outer l rest, s.frames = f :: outer ∧ levels = l :: rest
        ∧ s.inner = f ∧ s.inner.children = l.followers) := by
  obtain ⟨htracks, hshallow⟩ := h
  have hlength := length_of_tracks htracks
  rw [State.inner]
  cases hframes : s.frames with
  | nil =>
    rw [hframes] at hlength
    exact ⟨by rfl, Or.inl ⟨rfl, List.length_eq_zero_iff.mp hlength.symm⟩⟩
  | cons f outer =>
    rw [hframes] at htracks hlength
    cases levels with
    | nil => exact absurd htracks id
    | cons l rest =>
      have hchildren : f.children = l.followers := htracks.2.1
      refine ⟨?_, Or.inr ⟨f, outer, l, rest, rfl, rfl, rfl, hchildren⟩⟩
      rw [List.head?_cons, Option.getD_some, hchildren]
      cases he : Grammar.elementOfTag? l.followers tag with
      | none => rfl
      | some e =>
        have hdepth := (depthOf_of_follows (elementOfTag?_followers.mp he).1).2
        have hbound : outer.length = rest.length := by simpa using hlength
        have hrest : rest.length ≤ depthOf l.element := hshallow.1
        refine Option.filter_eq_some_iff.mpr ⟨rfl, decide_eq_true ?_⟩
        rw [List.length_cons, Grammar.maxDepth]
        omega

theorem follows_top (h : s.frames = [⟨none, Grammar.topLevel⟩]) : Follows s [.top] := by
  refine ⟨?_, Nat.le_refl 0, trivial⟩
  rw [h]
  exact ⟨rfl, rfl, trivial⟩

def openKnown (disk : Disk) (parent : Option ElementKind) (e : ElementKind)
    (attributes : List (String × String)) : LoadM Unit := do
  let values ← LoadM.ofResult (AttributeValues.ofWritten e attributes)
  beginElement disk parent values e
  modify fun s => { s with frames := ⟨some e, e.children⟩ :: openElement.narrowed e s.frames }

/-- Opening an element settles first whether it is allowed. -/
theorem run_openElement (disk : Disk) (tag : String) (attributes : List (String × String)) (s : State) :
    (openElement disk tag attributes).run.run s
      = match (Grammar.elementOfTag? s.inner.children tag).filter fun _ => s.frames.length - 1 < Grammar.maxDepth with
        | none => (.error (.ofConfig (.elementNotAllowed tag)), s)
        | some e => (openKnown disk s.inner.element e attributes).run.run s := by
  rw [openElement, run_get_bind, run_bind, ← State.inner]
  cases (Grammar.elementOfTag? s.inner.children tag).filter fun _ => s.frames.length - 1 < Grammar.maxDepth with
  | none => rfl
  | some e => rfl

variable {k : Misplacement}

theorem avoids_openKnown (disk : Disk) {parent : Option ElementKind} (attributes : List (String × String))
    (hplace : k = .astray → s.receives parent e = true) :
    Avoids k ((openKnown disk parent e attributes).run.run s).1 := by
  refine avoids_bind (avoids_ofResult (spares_ofWritten e attributes)) fun values t ht => ?_
  obtain ⟨-, rfl⟩ := ofResult_iff.mp ht
  exact avoids_bind (avoids_beginElement disk values hplace) fun _ _ _ => avoids_ok _

/-- An element that may not come is refused. -/
theorem refused_of_advance (h : Follows s levels)
    (hadvance : Event.advance (.opens line tag attributes) levels = none) :
    (Event.take disk (.opens line tag attributes)).run.run s = (.error (.config line (.elementNotAllowed tag)), s) := by
  obtain ⟨hfilter, hcases⟩ := h.element tag
  have hnone : Grammar.elementOfTag? s.inner.children tag = none := by
    rcases hcases with ⟨hframes, -⟩ | ⟨f, outer, l, rest, -, rfl, -, hchildren⟩
    · rw [State.inner, hframes]
      exact List.find?_eq_none.mpr fun _ _ => by simp
    · rw [Event.advance, Option.map_eq_none_iff] at hadvance
      rw [hchildren, hadvance]
  rw [run_take_opens, run_openElement, hfilter, hnone]
  rfl

/-- An element that may stand where it opens is not refused, and finds what it belongs to if that is there. -/
theorem avoids_opens {e : ElementKind}
    (he : (Grammar.elementOfTag? s.inner.children tag).filter (fun _ => s.frames.length - 1 < Grammar.maxDepth) = some e)
    (hplace : k = .astray → s.receives s.inner.element e = true) :
    Avoids k ((Event.take disk (.opens line tag attributes)).run.run s).1 := by
  have hopen := avoids_openKnown disk attributes hplace
  rw [run_take_opens, run_openElement, he]
  dsimp only
  cases hrun : (openKnown disk s.inner.element e attributes).run.run s with
  | mk result t =>
    rw [hrun] at hopen
    cases result with
    | ok _ => exact avoids_ok _
    | error e =>
      refine avoids_error ?_
      rw [Error.misplacement?_atLine]
      exact hopen e rfl

/-- An element that may come is opened, and not refused. -/
theorem avoids_of_advance (h : Follows s levels) {next : List Level}
    (hadvance : Event.advance (.opens line tag attributes) levels = some next) :
    Avoids .refused ((Event.take disk (.opens line tag attributes)).run.run s).1 := by
  obtain ⟨hfilter, hcases⟩ := h.element tag
  rcases hcases with ⟨-, rfl⟩ | ⟨f, outer, l, rest, -, rfl, -, hchildren⟩
  · cases hadvance
  · obtain ⟨e, he, -⟩ := Option.map_eq_some_iff.mp hadvance
    rw [← hchildren, ← hfilter] at he
    exact avoids_opens he nofun

/-- Closing an element refuses nothing, and finds the mixer if it is open where early writes end. -/
theorem avoids_closes (disk : Disk) (line : Nat)
    (hdesk : k = .astray → s.inner.element = some .preInit → s.desk?.isSome = true) :
    Avoids k ((Event.take disk (.closes line)).run.run s).1 := by
  have hclose : Avoids k ((closeElement disk).run.run s).1 := by
    refine avoids_bind (avoids_ok s) fun u t hget => ?_
    obtain ⟨rfl, rfl⟩ := get_iff.mp hget
    rw [State.inner] at hdesk
    split
    · exact avoids_ok _
    · rename_i frame outer hframes
      rw [hframes] at hdesk
      refine avoids_bind (avoids_ok _) fun _ t ht => ?_
      obtain rfl := modify_iff.mp ht
      split
      · rename_i e he
        exact avoids_endElement disk fun hk hpre => hdesk hk (by rw [List.head?_cons, Option.getD_some, he, hpre])
      · exact avoids_ok _
  rw [Event.take, run_atLine]
  cases hrun : (closeElement disk).run.run s with
  | mk result t =>
    rw [hrun] at hclose
    cases result with
    | ok _ => exact avoids_ok _
    | error e =>
      refine avoids_error ?_
      rw [Error.misplacement?_atLine]
      exact hclose e rfl

/-- Where it is settled which element a tag opens, opening it is all that the event does. -/
theorem opens_iff_of_known {e : ElementKind} {next : Option Location}
    (he : (Grammar.elementOfTag? s.inner.children tag).filter (fun _ => s.frames.length - 1 < Grammar.maxDepth)
      = some e) :
    Runs (Event.take disk (.opens line tag attributes)) s next t
      ↔ next = none ∧ Runs (openKnown disk s.inner.element e attributes) s () t := by
  have hopen : ∀ u, Runs (LoadM.atLine line (openElement disk tag attributes)) s () u
      ↔ Runs (openKnown disk s.inner.element e attributes) s () u := by
    intro u
    rw [atLine_iff, Runs, run_openElement, he]
    rfl
  constructor
  · intro h
    obtain ⟨_, u, hrun, hpure⟩ := bind_iff.mp h
    obtain ⟨rfl, rfl⟩ := pure_iff.mp hpure
    exact ⟨rfl, (hopen u).mp hrun⟩
  · rintro ⟨rfl, hrun⟩
    exact bind_iff.mpr ⟨(), t, (hopen t).mpr hrun, pure_iff.mpr ⟨rfl, rfl⟩⟩

/-- An element that opens is a follower of the innermost one, and its tag settles which one it is. -/
theorem known_of_opens (h : Follows s levels) {next : Option Location}
    (hrun : Runs (Event.take disk (.opens line tag attributes)) s next t) :
    ∃ l rest e, levels = l :: rest ∧ e ∈ l.followers ∧ e.tag = tag ∧ s.inner.element = l.element
      ∧ (Grammar.elementOfTag? s.inner.children tag).filter (fun _ => s.frames.length - 1 < Grammar.maxDepth)
        = some e := by
  obtain ⟨hfilter, hcases⟩ := h.element tag
  cases he : Grammar.elementOfTag? s.inner.children tag with
  | none =>
    obtain ⟨_, u, hopen, -⟩ := bind_iff.mp hrun
    rw [atLine_iff, Runs, run_openElement, hfilter, he] at hopen
    cases hopen
  | some e =>
    rcases hcases with ⟨hnil, -⟩ | ⟨f, outer, l, rest, hcons, rfl, hinner, hchildren⟩
    · rw [State.inner, hnil] at he
      exact absurd (List.mem_of_find?_eq_some he) (by simpa using List.find?_some he)
    · have htracks := h.tracks
      rw [hcons] at htracks
      have hfollows := he
      rw [hchildren] at hfollows
      obtain ⟨hmem, htag⟩ := elementOfTag?_followers.mp hfollows
      exact ⟨l, rest, e, rfl, hmem, htag, by rw [hinner, htracks.1], by rw [← he]; exact hfilter⟩

/-- An element that opens is a follower of the innermost one, with this tag, and begins in it. -/
theorem begins_of_opens (h : Follows s levels) {next : Option Location}
    (hrun : Runs (Event.take disk (.opens line tag attributes)) s next t) : next = none
      ∧ ∃ l rest e u, levels = l :: rest ∧ e ∈ l.followers ∧ e.tag = tag ∧ Begins disk s l.element e u
        ∧ t = { u with frames := ⟨some e, e.children⟩ :: openElement.narrowed e u.frames } := by
  obtain ⟨l, rest, e, hlevels, he, htag, helement, hknown⟩ := known_of_opens h hrun
  obtain ⟨hnext, hopen⟩ := (opens_iff_of_known hknown).mp hrun
  simp only [openKnown, bind_iff, modify_iff, ofResult_iff] at hopen
  obtain ⟨values, _, ⟨-, rfl⟩, _, u, hbegin, rfl⟩ := hopen
  rw [helement] at hbegin
  exact ⟨hnext, l, rest, e, u, hlevels, he, htag, begins_of_runs hbegin, rfl⟩

/-- An element that opens may come, and is the innermost one from then on. -/
theorem follows_opens (h : Follows s levels) {next : Option Location}
    (hrun : Runs (Event.take disk (.opens line tag attributes)) s next t) :
    ∃ after, Event.advance (.opens line tag attributes) levels = some after ∧ Follows t after := by
  obtain ⟨-, l, rest, e, u, rfl, he, rfl, hbegin, rfl⟩ := begins_of_opens h hrun
  refine ⟨⟨some e, []⟩ :: { l with begun := l.begun ++ [e] } :: rest, ?_, ?_, shallow_opens h.shallow he⟩
  · rw [Event.advance, elementOfTag?_followers.mpr ⟨he, rfl⟩, Option.map_some]
  · have htracks := h.tracks
    cases hframes : s.frames with
    | nil =>
      rw [hframes] at htracks
      exact absurd htracks id
    | cons f outer =>
      rw [hframes] at htracks
      rw [(frames_begins hbegin).1, hframes]
      exact tracks_opens htracks he

inductive Closes (disk : Disk) (s : State) : Option ElementKind → Option Location → State → Prop
  | ends {e : ElementKind} {frames : List Frame} {next : Option Location} {t : State}
      (hend : Ends disk { s with frames := frames } e t)
      (hnext : ∀ file, next = some file → e = .codecProbe) : Closes disk s (some e) next t
  | leaves (frames : List Frame) : Closes disk s none none { s with frames := frames }

theorem closes_of_closes {rest : List Level} (h : Follows s (l :: rest)) {next : Option Location}
    (hrun : Runs (Event.take disk (.closes line)) s next t) : Closes disk s l.element next t := by
  have htracks := h.tracks
  have hinner : s.inner.element = l.element := by
    rw [State.inner]
    cases hframes : s.frames with
    | nil =>
      rw [hframes] at htracks
      exact absurd htracks id
    | cons f outer =>
      rw [hframes] at htracks
      exact htracks.1
  rw [← hinner]
  rcases runs_closeElement (atLine_iff.mp hrun) with ⟨he, rfl, rfl⟩ | ⟨e, he, hend, hnext⟩
  · rw [he]
    exact .leaves _
  · rw [he]
    exact .ends hend fun file hfile => (hnext file hfile).1

theorem frames_closeElement {next : Option Location} (h : Runs (closeElement disk) s next t) :
    t.frames = match s.frames with
      | [] => []
      | f :: outer => closeElement.widened f.element outer := by
  have hclose := runs_closeElement h
  rw [State.inner] at hclose
  cases hframes : s.frames with
  | nil =>
    rw [hframes] at hclose
    rcases hclose with ⟨-, -, rfl⟩ | ⟨e, he, -⟩
    · rfl
    · cases he
  | cons f outer =>
    rw [hframes] at hclose
    rcases hclose with ⟨he, -, rfl⟩ | ⟨e, he, hend, -⟩
    · rw [List.head?_cons, Option.getD_some] at he
      simp only [he]
      rfl
    · rw [List.head?_cons, Option.getD_some] at he
      rw [(frames_ends hend).1]
      simp only [he]
      rfl

/-- An element that closes leaves the levels around it. -/
theorem follows_closes (h : Follows s levels) {next : Option Location}
    (hrun : Runs (Event.take disk (.closes line)) s next t) : Follows t levels.tail := by
  have hframes := frames_closeElement (atLine_iff.mp hrun)
  obtain ⟨htracks, hshallow⟩ := h
  cases hs : s.frames with
  | nil =>
    have hlength := length_of_tracks htracks
    rw [hs] at hlength htracks hframes
    rw [List.length_eq_zero_iff.mp hlength.symm] at htracks ⊢
    exact ⟨by rw [hframes]; exact htracks, trivial⟩
  | cons f outer =>
    rw [hs] at htracks hframes
    cases levels with
    | nil => exact absurd htracks id
    | cons l rest => exact ⟨by rw [hframes]; exact htracks.2.2, hshallow.2⟩

/-- An event that is taken may come, and the frames go on with the levels. -/
theorem follows_take {event : Event} {next : Option Location} (h : Follows s levels)
    (hrun : Runs (event.take disk) s next t) :
    ∃ after, event.advance levels = some after ∧ Follows t after := by
  cases event with
  | opens line tag attributes => exact follows_opens h hrun
  | closes line => exact ⟨levels.tail, rfl, follows_closes h hrun⟩

theorem follows_takeAll {done : List Event} (h : Follows s levels) (hrun : Runs (takeAll disk done) s none t) :
    ∃ after, levelsAfter done levels = some after ∧ Follows t after := by
  induction done generalizing s levels with
  | nil =>
    obtain ⟨-, rfl⟩ := pure_iff.mp hrun
    exact ⟨levels, rfl, h⟩
  | cons event more ih =>
    obtain ⟨r, u, htake, hrest⟩ := bind_iff.mp hrun
    obtain ⟨after, hadvance, hu⟩ := follows_take h htake
    cases r with
    | some next => exact nomatch (pure_iff.mp hrest).1
    | none =>
      obtain ⟨last, hlast, ht⟩ := ih hu hrest
      exact ⟨last, by rw [levelsAfter, hadvance, Option.bind_some, hlast], ht⟩

/-! ### Where a document is refused -/

/-- A file is refused at an element exactly if the elements before it can be completed to a document, and
no longer with it. -/
theorem refused_iff (h : Follows s [.top]) {elements : List Xml.Element} :
    (∃ t, (walkElements disk elements).run.run s = (.error (.config line (.elementNotAllowed tag)), t))
      ↔ ∃ done attributes rest t, eventsOfAll elements = done ++ .opens line tag attributes :: rest
        ∧ Runs (takeAll disk done) s none t ∧ Completable done
        ∧ ¬ Completable (done ++ [.opens line tag attributes]) := by
  rw [walkElements_eq_takeAll]
  constructor
  · rintro ⟨t, hwalk⟩
    obtain ⟨done, event, rest, u, hevents, hdone, hevent⟩ := error_takeAll_iff.mp hwalk
    obtain ⟨levels, hlevels, hu⟩ := follows_takeAll h hdone
    have hrefused : Error.misplacement? (.config line (.elementNotAllowed tag)) = some .refused := rfl
    cases event with
    | closes line' =>
      have hcloses : Avoids .refused ((Event.take disk (.closes line')).run.run u).1 :=
        avoids_closes disk line' nofun
      exact absurd hrefused (hcloses _ (by rw [hevent]))
    | opens line' tag' attributes =>
      cases hadvance : Event.advance (.opens line' tag' attributes) levels with
      | some next =>
        exact absurd hrefused (avoids_of_advance hu hadvance _ (congrArg Prod.fst hevent))
      | none =>
        rw [refused_of_advance hu hadvance] at hevent
        cases hevent
        refine ⟨done, attributes, rest, _, hevents, hdone, ?_, ?_⟩
        · rw [completable_iff hevents, hlevels]
          rfl
        · rw [List.append_cons] at hevents
          rw [completable_iff hevents, levelsAfter_append, hlevels, Option.bind_some, levelsAfter_one, hadvance]
          exact Bool.false_ne_true
  · rintro ⟨done, attributes, rest, t, hevents, hdone, -, hnot⟩
    obtain ⟨levels, hlevels, ht⟩ := follows_takeAll h hdone
    have hadvance : Event.advance (.opens line tag attributes) levels = none := by
      have hevents' := hevents
      rw [List.append_cons] at hevents'
      rw [completable_iff hevents', levelsAfter_append, hlevels, Option.bind_some, levelsAfter_one] at hnot
      exact Option.not_isSome_iff_eq_none.mp hnot
    exact ⟨t, error_takeAll_iff.mpr ⟨done, _, rest, t, hevents, hdone, refused_of_advance ht hadvance⟩⟩

/-- What is gone through to its end is in the language. -/
theorem inLanguage_of_walk (h : Follows s [.top]) {elements : List Xml.Element}
    (hwalk : Runs (walkElements disk elements) s none t) : InLanguage elements := by
  rw [walkElements_eq_takeAll] at hwalk
  obtain ⟨levels, hlevels, -⟩ := follows_takeAll h hwalk
  rw [inLanguage_iff, hlevels]
  rfl

end SoundRouting.Config
