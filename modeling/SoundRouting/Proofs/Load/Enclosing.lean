import SoundRouting.Proofs.Load.Cursors
import SoundRouting.Proofs.Load.Opened
import SoundRouting.Proofs.Load.Standing
/-!
The list that a control is added to.

A control stands in a path, in an alternative of a use-case, or among early or initial writes. What stands before
it in the same element leaves the cursor where that element has put it. So a control is added to the list
that the innermost element around it has begun in the current file, and to no other.
-/
namespace SoundRouting.Config

open Runs

/-- A list of assignments in what has been loaded so far. -/
inductive ListPlace where
  | path (device path : Nat)
  | useCaseCase (stream : StreamId) (useCase useCaseCase : Nat)
  | init
  | preInit
  deriving DecidableEq, Repr

def State.list? (s : State) : ListPlace → Option (List Assignment)
  | .path d p => (s.model.devices.get? d).bind fun device => (device.paths.get? p).map (·.assignments.toList)
  | .useCaseCase id u c => (s.model.stream? id).bind fun stream => (stream.useCases.get? u).bind fun useCase =>
    (useCase.cases.get? c).map (·.assignments.toList)
  | .init => some s.init.toList
  | .preInit => some s.preInit.toList

def Cursor.listPlace? (c : Cursor) : Option ElementKind → Option ListPlace
  | some .path => do
    let d ← c.device
    let p ← c.path
    return .path d p
  | some .useCaseCase => do
    let id ← c.stream
    let u ← c.useCase
    let k ← c.useCaseCase
    return .useCaseCase id u k
  | some .init => some .init
  | some .preInit => some .preInit
  | _ => none

/-- The list of the element that has begun between these states. A path and an alternative of a use-case come
with a list that was not there before, and early writes with none listed; initial writes go on with their list. -/
inductive Founds (u v : State) : ElementKind → ListPlace → Prop
  | path {d p : Nat} (hnew : u.list? (.path d p) = none) (h : v.list? (.path d p) = some []) :
      Founds u v .path (.path d p)
  | useCaseCase {id : StreamId} {n c : Nat} (hnew : u.list? (.useCaseCase id n c) = none)
      (h : v.list? (.useCaseCase id n c) = some []) : Founds u v .useCaseCase (.useCaseCase id n c)
  | init (h : v.list? .init = u.list? .init) : Founds u v .init .init
  | preInit (h : v.list? .preInit = some []) : Founds u v .preInit .preInit

/-- An assignment comes last in this list then; every other list is as it was. -/
def Adds (a : Assignment) (place : ListPlace) (s t : State) : Prop :=
  (∃ list, s.list? place = some list ∧ t.list? place = some (list ++ [a]))
    ∧ ∀ other, other ≠ place → t.list? other = s.list? other

/-- The innermost element that is open behind these events of a file has begun between the states `u` and `v`: the
elements behind its beginning have ended. -/
def Encloses (disk : Disk) (top : State) (before : List Event) (e : ElementKind) (u v : State) : Prop :=
  ∃ outer line attributes siblings, before = outer ++ .opens line e.tag attributes :: eventsOfAll siblings
    ∧ Runs (takeAll disk outer) top none u ∧ Runs (Event.take disk (.opens line e.tag attributes)) u none v

variable {disk : Disk} {s t : State} {a : Assignment} {parent : Option ElementKind} {e : ElementKind}

/-! ### Lists -/

theorem list?_mixer (s : State) (mixer : Option Mixer) (place : ListPlace) :
    State.list? { s with mixer := mixer } place = s.list? place := by
  cases place <;> rfl

theorem list?_frames (s : State) (frames : List Frame) (place : ListPlace) :
    State.list? { s with frames := frames } place = s.list? place := by
  cases place <;> rfl

/-- Looking behind a change does not see it, unless it looks where the change is. -/
theorem bind_get?_modify {α β : Type} {a : GranularArray α} {i j : Nat} {f : α → α} {look : α → Option β}
    (h : i = j → ∀ x, a.get? i = some x → look (f x) = look x) :
    ((a.modify i f).get? j).bind look = (a.get? j).bind look := by
  by_cases hij : i = j
  · subst hij
    rw [GranularArray.get?_modify_same]
    cases hx : a.get? i with
    | none => rfl
    | some x => exact h rfl x hx
  · rw [GranularArray.get?_modify_other a f hij]

theorem bind_stream?_modify {β : Type} {m : Model} {id other : StreamId} {f : Stream → Stream}
    {look : Stream → Option β} (h : id = other → ∀ s, m.stream? id = some s → look (f s) = look s) :
    ((m.modifyStream id f).stream? other).bind look = (m.stream? other).bind look := by
  by_cases hid : id = other
  · subst hid
    rw [Model.stream?_modifyStream_same]
    cases hs : m.stream? id with
    | none => rfl
    | some s => exact h rfl s hs
  · rw [Model.stream?_modifyStream_other m f hid]

theorem stream?_modifyDevice (m : Model) (i : Nat) (f : Device → Device) (id : StreamId) :
    (m.modifyDevice i f).stream? id = m.stream? id := by
  obtain ⟨pool, n⟩ := id
  cases pool <;> rfl

/-- An assignment is added to the list that the cursor points at. -/
theorem adds_lists (h : Lists a s parent t) :
    ∃ place, s.cursor.listPlace? parent = some place ∧ Adds a place s t := by
  cases h with
  | @path d p device path assignments hd hp hpush hdevice hpath =>
    refine ⟨.path d p, by rw [Cursor.listPlace?, hdevice, hpath]; rfl, ⟨path.assignments.toList, ?_, ?_⟩, ?_⟩
    · simp only [State.list?, hd, Option.bind_some, hp, Option.map_some]
    · simp only [State.list?, Model.modifyDevice, GranularArray.get?_modify_same, hd, hp, Option.map_some,
        Option.bind_some, GranularArray.toList_push hpush]
    · rintro (⟨d', p'⟩ | ⟨id, u, c⟩ | _ | _) hother
      · refine bind_get?_modify fun hij dev _ => ?_
        subst hij
        have hne : p ≠ p' := fun heq => hother (by rw [heq])
        rw [GranularArray.get?_modify_other _ _ hne]
      · simp only [State.list?, stream?_modifyDevice]
      · rfl
      · rfl
  | @useCaseCase id u c stream useCase caseOf assignments hs hu hc hpush hstream huseCase hcase =>
    refine ⟨.useCaseCase id u c, by rw [Cursor.listPlace?, hstream, huseCase, hcase]; rfl,
      ⟨caseOf.assignments.toList, ?_, ?_⟩, ?_⟩
    · simp only [State.list?, hs, hu, hc, Option.bind_some, Option.map_some]
    · simp only [State.list?, Model.stream?_modifyStream_same, GranularArray.get?_modify_same, hs, hu, hc,
        Option.map_some, Option.bind_some, GranularArray.toList_push hpush]
    · rintro (⟨d, p⟩ | ⟨id', u', c'⟩ | _ | _) hother
      · simp only [State.list?, Model.devices_modifyStream]
      · refine bind_stream?_modify fun hid st _ => bind_get?_modify fun hij uc _ => ?_
        subst hid hij
        have hne : c ≠ c' := fun heq => hother (by rw [heq])
        rw [GranularArray.get?_modify_other _ _ hne]
      · rfl
      · rfl
  | init hpush =>
    refine ⟨.init, rfl, ⟨_, rfl, congrArg some (GranularArray.toList_push hpush)⟩, fun other hother => ?_⟩
    cases other <;> first | rfl | exact absurd rfl hother
  | preInit hpush =>
    refine ⟨.preInit, rfl, ⟨_, rfl, congrArg some (GranularArray.toList_push hpush)⟩, fun other hother => ?_⟩
    cases other <;> first | rfl | exact absurd rfl hother

def listKinds : List ElementKind := [.path, .useCaseCase, .init, .preInit]

/-- An element that controls are listed in points the cursor at its own list. -/
theorem founds_begins (h : Begins disk s parent e t) (he : e ∈ listKinds) (hearly : e = .preInit → s.preInit.toList = []) :
    ∃ place, t.cursor.listPlace? (some e) = some place ∧ Founds s t e place := by
  cases h with
  | @aside _ probe hprobes =>
    cases hprobes with
    | kept hkept =>
      cases e with
      | init => exact ⟨.init, rfl, .init rfl⟩
      | preInit => exact ⟨.preInit, rfl, .preInit (congrArg some (hearly rfl))⟩
      | path | useCaseCase => exact absurd hkept (by decide)
      | _ => exact absurd he (by decide)
    | declared | extended => exact absurd he (by decide)
  | @path place device id paths hd _ hpush names hplace =>
    obtain ⟨hnew, hlast⟩ := GranularArray.get?_last_of_push hpush
    refine ⟨.path place (paths.size - 1), by simp only [Cursor.listPlace?, hplace]; rfl, .path ?_ ?_⟩
    · simp only [State.list?, hd, Option.bind_some, hnew, Option.map_none]
    · simp only [State.list?, GranularArray.get?_modify_same, hd, Option.map_some, Option.bind_some, hlast]
      rfl
  | @setting id stream changed cursor _ hs hextends hid hsetting =>
    cases hextends with
    | useCase | constant => exact absurd he (by decide)
    | paths hroute =>
      have hnone : ∀ k ∈ [ElementKind.enable, .disable], k ∉ listKinds := by decide
      exact absurd he (hnone e hroute)
    | @useCaseCase place u cases name hu hpush hplace =>
      obtain ⟨hnew, hlast⟩ := GranularArray.get?_last_of_push hpush
      refine ⟨.useCaseCase id place (cases.size - 1), by simp only [Cursor.listPlace?, hid, hplace]; rfl,
        .useCaseCase ?_ ?_⟩
      · simp only [State.list?, hs, Option.bind_some, hu, hnew, Option.map_none]
      · simp only [State.list?, Model.stream?_modifyStream_same, hs, Option.map_some, Option.bind_some,
          GranularArray.get?_modify_same, hu, hlast]
        rfl
  | mixer | device | control | anonymous | named | volume => exact absurd he (by decide)

/-! ### Elements that have ended -/

theorem openElement_of_take {line : Nat} {tag : String} {attributes : List (String × String)}
    (h : Runs (Event.take disk (.opens line tag attributes)) s none t) : Runs (openElement disk tag attributes) s () t := by
  obtain ⟨_, u, hopen, hpure⟩ := bind_iff.mp h
  obtain ⟨-, rfl⟩ := pure_iff.mp hpure
  exact atLine_iff.mp hopen

theorem inner_of_opened {outer : List (Option ElementKind)} (h : s.opened = some e :: outer) :
    s.inner.element = some e := by
  rw [State.opened] at h
  rw [State.inner]
  cases hframes : s.frames with
  | nil =>
    rw [hframes] at h
    cases h
  | cons f frames =>
    rw [hframes, List.map_cons, List.cons.injEq] at h
    exact h.1

/-- The cursor does not point at an element before the element has begun. -/
theorem not_points_of_opened (hs : Anchored s) (ht : Anchored t) (hopened : t.opened = some e :: s.opened) :
    s.cursor.points e = false := by
  rw [Bool.eq_false_iff]
  intro hpoints
  have hdeeper := ht.deeper
  rw [hopened, List.pairwise_cons] at hdeeper
  exact Nat.lt_irrefl _ (hdeeper.1 _ (hs.points e hpoints))

mutual

/-- An element that has ended leaves the open elements and the cursor as they were. -/
theorem restored_of_element : ∀ (x : Xml.Element) {s t : State}, Nested s → Anchored s →
    Runs (takeAll disk (eventsOf x)) s none t → t.opened = s.opened ∧ t.cursor = s.cursor
  | .mk tag line attributes children, s, t, hnested, h, hrun => by
    rw [eventsOf] at hrun
    obtain ⟨u, hopen, hrun⟩ := runs_takeAll_cons.mp hrun
    obtain ⟨v, hchildren, hclose⟩ := runs_takeAll_append.mp hrun
    have hu := nested_steps hnested (steps_of_take hopen)
    have hu' := anchored_steps hnested h (steps_of_take hopen)
    obtain ⟨hopened, hcursor⟩ := restored_of_elements children hu hu' hchildren
    obtain ⟨e, values, w, -, -, -, hbegin, rfl⟩ := runs_openElement (openElement_of_take hopen)
    have hbegins := begins_of_runs hbegin
    rw [opened_of_begins hbegins] at hopened
    have hinner := inner_of_opened hopened
    rcases runs_closeElement (atLine_iff.mp (runs_takeAll_one.mp hclose)) with ⟨hnone, -⟩ | ⟨k, hk, hend, -⟩
    · rw [hinner] at hnone
      cases hnone
    · rw [hinner, Option.some.injEq] at hk
      subst hk
      have hnot := not_points_of_opened h hu' (opened_of_begins hbegins)
      constructor
      · rw [State.opened, (frames_ends hend).1, map_element_widened, List.map_tail, ← State.opened, hopened,
          List.tail_cons]
      · rw [cursor_ends hend]
        change v.cursor.close e = s.cursor
        rw [hcursor]
        exact (close_begins hbegins).trans (Cursor.close_of_not_points hnot)

/-- Elements that have ended leave the open elements and the cursor as they were. -/
theorem restored_of_elements : ∀ (xs : List Xml.Element) {s t : State}, Nested s → Anchored s →
    Runs (takeAll disk (eventsOfAll xs)) s none t → t.opened = s.opened ∧ t.cursor = s.cursor
  | [], s, t, _, _, hrun => by
    obtain ⟨-, rfl⟩ := pure_iff.mp hrun
    exact ⟨rfl, rfl⟩
  | x :: more, s, t, hnested, h, hrun => by
    rw [eventsOfAll] at hrun
    obtain ⟨u, hx, hmore⟩ := runs_takeAll_append.mp hrun
    obtain ⟨hu, hu'⟩ := anchored_takeAll hnested h hx
    obtain ⟨hopened, hcursor⟩ := restored_of_element x hnested h hx
    obtain ⟨hopened', hcursor'⟩ := restored_of_elements more hu hu' hmore
    exact ⟨hopened'.trans hopened, hcursor'.trans hcursor⟩

end

/-! ### Controls -/

theorem listKinds_of_control {outer : Option ElementKind} (h : .control ∈ allowedIn outer) :
    ∃ e ∈ listKinds, outer = some e := by
  cases outer with
  | none => exact absurd h (by decide)
  | some e =>
    refine ⟨e, ?_, rfl⟩
    cases e <;> first | decide | exact absurd h (by decide)

/-- Where a control may begin, the cursor points at the list of the innermost element around it. -/
theorem founds_innermost {top : State} (hnested : Nested top) (htop : Anchored top) (hopened : top.opened = [none])
    {elements : List Xml.Element} {before rest : List Event} {event : Event}
    (hevents : eventsOfAll elements = before ++ event :: rest) (hrun : Runs (takeAll disk before) top none s)
    (hcontrol : .control ∈ s.inner.children) : ∃ e ∈ listKinds, s.inner.element = some e
      ∧ ∃ u v place, Encloses disk top before e u v ∧ Founds u v e place
        ∧ s.cursor.listPlace? (some e) = some place := by
  obtain ⟨hs, -⟩ := anchored_takeAll hnested htop hrun
  obtain ⟨e, he, hinner⟩ := listKinds_of_control (hs.allowed hcontrol).1
  refine ⟨e, he, hinner, ?_⟩
  rcases innermost_of_events hevents with ⟨siblings, rfl⟩ | ⟨outer, line, tag, attributes, siblings, rfl⟩
  · have hsame := (restored_of_elements siblings hnested htop hrun).1
    have hhead := (hs.allowed hcontrol).2
    rw [hsame, hopened, hinner] at hhead
    cases hhead
  · obtain ⟨u, houter, hrun⟩ := runs_takeAll_append.mp hrun
    obtain ⟨v, hopen, hsiblings⟩ := runs_takeAll_cons.mp hrun
    obtain ⟨hu, hu'⟩ := anchored_takeAll hnested htop houter
    obtain ⟨hsame, hcursor⟩ := restored_of_elements siblings (nested_steps hu (steps_of_take hopen))
      (anchored_steps hu hu' (steps_of_take hopen)) hsiblings
    obtain ⟨k, values, w, hk, rfl, -, hbegin, rfl⟩ := runs_openElement (openElement_of_take hopen)
    have hbegins := begins_of_runs hbegin
    rw [opened_of_begins hbegins] at hsame
    obtain rfl : k = e := Option.some.inj ((inner_of_opened hsame).symm.trans hinner)
    obtain ⟨place, hplace, hfounds⟩ := founds_begins hbegins he fun hpre => by
      rcases hu.early_of_mem hk with hearly | ⟨heq, -⟩
      · exact hearly
      · rw [hpre] at heq
        cases heq
    refine ⟨u, _, place, ⟨outer, line, attributes, siblings, rfl, houter, hopen⟩, ?_, ?_⟩
    · cases hfounds with
      | path hnew h => exact .path hnew h
      | useCaseCase hnew h => exact .useCaseCase hnew h
      | init h => exact .init h
      | preInit h => exact .preInit h
    · rw [hcursor]
      exact hplace

/-- A control is added to the list that the cursor points at. -/
theorem adds_control (hs : Nested s) (he : e ∈ listKinds) (hinner : s.inner.element = some e) {place : ListPlace}
    (hplace : s.cursor.listPlace? (some e) = some place) {line : Nat} {attributes : List (String × String)}
    (hrun : Runs (Event.take disk (.opens line ElementKind.control.tag attributes)) s none t) :
    ∃ a, (Event.opens line ElementKind.control.tag attributes).listed? disk s e = some a ∧ Adds a place s t := by
  obtain ⟨k, values, w, hk, htag, hvalues, hbegin, rfl⟩ := runs_openElement (openElement_of_take hrun)
  obtain rfl : k = .control := by
    refine (eq_control_of_tag htag).resolve_right fun hvolume => ?_
    have hallowed := (hs.allowed hk).1
    rw [hinner, hvolume] at hallowed
    exact (by decide : ∀ e ∈ listKinds, ElementKind.volume ∉ allowedIn (some e)) e he hallowed
  obtain ⟨b, bound, u, hb, -, -, -, hbind, hlists⟩ := runs_beginControl hbegin
  obtain ⟨rfl, -⟩ := aside_bindEarly hbind
  refine ⟨s.bindNow disk b, ?_, ?_⟩
  · rw [Event.listed?_control hvalues hb, if_pos hinner]
  · have hsame : u.cursor = s.cursor ∧ ∀ p, u.list? p = s.list? p := by
      rcases bindEarly_cases hbind with ⟨-, -, rfl⟩ | ⟨_, _, _, -, -, rfl⟩
      · exact ⟨rfl, fun _ => rfl⟩
      · exact ⟨rfl, list?_mixer s _⟩
    obtain ⟨place', hplace', ⟨list, hlist, hadded⟩, hothers⟩ := adds_lists hlists
    rw [hsame.1, hinner, hplace] at hplace'
    obtain rfl := Option.some.inj hplace'
    refine ⟨⟨list, ?_, ?_⟩, fun other hother => ?_⟩
    · rw [← hsame.2, hlist]
    · rw [list?_frames, hadded]
    · rw [list?_frames, hothers other hother, hsame.2]

/-- No load fails for an element that is astray. In every file that is taken up, whatever its elements are, the
cursor points at what is open and at nothing else, and nothing that comes next is astray. Where a control begins
a mixer is open, and the cursor points at the list that the innermost element around the control has begun with;
the control is added to this list and to no other. -/
theorem cursors_of_load (disk : Disk) (rack : Rack) (file : Location) :
    (∀ err after, load disk rack file = (.error err, after) → err.misplacement? ≠ some .astray)
      ∧ ∀ earlier p s₀ elements before rest s, TakesUp disk rack file earlier p s₀ →
        eventsOfAll elements = before ++ rest → Runs (takeAll disk before) (s₀.enter p) none s →
          (∀ k ∈ pointed, s.cursor.points k = true ↔ some k ∈ s.opened)
          ∧ (∀ (event : Event) err t, (event.take disk).run.run s = (.error err, t) → err.misplacement? ≠ some .astray)
          ∧ ∀ line attributes more, rest = .opens line ElementKind.control.tag attributes :: more →
            .control ∈ s.inner.children → s.desk?.isSome = true
              ∧ ∃ e u v place, s.inner.element = some e ∧ Encloses disk (s₀.enter p) before e u v
                ∧ Founds u v e place ∧ s.cursor.listPlace? (some e) = some place
                ∧ ∀ t, Runs (Event.take disk (.opens line ElementKind.control.tag attributes)) s none t →
                  ∃ a, (Event.opens line ElementKind.control.tag attributes).listed? disk s e = some a
                    ∧ Adds a place s t := by
  refine ⟨fun err after hload => avoids_load disk rack file err (congrArg Prod.fst hload), ?_⟩
  intro earlier p s₀ elements before rest s htakes hevents hrun
  have htop := nested_enter htakes.early p
  obtain ⟨hs, hs'⟩ := anchored_takeAll htop (anchored_enter s₀ p) hrun
  refine ⟨fun k hk => hs'.points_iff hk, fun event err t hfails => ?_, ?_⟩
  · exact avoids_take disk hs hs' event err (congrArg Prod.fst hfails)
  rintro line attributes more rfl hcontrol
  refine ⟨hs'.desk s.inner (State.mem_inner_of_child hcontrol) (needsMixer_of_child (hs.allowed hcontrol).1 hcontrol
    rfl (by decide)), ?_⟩
  obtain ⟨e, he, hinner, u, v, place, hencloses, hfounds, hplace⟩ :=
    founds_innermost htop (anchored_enter s₀ p) rfl hevents hrun hcontrol
  exact ⟨e, u, v, place, hinner, hencloses, hfounds, hplace, fun t ht => adds_control hs he hinner hplace ht⟩

/-- A configuration with a device of two paths. The last control has no value. -/
def slipText : String :=
  "<audiohal><mixer card='0'/><device name='sco'>" ++
  "<path name='off'><ctl name='S' val='0'/></path>" ++
  "<path name='on'><ctl name='S' val='1'/><ctl name='S'/></path></device></audiohal>"

def slipDisk : Disk :=
  ⟨.folder [("a", .file slipText.toUTF8.toList)], ⟨"/"⟩⟩

def slipRack : Rack :=
  ⟨[.ofControls 0 none [.switch "S" 1]]⟩

def slipElements : List Xml.Element :=
  let control (value : List (String × String)) : Xml.Element := .mk "ctl" 1 (("name", "S") :: value) []
  [.mk "audiohal" 1 [] [.mk "mixer" 1 [("card", "0")] [],
    .mk "device" 1 [("name", "sco")]
      [.mk "path" 1 [("name", "off")] [control [("val", "0")]],
       .mk "path" 1 [("name", "on")] [control [("val", "1")], control []]]]]

def slipState : State :=
  ((takeAll slipDisk ((eventsOfAll slipElements).take 9)).run.run ((State.start slipRack).enter ⟨"/a"⟩)).2

theorem load_slip : TakesUp slipDisk slipRack ⟨"a"⟩ [] ⟨"/a"⟩ (State.start slipRack)
    ∧ (load slipDisk slipRack ⟨"a"⟩).1 = .error (.config 1 (.controlWithoutValue "S")) := by
  have hread : (readTree slipDisk ⟨"/a"⟩).toOption.map eventsOfAll = some (eventsOfAll slipElements) := by
    have htext : slipText.toList = _ := toList_append_of
      (toList_append_of String.toList_ofList String.toList_ofList) String.toList_ofList
    refine readTree_of_find (congrArg Except.ok (FileTree.file_toUTF8 slipText)) htext fun t ht => ?_
    rw [Xml.elements?, ht]
    decide +kernel
  have hstart : TakesUp slipDisk slipRack ⟨"a"⟩ [] ⟨"/a"⟩ (State.start slipRack) := TakesUp.start (by decide)
  refine ⟨hstart, hstart.load_of_error ?_⟩
  rw [run_loadFile hread]
  exact eq_error_of_errorOf? (by decide +kernel)

/-- The load fails for the value that is missing. The control before it is added to the second path, and the
first one keeps the list that it has. -/
theorem cursors_of_load_slip :
    (load slipDisk slipRack ⟨"a"⟩).1 = .error (.config 1 (.controlWithoutValue "S"))
      ∧ (Error.config 1 (.controlWithoutValue "S")).misplacement? ≠ some .astray
      ∧ Runs (takeAll slipDisk ((eventsOfAll slipElements).take 9)) ((State.start slipRack).enter ⟨"/a"⟩) none slipState
      ∧ slipState.desk?.isSome = true
      ∧ ∃ t a, Runs (Event.take slipDisk (.opens 1 "ctl" [("name", "S"), ("val", "1")])) slipState none t
        ∧ Adds a (.path 0 1) slipState t ∧ t.list? (.path 0 0) = slipState.list? (.path 0 0) := by
  obtain ⟨htakes, hload⟩ := load_slip
  have hcursors := cursors_of_load slipDisk slipRack ⟨"a"⟩
  have hrun : Runs (takeAll slipDisk ((eventsOfAll slipElements).take 9)) ((State.start slipRack).enter ⟨"/a"⟩) none
      slipState := Runs.of_toOption (by decide +kernel)
  obtain ⟨-, -, hcontrols⟩ := hcursors.2 [] ⟨"/a"⟩ _ slipElements _ ((eventsOfAll slipElements).drop 9) slipState htakes
    (List.take_append_drop 9 _).symm hrun
  obtain ⟨hdesk, e, u, v, place, hinner, -, -, hplace, hadds⟩ := hcontrols 1 [("name", "S"), ("val", "1")] _ rfl
    (by decide +kernel)
  obtain rfl : e = .path := by
    have hpath : slipState.inner.element = some .path := by decide +kernel
    exact Option.some.inj (hinner.symm.trans hpath)
  obtain rfl : place = .path 0 1 := by
    have hsecond : slipState.cursor.listPlace? (some .path) = some (.path 0 1) := by decide +kernel
    exact Option.some.inj (hplace.symm.trans hsecond)
  have htake : Runs (Event.take slipDisk (.opens 1 "ctl" [("name", "S"), ("val", "1")])) slipState none _ :=
    Runs.of_toOption (by decide +kernel)
  obtain ⟨a, -, hadd⟩ := hadds _ htake
  exact ⟨hload, hcursors.1 _ _ (Prod.fst_eq_iff.mp hload), hrun, hdesk, _, a, htake, hadd, hadd.2 _ (by decide)⟩

end SoundRouting.Config
