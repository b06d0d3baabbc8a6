import SoundRouting.Proofs.Load.Attributes
import SoundRouting.Proofs.Load.Cursors
import SoundRouting.Proofs.Load.Opened
import SoundRouting.Proofs.Load.Standing
import SoundRouting.Proofs.Xml.Lines
/-!
The element that a load fails at.

The elements of a file act in document order, each when it begins and when it ends, so that an element ends behind all
that stands in it. A load fails at the first of them that fails then. A fault of the configuration gets the line of
this element; the elements around it, which give their lines to what reaches them, find that it has one.
-/
namespace SoundRouting.Config

open Runs

/-- An element fails where it stands: all before it goes well and it fails when it begins, or all up to its end goes
well and it fails when it ends. The cause has no line yet. -/
inductive FailsAt (disk : Disk) (s : State) (before : List Event) (x : Xml.Element) (cause : Error) (t : State) : Prop
  | opening {u : State} (hbefore : Runs (takeAll disk before) s none u)
      (hfails : (openElement disk x.tag x.attributes).run.run u = (.error cause, t))
  | closing {u : State} (hbefore : Runs (takeAll disk (before ++ x.opening :: eventsOfAll x.children)) s none u)
      (hfails : (closeElement disk).run.run u = (.error cause, t))

variable {disk : Disk} {s t : State} {elements around : List Xml.Element} {before : List Event} {x : Xml.Element}
  {cause err : Error}

/-- The lines of a document are those of its elements. -/
theorem Stands.numbered (h : Stands elements before around x) (helements : ∀ e ∈ elements, e.Numbered) :
    x.Numbered := by
  induction h with
  | here earlier x later => exact helements x (by simp)
  | @inside earlier a later before around x h ih =>
    refine ih ?_
    obtain ⟨-, hchildren⟩ := helements a (by simp)
    exact hchildren

/-! ### What fails there -/

/-- The elements of a file fail at one of them: the cause, with its line, is what they fail with. -/
theorem error_walk_iff : (walkElements disk elements).run.run s = (.error err, t) ↔
    ∃ before around x cause, Stands elements before around x ∧ FailsAt disk s before x cause t
      ∧ err = cause.atLine x.line := by
  rw [walkElements_eq_takeAll, error_takeAll_iff]
  constructor
  · rintro ⟨done, event, rest, u, hevents, hdone, hevent⟩
    obtain ⟨before, around, x, hstands, ⟨rfl, rfl⟩ | ⟨rfl, rfl⟩⟩ := stands_of_elements elements hevents
    · obtain ⟨cause, hopen, rfl⟩ := error_take_opens_iff.mp hevent
      exact ⟨_, around, x, cause, hstands, .opening hdone hopen, rfl⟩
    · obtain ⟨cause, hclose, rfl⟩ := error_atLine_iff.mp hevent
      exact ⟨_, around, x, cause, hstands, .closing hdone hclose, rfl⟩
  · rintro ⟨before, around, x, cause, hstands, hfails, rfl⟩
    obtain ⟨rest, hevents⟩ := hstands.events
    rw [eventsOf_eq] at hevents
    cases hfails with
    | @opening u hbefore hfails =>
      exact ⟨before, x.opening, _, u, hevents, hbefore, error_take_opens_iff.mpr ⟨cause, hfails, rfl⟩⟩
    | @closing u hbefore hfails =>
      refine ⟨_, x.closing, rest, u, ?_, hbefore, error_atLine_iff.mpr ⟨cause, hfails, rfl⟩⟩
      simp only [hevents, List.append_assoc, List.cons_append, List.nil_append]

theorem unlined_openKnown {parent : Option ElementKind} {e : ElementKind} {attributes : List (String × String)}
    (h : (openKnown disk parent e attributes).run.run s = (.error cause, t)) : cause.Unlined := by
  rw [openKnown, run_bind] at h
  cases hwritten : AttributeValues.ofWritten e attributes with
  | error err =>
    rw [hwritten] at h
    cases h
    rcases AttributeValues.ofWritten_eq_error_iff.mp hwritten with hcollect | ⟨-, -, rfl⟩
    · obtain ⟨_, _, _, _, -, -, -, rfl⟩ := AttributeValues.collect_eq_error_iff.mp hcollect
      exact Error.unlined_ofConfig _
    · exact Error.unlined_ofConfig _
  | ok values =>
    rw [hwritten] at h
    have hbegin := failsPlain_beginElement disk parent (AttributeValues.complete_of_ofWritten hwritten)
    exact (failsPlain_then_modify hbegin _ s cause t h).unlined

/-- A cause has no line yet. -/
theorem FailsAt.unlined (h : FailsAt disk s before x cause t) : cause.Unlined := by
  cases h with
  | opening _ hfails =>
    rw [run_openElement] at hfails
    split at hfails
    · cases hfails
      exact Error.unlined_ofConfig _
    · exact unlined_openKnown hfails
  | closing _ hfails => exact (failsPlain_closeElement disk _ _ _ hfails).unlined

theorem numbered_of_readTree {p : Location} (h : readTree disk p = .ok elements) : ∀ e ∈ elements, e.Numbered := by
  rw [readTree] at h
  split at h
  · cases h
  · split at h
    · rename_i helements
      cases h
      exact Xml.numbered_of_elements? helements
    · cases h

theorem Stands.line_pos (h : Stands elements before around x) {p : Location} (hread : readTree disk p = .ok elements) :
    0 < x.line := by
  obtain ⟨hline, -⟩ := h.numbered (numbered_of_readTree hread)
  exact hline

/-- Finishing fails only if there is no mixer. -/
theorem error_finish (h : (finish disk).run.run s = (.error err, t)) :
    s.desk? = none ∧ err = .ofConfig .mixerMissing ∧ t = s := by
  rw [finish, run_get_bind, run_bind] at h
  cases hdesk : s.desk? with
  | none =>
    rw [hdesk] at h
    cases h
    exact ⟨rfl, rfl, rfl⟩
  | some desk =>
    rw [hdesk] at h
    cases h

theorem error_loadFile_iff {p : Location} (hread : readTree disk p = .ok elements) :
    (loadFile disk p).run.run s = (.error err, t) ↔ (walkElements disk elements).run.run (s.enter p) = (.error err, t) := by
  rw [loadFile, hread]
  rfl

/-- A load fails at a file that it cannot read, without a mixer behind its last file, or at an element. -/
theorem fails_of_load {rack after : Rack} {file : Location} (h : load disk rack file = (.error err, after)) :
    (∃ earlier p s, TakesUp disk rack file earlier p s ∧ readTree disk p = .error err ∧ err.fault? = none) ∨
    (∃ earlier p s t, TakesUp disk rack file earlier p s ∧ Runs (loadFile disk p) s none t ∧ t.desk? = none ∧
      err = .config 0 .mixerMissing) ∨
    ∃ earlier p s elements before around x cause t, TakesUp disk rack file earlier p s ∧
      readTree disk p = .ok elements ∧ Stands elements before around x ∧ FailsAt disk (s.enter p) before x cause t ∧
      err = cause.atLine x.line ∧ after = t.rack := by
  obtain ⟨earlier, p, s, htakes, ⟨t, hrun, hload⟩ | ⟨e, t, hfails, hload⟩⟩ := load_ends disk rack file
  · rw [h, Prod.mk.injEq] at hload
    obtain ⟨hdesk, rfl, -⟩ := error_finish (Prod.ext hload.1.symm rfl)
    exact Or.inr (Or.inl ⟨earlier, p, s, t, htakes, hrun, hdesk, rfl⟩)
  · rw [h, Prod.mk.injEq, Except.error.injEq] at hload
    obtain ⟨rfl, rfl⟩ := hload
    cases hread : readTree disk p with
    | error cause =>
      rw [loadFile, hread] at hfails
      cases hfails
      exact Or.inl ⟨earlier, p, _, htakes, hread, foreign_readTree disk p _ hread⟩
    | ok elements =>
      obtain ⟨before, around, x, cause, hstands, hat, rfl⟩ := error_walk_iff.mp ((error_loadFile_iff hread).mp hfails)
      exact Or.inr (Or.inr ⟨earlier, p, s, elements, before, around, x, cause, t, htakes, hread, hstands, hat, rfl, rfl⟩)

/-- A load fails at a file that it cannot read, or without a mixer behind its last file, or at the first element of a
file that fails when it begins or ends. The cause gets the line of this element, and of no element around it, if it is
a fault of the configuration, and is left as it is if it is another error. So the mixer that is missing is the only
fault without a line. -/
theorem culprit_of_load (disk : Disk) (rack : Rack) (file : Location) :
    (∀ err after, load disk rack file = (.error err, after) →
      (∃ earlier p s, TakesUp disk rack file earlier p s ∧ readTree disk p = .error err ∧ err.fault? = none) ∨
      (∃ earlier p s t, TakesUp disk rack file earlier p s ∧ Runs (loadFile disk p) s none t ∧ t.desk? = none ∧
        err = .config 0 .mixerMissing) ∨
      ∃ earlier p s elements before around x cause t, TakesUp disk rack file earlier p s ∧
        readTree disk p = .ok elements ∧ Stands elements before around x ∧ FailsAt disk (s.enter p) before x cause t ∧
        err = cause.atLine x.line ∧ after = t.rack) ∧
    (∀ earlier p s elements before around x cause t, TakesUp disk rack file earlier p s →
      readTree disk p = .ok elements → Stands elements before around x → FailsAt disk (s.enter p) before x cause t →
        (load disk rack file).1 = .error (cause.atLine x.line) ∧
        (∀ line fault, cause.atLine x.line = .config line fault ↔ cause = .config 0 fault ∧ line = x.line) ∧
        (cause.fault? = none → cause.atLine x.line = cause) ∧ 0 < x.line ∧
        ∀ a ∈ around, a.line ≠ x.line → ∀ fault, cause.atLine x.line ≠ .config a.line fault) ∧
    ∀ fault after, load disk rack file = (.error (.config 0 fault), after) → fault = .mixerMissing := by
  refine ⟨fun err after h => fails_of_load h, ?_, fun fault after h => ?_⟩
  · intro earlier p s elements before around x cause t htakes hread hstands hfails
    have hline (line : Nat) (fault : ConfigFault) :
        cause.atLine x.line = .config line fault ↔ cause = .config 0 fault ∧ line = x.line :=
      hfails.unlined.atLine_eq_config_iff
    refine ⟨htakes.load_of_error ?_, hline, fun h => Error.atLine_of_foreign h _, hstands.line_pos hread, ?_⟩
    · rw [(error_loadFile_iff hread).mpr (error_walk_iff.mpr ⟨before, around, x, cause, hstands, hfails, rfl⟩)]
    · exact fun a _ hne fault he => hne ((hline a.line fault).mp he).2
  · rcases fails_of_load h with ⟨_, _, _, -, -, hforeign⟩ | ⟨_, _, _, _, -, -, -, he⟩ |
      ⟨_, _, _, _, _, _, x, cause, _, -, hread, hstands, hfails, he, -⟩
    · cases hforeign
    · exact (Error.config.inj he).2
    · have hline := (hfails.unlined.atLine_eq_config_iff.mp he.symm).2
      have hpos := hstands.line_pos hread
      omega

/-- A configuration that hands over to itself if the file `c` names the codec `k`. -/
def loopText : String :=
  "<audiohal>\n<codec_probe file='c'>\n<case name='k' file='a'/>\n</codec_probe></audiohal>"

def loopDisk : Disk :=
  ⟨.folder [("a", .file loopText.toUTF8.toList), ("c", .file "k".toUTF8.toList)], ⟨"/"⟩⟩

def loopElements : List Xml.Element :=
  [.mk "audiohal" 1 [] [.mk "codec_probe" 2 [("file", "c")] [.mk "case" 3 [("name", "k"), ("file", "a")] []]]]

theorem load_loop : (load loopDisk ⟨[]⟩ ⟨"a"⟩).1 = .error (.config 2 (.loadedTwice ⟨"/a"⟩)) := by
  have hread : (readTree loopDisk ⟨"/a"⟩).toOption.map eventsOfAll = some (eventsOfAll loopElements) := by
    have htext : loopText.toList = _ := String.toList_ofList
    refine readTree_of_find (congrArg Except.ok (FileTree.file_toUTF8 loopText)) htext fun t ht => ?_
    rw [Xml.elements?, ht]
    decide +kernel
  have hstart : TakesUp loopDisk ⟨[]⟩ ⟨"a"⟩ [] ⟨"/a"⟩ (State.start ⟨[]⟩) := TakesUp.start (by decide)
  refine hstart.load_of_error ?_
  rw [run_loadFile hread]
  exact eq_error_of_errorOf? (by decide +kernel)

/-- The codec probe on the second line fails when it ends, behind the case on the third one. -/
theorem culprit_of_load_loop : ∃ earlier p s elements before around x t,
    TakesUp loopDisk ⟨[]⟩ ⟨"a"⟩ earlier p s ∧ readTree loopDisk p = .ok elements ∧ Stands elements before around x ∧
      FailsAt loopDisk (s.enter p) before x (.config 0 (.loadedTwice ⟨"/a"⟩)) t ∧ x.line = 2 ∧
      (load loopDisk ⟨[]⟩ ⟨"a"⟩).1 = .error (.config x.line (.loadedTwice ⟨"/a"⟩)) ∧
      ∀ a ∈ around, a.line ≠ x.line → (load loopDisk ⟨[]⟩ ⟨"a"⟩).1 ≠ .error (.config a.line (.loadedTwice ⟨"/a"⟩)) := by
  obtain ⟨hfails, hculprit, -⟩ := culprit_of_load loopDisk ⟨[]⟩ ⟨"a"⟩
  rcases hfails _ _ (Prod.fst_eq_iff.mp load_loop) with ⟨_, _, _, -, -, hforeign⟩ | ⟨_, _, _, _, -, -, -, hmissing⟩ |
    ⟨earlier, p, s, elements, before, around, x, cause, t, htakes, hread, hstands, hat, he, -⟩
  · cases hforeign
  · cases hmissing
  · obtain ⟨hload, hline, -, -, haround⟩ := hculprit earlier p s elements before around x cause t htakes hread hstands hat
    obtain ⟨rfl, htwo⟩ := (hline _ _).mp he.symm
    refine ⟨earlier, p, s, elements, before, around, x, t, htakes, hread, hstands, hat, htwo.symm, ?_, ?_⟩
    · rw [← htwo, load_loop]
    · intro a ha hne hother
      rw [hload, Except.error.injEq] at hother
      exact haround a ha hne _ hother

end SoundRouting.Config
