import SoundRouting.Proofs.Load.Chain
/-!
The course of a load.

A load takes one event after the other, each in the state that the one before left, through all its files.
What becomes of the cards and of the model is told by the events that it has taken and by the states that it
was in. It stops at a file that cannot be read, at an event that fails, or behind the last event of a file,
where it finishes.
-/
namespace SoundRouting.Config

open Runs

/-- The load of a configuration has taken these events, each in this state, and gets to a state with these
events of the current file left. -/
inductive Course (disk : Disk) (rack : Rack) (file : Location) : List (State × Event) → State → List Event → Prop
  | first {elements : List Xml.Element}
      (hread : readTree disk (Location.absolute disk.folder file) = .ok elements) :
      Course disk rack file [] ((State.start rack).enter (Location.absolute disk.folder file))
        (eventsOfAll elements)
  | event {done : List (State × Event)} {s t : State} {e : Event} {more : List Event}
      (h : Course disk rack file done s (e :: more)) (hrun : Runs (e.take disk) s none t) :
      Course disk rack file (done ++ [(s, e)]) t more
  | next {done : List (State × Event)} {s t : State} {e : Event} {more : List Event} {next : Location}
      {elements : List Xml.Element} (h : Course disk rack file done s (e :: more))
      (hrun : Runs (e.take disk) s (some next) t) (hread : readTree disk next = .ok elements) :
      Course disk rack file (done ++ [(s, e)]) (t.enter next) (eventsOfAll elements)

/-- The load of a configuration stops when it has taken these events, in this state and with this result. -/
inductive Stops (disk : Disk) (rack : Rack) (file : Location) :
    List (State × Event) → State → Except Error Loaded × Rack → Prop
  | unread {err : Error} (hread : readTree disk (Location.absolute disk.folder file) = .error err) :
      Stops disk rack file [] (State.start rack) (.error err, rack)
  | fails {done : List (State × Event)} {s t : State} {e : Event} {more : List Event} {err : Error}
      (h : Course disk rack file done s (e :: more)) (hfails : (e.take disk).run.run s = (.error err, t)) :
      Stops disk rack file done s (.error err, t.rack)
  | astray {done : List (State × Event)} {s t : State} {e : Event} {more : List Event} {next : Location}
      {err : Error} (h : Course disk rack file done s (e :: more)) (hrun : Runs (e.take disk) s (some next) t)
      (hread : readTree disk next = .error err) :
      Stops disk rack file (done ++ [(s, e)]) t (.error err, t.rack)
  | finishes {done : List (State × Event)} {s : State} (h : Course disk rack file done s []) :
      Stops disk rack file done s (((finish disk).run.run s).1, ((finish disk).run.run s).2.rack)

variable {disk : Disk} {rack : Rack} {file : Location} {done : List (State × Event)} {s t : State}
  {events : List Event}

theorem Course.reaches (h : Course disk rack file done s events) : Reaches disk rack file s events := by
  induction h with
  | first hread => exact .first hread
  | event _ hrun ih => exact ih.event hrun
  | next _ hrun hread ih => exact ih.next hrun hread

theorem Reaches.course (h : Reaches disk rack file s events) : ∃ done, Course disk rack file done s events := by
  induction h with
  | first hread => exact ⟨[], .first hread⟩
  | event _ hrun ih =>
    obtain ⟨done, h⟩ := ih
    exact ⟨_, h.event hrun⟩
  | next _ hrun hread ih =>
    obtain ⟨done, h⟩ := ih
    exact ⟨_, h.next hrun hread⟩

/-- What holds at the start, is kept by every event, and does not depend on the file, holds all along the
course of a load. -/
theorem Course.induction {I : List (State × Event) → State → Prop} (h : Course disk rack file done s events)
    (hstart : I [] (State.start rack)) (hfile : ∀ done s next, I done s → I done (s.enter next))
    (htake : ∀ done s e events next t, Course disk rack file done s events → I done s →
      Runs (e.take disk) s next t → I (done ++ [(s, e)]) t) : I done s := by
  induction h with
  | first => exact hfile _ _ _ hstart
  | event h hrun ih => exact htake _ _ _ _ _ _ h ih hrun
  | next h hrun _ ih => exact hfile _ _ _ (htake _ _ _ _ _ _ h ih hrun)

/-- What holds all along the course of a load holds where it stops. -/
theorem Stops.induction {I : List (State × Event) → State → Prop} {result : Except Error Loaded × Rack}
    (h : Stops disk rack file done s result) (hstart : I [] (State.start rack))
    (hfile : ∀ done s next, I done s → I done (s.enter next))
    (htake : ∀ done s e events next t, Course disk rack file done s events → I done s →
      Runs (e.take disk) s next t → I (done ++ [(s, e)]) t) : I done s := by
  cases h with
  | unread => exact hstart
  | fails h => exact h.induction hstart hfile htake
  | astray h hrun => exact htake _ _ _ _ _ _ h (h.induction hstart hfile htake) hrun
  | finishes h => exact h.induction hstart hfile htake

/-- Every load stops somewhere. -/
theorem load_stops (disk : Disk) (rack : Rack) (file : Location) :
    ∃ done s, Stops disk rack file done s (load disk rack file) := by
  obtain ⟨earlier, last, s, htakes, ⟨t, hlast, hload⟩ | ⟨err, t, hlast, hload⟩⟩ := load_ends disk rack file
  · obtain ⟨elements, hread, hwalk⟩ := runs_loadFile.mp hlast
    have hend := ((htakes.reaches hread).of_takeAll hwalk).1 rfl
    obtain ⟨done, hcourse⟩ := hend.course
    rw [hload]
    exact ⟨done, t, .finishes hcourse⟩
  · rw [hload]
    cases hread : readTree disk last with
    | ok elements =>
      have hwalk : (takeAll disk (eventsOfAll elements)).run.run (s.enter last) = (.error err, t) := by
        rw [← run_loadFile (by rw [hread]; rfl), hlast]
      obtain ⟨before, e, more, u, hevents, hbefore, hfails⟩ := error_takeAll_iff.mp hwalk
      have htop := htakes.reaches hread
      rw [hevents] at htop
      obtain ⟨done, hcourse⟩ := (htop.of_done hbefore).course
      exact ⟨done, u, .fails hcourse hfails⟩
    | error cause =>
      have hsame : (loadFile disk last).run.run s = (.error cause, s) := by
        rw [loadFile, hread]
        rfl
      rw [hlast, Prod.mk.injEq, Except.error.injEq] at hsame
      obtain ⟨rfl, rfl⟩ := hsame
      cases htakes with
      | first => exact ⟨[], _, .unread hread⟩
      | next htakes hrun =>
        obtain ⟨elements, hread', hwalk⟩ := runs_loadFile.mp hrun
        obtain ⟨before, e, more, u, hevents, hbefore, hnext⟩ := runs_takeAll_some hwalk
        have htop := htakes.reaches hread'
        rw [hevents] at htop
        obtain ⟨done, hcourse⟩ := (htop.of_done hbefore).course
        exact ⟨_, _, .astray hcourse hnext hread⟩

/-- A load that succeeds stops where it has gone through its last file, and finishes there. -/
theorem Stops.course_of_ok {loaded : Loaded} {after : Rack} (h : Stops disk rack file done s (.ok loaded, after)) :
    Course disk rack file done s [] ∧ ∃ t, Runs (finish disk) s loaded t ∧ t.rack = after := by
  generalize hresult : (Except.ok loaded, after) = result at h
  cases h with
  | unread => cases hresult
  | fails => cases hresult
  | astray => cases hresult
  | finishes h =>
    obtain ⟨hok, hrack⟩ := Prod.mk.injEq .. ▸ hresult
    exact ⟨h, _, Prod.ext hok.symm rfl, hrack.symm⟩

theorem Course.first_of_events {p : Location} (hname : Location.absolute disk.folder file = p)
    (hread : (readTree disk p).toOption.map eventsOfAll = some events) :
    Course disk rack file [] ((State.start rack).enter p) events := by
  subst hname
  obtain ⟨elements, htree, rfl⟩ := Option.map_eq_some_iff.mp hread
  exact .first (eq_ok_of_toOption htree)

/-- The steps of taking events one after the other, and the state that they lead to; none if an event fails or hands
over to another file. -/
def trail (disk : Disk) : List Event → State → Option (List (State × Event) × State)
  | [], s => some ([], s)
  | e :: more, s =>
    match (e.take disk).run.run s with
    | (.ok none, t) => (trail disk more t).map fun rest => ((s, e) :: rest.1, rest.2)
    | _ => none

/-- A load takes the events of a file that can be taken one after the other. -/
theorem Course.trail (h : Course disk rack file done s events) {more : List (State × Event)}
    (htrail : trail disk events s = some (more, t)) : Course disk rack file (done ++ more) t [] := by
  induction events generalizing done s more with
  | nil =>
    cases htrail
    rwa [List.append_nil]
  | cons e rest ih =>
    rw [Config.trail] at htrail
    split at htrail
    · rename_i u hrun
      obtain ⟨⟨steps, last⟩, hrest, hsteps⟩ := Option.map_eq_some_iff.mp htrail
      cases hsteps
      have hcourse := ih (h.event hrun) hrest
      rwa [List.append_assoc] at hcourse
    · cases htrail

end SoundRouting.Config
