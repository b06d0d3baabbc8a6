import SoundRouting.Proofs.Load.Events
/-!
Where elements stand in a document.

An element stands behind the events of what comes before it, and in the elements that are open there. Every event of
a document is the beginning or the end of an element in it.
-/
namespace SoundRouting

namespace Xml.Element

open Config

def opening (x : Element) : Event :=
  .opens x.line x.tag x.attributes

def closing (x : Element) : Event :=
  .closes x.line

end Xml.Element

namespace Config

/-- The element `x` stands in a document: `before` are the events in front of it, `around` the elements that it stands
in, the outermost one first. -/
inductive Stands : List Xml.Element → List Event → List Xml.Element → Xml.Element → Prop
  | here (earlier : List Xml.Element) (x : Xml.Element) (later : List Xml.Element) :
      Stands (earlier ++ x :: later) (eventsOfAll earlier) [] x
  | inside (earlier : List Xml.Element) {a : Xml.Element} (later : List Xml.Element) {before : List Event}
      {around : List Xml.Element} {x : Xml.Element} (h : Stands a.children before around x) :
      Stands (earlier ++ a :: later) (eventsOfAll earlier ++ a.opening :: before) (a :: around) x

variable {elements around : List Xml.Element} {before done rest : List Event} {event : Event} {x : Xml.Element}

theorem eventsOf_eq (x : Xml.Element) : eventsOf x = x.opening :: (eventsOfAll x.children ++ [x.closing]) := by
  cases x
  rfl

/-- The events of an element come right behind those before it. -/
theorem Stands.events (h : Stands elements before around x) :
    ∃ rest, eventsOfAll elements = before ++ (eventsOf x ++ rest) := by
  induction h with
  | here earlier x later => exact ⟨eventsOfAll later, by rw [eventsOfAll_append, eventsOfAll]⟩
  | @inside earlier a later before around x h ih =>
    obtain ⟨rest, hrest⟩ := ih
    refine ⟨rest ++ a.closing :: eventsOfAll later, ?_⟩
    rw [eventsOfAll_append, eventsOfAll, eventsOf_eq a, hrest]
    simp only [List.append_assoc, List.cons_append, List.nil_append]

theorem Stands.cons (first : Xml.Element) (h : Stands elements before around x) :
    Stands (first :: elements) (eventsOf first ++ before) around x := by
  cases h with
  | here earlier x later => exact .here (first :: earlier) x later
  | inside earlier later h =>
    rw [← List.append_assoc]
    exact .inside (first :: earlier) later h

theorem Stands.append (more : List Xml.Element) (h : Stands elements before around x) :
    Stands (elements ++ more) before around x := by
  cases h with
  | here earlier x later =>
    rw [List.append_assoc, List.cons_append]
    exact .here earlier x (later ++ more)
  | inside earlier later h =>
    rw [List.append_assoc, List.cons_append]
    exact .inside earlier (later ++ more) h

/-- What comes before an element are elements that have ended, or it begins with the innermost element around it and goes
on with such elements. -/
theorem Stands.innermost (h : Stands elements before around x) : (∃ siblings, before = eventsOfAll siblings)
    ∨ ∃ outer line tag attributes siblings, before = outer ++ .opens line tag attributes :: eventsOfAll siblings := by
  induction h with
  | here earlier => exact Or.inl ⟨earlier, rfl⟩
  | @inside earlier a later before around x h ih =>
    rcases ih with ⟨siblings, rfl⟩ | ⟨outer, line, tag, attributes, siblings, rfl⟩
    · exact Or.inr ⟨_, _, _, _, siblings, rfl⟩
    · exact Or.inr ⟨_, line, tag, attributes, siblings, (List.append_assoc _ (a.opening :: outer) _).symm⟩

/-- The event with these events before it is the beginning or the end of this element. -/
def Marks (done : List Event) (event : Event) (before : List Event) (x : Xml.Element) : Prop :=
  (event = x.opening ∧ done = before) ∨ (event = x.closing ∧ done = before ++ x.opening :: eventsOfAll x.children)

theorem Marks.behind {done : List Event} {event : Event} (h : Marks done event before x) (front : List Event) :
    Marks (front ++ done) event (front ++ before) x := by
  rcases h with ⟨rfl, rfl⟩ | ⟨rfl, rfl⟩
  · exact Or.inl ⟨rfl, rfl⟩
  · exact Or.inr ⟨rfl, (List.append_assoc _ _ _).symm⟩

mutual

/-- Every event of an element is the beginning or the end of this one or of one in it. -/
theorem stands_of_element : ∀ (a : Xml.Element) {done rest : List Event} {event : Event},
    eventsOf a = done ++ event :: rest → ∃ before around x, Stands [a] before around x ∧ Marks done event before x
  | .mk tag line attributes children, done, rest, event, h => by
    rw [eventsOf] at h
    cases done with
    | nil =>
      obtain ⟨rfl, -⟩ := List.cons.inj h
      exact ⟨_, _, _, .here [] _ [], Or.inl ⟨rfl, rfl⟩⟩
    | cons first done =>
      obtain ⟨rfl, hinner⟩ := List.cons.inj h
      -- Behind its beginning come the events of what is in it, and then its end.
      rcases concat_eq_split hinner with ⟨more, hmore⟩ | ⟨rfl, rfl⟩
      · obtain ⟨before, around, x, hstands, hmarks⟩ := stands_of_elements children hmore
        exact ⟨_, _, x, .inside [] [] hstands, hmarks.behind [_]⟩
      · exact ⟨_, _, _, .here [] (.mk tag line attributes children) [], Or.inr ⟨rfl, rfl⟩⟩

/-- Every event of a document is the beginning or the end of an element in it. -/
theorem stands_of_elements : ∀ (as : List Xml.Element) {done rest : List Event} {event : Event},
    eventsOfAll as = done ++ event :: rest → ∃ before around x, Stands as before around x ∧ Marks done event before x
  | [], done, rest, event, h =>
    absurd h.symm (List.append_ne_nil_of_right_ne_nil done (List.cons_ne_nil event rest))
  | a :: more, done, rest, event, h => by
    rw [eventsOfAll] at h
    rcases append_eq_split h with ⟨rest, ha⟩ | ⟨done, rfl, hmore⟩
    · obtain ⟨before, around, x, hstands, hmarks⟩ := stands_of_element a ha
      exact ⟨before, around, x, hstands.append more, hmarks⟩
    · obtain ⟨before, around, x, hstands, hmarks⟩ := stands_of_elements more hmore
      exact ⟨_, around, x, hstands.cons a, hmarks.behind (eventsOf a)⟩

end

/-- What comes before an event are elements that have ended, or it begins with the innermost element around the event
and goes on with such elements. -/
theorem innermost_of_events (h : eventsOfAll elements = done ++ event :: rest) : (∃ siblings, done = eventsOfAll siblings)
    ∨ ∃ outer line tag attributes siblings, done = outer ++ .opens line tag attributes :: eventsOfAll siblings := by
  obtain ⟨before, around, x, hstands, ⟨-, rfl⟩ | ⟨-, rfl⟩⟩ := stands_of_elements elements h
  · exact hstands.innermost
  · exact Or.inr ⟨before, _, _, _, x.children, rfl⟩

end Config

end SoundRouting
