import SoundRouting.Proofs.Load.Runs
/-!
Loading as a sequence of events.

Walking a document takes its events in order: an element opens, what stands in it follows, and it
closes. A successful load leads through a chain of states, from the top of the first file to the end of
the last one. What holds at the top and is kept by every event holds at the end.
-/
namespace SoundRouting.Config

inductive Event where
  | opens (line : Nat) (tag : String) (attributes : List (String × String))
  | closes (line : Nat)
  deriving DecidableEq, Repr

mutual

def eventsOf : Xml.Element → List Event
  | .mk tag line attributes children =>
    .opens line tag attributes :: (eventsOfAll children ++ [.closes line])

def eventsOfAll : List Xml.Element → List Event
  | [] => []
  | e :: more => eventsOf e ++ eventsOfAll more

end

theorem eventsOfAll_append (xs ys : List Xml.Element) :
    eventsOfAll (xs ++ ys) = eventsOfAll xs ++ eventsOfAll ys := by
  induction xs with
  | nil => rfl
  | cons x more ih => rw [List.cons_append, eventsOfAll, eventsOfAll, ih, List.append_assoc]

/-- A member of two lists, one behind the other, is one of the first or of the second. -/
theorem append_eq_split {α : Type} {a b done rest : List α} {x : α} (h : a ++ b = done ++ x :: rest) :
    (∃ more, a = done ++ x :: more) ∨ ∃ more, done = a ++ more ∧ b = more ++ x :: rest := by
  rcases List.append_eq_append_iff.mp h with ⟨more, hdone, hb⟩ | ⟨more, ha, hrest⟩
  · exact Or.inr ⟨more, hdone, hb⟩
  · cases more with
    | nil =>
      rw [List.append_nil] at ha
      exact Or.inr ⟨[], by rw [ha, List.append_nil], hrest.symm⟩
    | cons first more =>
      rw [List.cons_append, List.cons.injEq] at hrest
      exact Or.inl ⟨more, by rw [ha, hrest.1]⟩

/-- A member of a list with one more at its end is in the list, or it is this one. -/
theorem concat_eq_split {α : Type} {a done rest : List α} {c x : α} (h : a ++ [c] = done ++ x :: rest) :
    (∃ more, a = done ++ x :: more) ∨ (done = a ∧ x = c) := by
  rcases append_eq_split h with ha | ⟨more, rfl, hc⟩
  · exact Or.inl ha
  · cases more with
    | nil =>
      cases hc
      exact Or.inr ⟨List.append_nil a, rfl⟩
    | cons first more => simp at hc

/-- What loading does at an event; the end of an element may name the next file. -/
def Event.take (disk : Disk) : Event → LoadM (Option Location)
  | .opens line tag attributes => do
    LoadM.atLine line (openElement disk tag attributes)
    return none
  | .closes line => LoadM.atLine line (closeElement disk)

/-- Writes and volume controls share a tag, and so do the two kinds of cases; every other element has its own. -/
theorem tag_ne {e k : ElementKind} (hk : k ∉ [.control, .volume, .useCaseCase, .codecCase]) (hne : e ≠ k) :
    e.tag ≠ k.tag := by
  have hall : ∀ k ∈ ElementKind.all, k ∉ [ElementKind.control, .volume, .useCaseCase, .codecCase] →
      ∀ e ∈ ElementKind.all, e ≠ k → e.tag ≠ k.tag := by
    decide +kernel
  exact hall k k.mem_all hk e e.mem_all hne

namespace Event

variable {line : Nat} {attributes : List (String × String)}

/-- The attributes that an event gives to an element of this kind, if it may open one. -/
def values? (e : ElementKind) : Event → Option AttributeValues
  | .opens _ tag attributes => if tag = e.tag then (AttributeValues.ofWritten e attributes).toOption else none
  | .closes _ => none

theorem values?_opens {e : ElementKind} {values : AttributeValues}
    (h : AttributeValues.ofWritten e attributes = .ok values) :
    (opens line e.tag attributes).values? e = some values := by
  rw [values?, if_pos rfl, h]
  rfl

theorem values?_other {tag : String} {e : ElementKind} (h : tag ≠ e.tag) :
    (opens line tag attributes).values? e = none :=
  if_neg h

end Event

theorem run_take_opens (disk : Disk) (line : Nat) (tag : String) (attributes : List (String × String)) (s : State) :
    (Event.take disk (.opens line tag attributes)).run.run s
      = match (openElement disk tag attributes).run.run s with
        | (.ok _, t) => (.ok none, t)
        | (.error e, t) => (.error (e.atLine line), t) := by
  rw [Event.take, run_bind, run_atLine]
  cases (openElement disk tag attributes).run.run s with
  | mk result t => cases result <;> rfl

/-- An element that opens fails with what it does, at its line. -/
theorem error_take_opens_iff {disk : Disk} {line : Nat} {tag : String} {attributes : List (String × String)}
    {s t : State} {e : Error} : (Event.take disk (.opens line tag attributes)).run.run s = (.error e, t) ↔
      ∃ cause, (openElement disk tag attributes).run.run s = (.error cause, t) ∧ e = cause.atLine line := by
  rw [Event.take, Runs.error_bind_iff, Runs.error_atLine_iff]
  refine or_iff_left ?_
  rintro ⟨_, _, -, h⟩
  cases h

/-- Takes events in order, up to one that names the next file. -/
def takeAll (disk : Disk) : List Event → LoadM (Option Location)
  | [] => pure none
  | e :: more => do
    match ← e.take disk with
    | some next => return some next
    | none => takeAll disk more

theorem takeAll_append (disk : Disk) (a b : List Event) :
    takeAll disk (a ++ b) = (do
      match ← takeAll disk a with
      | some next => return some next
      | none => takeAll disk b) := by
  induction a with
  | nil => rfl
  | cons e more ih =>
    simp only [List.cons_append, takeAll, ih, bind_assoc]
    congr 1
    funext r
    cases r with
    | none => rfl
    | some next => rw [pure_bind]

mutual

theorem walkElement_eq_takeAll (disk : Disk) : ∀ e : Xml.Element, walkElement disk e = takeAll disk (eventsOf e)
  | .mk tag line attributes children => by
    have hclose : takeAll disk [.closes line] = LoadM.atLine line (closeElement disk) := by
      simp only [takeAll, Event.take]
      conv => rhs; rw [← bind_pure (LoadM.atLine line (closeElement disk))]
      congr 1
      funext r
      cases r <;> rfl
    rw [walkElement, eventsOf, takeAll, Event.take, walkElements_eq_takeAll disk children, takeAll_append,
      hclose, bind_assoc]
    refine bind_congr fun _ => ?_
    exact (pure_bind _ _).symm

theorem walkElements_eq_takeAll (disk : Disk) :
    ∀ es : List Xml.Element, walkElements disk es = takeAll disk (eventsOfAll es)
  | [] => rfl
  | e :: more => by
    have happend := takeAll_append disk (eventsOf e) (eventsOfAll more)
    rw [← walkElement_eq_takeAll disk e, ← walkElements_eq_takeAll disk more] at happend
    rw [walkElements, eventsOfAll]
    exact happend.symm

end

/-- The load of a configuration gets to a state with these events of the current file left. -/
inductive Reaches (disk : Disk) (rack : Rack) (file : Location) : State → List Event → Prop
  | first {elements : List Xml.Element}
      (hread : readTree disk (Location.absolute disk.folder file) = .ok elements) :
      Reaches disk rack file ((State.start rack).enter (Location.absolute disk.folder file))
        (eventsOfAll elements)
  | event {s t : State} {e : Event} {more : List Event} (h : Reaches disk rack file s (e :: more))
      (hrun : Runs (e.take disk) s none t) : Reaches disk rack file t more
  | next {s t : State} {e : Event} {more : List Event} {next : Location} {elements : List Xml.Element}
      (h : Reaches disk rack file s (e :: more)) (hrun : Runs (e.take disk) s (some next) t)
      (hread : readTree disk next = .ok elements) :
      Reaches disk rack file (t.enter next) (eventsOfAll elements)

namespace Reaches

variable {disk : Disk} {rack : Rack} {file : Location}

/-- Taking all events leads to their end, or to the top of the next file. -/
theorem of_takeAll {events : List Event} {s t : State} {r : Option Location}
    (h : Reaches disk rack file s events) (hrun : Runs (takeAll disk events) s r t) :
    (r = none → Reaches disk rack file t [])
      ∧ ∀ next elements, r = some next → readTree disk next = .ok elements →
        Reaches disk rack file (t.enter next) (eventsOfAll elements) := by
  induction events generalizing s with
  | nil =>
    obtain ⟨rfl, rfl⟩ := Runs.pure_iff.mp hrun
    exact ⟨fun _ => h, nofun⟩
  | cons e more ih =>
    obtain ⟨r', u, hfirst, hrest⟩ := Runs.bind_iff.mp hrun
    cases r' with
    | none => exact ih (h.event hfirst) hrest
    | some next' =>
      obtain ⟨rfl, rfl⟩ := Runs.pure_iff.mp hrest
      refine ⟨nofun, fun next elements he hread => ?_⟩
      cases he
      exact h.next hfirst hread

theorem of_loadChain {bound : Nat} {start : Location} {s t : State}
    (hfirst : ∀ elements, readTree disk start = .ok elements →
      Reaches disk rack file (s.enter start) (eventsOfAll elements))
    (hrun : Runs (loadChain disk bound start) s () t) : Reaches disk rack file t [] := by
  induction bound generalizing start s with
  | zero => exact absurd hrun Runs.fault_iff
  | succ bound ih =>
    obtain ⟨r, u, hfile, hrest⟩ := Runs.bind_iff.mp hrun
    obtain ⟨elements, v, hresult, hwalk⟩ := Runs.bind_iff.mp hfile
    obtain ⟨hread, rfl⟩ := Runs.ofResult_iff.mp hresult
    obtain ⟨_, w, henter, hwalk⟩ := Runs.bind_iff.mp hwalk
    obtain rfl := Runs.modify_iff.mp henter
    rw [walkElements_eq_takeAll] at hwalk
    obtain ⟨hend, hnext⟩ := of_takeAll (hfirst elements hread) hwalk
    cases r with
    | none =>
      obtain ⟨-, rfl⟩ := Runs.pure_iff.mp hrest
      exact hend rfl
    | some next => exact ih (fun elements' hread' => hnext next elements' rfl hread') hrest

/-- A load that succeeds gets to the end of a file and finishes there. -/
theorem of_load {loaded : Loaded} {after : Rack} (h : load disk rack file = (.ok loaded, after)) :
    ∃ s t, Reaches disk rack file s [] ∧ Runs (finish disk) s loaded t ∧ t.rack = after := by
  cases hrun : (do
      loadChain disk chainBound (Location.absolute disk.folder file)
      finish disk : LoadM Loaded).run.run (State.start rack) with
  | mk result t =>
    have hload : load disk rack file = (result, t.rack) := by
      rw [load, hrun]
    rw [hload, Prod.mk.injEq] at h
    obtain ⟨rfl, hrack⟩ := h
    obtain ⟨_, s, hchain, hfinish⟩ := Runs.bind_iff.mp hrun
    exact ⟨s, t, of_loadChain (fun _ hread => .first hread) hchain, hfinish, hrack⟩

end Reaches

end SoundRouting.Config
