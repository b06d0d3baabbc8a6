import SoundRouting.Proofs.Load.Settled
import SoundRouting.Proofs.Switch
/-!
What loading leaves alone.

Loading writes to the card at two places: where the writes that come before everything else end, and when
everything has been read. A switch that none of these writes names shows afterwards what it showed before.
-/
namespace SoundRouting

def Rack.Shows (rack : Rack) (number : Nat) (name : String) (value : Int) : Prop :=
  ∃ card, rack.card? number = some card ∧ card.Shows name value

namespace Rack.Shows

variable {rack : Rack} {number : Nat} {name : String} {value : Int}

theorem of_card (h : rack.Shows number name value) {card : Card} (hcard : rack.card? number = some card) :
    card.Shows name value := by
  obtain ⟨shown, hshown, hvalue⟩ := h
  rwa [Option.some.inj (hcard.symm.trans hshown)]

theorem setCard (h : rack.Shows number name value) {card : Card}
    (hcard : card.number = number → card.Shows name value) :
    (rack.setCard card).Shows number name value := by
  obtain ⟨old, hold, hvalue⟩ := h
  by_cases hnumber : card.number = number
  · refine ⟨card, ?_, hcard hnumber⟩
    rw [← hnumber] at hold ⊢
    exact Rack.card?_setCard_same hold
  · exact ⟨old, by rw [Rack.card?_setCard_other rack hnumber, hold], hvalue⟩

/-- Opening a mixer changes no control. -/
theorem openMixer (h : rack.Shows number name value) {other : Nat} {mixer : Mixer} {opened : Rack}
    (hopen : rack.openMixer other = .ok (mixer, opened)) : opened.Shows number name value := by
  obtain ⟨card, hcard, hnumber, -, rfl, -⟩ := Rack.openMixer_eq_ok hopen
  refine h.setCard fun hsame => ?_
  have hother : other = number := hnumber.symm.trans hsame
  rw [hother] at hcard
  exact (h.of_card hcard).of_controls rfl

/-- Applying assignments to other controls changes nothing that is shown. -/
theorem apply (h : rack.Shows number name value) {desk : Desk} (hcard : rack.card? desk.mixer.card = some desk.card)
    (hsound : desk.Sound) (disk : Disk) {list : List Assignment} (hlist : ∀ a ∈ list, a.Settled desk)
    (hother : ∀ a ∈ list, a.control ≠ name) :
    (rack.setCard (desk.apply disk list).1.card).Shows number name value := by
  refine h.setCard fun hnumber => ?_
  obtain ⟨-, hgrows, -, -⟩ := Desk.apply_spec disk hsound hlist
  rw [hgrows.card.number, Rack.number_of_card? hcard] at hnumber
  rw [hnumber] at hcard
  exact Desk.shows_apply_other hsound disk hlist hother (h.of_card hcard)

end Rack.Shows

namespace Config

/-- While the configuration is loaded, a write to this control is listed that comes before everything else
or after it. -/
def Initializes (disk : Disk) (rack : Rack) (file : Location) (name : String) : Prop :=
  ∃ s events, Reaches disk rack file s events
    ∧ ∃ a ∈ s.preInit.toList ++ s.init.toList, a.control = name

variable {disk : Disk} {s t : State} {number : Nat} {name : String} {value : Int}

theorem shows_steps (h : s.rack.Shows number name value) (hbound : Bound s)
    (hother : ∀ a ∈ s.preInit.toList, a.control ≠ name) {next : Option Location} (hsteps : Steps disk s next t) :
    t.rack.Shows number name value := by
  refine rack_steps (R := fun rack => rack.Shows number name value) (fun _ _ _ _ hopen hrack => hrack.openMixer hopen)
    (fun desk hdesk hrack => ?_) h hsteps
  obtain ⟨-, hcard⟩ := desk?_eq_some_iff.mp hdesk
  have hlist : ∀ a ∈ s.preInit.toList, a.Settled desk := fun a ha => (hbound.early a ha).settled hdesk
  exact hrack.apply hcard (hbound.sound desk hdesk) disk hlist hother

theorem shows_of_reaches {rack : Rack} {file : Location} (hrack : rack.Shows number name value)
    (hnot : ¬ Initializes disk rack file name) {events : List Event} (h : Reaches disk rack file s events) :
    s.rack.Shows number name value := by
  refine h.induction (I := fun s => s.rack.Shows number name value) hrack ?_ fun _ _ _ _ _ ht => ht
  intro s events t next hreaches hs hsteps
  refine shows_steps hs (bound_of_reaches hreaches) (fun a ha hname => ?_) hsteps
  exact hnot ⟨s, events, hreaches, a, List.mem_append_left _ ha, hname⟩

/-- A switch that a load does not initialize shows what it showed. -/
theorem shows_of_load {rack after : Rack} {file : Location} {loaded : Loaded}
    (h : load disk rack file = (.ok loaded, after)) (hrack : rack.Shows number name value)
    (hnot : ¬ Initializes disk rack file name) : after.Shows number name value := by
  obtain ⟨s, t, hreaches, hfinish, rfl⟩ := Reaches.of_load h
  obtain ⟨desk, hdesk, -, rfl⟩ := runs_finish hfinish
  have hbound := bound_of_reaches hreaches
  obtain ⟨-, hcard⟩ := desk?_eq_some_iff.mp hdesk
  have hlist : ∀ a ∈ s.init.toList, a.Settled desk := fun a ha => (hbound.initial a ha).settled hdesk
  refine (shows_of_reaches hrack hnot hreaches).apply hcard (hbound.sound desk hdesk) disk hlist ?_
  exact fun a ha hname => hnot ⟨s, [], hreaches, a, List.mem_append_right _ ha, hname⟩

/-- Whether the states that taking events gets to have a property, up to a fault. Another file is not gone
on to. -/
def holdsAlong (disk : Disk) (p : State → Bool) : List Event → State → Bool
  | [], s => p s
  | e :: more, s => p s && match (e.take disk).run.run s with
    | (.ok none, t) => holdsAlong disk p more t
    | (.ok (some _), _) => false
    | (.error _, _) => true

theorem holdsAlong_of_reaches {p : State → Bool} {rack : Rack} {file : Location}
    (hfirst : ∀ elements, readTree disk (Location.absolute disk.folder file) = .ok elements →
      holdsAlong disk p (eventsOfAll elements)
        ((State.start rack).enter (Location.absolute disk.folder file)) = true)
    {events : List Event} (h : Reaches disk rack file s events) : holdsAlong disk p events s = true := by
  induction h with
  | first hread => exact hfirst _ hread
  | event _ hrun ih =>
    rw [Runs] at hrun
    simp only [holdsAlong, hrun, Bool.and_eq_true] at ih
    exact ih.2
  | next _ hrun _ ih =>
    rw [Runs] at hrun
    simp only [holdsAlong, hrun, Bool.and_false, Bool.false_eq_true] at ih

/-- In a configuration of one file it can be checked that a control is not initialized. -/
def leavesAlone (disk : Disk) (rack : Rack) (file : Location) (name : String) : Bool :=
  match readTree disk (Location.absolute disk.folder file) with
  | .error _ => true
  | .ok elements =>
    holdsAlong disk (fun s => (s.preInit.toList ++ s.init.toList).all (·.control != name)) (eventsOfAll elements)
      ((State.start rack).enter (Location.absolute disk.folder file))

theorem leavesAlone_of_events {rack : Rack} {file p : Location} {events : List Event}
    (hname : Location.absolute disk.folder file = p)
    (hread : (readTree disk p).toOption.map eventsOfAll = some events)
    (h : holdsAlong disk (fun s => (s.preInit.toList ++ s.init.toList).all (·.control != name)) events
      ((State.start rack).enter p) = true) : leavesAlone disk rack file name = true := by
  subst hname
  unfold leavesAlone
  cases hcase : readTree disk (Location.absolute disk.folder file) with
  | error e => simp only
  | ok elements =>
    rw [hcase] at hread
    obtain rfl : eventsOfAll elements = events := Option.some.inj hread
    simp only [h]

theorem not_initializes {rack : Rack} {file : Location} (h : leavesAlone disk rack file name = true) :
    ¬ Initializes disk rack file name := by
  rintro ⟨s, events, hreaches, a, ha, hname⟩
  have hall : holdsAlong disk (fun s => (s.preInit.toList ++ s.init.toList).all (·.control != name)) events s
      = true := by
    refine holdsAlong_of_reaches (fun elements hread => ?_) hreaches
    unfold leavesAlone at h
    simpa only [hread] using h
  have hstate : (s.preInit.toList ++ s.init.toList).all (·.control != name) = true := by
    cases events with
    | nil => exact hall
    | cons e more =>
      simp only [holdsAlong, Bool.and_eq_true] at hall
      exact hall.1
  have hne := List.all_eq_true.mp hstate a ha
  rw [hname, bne_self_eq_false] at hne
  cases hne

end Config

end SoundRouting
