import SoundRouting.Proofs.Coherent
import SoundRouting.Proofs.Loaded
import SoundRouting.Proofs.Load.Redirects
/-!
A loaded configuration has the bindings that its values say, and keeps them.

Forgetting bindings keeps values that have been converted. But in a file with one root element bindings are
forgotten only before there is any assignment in the model, so that the manager of a loaded configuration
starts in order, and stays so whatever it serves and whatever happens to its card.
-/
namespace SoundRouting

namespace Rack

def Built (rack : Rack) : Prop :=
  ∀ card ∈ rack.cards, card.Built

theorem mem_replace {card c : Card} {cards : List Card} (h : c ∈ replace card cards) : c = card ∨ c ∈ cards := by
  induction cards with
  | nil => cases h
  | cons d more ih =>
    rw [replace] at h
    split at h
    · rcases List.mem_cons.mp h with rfl | h
      · exact Or.inl rfl
      · exact Or.inr (List.mem_cons_of_mem _ h)
    · rcases List.mem_cons.mp h with rfl | h
      · exact Or.inr List.mem_cons_self
      · exact (ih h).imp_right (List.mem_cons_of_mem _)

namespace Built

variable {rack : Rack}

theorem card (h : rack.Built) {number : Nat} {card : Card} (hcard : rack.card? number = some card) : card.Built :=
  h card (List.mem_of_find?_eq_some hcard)

theorem setCard (h : rack.Built) {card : Card} (hcard : card.Built) : (rack.setCard card).Built := by
  intro c hc
  rcases mem_replace hc with rfl | hc
  · exact hcard
  · exact h c hc

theorem openMixer (h : rack.Built) {number : Nat} {mixer : Mixer} {opened : Rack}
    (hopen : rack.openMixer number = .ok (mixer, opened)) : opened.Built := by
  obtain ⟨card, hcard, -, -, rfl, -⟩ := Rack.openMixer_eq_ok hopen
  exact h.setCard ((h.card hcard).event (.opened card))

end Built

end Rack

namespace Config

open Runs

variable {disk : Disk} {rack after : Rack} {file p : Location} {s t : State} {earlier : List Location} {x : Xml.Element}
  {mixers early : Nat} {levels : List Level} {done more : List Event} {event : Event} {e : ElementKind}

/-- Applying assignments that are bound soundly does to the card what can happen to it. -/
theorem built_apply (hbound : Bound s) (h : s.rack.Built) {desk : Desk} (hdesk : s.desk? = some desk)
    {list : List Assignment} (hlist : ∀ a ∈ list, Binds s a) : (desk.apply disk list).1.card.Built := by
  have hsettled : ∀ a ∈ list, a.Settled desk := fun a ha => (hlist a ha).settled hdesk
  exact Desk.apply_induction disk (hbound.sound desk hdesk) hsettled
    (fun _ _ _ _ _ _ _ _ hcard hw => hcard.event (.written hw)) (h.card (desk?_eq_some_iff.mp hdesk).2)

theorem built_of_reaches (hrack : rack.Built) {events : List Event} (h : Reaches disk rack file s events) :
    s.rack.Built := by
  refine h.induction (I := fun s => s.rack.Built) hrack ?_ fun _ _ _ _ _ ht => ht
  intro s events t next hreaches hs hsteps
  have hbound := bound_of_reaches hreaches
  exact rack_steps (fun _ _ _ _ hopen h => h.openMixer hopen)
    (fun desk hdesk h => h.setCard (built_apply hbound h hdesk hbound.early)) hs hsteps

/-- All along a load, the writes that come before everything else or after it are made without harm. -/
theorem deliversAll_of_reaches (hrack : rack.Built) {events : List Event} (h : Reaches disk rack file s events)
    {desk : Desk} (hdesk : s.desk? = some desk) :
    desk.DeliversAll disk s.preInit.toList ∧ desk.DeliversAll disk s.init.toList := by
  have hbound := bound_of_reaches h
  have hsized := ((built_of_reaches hrack h).card (desk?_eq_some_iff.mp hdesk).2).sized
  have hsound := hbound.sound desk hdesk
  exact ⟨Desk.deliversAll_of_settled hsound hsized fun a ha => (hbound.early a ha).settled hdesk,
    Desk.deliversAll_of_settled hsound hsized fun a ha => (hbound.initial a ha).settled hdesk⟩

/-! ### Values and bindings -/

theorem coherent_start (rack : Rack) : (State.start rack).model.Coherent :=
  ⟨fun _ h => absurd h List.not_mem_nil, fun _ h => absurd h List.not_mem_nil⟩

theorem coherent_bindEarly {a b : Assignment} (h : a.Coherent) (hbind : Runs (bindEarly disk a) s b t) :
    t.model = s.model ∧ b.Coherent := by
  rcases bindEarly_cases hbind with ⟨-, rfl, rfl⟩ | ⟨desk, mixer, outcome, -, hb, rfl⟩
  · exact ⟨rfl, h⟩
  · exact ⟨rfl, Mixer.coherent_bind h hb⟩

theorem isBound_bindVolume {card : Card} {m n : Mixer} {v bound : VolumeControl} {id : Nat}
    (h : m.bindVolume card v = (n, bound, .ok id)) : bound.binding.isBound = true := by
  rw [Mixer.bindVolume] at h
  cases hb : v.binding with
  | bound id type =>
    rw [hb] at h
    cases h
    rw [hb]
    rfl
  | unresolved =>
    rw [hb] at h
    dsimp only [Binding.id?] at h
    split at h
    · cases h
    · split at h <;> cases h
      rfl

/-- A declaration adds assignments as they were declared, or bound, and volume controls that are bound. -/
theorem coherent_begins (h : s.model.Coherent) {parent : Option ElementKind} (he : e ≠ .mixer)
    (hbegin : Begins disk s parent e t) : t.model.Coherent := by
  by_cases hbinding : e ∈ bindingKinds
  · cases hbegin with
    | aside => exact h
    | mixer => exact absurd rfl he
    | control ha hbind hlists hpending =>
      obtain ⟨hmodel, hb⟩ := coherent_bindEarly (Assignment.coherent_declared ha hpending) hbind
      exact holds_lists (by rw [hmodel]; exact h) hb hlists
    | @volume v bound desk control u id stream left right hv hbind hs low high hsides =>
      obtain ⟨before, -, hb, -, rfl⟩ := bindVolumeEarly_cases hbind
      have hbound := isBound_bindVolume hb
      refine Model.Holds.modifyStream h fun s' _ => ?_
      exact (h.streams stream (Model.mem_of_stream? hs)).side (by exact hbound) hsides
    | setting _ _ _ _ hsetting =>
      have hnone : ∀ k ∈ settings, k ∉ bindingKinds := by decide
      exact absurd hbinding (hnone e hsetting)
    | device | path | anonymous | named => exact absurd hbinding (by decide)
  · exact holds_begins h hbinding hbegin

/-- The end of an element converts nothing, and where early writes end, there is nothing in the model. -/
theorem coherent_closes {element : Option ElementKind} {next : Option Location} (hcloses : Closes disk s element next t)
    (hpre : element = some .preInit → s.model = (State.start rack).model) (h : s.model.Coherent) :
    t.model.Coherent := by
  cases hcloses with
  | leaves => exact h
  | @ends e frames _ _ hend =>
    by_cases he : e = .preInit
    · subst he
      have hmodel : State.model { s with frames := frames } = (State.start rack).model := hpre rfl
      rw [model_preInit hmodel hend]
      exact coherent_start rack
    · cases hend with
      | aside => exact h
      | preInit => exact absurd rfl he

/-- In a file with one root element every event leaves the model coherent: where a mixer is declared, and where
early writes end, there is nothing in it. -/
theorem coherent_take (hevents : eventsOf x = done ++ event :: more) (hlevels : levelsAfter done [.top] = some levels)
    (hfollows : Follows s levels) (hstage : Stage rack s mixers early levels) (h : s.model.Coherent)
    {next : Option Location} (htake : Runs (event.take disk) s next t) : t.model.Coherent := by
  cases event with
  | opens line tag attributes =>
    obtain ⟨-, l, rest, e, u, rfl, he, -, hbegin, rfl⟩ := begins_of_opens hfollows htake
    change u.model.Coherent
    by_cases hmixer : e = .mixer
    · subst hmixer
      obtain ⟨hroot, hnot⟩ := root_of_mixer he
      rw [(opened_mixer (hstage.fresh rfl hroot hnot) hbegin).1]
      exact coherent_start rack
    · exact coherent_begins h hmixer hbegin
  | closes line =>
    obtain ⟨l, rest, rfl, -⟩ := levels_of_closes hevents hlevels
    exact coherent_closes (closes_of_closes hfollows htake) (fun he => hstage.model_of_preInit rfl he) h

/-- All along a file with one root element that is taken up afresh the model is coherent. -/
theorem TakesUp.coherent (htakes : TakesUp disk rack file earlier p s) (hfresh : Fresh rack s)
    (hread : readTree disk p = .ok [x]) : ∀ done rest t, eventsOf x = done ++ rest →
    Runs (takeAll disk done) (s.enter p) none t → t.model.Coherent := by
  refine takeAll_induction ?_ ?_
  · change s.model.Coherent
    rw [hfresh.model]
    exact coherent_start rack
  · intro done event more u v hevents hdone hu htake
    obtain ⟨levels, hlevels, hfollows, hstage⟩ := htakes.stage hfresh hread done _ u hevents hdone
    exact coherent_take hevents hlevels hfollows hstage hu htake

/-- A manager of a loaded configuration starts in order, if all its files have one root element. -/
theorem inOrder_of_load {loaded : Loaded} (hload : load disk rack file = (.ok loaded, after))
    (hroots : SingleRoots disk rack file) (hrack : rack.Built) :
    ∃ card, after.card? loaded.mixer.card = some card ∧ (Manager.ofLoaded card loaded).InOrder := by
  obtain ⟨card, hcard, hsound, hmodel⟩ := settled_of_load hload
  refine ⟨card, hcard, ⟨hsound, hmodel⟩, ?_, ?_⟩
  · obtain ⟨earlier, last, s, t, u, htakes, hlast, hfinish, -⟩ := finishes_of_load hload
    obtain ⟨x, hread, -, hwalk, -⟩ := htakes.ends hroots hlast
    obtain ⟨desk, -, rfl, -⟩ := runs_finish hfinish
    exact (htakes.coherent (htakes.fresh hroots) hread _ [] t (List.append_nil _).symm hwalk).compress
  · obtain ⟨s, t, hreaches, hfinish, rfl⟩ := Reaches.of_load hload
    obtain ⟨desk, hdesk, -, rfl⟩ := runs_finish hfinish
    have hbound := bound_of_reaches hreaches
    have hbuilt := built_of_reaches hrack hreaches
    have hafter : (s.withDesk (desk.apply disk s.init.toList).1).rack.Built :=
      hbuilt.setCard (built_apply hbound hbuilt hdesk hbound.initial)
    exact (hafter.card hcard).sized

/-- If all its files have one root element, a configuration that is loaded on cards as they can be has exactly
the values converted that are bound. A bound assignment is to a control that exists and that the mixer knows, of
its name, and has the type and the form of value that go with it; volume controls are all bound to integer
controls. That stays so, whatever the manager serves and whatever happens to its card, and whichever list of
assignments is applied, each that can be bound is written: its value has been converted, it has the id of its
control, a block of bytes finds its place, and the card refuses a write only for a value out of range, an element
or an item that there is not. So it is with the lists that are applied during the load. -/
theorem bindings_of_load {loaded : Loaded} (hload : load disk rack file = (.ok loaded, after))
    (hroots : SingleRoots disk rack file) (hrack : rack.Built) :
    ∃ card, after.card? loaded.mixer.card = some card
      ∧ (∀ m, (Manager.ofLoaded card loaded).ComesTo m →
        m.model.Holds (fun a => (a.value.isPending = true ↔ a.binding = .unresolved) ∧ a.Settled m.desk)
            (fun v => v.binding.isBound = true ∧ v.Settled m.desk)
          ∧ ∀ disk list, m.model.HasList list → m.desk.DeliversAll disk list)
      ∧ ∀ s events desk, Reaches disk rack file s events → s.desk? = some desk →
        desk.DeliversAll disk s.preInit.toList ∧ desk.DeliversAll disk s.init.toList := by
  obtain ⟨card, hcard, hstart⟩ := inOrder_of_load hload hroots hrack
  refine ⟨card, hcard, fun m hm => ?_, fun _ _ _ hreaches hdesk => deliversAll_of_reaches hrack hreaches hdesk⟩
  have hm := hm.inOrder hstart
  exact ⟨Model.Holds.and hm.coherent hm.settled.model, fun disk _ hlist => hm.deliversAll disk hlist⟩

/-- The switch of the configuration that is handed over to is written without harm, also with a new control on
the card. -/
theorem bindings_of_load_relay :
    let after : Rack := ⟨relayRack.cards.map fun card => { card with opens := 2 }⟩
    load relayDisk relayRack ⟨"a"⟩ = (.ok relayLoaded, after) ∧ SingleRoots relayDisk relayRack ⟨"a"⟩
      ∧ relayRack.Built ∧ ∃ card, after.card? relayLoaded.mixer.card = some card
        ∧ ∃ id c, Desk.Delivers ⟨card.addControl (.switch "T" 1), relayLoaded.mixer⟩
          ⟨"S", .all, .int 1, .bound 0 .switch⟩ id c := by
  intro after
  have hbuilt : relayRack.Built := by
    rw [Rack.Built, relayRack, List.forall_mem_singleton]
    exact (Card.Built.blank 0 none).event (.added _ _)
  refine ⟨loads_relay.2.2, singleRoots_relay, hbuilt, ?_⟩
  obtain ⟨card, hcard, hbindings, -⟩ := bindings_of_load loads_relay.2.2 singleRoots_relay hbuilt
  refine ⟨card, hcard, ?_⟩
  obtain ⟨-, hdelivers⟩ := hbindings _ (Manager.ComesTo.start.event (.added _ (.switch "T" 1)))
  exact hdelivers relayDisk [⟨"S", .all, .int 1, .bound 0 .switch⟩]
    (Or.inl ⟨_, List.mem_cons_self, _, List.mem_cons_self, rfl⟩) _ List.mem_cons_self _ _ rfl

/-- With two root elements in a file, a value stays converted although its binding has been forgotten. -/
theorem converted_without_binding : leakRack.Built
    ∧ load leakDisk leakRack ⟨"a"⟩ = (.ok leakLoaded, ⟨leakRack.cards.map fun card => { card with opens := 1 }⟩)
    ∧ ∃ d ∈ leakLoaded.model.devices.toList, ∃ p ∈ d.paths.toList, ∃ a ∈ p.assignments.toList,
      a.value.isPending = false ∧ a.binding = .unresolved := by
  refine ⟨?_, ?_, _, List.mem_cons_self, _, List.mem_cons_self, _, List.mem_cons_self, rfl, rfl⟩
  · rw [Rack.Built, leakRack, List.forall_mem_cons, List.forall_mem_singleton]
    exact ⟨(Card.Built.blank 0 none).event (.added _ _), .blank 2 none⟩
  · obtain ⟨-, -, hload⟩ := load_leak
    exact hload

end Config

end SoundRouting
