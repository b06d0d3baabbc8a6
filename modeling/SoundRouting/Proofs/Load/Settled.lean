import SoundRouting.Proofs.Bindings
import SoundRouting.Proofs.Load.Rest
/-!
What a configuration has bound by the time it is loaded is sound.

A mixer is given up with every binding that was made on it. While it is open the bindings are to controls
that it knows, so that the mixer which comes out of a load is sound, and so are the bindings of the model.
-/
namespace SoundRouting

/-- Opening a mixer on a rack: it knows the controls that exist. -/
theorem Rack.openMixer_eq_ok {rack opened : Rack} {number : Nat} {mixer : Mixer}
    (h : rack.openMixer number = .ok (mixer, opened)) : ∃ card, rack.card? number = some card
      ∧ card.number = number ∧ mixer = ⟨number, card.presentIds⟩
      ∧ opened = rack.setCard { card with opens := card.opens + 1 }
      ∧ opened.card? number = some { card with opens := card.opens + 1 } := by
  simp only [openMixer] at h
  split at h
  · cases h
  · rename_i card hcard
    cases h
    obtain rfl := number_of_card? hcard
    refine ⟨card, hcard, rfl, rfl, rfl, ?_⟩
    have hnumber : ({ card with opens := card.opens + 1 } : Card).number = card.number := rfl
    rw [← hnumber] at hcard ⊢
    exact card?_setCard_same hcard

theorem Rack.openMixer_of_card? {rack : Rack} {number : Nat} {card : Card} (h : rack.card? number = some card) :
    rack.openMixer number = .ok (card.openMixer.1, rack.setCard card.openMixer.2) := by
  rw [openMixer, h]

namespace Config

open Runs

theorem desk?_eq_some_iff {s : State} {desk : Desk} :
    s.desk? = some desk ↔ s.mixer = some desk.mixer ∧ s.rack.card? desk.mixer.card = some desk.card := by
  simp only [State.desk?, Option.bind_eq_bind, Option.bind_eq_some_iff, Option.pure_def, Option.some.injEq]
  constructor
  · rintro ⟨mixer, hmixer, card, hcard, rfl⟩
    exact ⟨hmixer, hcard⟩
  · rintro ⟨hmixer, hcard⟩
    exact ⟨desk.mixer, hmixer, desk.card, hcard, rfl⟩

/-- The open mixer after it has been opened. -/
theorem desk?_openMixer {s : State} {number : Nat} {mixer : Mixer} {rack opened : Rack}
    (h : rack.openMixer number = .ok (mixer, opened)) (hrack : s.rack = opened) (hmixer : s.mixer = some mixer)
    {desk : Desk} (hdesk : s.desk? = some desk) : desk.Sound := by
  obtain ⟨card, hcard, -, rfl, -, hopened⟩ := Rack.openMixer_eq_ok h
  obtain ⟨hm, hc⟩ := desk?_eq_some_iff.mp hdesk
  rw [hmixer, Option.some.injEq] at hm
  rw [hrack, ← hm, hopened, Option.some.injEq] at hc
  intro id hid
  rw [← hm] at hid
  rw [← hc]
  exact Card.mem_presentIds.mp hid

/-- The assignment is bound soundly to the mixer that is open, or not at all. -/
def Binds (s : State) (a : Assignment) : Prop :=
  a.binding = .unresolved ∨ ∃ desk, s.desk? = some desk ∧ a.Settled desk

def BindsVolume (s : State) (v : VolumeControl) : Prop :=
  v.binding = .unresolved ∨ ∃ desk, s.desk? = some desk ∧ v.Settled desk

theorem Binds.settled {s : State} {a : Assignment} (h : Binds s a) {desk : Desk} (hdesk : s.desk? = some desk) :
    a.Settled desk := by
  rcases h with hb | ⟨d, hd, hb⟩
  · exact Assignment.settled_of_unresolved hb desk
  · rwa [Option.some.inj (hdesk.symm.trans hd)]

theorem BindsVolume.settled {s : State} {v : VolumeControl} (h : BindsVolume s v) {desk : Desk}
    (hdesk : s.desk? = some desk) : v.Settled desk := by
  rcases h with hb | ⟨d, hd, hb⟩
  · exact VolumeControl.settled_of_unresolved hb desk
  · rwa [Option.some.inj (hdesk.symm.trans hd)]

/-- The mixer that is open is sound, and so is everything that is bound. -/
structure Bound (s : State) : Prop where
  sound : ∀ desk, s.desk? = some desk → desk.Sound
  early : ∀ a ∈ s.preInit.toList, Binds s a
  initial : ∀ a ∈ s.init.toList, Binds s a
  model : s.model.Holds (Binds s) (BindsVolume s)

/-- The open mixer of one state has become that of the other. -/
def Leads (s t : State) : Prop :=
  ∀ desk, s.desk? = some desk → ∃ later, t.desk? = some later ∧ Desk.Grows desk later

variable {disk : Disk} {s t : State}

theorem leads_of_eq (hmixer : t.mixer = s.mixer) (hrack : t.rack = s.rack) : Leads s t := by
  intro desk hdesk
  refine ⟨desk, ?_, Desk.Grows.refl desk⟩
  rw [desk?_eq_some_iff] at hdesk ⊢
  rwa [hmixer, hrack]

theorem Leads.binds (h : Leads s t) {a : Assignment} (ha : Binds s a) : Binds t a := by
  rcases ha with ha | ⟨desk, hdesk, ha⟩
  · exact Or.inl ha
  · obtain ⟨later, hlater, hgrows⟩ := h desk hdesk
    exact Or.inr ⟨later, hlater, ha.of_grows hgrows⟩

theorem Leads.bindsVolume (h : Leads s t) {v : VolumeControl} (hv : BindsVolume s v) : BindsVolume t v := by
  rcases hv with hv | ⟨desk, hdesk, hv⟩
  · exact Or.inl hv
  · obtain ⟨later, hlater, hgrows⟩ := h desk hdesk
    exact Or.inr ⟨later, hlater, hv.of_grows hgrows⟩

/-- What is bound stays bound as long as the mixer is open. -/
theorem Bound.of_leads (h : Bound s) (hleads : Leads s t) (hsound : ∀ desk, t.desk? = some desk → desk.Sound)
    (hpre : t.preInit = s.preInit) (hinit : t.init = s.init) (hmodel : t.model = s.model) : Bound t :=
  ⟨hsound, fun a ha => hleads.binds (h.early a (by rwa [← hpre])),
    fun a ha => hleads.binds (h.initial a (by rwa [← hinit])),
    by rw [hmodel]; exact h.model.mono (fun _ => hleads.binds) fun _ => hleads.bindsVolume⟩

theorem Bound.of_eq (h : Bound s) (hmixer : t.mixer = s.mixer) (hrack : t.rack = s.rack)
    (hpre : t.preInit = s.preInit) (hinit : t.init = s.init) (hmodel : t.model = s.model) : Bound t := by
  refine h.of_leads (leads_of_eq hmixer hrack) (fun desk hdesk => h.sound desk ?_) hpre hinit hmodel
  rw [desk?_eq_some_iff] at hdesk ⊢
  rwa [← hmixer, ← hrack]

/-- With another mixer nothing is bound any more. -/
theorem bound_of_unresolved (hsound : ∀ desk, s.desk? = some desk → desk.Sound)
    (hpre : s.preInit.toList = []) (hinit : ∀ a ∈ s.init.toList, a.binding = .unresolved)
    (hmodel : s.model.Holds (fun a => a.binding = .unresolved) fun v => v.binding = .unresolved) : Bound s :=
  ⟨hsound, by rw [hpre]; exact fun _ h => absurd h List.not_mem_nil, fun a ha => Or.inl (hinit a ha),
    hmodel.mono (fun _ => Or.inl) fun _ => Or.inl⟩

theorem unresolved_unbind (s : State) : (∀ a ∈ s.unbind.init.toList, a.binding = .unresolved)
    ∧ s.unbind.model.Holds (fun a => a.binding = .unresolved) fun v => v.binding = .unresolved := by
  constructor
  · simp only [State.unbind, GranularArray.toList_map, List.forall_mem_map]
    exact fun _ _ => rfl
  · have hall : s.model.Holds (fun _ => True) fun _ => True :=
      ⟨fun _ _ _ _ _ _ => trivial, fun _ _ => ⟨fun _ _ _ _ _ _ => trivial, fun _ _ => trivial, fun _ _ => trivial⟩⟩
    exact hall.unbind (fun _ _ => rfl) fun _ _ => rfl

/-- Without an open mixer nothing is bound. -/
theorem unresolved_detached (h : Bound s) : (∀ a ∈ s.detached.init.toList, a.binding = .unresolved)
    ∧ s.detached.model.Holds (fun a => a.binding = .unresolved) fun v => v.binding = .unresolved := by
  rw [State.detached]
  split
  · exact unresolved_unbind s
  · rename_i hmixer
    have hdesk : ∀ desk, s.desk? ≠ some desk := by
      intro desk hdesk
      rw [(desk?_eq_some_iff.mp hdesk).1] at hmixer
      exact hmixer rfl
    have hassignment : ∀ a, Binds s a → a.binding = .unresolved := by
      rintro a (ha | ⟨desk, he, -⟩)
      · exact ha
      · exact absurd he (hdesk desk)
    have hvolume : ∀ v, BindsVolume s v → v.binding = .unresolved := by
      rintro v (hv | ⟨desk, he, -⟩)
      · exact hv
      · exact absurd he (hdesk desk)
    exact ⟨fun a ha => hassignment a (h.initial a ha), h.model.mono hassignment hvolume⟩

theorem bound_mixer (h : Bound s) (hpre : s.preInit.toList = []) {number : Nat} {mixer : Mixer} {rack : Rack}
    (hopen : s.rack.openMixer number = .ok (mixer, rack)) :
    Bound { s.detached with rack := rack, mixer := some mixer, card := number } := by
  obtain ⟨hinit, hmodel⟩ := unresolved_detached h
  refine bound_of_unresolved (fun desk hdesk => desk?_openMixer hopen rfl rfl hdesk) ?_ hinit hmodel
  simp only [State.detached]
  split <;> exact hpre

/-- The mixer that a desk has after a look at its card. -/
theorem bound_looked (h : Bound s) {desk : Desk} (hdesk : s.desk? = some desk) {mixer : Mixer}
    (hcard : mixer.card = desk.mixer.card) (hsound : Desk.Sound ⟨desk.card, mixer⟩)
    (hgrows : Desk.Grows desk ⟨desk.card, mixer⟩) :
    State.desk? { s with mixer := some mixer } = some ⟨desk.card, mixer⟩
      ∧ Bound { s with mixer := some mixer } := by
  have hlater : State.desk? { s with mixer := some mixer } = some ⟨desk.card, mixer⟩ := by
    rw [desk?_eq_some_iff] at hdesk ⊢
    exact ⟨rfl, by rw [hcard]; exact hdesk.2⟩
  refine ⟨hlater, h.of_leads (fun d hd => ?_) (fun d hd => ?_) rfl rfl rfl⟩
  · obtain rfl := Option.some.inj (hdesk.symm.trans hd)
    exact ⟨_, hlater, hgrows⟩
  · obtain rfl := Option.some.inj (hlater.symm.trans hd)
    exact hsound

theorem bound_bindEarly (h : Bound s) {a b : Assignment} (ha : a.binding = .unresolved)
    (hbind : Runs (bindEarly disk a) s b t) : Bound t ∧ Binds t b := by
  rcases bindEarly_cases hbind with ⟨-, rfl, rfl⟩ | ⟨desk, mixer, outcome, hdesk, hb, rfl⟩
  · exact ⟨h, Or.inl ha⟩
  · have hsettled := Assignment.settled_of_unresolved ha desk
    obtain ⟨hsound, hgrows, -, hbound, -⟩ := Desk.bind_spec (h.sound desk hdesk) disk hsettled hb
    obtain ⟨hlater, ht⟩ := bound_looked h hdesk hgrows.number hsound hgrows
    exact ⟨ht, Or.inr ⟨_, hlater, hbound⟩⟩

theorem bound_bindVolumeEarly (h : Bound s) {v bound : VolumeControl} (hv : v.binding = .unresolved)
    {desk : Desk} {id : Nat} (hbind : Runs (bindVolumeEarly v) s (desk, bound, id) t) :
    Bound t ∧ BindsVolume t bound := by
  obtain ⟨before, hdesk, hb, -, rfl⟩ := bindVolumeEarly_cases hbind
  have hsettled := VolumeControl.settled_of_unresolved hv before
  obtain ⟨hsound, hgrows, -, hbound, -⟩ := Desk.bindVolume_spec (h.sound before hdesk) hsettled hb
  obtain ⟨hlater, ht⟩ := bound_looked h hdesk hgrows.number hsound hgrows
  exact ⟨ht, Or.inr ⟨_, hlater, hbound⟩⟩

/-- An assignment that is listed is all that is added to what the model holds. -/
theorem holds_lists {P : Assignment → Prop} {V : VolumeControl → Prop} (h : s.model.Holds P V) {a : Assignment}
    (ha : P a) {parent : Option ElementKind} (hlists : Lists a s parent t) : t.model.Holds P V := by
  cases hlists with
  | @path i j device path list hd hp hpush =>
    refine h.modifyDevice fun d hd' => ?_
    obtain rfl := Option.some.inj (hd.symm.trans hd')
    have hdevice := h.devices device (GranularArray.mem_of_get? hd)
    have hpath := hdevice path (GranularArray.mem_of_get? hp)
    exact hdevice.modifyPath j (GranularArray.forall_push hpush hpath ha)
  | @useCaseCase id u c stream useCase caseOf list hs hu hc hpush =>
    refine h.modifyStream fun s' hs' => ?_
    obtain rfl := Option.some.inj (hs.symm.trans hs')
    have hstream := h.streams stream (Model.mem_of_stream? hs)
    have hcase := hstream.cases useCase (GranularArray.mem_of_get? hu) caseOf
      (GranularArray.mem_of_get? hc)
    exact hstream.modifyCase u c (GranularArray.forall_push hpush hcase ha)
  | init | preInit => exact h

theorem bound_lists (h : Bound s) {a : Assignment} (ha : Binds s a) {parent : Option ElementKind}
    (hlists : Lists a s parent t) : Bound t := by
  have hmodel := holds_lists h.model ha hlists
  cases hlists with
  | path | useCaseCase => exact ⟨h.sound, h.early, h.initial, hmodel⟩
  | init hpush => exact ⟨h.sound, h.early, GranularArray.forall_push hpush h.initial ha, h.model⟩
  | preInit hpush => exact ⟨h.sound, GranularArray.forall_push hpush h.early ha, h.initial, h.model⟩

/-- A declaration of a stream binds nothing, volume controls apart. -/
theorem Extends.holds {P : Assignment → Prop} {V : VolumeControl → Prop} {c c' : Cursor} {e : ElementKind}
    {s t : Stream} (h : Extends c s e t c') (hs : s.Holds P V) : t.Holds P V := by
  cases h with
  | paths | constant => exact ⟨hs.cases, hs.left, hs.right⟩
  | useCase name hpush =>
    exact ⟨GranularArray.forall_push hpush hs.cases fun _ hc => absurd hc List.not_mem_nil, hs.left, hs.right⟩
  | @useCaseCase place u cases name hu hpush =>
    refine ⟨GranularArray.forall_modify hs.cases fun u' hu' => ?_, hs.left, hs.right⟩
    have hcases := hs.cases u (GranularArray.mem_of_get? hu)
    exact GranularArray.forall_push hpush hcases fun _ ha => absurd ha List.not_mem_nil

def bindingKinds : List ElementKind := [.mixer, .control, .volume]

/-- What binds nothing adds nothing to what the model holds. -/
theorem holds_begins {P : Assignment → Prop} {V : VolumeControl → Prop} (h : s.model.Holds P V)
    {parent : Option ElementKind} {e : ElementKind} (he : e ∉ bindingKinds) (hbegin : Begins disk s parent e t) :
    t.model.Holds P V := by
  cases hbegin with
  | aside => exact h
  | mixer | control | volume => exact absurd (by decide) he
  | device _ _ hpush =>
    exact ⟨GranularArray.forall_push hpush h.devices fun _ hp => absurd hp List.not_mem_nil, h.streams⟩
  | @path place device id paths hd _ hpush =>
    refine ⟨GranularArray.forall_modify h.devices fun d _ => ?_, h.streams⟩
    have hdevice := h.devices device (GranularArray.mem_of_get? hd)
    exact GranularArray.forall_push hpush hdevice fun _ ha => absurd ha List.not_mem_nil
  | anonymous hblank hpush =>
    subst hblank
    have hstreams := h.streams
    rw [Model.streams, List.forall_mem_append] at hstreams
    refine ⟨h.devices, ?_⟩
    rw [Model.streams, List.forall_mem_append]
    exact ⟨GranularArray.forall_push hpush hstreams.1 (Stream.holds_blank _ _ _), hstreams.2⟩
  | named hblank hpush =>
    subst hblank
    have hstreams := h.streams
    rw [Model.streams, List.forall_mem_append] at hstreams
    refine ⟨h.devices, ?_⟩
    rw [Model.streams, List.forall_mem_append]
    exact ⟨hstreams.1, GranularArray.forall_push hpush hstreams.2 (Stream.holds_blank _ _ _)⟩
  | @setting id stream changed _ _ hs hextends =>
    refine h.modifyStream fun s' _ => ?_
    exact hextends.holds (h.streams stream (Model.mem_of_stream? hs))

theorem bound_begins (h : Bound s) {parent : Option ElementKind} {e : ElementKind}
    (hearly : e = .mixer → s.preInit.toList = []) (hbegin : Begins disk s parent e t) : Bound t := by
  by_cases he : e ∈ bindingKinds
  · cases hbegin with
    | aside => exact h.of_eq rfl rfl rfl rfl rfl
    | mixer hopen => exact bound_mixer h (hearly rfl) hopen
    | control ha hbind hlists =>
      obtain ⟨hu, hb⟩ := bound_bindEarly h ha hbind
      exact bound_lists hu hb hlists
    | volume hv hbind hs low high hsides =>
      obtain ⟨hu, hb⟩ := bound_bindVolumeEarly h hv hbind
      refine ⟨hu.sound, hu.early, hu.initial, hu.model.modifyStream fun s' _ => ?_⟩
      exact (hu.model.streams _ (Model.mem_of_stream? hs)).side (by exact hb) hsides
    | setting _ _ _ _ hsetting =>
      have hnone : ∀ k ∈ settings, k ∉ bindingKinds := by decide
      exact absurd he (hnone e hsetting)
    | device | path | anonymous | named => exact absurd he (by decide)
  · have hmodel := holds_begins h.model he hbegin
    cases hbegin with
    | mixer | control | volume => exact absurd (by decide) he
    | aside | device | path | anonymous | named | setting => exact ⟨h.sound, h.early, h.initial, hmodel⟩

theorem bound_ends (h : Bound s) {e : ElementKind} (hend : Ends disk s e t) : Bound t := by
  cases hend with
  | aside => exact h.of_eq rfl rfl rfl rfl rfl
  | preInit hdesk hopen =>
    obtain ⟨hinit, hmodel⟩ := unresolved_unbind s
    exact bound_of_unresolved (fun desk hdesk => desk?_openMixer hopen rfl rfl hdesk) rfl hinit hmodel

theorem bound_steps (h : Bound s) (hnested : Nested s) {next : Option Location} (hsteps : Steps disk s next t) :
    Bound t := by
  cases hsteps with
  | opens he hbegin =>
    have ht := bound_begins h (fun hmixer => ?_) hbegin
    · exact ht.of_eq rfl rfl rfl rfl rfl
    · rcases hnested.early_of_mem he with hnil | ⟨rfl, -⟩
      · exact hnil
      · cases hmixer
  | @closes frame outer _ _ _ _ _ hend =>
    have hs : Bound { s with frames := closeElement.widened frame.element outer } :=
      h.of_eq rfl rfl rfl rfl rfl
    exact bound_ends hs hend
  | leaves => exact h.of_eq rfl rfl rfl rfl rfl
  | rests => exact h

/-- All along a load, the mixer that is open is sound with all bindings. -/
theorem bound_of_reaches {rack : Rack} {file : Location} {events : List Event}
    (h : Reaches disk rack file s events) : Bound s := by
  refine h.induction ?_ ?_ fun _ t next _ _ ht => ht.of_eq rfl rfl rfl rfl rfl
  · exact bound_of_unresolved nofun rfl (fun _ h => absurd h List.not_mem_nil)
      ⟨fun _ h => absurd h List.not_mem_nil, fun _ h => absurd h List.not_mem_nil⟩
  · exact fun s events t next hreaches hs hsteps => bound_steps hs (nested_of_reaches hreaches) hsteps

/-- A configuration is loaded with a sound mixer, and with sound bindings to it. -/
theorem settled_of_load {rack after : Rack} {file : Location} {loaded : Loaded}
    (h : load disk rack file = (.ok loaded, after)) : ∃ card, after.card? loaded.mixer.card = some card
      ∧ Desk.Sound ⟨card, loaded.mixer⟩
      ∧ loaded.model.Holds (·.Settled ⟨card, loaded.mixer⟩) (·.Settled ⟨card, loaded.mixer⟩) := by
  obtain ⟨s, t, hreaches, hfinish, rfl⟩ := Reaches.of_load h
  obtain ⟨desk, hdesk, rfl, rfl⟩ := runs_finish hfinish
  have hbound := bound_of_reaches hreaches
  have hinit : ∀ a ∈ s.init.toList, a.Settled desk := fun a ha => (hbound.initial a ha).settled hdesk
  obtain ⟨hsound, hgrows, -, -⟩ := Desk.apply_spec disk (hbound.sound desk hdesk) hinit
  obtain ⟨-, hcard⟩ := desk?_eq_some_iff.mp hdesk
  refine ⟨(desk.apply disk s.init.toList).1.card, ?_, hsound, ?_⟩
  · have hnumber := hgrows.card.number.trans (Rack.number_of_card? hcard)
    rw [← hnumber] at hcard
    rw [hgrows.number, ← hnumber]
    exact Rack.card?_setCard_same hcard
  · exact (hbound.model.mono (fun _ ha => (ha.settled hdesk).of_grows hgrows)
      fun _ hv => (hv.settled hdesk).of_grows hgrows).compress

end Config

end SoundRouting
