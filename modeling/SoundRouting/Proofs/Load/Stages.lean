import SoundRouting.Proofs.Load.Accepted
import SoundRouting.Proofs.Load.Settled
/-!
The stages of loading a file.

In a file with one root element there is nothing but codec probes up to the mixer, then the mixer with its
writes, and then what it is for. So a file that hands over to another one leaves nothing behind, a mixer is
opened once and again after each list of early writes, and bindings are only ever forgotten while there are
no assignments in the model.
-/
namespace SoundRouting.Config

open Runs

variable {disk : Disk} {rack : Rack} {file p : Location} {s t u : State} {e : ElementKind} {mixers early : Nat}
  {earlier : List Location} {l : Level} {upper rest levels : List Level}

structure Fresh (rack : Rack) (s : State) : Prop where
  model : s.model = (State.start rack).model
  mixer : s.mixer = none
  init : s.init = .empty
  preInit : s.preInit = .empty
  rack : s.rack = rack
  card : s.card = 0
  cursor : s.cursor = .blank

def opensOf (rack : Rack) (number : Nat) : Option Nat :=
  (rack.card? number).map (·.opens)

/-- A mixer is open, and its card has been opened this many times since the start. -/
structure Opened (rack : Rack) (times : Nat) (s : State) : Prop where
  mixer : s.mixer.isSome = true
  opens : ∀ n, opensOf s.rack n = (opensOf rack n).map (· + if n = s.card then times else 0)

def frontKinds : List ElementKind := [.codecProbe, .codecCase]

def bodyKinds : List ElementKind :=
  [.device, .path, .control, .stream, .volume, .enable, .disable, .useCase, .useCaseCase, .constant]

def Inside (kinds : List ElementKind) (levels : List Level) : Prop :=
  ∀ l ∈ levels, ∃ k ∈ kinds, l.element = some k

/-- The level of the document in its root element, and behind it. -/
def Level.rooted : Level :=
  ⟨none, [.root]⟩

/-- How far a file with one root element has been gone through, and how many mixers and lists of early
writes it has had. -/
inductive Stage (rack : Rack) (s : State) : Nat → Nat → List Level → Prop
  | top (h : Fresh rack s) : Stage rack s 0 0 [.top]
  | front {upper : List Level} {begun : List ElementKind} (hupper : Inside frontKinds upper)
      (hbegun : .mixer ∉ begun) (h : Fresh rack s) :
      Stage rack s 0 0 (upper ++ [⟨some .root, begun⟩, .rooted])
  | mixer {early : Nat} {begun before : List ElementKind} (hbefore : .mixer ∈ before)
      (hmodel : s.model = (State.start rack).model) (h : Opened rack (early + 1) s) :
      Stage rack s 1 early [⟨some .mixer, begun⟩, ⟨some .root, before⟩, .rooted]
  | writes {early : Nat} {upper : List Level} {kind : ElementKind} {written begun before : List ElementKind}
      (hbefore : .mixer ∈ before) (hupper : Inside [.control] upper)
      (hmodel : s.model = (State.start rack).model)
      (h : kind = .preInit ∧ Opened rack early s ∨ kind = .init ∧ Opened rack (early + 1) s) :
      Stage rack s 1 early
        (upper ++ [⟨some kind, written⟩, ⟨some .mixer, begun⟩, ⟨some .root, before⟩, .rooted])
  | body {early : Nat} {upper : List Level} {begun : List ElementKind} (hupper : Inside bodyKinds upper)
      (hbegun : .mixer ∈ begun) (h : Opened rack (early + 1) s) :
      Stage rack s 1 early (upper ++ [⟨some .root, begun⟩, .rooted])
  | closed {mixers early : Nat} (h : Fresh rack s ∧ mixers = 0 ∧ early = 0 ∨ Opened rack (early + 1) s ∧ mixers = 1) :
      Stage rack s mixers early [.rooted]

/-! ### What elements do to it -/

theorem Fresh.of_eq (h : Fresh rack s) (hmodel : t.model = s.model) (hmixer : t.mixer = s.mixer)
    (hinit : t.init = s.init) (hpre : t.preInit = s.preInit) (hrack : t.rack = s.rack) (hcard : t.card = s.card)
    (hcursor : t.cursor = s.cursor) : Fresh rack t :=
  ⟨hmodel.trans h.model, hmixer.trans h.mixer, hinit.trans h.init, hpre.trans h.preInit, hrack.trans h.rack,
    hcard.trans h.card, hcursor.trans h.cursor⟩

theorem Fresh.enter (h : Fresh rack s) (p : Location) : Fresh rack (s.enter p) :=
  ⟨h.model, h.mixer, h.init, h.preInit, h.rack, h.card, rfl⟩

theorem Opened.of_eq {times : Nat} (h : Opened rack times s) (hmixer : s.mixer.isSome = true → t.mixer.isSome = true)
    (hrack : t.rack = s.rack) (hcard : t.card = s.card) : Opened rack times t :=
  ⟨hmixer h.mixer, by rw [hrack, hcard]; exact h.opens⟩

/-- An element before the mixer declares nothing but a probe. -/
theorem fresh_begins {parent : Option ElementKind} (h : Fresh rack s) (he : e ∈ ElementKind.root :: frontKinds)
    (hbegin : Begins disk s parent e t) : Fresh rack t := by
  cases hbegin with
  | aside => exact h.of_eq rfl rfl rfl rfl rfl rfl rfl
  | setting _ _ _ _ hsetting =>
    have hnone : ∀ k ∈ settings, k ∉ ElementKind.root :: frontKinds := by decide
    exact absurd he (hnone e hsetting)
  | mixer | device | path | control | anonymous | named | volume => exact absurd he (by decide)

/-- Putting a card back changes how often the card of its number has been opened, and no other. -/
theorem opensOf_setCard {card old : Card} {k : Nat} (hold : rack.card? card.number = some old)
    (hopens : card.opens = old.opens + k) (n : Nat) :
    opensOf (rack.setCard card) n = (opensOf rack n).map (· + if n = card.number then k else 0) := by
  rw [opensOf, opensOf]
  by_cases hn : n = card.number
  · subst hn
    rw [Rack.card?_setCard_same hold, hold, Option.map_some, Option.map_some, Option.map_some, if_pos rfl, hopens]
  · rw [Rack.card?_setCard_other rack (Ne.symm hn), if_neg hn]
    simp only [Nat.add_zero, Option.map_id']

theorem opensOf_openMixer {number : Nat} {mixer : Mixer} {opened : Rack}
    (h : rack.openMixer number = .ok (mixer, opened)) (n : Nat) :
    opensOf opened n = (opensOf rack n).map (· + if n = number then 1 else 0) := by
  obtain ⟨card, hcard, rfl, -, rfl, -⟩ := Rack.openMixer_eq_ok h
  have hold : rack.card? ({ card with opens := card.opens + 1 } : Card).number = some card := hcard
  exact opensOf_setCard hold rfl n

/-- The mixer is opened where none has been opened before. -/
theorem opened_mixer {parent : Option ElementKind} (h : Fresh rack s) (hbegin : Begins disk s parent .mixer t) :
    t.model = (State.start rack).model ∧ Opened rack 1 t := by
  cases hbegin with
  | aside hprobes => cases hprobes with
    | kept he => exact absurd he (by decide)
  | setting _ _ _ _ hsetting => exact absurd hsetting (by decide)
  | mixer hopen =>
    have hdetached : s.detached = s := by
      rw [State.detached, h.mixer]
      rfl
    rw [hdetached]
    rw [h.rack] at hopen
    exact ⟨h.model, rfl, opensOf_openMixer hopen⟩

/-- An element other than the mixer leaves the cards as they are. -/
theorem opened_begins {times : Nat} {parent : Option ElementKind} (h : Opened rack times s) (he : e ≠ .mixer)
    (hbegin : Begins disk s parent e t) : Opened rack times t := by
  cases hbegin with
  | mixer => exact absurd rfl he
  | control _ hbind hlists =>
    rcases bindEarly_cases hbind with ⟨-, -, rfl⟩ | ⟨_, _, _, -, -, rfl⟩
    · cases hlists <;> exact h.of_eq id rfl rfl
    · cases hlists <;> exact h.of_eq (fun _ => rfl) rfl rfl
  | volume _ hbind =>
    obtain ⟨_, -, -, -, rfl⟩ := bindVolumeEarly_cases hbind
    exact h.of_eq (fun _ => rfl) rfl rfl
  | aside | device | path | anonymous | named | setting => exact h.of_eq id rfl rfl

/-- Writes in a mixer leave the model as it is. -/
theorem model_begins {parent : Option ElementKind}
    (he : e = .preInit ∨ e = .init ∨ e = .control ∧ (parent = some .preInit ∨ parent = some .init))
    (hbegin : Begins disk s parent e t) : t.model = s.model := by
  cases hbegin with
  | aside => rfl
  | setting _ _ _ _ hsetting =>
    have hnone : ∀ k ∈ settings, k ≠ .preInit ∧ k ≠ .init ∧ k ≠ .control := by decide
    obtain ⟨hpre, hinit, hcontrol⟩ := hnone e hsetting
    rcases he with he | he | ⟨he, -⟩
    · exact absurd he hpre
    · exact absurd he hinit
    · exact absurd he hcontrol
  | @control _ _ u _ _ hbind hlists =>
    have hu : u.model = s.model := by
      rcases bindEarly_cases hbind with ⟨-, -, rfl⟩ | ⟨_, _, _, -, -, rfl⟩ <;> rfl
    cases hlists with
    | init | preInit => exact hu
    | path | useCaseCase =>
      exfalso
      rcases he with he | he | ⟨-, he | he⟩ <;> cases he
  | mixer | device | path | anonymous | named | volume =>
    exfalso
    rcases he with he | he | ⟨he, -⟩ <;> cases he

/-- Applying writes opens no card. -/
theorem opensOf_apply {desk : Desk} (hbound : Bound s) (hdesk : s.desk? = some desk) {list : List Assignment}
    (hlist : ∀ a ∈ list, Binds s a) (n : Nat) :
    opensOf (s.rack.setCard (desk.apply disk list).1.card) n = opensOf s.rack n := by
  obtain ⟨-, hcard⟩ := desk?_eq_some_iff.mp hdesk
  have hsettled : ∀ a ∈ list, a.Settled desk := fun a ha => (hlist a ha).settled hdesk
  have hopens : (desk.apply disk list).1.card.opens = desk.card.opens :=
    Desk.apply_induction (I := fun card => card.opens = desk.card.opens) disk (hbound.sound desk hdesk) hsettled
      (fun _ _ _ _ _ _ _ _ hcard hw => (Card.opens_write hw).trans hcard) rfl
  have hnumber := (Desk.apply_spec disk (hbound.sound desk hdesk) hsettled).2.1.card.number
  have hold : s.rack.card? (desk.apply disk list).1.card.number = some desk.card := by
    rw [hnumber, Rack.number_of_card? hcard, hcard]
  have hset := opensOf_setCard hold (k := 0) hopens n
  simpa using hset

/-- Ending the early writes leaves a model without assignments as it is. -/
theorem model_preInit (hmodel : s.model = (State.start rack).model) (hend : Ends disk s .preInit t) :
    t.model = (State.start rack).model := by
  cases hend with
  | aside _ hne => exact absurd rfl hne
  | preInit =>
    change s.model.unbind = _
    rw [hmodel]
    simp [State.start, Model.unbind, Model.blank, GranularArray.map, GranularArray.empty]

/-- Ending the early writes opens the card once more. -/
theorem opened_preInit {times : Nat} (h : Opened rack times s) (hbound : Bound s) (hend : Ends disk s .preInit t) :
    Opened rack (times + 1) t := by
  cases hend with
  | aside _ hne => exact absurd rfl hne
  | @preInit desk mixer opened hdesk hopen =>
    refine ⟨rfl, fun n => ?_⟩
    change opensOf opened n = (opensOf rack n).map (· + if n = s.card then times + 1 else 0)
    rw [opensOf_openMixer hopen n, opensOf_apply hbound hdesk hbound.early, h.opens n, Option.map_map]
    congr 1
    funext k
    simp only [Function.comp_apply]
    split <;> rfl

/-! ### Going through a file -/

theorem Fresh.of_frames (h : Fresh rack s) (frames : List Frame) : Fresh rack { s with frames := frames } :=
  h.of_eq rfl rfl rfl rfl rfl rfl rfl

theorem Opened.of_frames {times : Nat} (h : Opened rack times s) (frames : List Frame) :
    Opened rack times { s with frames := frames } :=
  h.of_eq id rfl rfl

theorem inside_nil (kinds : List ElementKind) : Inside kinds [] :=
  fun _ h => absurd h List.not_mem_nil

/-- What begins inside of the front, of early or initial writes, or of the body stays there. -/
theorem inside_opens {kinds : List ElementKind} (hkinds : kinds ∈ [frontKinds, [.control], bodyKinds])
    (h : Inside kinds (l :: upper)) (he : e ∈ l.followers) :
    e ∈ kinds ∧ Inside kinds (⟨some e, []⟩ :: { l with begun := l.begun ++ [e] } :: upper) := by
  have hclosed : ∀ kinds ∈ [frontKinds, [.control], bodyKinds], ∀ k ∈ kinds,
      k ≠ .root ∧ k ≠ .mixer ∧ ∀ c ∈ k.children, c ∈ kinds := by decide
  rw [Inside, List.forall_mem_cons] at h
  obtain ⟨⟨k, hk, hl⟩, hupper⟩ := h
  obtain ⟨hroot, hmixer, hchildren⟩ := hclosed kinds hkinds k hk
  have hmem : e ∈ kinds := by
    refine hchildren e ?_
    obtain ⟨element, begun⟩ := l
    obtain rfl : element = some k := hl
    cases k with
    | root => exact absurd rfl hroot
    | mixer => exact absurd rfl hmixer
    | _ => exact he
  refine ⟨hmem, ?_⟩
  rw [Inside, List.forall_mem_cons, List.forall_mem_cons]
  exact ⟨⟨e, hmem, rfl⟩, ⟨k, hk, hl⟩, hupper⟩

theorem inside_one {kinds : List ElementKind} (he : e ∈ kinds) : Inside kinds [⟨some e, []⟩] := by
  rw [Inside, List.forall_mem_singleton]
  exact ⟨e, he, rfl⟩

theorem mem_of_inside {kinds : List ElementKind} (h : Inside kinds (l :: upper)) (hl : l.element = some e) :
    e ∈ kinds := by
  obtain ⟨k, hk, he⟩ := h l List.mem_cons_self
  rw [hl, Option.some.injEq] at he
  exact he ▸ hk

/-- Inside of the front and of the body, no mixer begins and no early writes do. -/
theorem plain_of_mem {kinds : List ElementKind} (hkinds : kinds ∈ [frontKinds, bodyKinds]) (he : e ∈ kinds) :
    e ≠ .mixer ∧ e ≠ .preInit := by
  have hplain : ∀ kinds ∈ [frontKinds, bodyKinds], ∀ k ∈ kinds, k ≠ .mixer ∧ k ≠ .preInit := by decide
  exact hplain kinds hkinds e he

/-- Before the mixer there is nothing but codec probes, and then the mixer begins. -/
theorem front_opens {begun : List ElementKind} (hupper : Inside frontKinds upper) (hbegun : .mixer ∉ begun)
    (h : Fresh rack s) (hlevels : upper ++ [⟨some .root, begun⟩, .rooted] = l :: rest) (he : e ∈ l.followers)
    (hbegin : Begins disk s l.element e t) (frames : List Frame) :
    Stage rack { t with frames := frames } (if e = .mixer then 0 + 1 else 0) (if e = .preInit then 0 + 1 else 0)
      (⟨some e, []⟩ :: { l with begun := l.begun ++ [e] } :: rest) := by
  cases upper with
  | nil =>
    cases hlevels
    rw [Level.followers, if_neg hbegun] at he
    rcases List.mem_cons.mp he with rfl | he
    · obtain ⟨hmodel, hopened⟩ := opened_mixer h hbegin
      exact .mixer (by simp) hmodel (hopened.of_frames frames)
    · obtain rfl : e = .codecProbe := List.mem_singleton.mp he
      exact .front (inside_one (by decide)) (by simpa using hbegun)
        ((fresh_begins h (by decide) hbegin).of_frames frames)
  | cons l upper =>
    cases hlevels
    obtain ⟨hmem, hinside⟩ := inside_opens (by simp) hupper he
    obtain ⟨hmixer, hpre⟩ := plain_of_mem (by simp) hmem
    rw [if_neg hmixer, if_neg hpre]
    exact .front hinside hbegun ((fresh_begins h (List.mem_cons_of_mem _ hmem) hbegin).of_frames frames)

/-- Directly in the mixer, lists of writes begin. -/
theorem mixer_opens {begun before : List ElementKind} (hbefore : .mixer ∈ before)
    (hmodel : s.model = (State.start rack).model) (h : Opened rack (early + 1) s)
    (he : e ∈ (⟨some .mixer, begun⟩ : Level).followers) (hbegin : Begins disk s (some .mixer) e t)
    (frames : List Frame) :
    Stage rack { t with frames := frames } (if e = .mixer then 1 + 1 else 1) (if e = .preInit then early + 1 else early)
      [⟨some e, []⟩, ⟨some .mixer, begun ++ [e]⟩, ⟨some .root, before⟩, .rooted] := by
  rw [Level.followers] at he
  split at he
  · exact absurd he List.not_mem_nil
  · rcases List.mem_cons.mp he with rfl | he
    · have ht := model_begins (Or.inr (Or.inl rfl)) hbegin
      have hopened := opened_begins h (by decide) hbegin
      exact .writes hbefore (inside_nil _) (ht.trans hmodel) (Or.inr ⟨rfl, hopened.of_frames frames⟩)
    · obtain rfl : e = .preInit := List.mem_singleton.mp he
      have ht := model_begins (Or.inl rfl) hbegin
      have hopened := opened_begins h (by decide) hbegin
      exact .writes hbefore (inside_nil _) (ht.trans hmodel) (Or.inl ⟨rfl, hopened.of_frames frames⟩)

/-- In a list of writes there are controls, which nothing stands in. -/
theorem writes_opens {kind : ElementKind} {written begun before : List ElementKind} (hbefore : .mixer ∈ before)
    (hupper : Inside [.control] upper) (hmodel : s.model = (State.start rack).model)
    (h : kind = .preInit ∧ Opened rack early s ∨ kind = .init ∧ Opened rack (early + 1) s)
    (hlevels : upper ++ [⟨some kind, written⟩, ⟨some .mixer, begun⟩, ⟨some .root, before⟩, .rooted] = l :: rest)
    (he : e ∈ l.followers) (hbegin : Begins disk s l.element e t) (frames : List Frame) :
    Stage rack { t with frames := frames } (if e = .mixer then 1 + 1 else 1) (if e = .preInit then early + 1 else early)
      (⟨some e, []⟩ :: { l with begun := l.begun ++ [e] } :: rest) := by
  cases upper with
  | nil =>
    cases hlevels
    have hkind : e = .control ∧ (some kind = some .preInit ∨ some kind = some .init) := by
      rcases h with ⟨rfl, -⟩ | ⟨rfl, -⟩
      · exact ⟨List.mem_singleton.mp he, Or.inl rfl⟩
      · exact ⟨List.mem_singleton.mp he, Or.inr rfl⟩
    obtain ⟨rfl, hparent⟩ := hkind
    have ht := model_begins (Or.inr (Or.inr ⟨rfl, hparent⟩)) hbegin
    refine .writes hbefore (inside_one (by decide)) (ht.trans hmodel) (h.imp ?_ ?_)
    · exact fun h => ⟨h.1, (opened_begins h.2 (by decide) hbegin).of_frames frames⟩
    · exact fun h => ⟨h.1, (opened_begins h.2 (by decide) hbegin).of_frames frames⟩
  | cons l upper =>
    cases hlevels
    obtain ⟨k, hk, hl⟩ := hupper l List.mem_cons_self
    obtain rfl : k = .control := List.mem_singleton.mp hk
    obtain ⟨element, written'⟩ := l
    obtain rfl : element = some .control := hl
    exact absurd he List.not_mem_nil

/-- Behind the mixer no further one begins. -/
theorem body_opens {begun : List ElementKind} (hupper : Inside bodyKinds upper) (hbegun : .mixer ∈ begun)
    (h : Opened rack (early + 1) s) (hlevels : upper ++ [⟨some .root, begun⟩, .rooted] = l :: rest)
    (he : e ∈ l.followers) (hbegin : Begins disk s l.element e t) (frames : List Frame) :
    Stage rack { t with frames := frames } (if e = .mixer then 1 + 1 else 1) (if e = .preInit then early + 1 else early)
      (⟨some e, []⟩ :: { l with begun := l.begun ++ [e] } :: rest) := by
  have hmem : e ∈ bodyKinds := by
    cases upper with
    | nil =>
      cases hlevels
      have hbody : ∀ k ∈ Grammar.afterMixer, k ∈ bodyKinds := by decide
      rw [Level.followers, if_pos hbegun] at he
      exact hbody e he
    | cons l upper =>
      cases hlevels
      exact (inside_opens (by simp) hupper he).1
  obtain ⟨hmixer, hpre⟩ := plain_of_mem (by simp) hmem
  have ht := (opened_begins h hmixer hbegin).of_frames frames
  rw [if_neg hmixer, if_neg hpre]
  cases upper with
  | nil =>
    cases hlevels
    exact .body (inside_one hmem) (List.mem_append_left _ hbegun) ht
  | cons l upper =>
    cases hlevels
    exact .body (inside_opens (by simp) hupper he).2 hbegun ht

/-- An element that begins leads to the next stage. A second root element does not come. -/
theorem stage_opens (h : Stage rack s mixers early levels) (hlevels : levels = l :: rest) (he : e ∈ l.followers)
    (hroot : levels ≠ [.rooted]) (hbegin : Begins disk s l.element e t) (frames : List Frame) :
    Stage rack { t with frames := frames } (if e = .mixer then mixers + 1 else mixers)
      (if e = .preInit then early + 1 else early)
      (⟨some e, []⟩ :: { l with begun := l.begun ++ [e] } :: rest) := by
  cases h with
  | top h =>
    cases hlevels
    obtain rfl : e = .root := List.mem_singleton.mp he
    exact .front (inside_nil _) List.not_mem_nil ((fresh_begins h List.mem_cons_self hbegin).of_frames frames)
  | front hupper hbegun h => exact front_opens hupper hbegun h hlevels he hbegin frames
  | mixer hbefore hmodel h =>
    cases hlevels
    exact mixer_opens hbefore hmodel h he hbegin frames
  | writes hbefore hupper hmodel h => exact writes_opens hbefore hupper hmodel h hlevels he hbegin frames
  | body hupper hbegun h => exact body_opens hupper hbegun h hlevels he hbegin frames
  | closed => exact absurd rfl hroot

theorem fresh_ends (h : Fresh rack s) (he : e ≠ .preInit) (hend : Ends disk s e t) : Fresh rack t := by
  cases hend with
  | aside =>
    refine h.of_eq rfl rfl rfl rfl rfl rfl ?_
    rw [h.cursor]
    exact Cursor.close_blank _
  | preInit => exact absurd rfl he

theorem opened_ends {times : Nat} (h : Opened rack times s) (he : e ≠ .preInit) (hend : Ends disk s e t) :
    t.model = s.model ∧ Opened rack times t := by
  cases hend with
  | aside => exact ⟨rfl, h.of_eq id rfl rfl⟩
  | preInit => exact absurd rfl he

variable {next : Option Location}

theorem ends_of_closes {element : Option ElementKind} (h : Closes disk s element next t)
    (he : element = some e) : ∃ frames, Ends disk { s with frames := frames } e t
      ∧ ((∃ file, next = some file) → e = .codecProbe) := by
  cases h with
  | leaves => cases he
  | ends hend hnext =>
    cases he
    refine ⟨_, hend, ?_⟩
    rintro ⟨file, hfile⟩
    exact hnext file hfile

/-- What ends inside of the front, of writes, or of the body is of its kinds. -/
theorem inside_closes {kinds : List ElementKind} (h : Inside kinds (l :: upper))
    (hcloses : Closes disk s l.element next t) : Inside kinds upper ∧ ∃ k ∈ kinds, ∃ frames,
      Ends disk { s with frames := frames } k t ∧ ((∃ file, next = some file) → k = .codecProbe) := by
  rw [Inside, List.forall_mem_cons] at h
  obtain ⟨⟨k, hk, hl⟩, hupper⟩ := h
  obtain ⟨frames, hend, hnext⟩ := ends_of_closes hcloses hl
  exact ⟨hupper, k, hk, frames, hend, hnext⟩

/-- In the front, and with it, nothing is loaded. -/
theorem front_closes {begun : List ElementKind} (hupper : Inside frontKinds upper) (hbegun : .mixer ∉ begun)
    (h : Fresh rack s) (hlevels : upper ++ [⟨some .root, begun⟩, .rooted] = l :: rest)
    (hcloses : Closes disk s l.element next t) : Stage rack t 0 0 rest ∧ Fresh rack t := by
  cases upper with
  | nil =>
    cases hlevels
    obtain ⟨frames, hend, -⟩ := ends_of_closes hcloses rfl
    have ht := fresh_ends (h.of_frames frames) (by decide) hend
    exact ⟨.closed (Or.inl ⟨ht, rfl, rfl⟩), ht⟩
  | cons l upper =>
    cases hlevels
    obtain ⟨hupper, k, hk, frames, hend, -⟩ := inside_closes hupper hcloses
    have ht := fresh_ends (h.of_frames frames) (plain_of_mem (by simp) hk).2 hend
    exact ⟨.front hupper hbegun ht, ht⟩

/-- Early writes end in a card that has been opened once more, initial ones without a change. -/
theorem writes_closes {kind : ElementKind} {written begun before : List ElementKind} (hbefore : .mixer ∈ before)
    (hupper : Inside [.control] upper) (hmodel : s.model = (State.start rack).model)
    (h : kind = .preInit ∧ Opened rack early s ∨ kind = .init ∧ Opened rack (early + 1) s)
    (hlevels : upper ++ [⟨some kind, written⟩, ⟨some .mixer, begun⟩, ⟨some .root, before⟩, .rooted] = l :: rest)
    (hbound : Bound s) (hcloses : Closes disk s l.element next t) :
    Stage rack t 1 early rest ∧ ¬ ∃ file, next = some file := by
  cases upper with
  | nil =>
    cases hlevels
    obtain ⟨frames, hend, hnext⟩ := ends_of_closes hcloses rfl
    rcases h with ⟨rfl, h⟩ | ⟨rfl, h⟩
    · have hbound' : Bound { s with frames := frames } := hbound.of_eq rfl rfl rfl rfl rfl
      have hframes : State.model { s with frames := frames } = (State.start rack).model := hmodel
      have hopened := opened_preInit (h.of_frames frames) hbound' hend
      exact ⟨.mixer hbefore (model_preInit hframes hend) hopened, fun hfile => absurd (hnext hfile) (by decide)⟩
    · obtain ⟨ht, hopened⟩ := opened_ends (h.of_frames frames) (by decide) hend
      exact ⟨.mixer hbefore (ht.trans hmodel) hopened, fun hfile => absurd (hnext hfile) (by decide)⟩
  | cons l upper =>
    cases hlevels
    obtain ⟨hupper, k, hk, frames, hend, hnext⟩ := inside_closes hupper hcloses
    obtain rfl : k = .control := List.mem_singleton.mp hk
    refine ⟨?_, fun hfile => absurd (hnext hfile) (by decide)⟩
    rcases h with ⟨rfl, h⟩ | ⟨rfl, h⟩
    · obtain ⟨ht, hopened⟩ := opened_ends (h.of_frames frames) (by decide) hend
      exact .writes hbefore hupper (ht.trans hmodel) (Or.inl ⟨rfl, hopened⟩)
    · obtain ⟨ht, hopened⟩ := opened_ends (h.of_frames frames) (by decide) hend
      exact .writes hbefore hupper (ht.trans hmodel) (Or.inr ⟨rfl, hopened⟩)

theorem body_closes {begun : List ElementKind} (hupper : Inside bodyKinds upper) (hbegun : .mixer ∈ begun)
    (h : Opened rack (early + 1) s) (hlevels : upper ++ [⟨some .root, begun⟩, .rooted] = l :: rest)
    (hcloses : Closes disk s l.element next t) : Stage rack t 1 early rest ∧ ¬ ∃ file, next = some file := by
  cases upper with
  | nil =>
    cases hlevels
    obtain ⟨frames, hend, hnext⟩ := ends_of_closes hcloses rfl
    obtain ⟨-, ht⟩ := opened_ends (h.of_frames frames) (by decide) hend
    exact ⟨.closed (Or.inr ⟨ht, rfl⟩), fun hfile => absurd (hnext hfile) (by decide)⟩
  | cons l upper =>
    cases hlevels
    obtain ⟨hupper, k, hk, frames, hend, hnext⟩ := inside_closes hupper hcloses
    obtain ⟨-, ht⟩ := opened_ends (h.of_frames frames) (plain_of_mem (by simp) hk).2 hend
    refine ⟨.body hupper hbegun ht, fun hfile => ?_⟩
    rw [hnext hfile] at hk
    exact absurd hk (by decide)

/-- An element that ends leads to the next stage, and to another file only where nothing has been loaded. -/
theorem stage_closes (h : Stage rack s mixers early levels) (hlevels : levels = l :: rest) (hrest : rest ≠ [])
    (hbound : Bound s) (hcloses : Closes disk s l.element next t) :
    Stage rack t mixers early rest ∧ ((∃ file, next = some file) → Fresh rack t) := by
  cases h with
  | top | closed =>
    cases hlevels
    exact absurd rfl hrest
  | front hupper hbegun h =>
    obtain ⟨hstage, ht⟩ := front_closes hupper hbegun h hlevels hcloses
    exact ⟨hstage, fun _ => ht⟩
  | mixer hbefore hmodel h =>
    cases hlevels
    obtain ⟨frames, hend, hnext⟩ := ends_of_closes hcloses rfl
    obtain ⟨-, ht⟩ := opened_ends (h.of_frames frames) (by decide) hend
    exact ⟨.body (inside_nil _) hbefore ht, fun hfile => absurd (hnext hfile) (by decide)⟩
  | writes hbefore hupper hmodel h =>
    obtain ⟨hstage, hnone⟩ := writes_closes hbefore hupper hmodel h hlevels hbound hcloses
    exact ⟨hstage, fun hfile => absurd hfile hnone⟩
  | body hupper hbegun h =>
    obtain ⟨hstage, hnone⟩ := body_closes hupper hbegun h hlevels hcloses
    exact ⟨hstage, fun hfile => absurd hfile hnone⟩

/-- Where no mixer has begun in the root element, nothing has been loaded. -/
theorem Stage.fresh (h : Stage rack s mixers early levels) {rest : List Level} (hlevels : levels = l :: rest)
    (hroot : l.element = some .root) (hbegun : .mixer ∉ l.begun) : Fresh rack s := by
  cases h with
  | top h | front _ _ h => exact h
  | closed | mixer =>
    cases hlevels
    cases hroot
  | @writes _ upper kind _ _ _ _ hupper _ hkind =>
    cases upper with
    | nil =>
      cases hlevels
      rcases hkind with ⟨rfl, -⟩ | ⟨rfl, -⟩ <;> cases hroot
    | cons l upper =>
      cases hlevels
      exact absurd (mem_of_inside hupper hroot) (by decide)
  | @body _ upper begun hupper hmixer =>
    cases upper with
    | nil =>
      cases hlevels
      exact absurd hmixer hbegun
    | cons l upper =>
      cases hlevels
      exact absurd (mem_of_inside hupper hroot) (by decide)

/-- While early writes are being declared, there is nothing in the model. -/
theorem Stage.model_of_preInit (h : Stage rack s mixers early levels) {rest : List Level}
    (hlevels : levels = l :: rest) (hl : l.element = some .preInit) : s.model = (State.start rack).model := by
  cases h with
  | mixer _ hmodel | writes _ _ hmodel => exact hmodel
  | top | closed =>
    cases hlevels
    cases hl
  | @front upper _ hupper | @body _ upper _ hupper =>
    cases upper with
    | nil =>
      cases hlevels
      cases hl
    | cons l upper =>
      cases hlevels
      exact absurd (mem_of_inside hupper hl) (by decide)

theorem opensTag_mixer {k : ElementKind} : (k.tag == "mixer") = decide (k = .mixer) := by
  cases k <;> decide

theorem opensTag_preInit {k : ElementKind} : (k.tag == "pre_init") = decide (k = .preInit) := by
  cases k <;> decide

variable {x : Xml.Element} {done more : List Event} {event : Event}

/-- Where an element ends, there is a level within the one of the document. -/
theorem levels_of_closes {line : Nat} (hevents : eventsOf x = done ++ .closes line :: more)
    (hlevels : levelsAfter done [.top] = some levels) : ∃ l rest, levels = l :: rest ∧ rest ≠ [] := by
  rcases levelsAfter_rooted hevents hlevels with ⟨rfl, -⟩ | ⟨upper, begun, rfl⟩
  · obtain ⟨tag, line', attributes, children⟩ := x
    cases hevents
  · cases upper with
    | nil => exact ⟨_, _, rfl, List.cons_ne_nil _ _⟩
    | cons l upper => exact ⟨l, _, rfl, List.append_ne_nil_of_right_ne_nil _ (List.cons_ne_nil _ _)⟩

/-- Every event of a file with one root element leads from one stage to the next. -/
theorem stage_take (hevents : eventsOf x = done ++ event :: more) (hlevels : levelsAfter done [.top] = some levels)
    (hfollows : Follows s levels) (h : Stage rack s mixers early levels) (hbound : Bound s) {next : Option Location}
    (htake : Runs (event.take disk) s next t) :
    (∃ after, event.advance levels = some after ∧ Follows t after
      ∧ Stage rack t (mixers + if event.opensTag "mixer" then 1 else 0)
        (early + if event.opensTag "pre_init" then 1 else 0) after)
    ∧ ((∃ file, next = some file) → Fresh rack t) := by
  have hrooted := levelsAfter_rooted hevents hlevels
  obtain ⟨after, hadvance, hafter⟩ := follows_take hfollows htake
  cases event with
  | opens line tag attributes =>
    obtain ⟨rfl, l, rest, e, u, rfl, he, rfl, hbegin, rfl⟩ := begins_of_opens hfollows htake
    have hroot : l :: rest ≠ [.rooted] := by
      rintro heq
      rw [heq] at hrooted
      rcases hrooted with ⟨-, htop⟩ | ⟨upper, begun, htop⟩
      · cases htop
      · have hlength := congrArg List.length htop
        simp only [List.length_append, List.length_cons, List.length_nil] at hlength
        omega
    rw [Event.advance, elementOfTag?_followers.mpr ⟨he, rfl⟩, Option.map_some, Option.some.injEq] at hadvance
    subst hadvance
    have hstage := stage_opens h rfl he hroot hbegin (⟨some e, e.children⟩ :: openElement.narrowed e u.frames)
    refine ⟨⟨_, ?_, hafter, ?_⟩, nofun⟩
    · rw [Event.advance, elementOfTag?_followers.mpr ⟨he, rfl⟩, Option.map_some]
    · simp only [Event.opensTag, opensTag_mixer, opensTag_preInit, decide_eq_true_eq]
      rw [apply_ite (mixers + ·), apply_ite (early + ·)]
      exact hstage
  | closes line =>
    obtain ⟨l, rest, rfl, hrest⟩ := levels_of_closes hevents hlevels
    cases hadvance
    obtain ⟨hstage, hfresh⟩ := stage_closes h rfl hrest hbound (closes_of_closes hfollows htake)
    exact ⟨⟨rest, rfl, hafter, hstage⟩, hfresh⟩

/-- All files that the load reads have one root element. -/
def SingleRoots (disk : Disk) (rack : Rack) (file : Location) : Prop :=
  ∀ earlier p s elements, TakesUp disk rack file earlier p s → readTree disk p = .ok elements →
    ∃ root, elements = [root]

/-- A file with one root element that is taken up afresh is gone through stage by stage. -/
theorem TakesUp.stage (htakes : TakesUp disk rack file earlier p s) (hfresh : Fresh rack s)
    (hread : readTree disk p = .ok [x]) : ∀ done rest t, eventsOf x = done ++ rest →
    Runs (takeAll disk done) (s.enter p) none t → ∃ levels, levelsAfter done [.top] = some levels
      ∧ Follows t levels
      ∧ Stage rack t (done.countP (·.opensTag "mixer")) (done.countP (·.opensTag "pre_init")) levels := by
  have hreaches := htakes.reaches hread
  rw [eventsOfAll, eventsOfAll, List.append_nil] at hreaches
  refine takeAll_induction ⟨[.top], rfl, follows_top rfl, .top (hfresh.enter p)⟩ ?_
  rintro done event more u v hevents hdone ⟨levels, hlevels, hfollows, hstage⟩ htake
  have hbound : Bound u := by
    rw [hevents] at hreaches
    exact bound_of_reaches (hreaches.of_done hdone)
  obtain ⟨⟨after, hadvance, hafter, hnext⟩, -⟩ := stage_take hevents hlevels hfollows hstage hbound htake
  refine ⟨after, ?_, hafter, ?_⟩
  · rw [levelsAfter_append, hlevels, Option.bind_some, levelsAfter_one, hadvance]
  · rw [List.countP_append, List.countP_append, List.countP_singleton, List.countP_singleton]
    exact hnext

/-- Every file of a load is taken up afresh. -/
theorem TakesUp.fresh (htakes : TakesUp disk rack file earlier p s) (hroots : SingleRoots disk rack file) :
    Fresh rack s := by
  induction htakes with
  | first => exact ⟨rfl, rfl, rfl, rfl, rfl, rfl, rfl⟩
  | @next earlier p next s t htakes hrun ih =>
    obtain ⟨elements, hread, hwalk⟩ := runs_loadFile.mp hrun
    obtain ⟨x, rfl⟩ := hroots _ _ _ _ htakes hread
    have hreaches := htakes.reaches hread
    rw [eventsOfAll, eventsOfAll, List.append_nil] at hwalk hreaches
    obtain ⟨done, event, more, u, hevents, hdone, htake⟩ := runs_takeAll_some hwalk
    obtain ⟨levels, hlevels, hfollows, hstage⟩ := htakes.stage ih hread done _ u hevents hdone
    rw [hevents] at hreaches
    have hbound := bound_of_reaches (hreaches.of_done hdone)
    exact (stage_take hevents hlevels hfollows hstage hbound htake).2 ⟨next, rfl⟩

/-- Behind the root element nothing has been loaded, or there was one mixer, and its card was opened once more
than there were lists of early writes. -/
theorem Stage.of_rooted (h : Stage rack s mixers early levels) (hlevels : levels = [.rooted]) :
    Fresh rack s ∧ mixers = 0 ∧ early = 0 ∨ Opened rack (early + 1) s ∧ mixers = 1 := by
  cases h with
  | closed h => exact h
  | top => cases hlevels
  | mixer | front | writes | body =>
    have hlength := congrArg List.length hlevels
    simp at hlength

/-- A file with one root element that does not hand over leads behind its root element. -/
theorem TakesUp.ends (htakes : TakesUp disk rack file earlier p s) (hroots : SingleRoots disk rack file)
    (hrun : Runs (loadFile disk p) s none t) : ∃ x, readTree disk p = .ok [x] ∧ Conforms .root x
      ∧ Runs (takeAll disk (eventsOf x)) (s.enter p) none t
      ∧ Stage rack t ((eventsOf x).countP (·.opensTag "mixer")) ((eventsOf x).countP (·.opensTag "pre_init"))
        [.rooted] := by
  obtain ⟨elements, hread, hwalk⟩ := runs_loadFile.mp hrun
  obtain ⟨x, rfl⟩ := hroots _ _ _ _ htakes hread
  rw [eventsOfAll, eventsOfAll, List.append_nil] at hwalk
  obtain ⟨levels, hlevels, -, hstage⟩ := htakes.stage (htakes.fresh hroots) hread _ [] t (List.append_nil _).symm hwalk
  obtain ⟨e, he, hconforms, rfl⟩ := (levelsAfter_eventsOf x .top).mp hlevels
  obtain rfl : e = .root := List.mem_singleton.mp he
  exact ⟨x, hread, hconforms, hwalk, hstage⟩

/-- To finish, a mixer has to be open. -/
theorem mixer_of_finish {loaded : Loaded} (h : Runs (finish disk) s loaded t) : s.mixer.isSome = true := by
  obtain ⟨desk, hdesk, -, -⟩ := runs_finish h
  rw [(desk?_eq_some_iff.mp hdesk).1]
  rfl

end SoundRouting.Config
