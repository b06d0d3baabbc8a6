import SoundRouting.Proofs.Load.Accepted
import SoundRouting.Proofs.Load.Writes
/-!
What the cursor points at.

While a configuration is loaded, no place of the model is given up. An element that others can stand in points
the cursor at what it has declared, elements inside of it leave the cursor there, and when it ends the cursor
points nowhere. So the cursor points at what is open and at nothing else, and every element finds what it belongs
to: no load fails for one that is astray.
-/
namespace SoundRouting

namespace GranularArray

variable {α : Type} {R : α → α → Prop} {a b : GranularArray α} {x y : α} {i : Nat} {f : α → α}

/-- Every place of the array is one of the other, and what stands there has become what stands there then. -/
def Within (R : α → α → Prop) (a b : GranularArray α) : Prop :=
  ∀ i x, a.get? i = some x → ∃ y, b.get? i = some y ∧ R x y

theorem get?_of_push (h : a.push x = .ok b) (hy : a.get? i = some y) : b.get? i = some y := by
  rw [← getElem?_toList] at hy ⊢
  obtain ⟨hlt, -⟩ := List.getElem?_eq_some_iff.mp hy
  rwa [toList_push h, List.getElem?_append_left hlt]

/-- An element that is added has a place of its own, behind the others. -/
theorem get?_last_of_push (h : a.push x = .ok b) : a.get? (b.size - 1) = none ∧ b.get? (b.size - 1) = some x := by
  have hlast : b.size - 1 = a.toList.length := by
    rw [← length_toList, toList_push h, List.length_append, List.length_singleton, Nat.add_sub_cancel]
  rw [← getElem?_toList, ← getElem?_toList, toList_push h, hlast]
  exact ⟨List.getElem?_eq_none (Nat.le_refl _), List.getElem?_concat_length⟩

theorem within_refl (hR : ∀ x, R x x) (a : GranularArray α) : a.Within R a :=
  fun _ x hx => ⟨x, hx, hR x⟩

theorem within_push (hR : ∀ x, R x x) (h : a.push x = .ok b) : a.Within R b :=
  fun _ y hy => ⟨y, get?_of_push h hy, hR y⟩

theorem within_modify (hR : ∀ x, R x x) (hf : ∀ x, a.get? i = some x → R x (f x)) : a.Within R (a.modify i f) := by
  intro j y hy
  by_cases hij : i = j
  · subst hij
    exact ⟨f y, by rw [get?_modify_same, hy, Option.map_some], hf y hy⟩
  · exact ⟨y, by rw [get?_modify_other a f hij, hy], hR y⟩

theorem within_map (hf : ∀ x, R x (f x)) (a : GranularArray α) : a.Within R (a.map f) := by
  intro i x hx
  refine ⟨f x, ?_, hf x⟩
  rw [← getElem?_toList, toList_map, List.getElem?_map, getElem?_toList, hx, Option.map_some]

end GranularArray

def Device.Within (d d' : Device) : Prop :=
  d.paths.Within (fun _ _ => True) d'.paths

def UseCase.Within (u u' : UseCase) : Prop :=
  u.cases.Within (fun _ _ => True) u'.cases

def Stream.Within (s s' : Stream) : Prop :=
  s.useCases.Within UseCase.Within s'.useCases

theorem Device.within_refl (d : Device) : d.Within d :=
  GranularArray.within_refl (fun _ => trivial) _

theorem UseCase.within_refl (u : UseCase) : u.Within u :=
  GranularArray.within_refl (fun _ => trivial) _

theorem Stream.within_refl (s : Stream) : s.Within s :=
  GranularArray.within_refl UseCase.within_refl _

namespace Model

structure Within (m m' : Model) : Prop where
  devices : m.devices.Within Device.Within m'.devices
  anonymous : m.anonymous.Within Stream.Within m'.anonymous
  named : m.named.Within Stream.Within m'.named

variable {m m' : Model}

theorem Within.stream (h : m.Within m') {id : StreamId} {s : Stream} (hs : m.stream? id = some s) :
    ∃ s', m'.stream? id = some s' ∧ s.Within s' := by
  obtain ⟨pool, i⟩ := id
  cases pool with
  | anonymous => exact h.anonymous i s hs
  | named => exact h.named i s hs

theorem within_refl (m : Model) : m.Within m :=
  ⟨GranularArray.within_refl Device.within_refl _, GranularArray.within_refl Stream.within_refl _,
    GranularArray.within_refl Stream.within_refl _⟩

theorem within_modifyDevice {i : Nat} {f : Device → Device} (hf : ∀ d, m.devices.get? i = some d → d.Within (f d)) :
    m.Within (m.modifyDevice i f) :=
  { within_refl m with devices := GranularArray.within_modify Device.within_refl hf }

theorem within_modifyStream {id : StreamId} {f : Stream → Stream} (hf : ∀ s, m.stream? id = some s → s.Within (f s)) :
    m.Within (m.modifyStream id f) := by
  obtain ⟨pool, i⟩ := id
  cases pool with
  | anonymous => exact { within_refl m with anonymous := GranularArray.within_modify Stream.within_refl hf }
  | named => exact { within_refl m with named := GranularArray.within_modify Stream.within_refl hf }

theorem within_unbind (m : Model) : m.Within m.unbind := by
  have hdevice : ∀ d : Device, d.Within d.unbind := fun d => GranularArray.within_map (fun _ => trivial) _
  have huseCase : ∀ u : UseCase, u.Within u.unbind := fun u => GranularArray.within_map (fun _ => trivial) _
  have hstream : ∀ s : Stream, s.Within s.unbind := fun s => GranularArray.within_map huseCase _
  exact ⟨GranularArray.within_map hdevice _, GranularArray.within_map hstream _, GranularArray.within_map hstream _⟩

end Model

namespace Config

open Runs

variable {disk : Disk} {s t : State} {a : Assignment} {parent : Option ElementKind} {e k : ElementKind}

/-! ### No place is given up -/

theorem within_lists (h : Lists a s parent t) : s.model.Within t.model := by
  cases h with
  | path =>
    exact Model.within_modifyDevice fun _ _ =>
      GranularArray.within_modify (fun _ => trivial) fun _ _ => trivial
  | useCaseCase =>
    refine Model.within_modifyStream fun _ _ => GranularArray.within_modify UseCase.within_refl fun _ _ => ?_
    exact GranularArray.within_modify (fun _ => trivial) fun _ _ => trivial
  | init | preInit => exact Model.within_refl _

theorem within_extends {c c' : Cursor} {stream changed : Stream} (h : Extends c stream e changed c') :
    stream.Within changed := by
  cases h with
  | paths | constant => exact Stream.within_refl stream
  | useCase _ hpush => exact GranularArray.within_push UseCase.within_refl hpush
  | useCaseCase _ hu hpush =>
    refine GranularArray.within_modify UseCase.within_refl fun u hu' => ?_
    obtain rfl := Option.some.inj (hu.symm.trans hu')
    exact GranularArray.within_push (fun _ => trivial) hpush

theorem within_begins (h : Begins disk s parent e t) : s.model.Within t.model := by
  cases h with
  | aside => exact Model.within_refl _
  | mixer =>
    simp only [State.detached]
    split
    · exact Model.within_unbind _
    · exact Model.within_refl _
  | device _ _ hpush =>
    exact { Model.within_refl s.model with devices := GranularArray.within_push Device.within_refl hpush }
  | path hd _ hpush =>
    refine { Model.within_refl s.model with devices := GranularArray.within_modify Device.within_refl fun d hd' => ?_ }
    obtain rfl := Option.some.inj (hd.symm.trans hd')
    exact GranularArray.within_push (fun _ => trivial) hpush
  | control _ hbind hlists =>
    have hwithin := within_lists hlists
    rcases bindEarly_cases hbind with ⟨-, -, rfl⟩ | ⟨_, _, _, -, -, rfl⟩ <;> exact hwithin
  | anonymous _ hpush =>
    exact { Model.within_refl s.model with anonymous := GranularArray.within_push Stream.within_refl hpush }
  | named _ hpush =>
    exact { Model.within_refl s.model with named := GranularArray.within_push Stream.within_refl hpush }
  | setting _ hs hextends =>
    refine Model.within_modifyStream fun s' hs' => ?_
    obtain rfl := Option.some.inj (hs.symm.trans hs')
    exact within_extends hextends
  | volume _ hbind hs =>
    obtain ⟨_, -, -, -, rfl⟩ := bindVolumeEarly_cases hbind
    refine Model.within_modifyStream fun s' hs' => ?_
    obtain rfl := Option.some.inj (hs.symm.trans hs')
    exact Stream.within_refl _

theorem within_ends (h : Ends disk s e t) : s.model.Within t.model := by
  cases h with
  | aside => exact Model.within_refl _
  | preInit => exact Model.within_unbind _

/-! ### What the cursor points at -/

/-- Whether the cursor points at something for an element of this kind. -/
def Cursor.points (c : Cursor) : ElementKind → Bool
  | .device => c.device.isSome
  | .path => c.path.isSome
  | .stream => c.stream.isSome
  | .useCase => c.useCase.isSome
  | .useCaseCase => c.useCaseCase.isSome
  | _ => false

/-- An element that has ended is not pointed at any more; the others are as before. -/
theorem Cursor.points_close (c : Cursor) (e k : ElementKind) : (c.close e).points k = (k != e && c.points k) := by
  cases e <;> cases k <;> rfl

structure Cursor.SameBelow (depth : Nat) (c c' : Cursor) : Prop where
  device : 2 < depth → c'.device = c.device
  path : 3 < depth → c'.path = c.path
  stream : 2 < depth → c'.stream = c.stream
  useCase : 3 < depth → c'.useCase = c.useCase
  useCaseCase : 4 < depth → c'.useCaseCase = c.useCaseCase

theorem Cursor.sameBelow_close (c : Cursor) (e : ElementKind) : c.SameBelow (depthOf (some e)) (c.close e) := by
  cases e <;> constructor <;> first | exact fun _ => rfl | exact fun h => absurd h (by decide)

theorem Cursor.sameBelow_of_close {c c' : Cursor} (h : c'.close e = c.close e) :
    c.SameBelow (depthOf (some e)) c' := by
  have hsame := c.sameBelow_close e
  have hsame' := c'.sameBelow_close e
  rw [h] at hsame'
  exact ⟨fun hd => (hsame'.device hd).symm.trans (hsame.device hd),
    fun hd => (hsame'.path hd).symm.trans (hsame.path hd),
    fun hd => (hsame'.stream hd).symm.trans (hsame.stream hd),
    fun hd => (hsame'.useCase hd).symm.trans (hsame.useCase hd),
    fun hd => (hsame'.useCaseCase hd).symm.trans (hsame.useCaseCase hd)⟩

theorem Cursor.close_of_not_points {c : Cursor} (h : c.points e = false) : c.close e = c := by
  obtain ⟨device, path, stream, useCase, useCaseCase⟩ := c
  cases e with
  | device | path | stream | useCase | useCaseCase =>
    simp only [points, Option.isSome_eq_false_iff, Option.isNone_iff_eq_none] at h
    subst h
    rfl
  | _ => rfl

theorem cursor_lists (h : Lists a s parent t) : t.cursor = s.cursor := by
  cases h <;> rfl

/-- An element that begins moves the cursor only to what it has declared itself. -/
theorem close_begins (h : Begins disk s parent e t) : t.cursor.close e = s.cursor.close e := by
  cases h with
  | mixer =>
    simp only [State.detached]
    split <;> rfl
  | control _ hbind hlists =>
    rw [cursor_lists hlists]
    rcases bindEarly_cases hbind with ⟨-, -, rfl⟩ | ⟨_, _, _, -, -, rfl⟩ <;> rfl
  | volume _ hbind =>
    obtain ⟨_, -, -, -, rfl⟩ := bindVolumeEarly_cases hbind
    rfl
  | aside | device | path | anonymous | named => rfl
  | setting _ _ hextends => cases hextends <;> rfl

/-- An element that ends takes the cursor away from what it has declared. -/
theorem cursor_ends (h : Ends disk s e t) : t.cursor = s.cursor.close e := by
  cases h <;> rfl

/-! ### What is open is there -/

theorem isSome_bind_iff {α β : Type} {o : Option α} {f : α → Option β} :
    (o >>= f).isSome = true ↔ ∃ c, o = some c ∧ (f c).isSome = true := by
  cases o <;> simp

theorem isSome_device? : s.device?.isSome = true ↔
    ∃ d, s.cursor.device = some d ∧ ∃ device, s.model.devices.get? d = some device := by
  simp only [State.device?, isSome_bind_iff, ← Option.isSome_iff_exists]

theorem isSome_path? : s.path?.isSome = true ↔ ∃ d, s.cursor.device = some d ∧ ∃ p, s.cursor.path = some p
    ∧ ∃ device, s.model.devices.get? d = some device ∧ ∃ path, device.paths.get? p = some path := by
  simp only [State.path?, isSome_bind_iff, ← Option.isSome_iff_exists]

theorem isSome_stream? : s.stream?.isSome = true ↔
    ∃ id, s.cursor.stream = some id ∧ ∃ stream, s.model.stream? id = some stream := by
  simp only [State.stream?, isSome_bind_iff, ← Option.isSome_iff_exists]

theorem isSome_useCase? : s.useCase?.isSome = true ↔ ∃ u, s.cursor.useCase = some u
    ∧ ∃ stream, s.stream? = some stream ∧ ∃ useCase, stream.useCases.get? u = some useCase := by
  simp only [State.useCase?, isSome_bind_iff, ← Option.isSome_iff_exists]

theorem isSome_useCaseCase? : s.useCaseCase?.isSome = true ↔ ∃ u, s.cursor.useCase = some u
    ∧ ∃ c, s.cursor.useCaseCase = some c ∧ ∃ id, s.cursor.stream = some id
      ∧ ∃ stream, s.model.stream? id = some stream ∧ ∃ useCase, stream.useCases.get? u = some useCase
      ∧ ∃ caseOf, useCase.cases.get? c = some caseOf := by
  simp only [State.useCaseCase?, isSome_bind_iff, ← Option.isSome_iff_exists]

/-- Whether what an open element of this kind has declared is there, where others can stand in it. -/
def State.has (s : State) : ElementKind → Bool
  | .device => s.device?.isSome
  | .path => s.path?.isSome
  | .stream => s.stream?.isSome
  | .useCase => s.useCase?.isSome
  | .useCaseCase => s.useCaseCase?.isSome
  | .codecProbe => s.probe.isSome
  | _ => true

/-- What is there stays there as long as the cursor points at it and no place is given up. -/
theorem has_of_within {depth : Nat} (hcursor : s.cursor.SameBelow depth t.cursor) (hmodel : s.model.Within t.model)
    (hprobe : s.probe.isSome = true → t.probe.isSome = true) (hk : depthOf (some k) < depth) (hs : s.has k = true) :
    t.has k = true := by
  have hdeeper : ∀ n ≤ depthOf (some k), n < depth := fun n hn => Nat.lt_of_le_of_lt hn hk
  cases k with
  | device =>
    obtain ⟨d, hd, device, hdevice⟩ := isSome_device?.mp hs
    obtain ⟨device', hdevice', -⟩ := hmodel.devices d device hdevice
    exact isSome_device?.mpr ⟨d, (hcursor.device hk).trans hd, device', hdevice'⟩
  | path =>
    obtain ⟨d, hd, p, hp, device, hdevice, path, hpath⟩ := isSome_path?.mp hs
    obtain ⟨device', hdevice', hpaths⟩ := hmodel.devices d device hdevice
    obtain ⟨path', hpath', -⟩ := hpaths p path hpath
    exact isSome_path?.mpr ⟨d, (hcursor.device (hdeeper 2 (by decide))).trans hd, p, (hcursor.path hk).trans hp,
      device', hdevice', path', hpath'⟩
  | stream =>
    obtain ⟨id, hid, stream, hstream⟩ := isSome_stream?.mp hs
    obtain ⟨stream', hstream', -⟩ := hmodel.stream hstream
    exact isSome_stream?.mpr ⟨id, (hcursor.stream hk).trans hid, stream', hstream'⟩
  | useCase =>
    obtain ⟨u, hu, stream, hopen, useCase, huseCase⟩ := isSome_useCase?.mp hs
    obtain ⟨id, hid, hstream⟩ := Option.bind_eq_some_iff.mp hopen
    obtain ⟨stream', hstream', huseCases⟩ := hmodel.stream hstream
    obtain ⟨useCase', huseCase', -⟩ := huseCases u useCase huseCase
    have hopen' : t.stream? = some stream' :=
      Option.bind_eq_some_iff.mpr ⟨id, (hcursor.stream (hdeeper 2 (by decide))).trans hid, hstream'⟩
    exact isSome_useCase?.mpr ⟨u, (hcursor.useCase hk).trans hu, stream', hopen', useCase', huseCase'⟩
  | useCaseCase =>
    obtain ⟨u, hu, c, hc, id, hid, stream, hstream, useCase, huseCase, caseOf, hcase⟩ := isSome_useCaseCase?.mp hs
    obtain ⟨stream', hstream', huseCases⟩ := hmodel.stream hstream
    obtain ⟨useCase', huseCase', hcases⟩ := huseCases u useCase huseCase
    obtain ⟨caseOf', hcase', -⟩ := hcases c caseOf hcase
    exact isSome_useCaseCase?.mpr ⟨u, (hcursor.useCase (hdeeper 3 (by decide))).trans hu, c,
      (hcursor.useCaseCase hk).trans hc, id, (hcursor.stream (hdeeper 2 (by decide))).trans hid, stream', hstream',
      useCase', huseCase', caseOf', hcase'⟩
  | codecProbe => exact hprobe hs
  | _ => rfl

theorem probe_begins (h : Begins disk s parent e t) (hs : s.probe.isSome = true) : t.probe.isSome = true := by
  cases h with
  | aside hprobes =>
    cases hprobes with
    | kept => exact hs
    | declared | extended => rfl
  | mixer =>
    simp only [State.detached]
    split <;> exact hs
  | control _ hbind hlists =>
    rcases bindEarly_cases hbind with ⟨-, -, rfl⟩ | ⟨_, _, _, -, -, rfl⟩ <;> cases hlists <;> exact hs
  | volume _ hbind =>
    obtain ⟨_, -, -, -, rfl⟩ := bindVolumeEarly_cases hbind
    exact hs
  | device | path | anonymous | named | setting => exact hs

theorem has_of_plain (s : State) (he : e ∈ [.init, .preInit, .root] ++ [.enable, .disable]) : s.has e = true := by
  cases e <;> first | rfl | exact absurd he (by decide)

/-- An element that has begun is there. -/
theorem has_begins (h : Begins disk s parent e t) : t.has e = true := by
  cases h with
  | aside hprobes =>
    cases hprobes with
    | kept he => exact has_of_plain _ (List.mem_append_left _ he)
    | declared | extended => rfl
  | mixer | control | volume => rfl
  | device _ _ hpush =>
    exact isSome_device?.mpr ⟨_, rfl, _, (GranularArray.get?_last_of_push hpush).2⟩
  | @path place device id paths hd _ hpush _ hplace =>
    refine isSome_path?.mpr ⟨place, hplace, _, rfl, { device with paths := paths }, ?_, _,
      (GranularArray.get?_last_of_push hpush).2⟩
    rw [GranularArray.get?_modify_same, hd, Option.map_some]
  | anonymous _ hpush => exact isSome_stream?.mpr ⟨_, rfl, _, (GranularArray.get?_last_of_push hpush).2⟩
  | named _ hpush => exact isSome_stream?.mpr ⟨_, rfl, _, (GranularArray.get?_last_of_push hpush).2⟩
  | @setting id stream changed cursor _ hs hextends hid =>
    have hchanged : (s.model.modifyStream id fun _ => changed).stream? id = some changed := by
      rw [Model.stream?_modifyStream_same, hs, Option.map_some]
    cases hextends with
    | paths he => exact has_of_plain _ (List.mem_append_right [.init, .preInit, .root] he)
    | constant => rfl
    | useCase _ hpush =>
      exact isSome_useCase?.mpr ⟨_, rfl, _, Option.bind_eq_some_iff.mpr ⟨id, hid, hchanged⟩, _,
        (GranularArray.get?_last_of_push hpush).2⟩
    | @useCaseCase place u cases _ hu hpush hplace =>
      refine isSome_useCaseCase?.mpr ⟨place, hplace, _, rfl, id, hid, _, hchanged, { u with cases := cases }, ?_, _,
        (GranularArray.get?_last_of_push hpush).2⟩
      rw [GranularArray.get?_modify_same, hu, Option.map_some]

/-! ### The open mixer -/

/-- The elements that a mixer is open for: it and what stands in it, and what stands behind it. -/
def needsMixer (e : ElementKind) : Bool :=
  !([ElementKind.root, .codecProbe, .codecCase].contains e)

/-- Whether a mixer is open while there is this frame: the element of the frame needs one, or what may stand in it
stands behind one. -/
def Frame.needsMixer (f : Frame) : Bool :=
  f.element.any Config.needsMixer || f.children.any Grammar.afterMixer.contains

theorem needsMixer_frame (e : ElementKind) : Frame.needsMixer ⟨some e, e.children⟩ = needsMixer e := by
  cases e <;> rfl

/-- An element needs a mixer only where there is one already, unless it declares it. -/
theorem needsMixer_of_child {f : Frame} (hallowed : e ∈ allowedIn f.element) (he : e ∈ f.children)
    (hneeds : needsMixer e = true) (hmixer : e ≠ .mixer) : f.needsMixer = true := by
  rw [Frame.needsMixer, Bool.or_eq_true_iff]
  by_cases hafter : e ∈ Grammar.afterMixer
  · exact Or.inr (List.any_eq_true.mpr ⟨e, he, List.contains_iff_mem.mpr hafter⟩)
  · left
    have hall : ∀ outer : Option ElementKind, ∀ e ∈ allowedIn outer, needsMixer e = true → e ≠ .mixer →
        e ∉ Grammar.afterMixer → outer.any needsMixer = true := by
      intro outer
      cases outer with
      | none => decide
      | some outer => cases outer <;> decide
    exact hall f.element e hallowed hneeds hmixer hafter

theorem isSome_desk?_looked {desk : Desk} (hdesk : s.desk? = some desk) {mixer : Mixer}
    (hcard : mixer.card = desk.mixer.card) : (State.desk? { s with mixer := some mixer }).isSome = true := by
  have hlater : State.desk? { s with mixer := some mixer } = some ⟨desk.card, mixer⟩ := by
    rw [desk?_eq_some_iff] at hdesk ⊢
    exact ⟨rfl, by rw [hcard]; exact hdesk.2⟩
  rw [hlater]
  rfl

theorem isSome_desk?_opened {number : Nat} {mixer : Mixer} {rack opened : Rack}
    (h : rack.openMixer number = .ok (mixer, opened)) (hmixer : s.mixer = some mixer) (hrack : s.rack = opened) :
    s.desk?.isSome = true := by
  obtain ⟨card, -, -, rfl, -, hopened⟩ := Rack.openMixer_eq_ok h
  have hdesk : s.desk? = some ⟨_, _⟩ := desk?_eq_some_iff.mpr ⟨hmixer, by rw [hrack]; exact hopened⟩
  rw [hdesk]
  rfl

/-- No element gives up the mixer that is open, unless it opens another one. -/
theorem desk_begins (h : Begins disk s parent e t) (hs : e ≠ .mixer → s.desk?.isSome = true) :
    t.desk?.isSome = true := by
  cases h with
  | mixer hopen => exact isSome_desk?_opened hopen rfl rfl
  | @control a b u _ _ hbind hlists =>
    have hu : u.desk?.isSome = true := by
      rcases bindEarly_cases hbind with ⟨-, -, rfl⟩ | ⟨desk, mixer, outcome, hdesk, hb, rfl⟩
      · exact hs (by decide)
      · have hcard : (desk.mixer.bind disk desk.card a).1.card = desk.mixer.card :=
          Mixer.card_bind disk desk.card desk.mixer a
        rw [hb] at hcard
        exact isSome_desk?_looked hdesk hcard
    cases hlists <;> exact hu
  | @volume v bound desk control u id stream left right _ hbind =>
    obtain ⟨before, hdesk, hb, -, rfl⟩ := bindVolumeEarly_cases hbind
    have hcard : (before.mixer.bindVolume before.card v).1.card = before.mixer.card :=
      Mixer.card_bindVolume before.card before.mixer v
    rw [hb] at hcard
    exact isSome_desk?_looked hdesk hcard
  | device | path | anonymous | named => exact hs (by decide)
  | aside hprobes =>
    refine hs ?_
    rintro rfl
    cases hprobes with
    | kept he => exact absurd he (by decide)
  | setting _ _ _ _ he =>
    refine hs ?_
    rintro rfl
    exact absurd he (by decide)

theorem desk_ends (h : Ends disk s e t) (hs : s.desk?.isSome = true) : t.desk?.isSome = true := by
  cases h with
  | aside => exact hs
  | preInit _ hopen => exact isSome_desk?_opened hopen rfl rfl

/-! ### All along a file -/

/-- What is open is there with a mixer where it needs one, deeper elements stand further inside, and the cursor
points only at what is open. -/
structure Anchored (s : State) : Prop where
  deeper : s.opened.Pairwise fun inner outer => depthOf outer < depthOf inner
  has : ∀ e, some e ∈ s.opened → s.has e = true
  points : ∀ e, s.cursor.points e = true → some e ∈ s.opened
  desk : ∀ f ∈ s.frames, f.needsMixer = true → s.desk?.isSome = true

theorem anchored_enter (s : State) (file : Location) : Anchored (s.enter file) := by
  refine ⟨List.pairwise_singleton _ _, fun e he => ?_, fun e he => ?_, fun f hf hneeds => ?_⟩
  · cases List.mem_singleton.mp he
  · cases e <;> cases he
  · rw [List.mem_singleton.mp hf] at hneeds
    cases hneeds

theorem State.mem_inner (h : s.inner ≠ ⟨none, []⟩) : s.inner ∈ s.frames := by
  rw [State.inner] at *
  cases hframes : s.frames with
  | nil => exact absurd (by rw [hframes]; rfl) h
  | cons f outer => exact List.mem_cons_self

theorem State.mem_inner_of_child (he : e ∈ s.inner.children) : s.inner ∈ s.frames := by
  refine State.mem_inner fun hinner => ?_
  rw [hinner] at he
  exact absurd he List.not_mem_nil

theorem anchored_opens (hnested : Nested s) (h : Anchored s) (he : e ∈ s.inner.children)
    (hbegin : Begins disk s s.inner.element e t) :
    Anchored { t with frames := ⟨some e, e.children⟩ :: openElement.narrowed e t.frames } := by
  have hframes := (frames_begins hbegin).1
  obtain ⟨hallowed, hhead⟩ := hnested.allowed he
  have hopened := opened_of_begins hbegin
  have hdepth : ∀ o ∈ s.opened, depthOf o < depthOf (some e) := by
    obtain ⟨outer, houter⟩ := List.head?_eq_some_iff.mp hhead
    have hinner := (depthOf_of_allowed hallowed).1
    have hdeeper := h.deeper
    rw [houter, List.pairwise_cons] at hdeeper
    rw [houter, List.forall_mem_cons]
    exact ⟨hinner, fun o ho => Nat.lt_trans (hdeeper.1 o ho) hinner⟩
  have hdesk : needsMixer e = true → t.desk?.isSome = true := fun hneeds =>
    desk_begins hbegin fun hmixer =>
      h.desk s.inner (State.mem_inner_of_child he) (needsMixer_of_child hallowed he hneeds hmixer)
  refine ⟨?_, fun k hk => ?_, fun k hk => ?_, ?_⟩
  · rw [hopened]
    exact List.pairwise_cons.mpr ⟨hdepth, h.deeper⟩
  · rw [hopened] at hk
    change t.has k = true
    rcases List.mem_cons.mp hk with hk | hk
    · obtain rfl := Option.some.inj hk
      exact has_begins hbegin
    · exact has_of_within (Cursor.sameBelow_of_close (close_begins hbegin)) (within_begins hbegin)
        (probe_begins hbegin) (hdepth _ hk) (h.has k hk)
  · rw [hopened]
    by_cases hne : k = e
    · rw [hne]
      exact List.mem_cons_self
    · have hclose : (t.cursor.close e).points k = (s.cursor.close e).points k := by rw [close_begins hbegin]
      rw [Cursor.points_close, Cursor.points_close, bne_iff_ne.mpr hne, Bool.true_and, Bool.true_and] at hclose
      exact List.mem_cons_of_mem _ (h.points k (hclose ▸ hk))
  · rw [List.forall_mem_cons, needsMixer_frame]
    refine ⟨hdesk, fun f hf hneeds => ?_⟩
    rw [hframes] at hf
    obtain ⟨g, hg, helement, hchildren⟩ := children_narrowed hf
    have hbefore : g.needsMixer = true := by
      rw [Frame.needsMixer, Bool.or_eq_true_iff, helement] at hneeds
      refine Bool.or_eq_true_iff.mpr (hneeds.imp_right fun hany => ?_)
      obtain ⟨c, hc, hafter⟩ := List.any_eq_true.mp hany
      exact List.any_eq_true.mpr ⟨c, hchildren c hc, hafter⟩
    have ht : t.desk?.isSome = true := desk_begins hbegin fun _ => h.desk g hg hbefore
    exact ht

theorem mem_widened {element : Option ElementKind} {outer : List Frame} {f : Frame}
    (h : f ∈ closeElement.widened element outer) : f ∈ outer ∨ element = some .mixer := by
  unfold closeElement.widened at h
  split at h
  · exact Or.inr rfl
  · exact Or.inl h

theorem anchored_closes (h : Anchored s) {frame : Frame} {outer : List Frame} (hframes : s.frames = frame :: outer)
    (he : frame.element = some e) (hend : Ends disk { s with frames := closeElement.widened frame.element outer } e t) :
    Anchored t := by
  have hopened : s.opened = some e :: t.opened := by
    rw [State.opened, State.opened, (frames_ends hend).1, hframes, map_element_widened, List.map_cons, he]
  have hdeeper := h.deeper
  rw [hopened, List.pairwise_cons] at hdeeper
  refine ⟨hdeeper.2, fun k hk => ?_, fun k hk => ?_, fun f hf hneeds => ?_⟩
  · refine has_of_within ?_ (within_ends hend) ?_ (hdeeper.1 _ hk) (h.has k ?_)
    · rw [cursor_ends hend]
      exact Cursor.sameBelow_close _ _
    · cases hend <;> exact id
    · rw [hopened]
      exact List.mem_cons_of_mem _ hk
  · rw [cursor_ends hend, Cursor.points_close, Bool.and_eq_true_iff, bne_iff_ne] at hk
    have hmem := h.points k hk.2
    rw [hopened, List.mem_cons] at hmem
    exact hmem.resolve_left fun heq => hk.1 (Option.some.inj heq)
  · refine desk_ends hend ?_
    rw [(frames_ends hend).1] at hf
    rcases mem_widened hf with hf | hmixer
    · exact h.desk f (by rw [hframes]; exact List.mem_cons_of_mem _ hf) hneeds
    · refine h.desk frame (by rw [hframes]; exact List.mem_cons_self) ?_
      rw [Frame.needsMixer, hmixer]
      rfl

/-- Every event keeps the cursor at what is open. -/
theorem anchored_steps (hnested : Nested s) (h : Anchored s) {next : Option Location} (hsteps : Steps disk s next t) :
    Anchored t := by
  cases hsteps with
  | opens he hbegin => exact anchored_opens hnested h he hbegin
  | closes hframes he hend => exact anchored_closes h hframes he hend
  | @leaves frame outer hframes he =>
    have hopened : s.opened = none :: State.opened { s with frames := closeElement.widened frame.element outer } := by
      rw [State.opened, State.opened, hframes, map_element_widened, List.map_cons, he]
    have hdeeper := h.deeper
    rw [hopened, List.pairwise_cons] at hdeeper
    refine ⟨hdeeper.2, fun k hk => h.has k (hopened ▸ List.mem_cons_of_mem _ hk), fun k hk => ?_, fun f hf hneeds => ?_⟩
    · have hmem := h.points k hk
      rw [hopened, List.mem_cons] at hmem
      exact hmem.resolve_left (Option.some_ne_none k)
    · rcases mem_widened hf with hf | hmixer
      · exact h.desk f (by rw [hframes]; exact List.mem_cons_of_mem _ hf) hneeds
      · rw [he] at hmixer
        cases hmixer
  | rests => exact h

theorem anchored_takeAll {events : List Event} (hnested : Nested s) (h : Anchored s)
    (hrun : Runs (takeAll disk events) s none t) : Nested t ∧ Anchored t := by
  refine takeAll_induction (I := fun _ u => Nested u ∧ Anchored u) ⟨hnested, h⟩ ?_ events [] t
    (List.append_nil events).symm hrun
  rintro done e rest u v - - ⟨hu, hu'⟩ htake
  exact ⟨nested_steps hu (steps_of_take htake), anchored_steps hu hu' (steps_of_take htake)⟩

def pointed : List ElementKind := [.device, .path, .stream, .useCase, .useCaseCase]

/-- The cursor points at what is open, and at nothing else. -/
theorem Anchored.points_iff (h : Anchored s) (hk : k ∈ pointed) : s.cursor.points k = true ↔ some k ∈ s.opened := by
  refine ⟨h.points k, fun hmem => ?_⟩
  have hhas := h.has k hmem
  cases k with
  | device | stream | useCase => exact isSome_of_bind hhas
  | path =>
    obtain ⟨d, -, p, hp, -⟩ := isSome_path?.mp hhas
    exact Option.isSome_iff_exists.mpr ⟨p, hp⟩
  | useCaseCase =>
    obtain ⟨u, -, c, hc, -⟩ := isSome_useCaseCase?.mp hhas
    exact Option.isSome_iff_exists.mpr ⟨c, hc⟩
  | _ => exact absurd hk (by decide)

/-! ### No element is astray -/

/-- What may stand in an element finds what it belongs to. -/
theorem receives_of_has {outer : Option ElementKind} (he : e ∈ allowedIn outer)
    (hhas : ∀ k, outer = some k → s.has k = true) (hdesk : e = .volume → s.desk?.isSome = true) :
    s.receives outer e = true := by
  cases outer with
  | none =>
    obtain rfl := List.mem_singleton.mp he
    rfl
  | some k =>
    have hk := hhas k rfl
    cases k with
    | device | path | useCase | useCaseCase | codecProbe =>
      obtain rfl := List.mem_singleton.mp he
      exact hk
    | stream =>
      cases e with
      | enable | disable | useCase | constant => exact hk
      | volume => exact Bool.and_eq_true_iff.mpr ⟨hdesk rfl, hk⟩
      | _ => exact absurd he (by decide)
    | init | preInit =>
      obtain rfl := List.mem_singleton.mp he
      rfl
    | root | mixer => cases e <;> first | rfl | exact absurd he (by decide)
    | control | enable | disable | constant | volume | codecCase => exact absurd he List.not_mem_nil

theorem Anchored.receives (hnested : Nested s) (h : Anchored s) (he : e ∈ s.inner.children) :
    s.receives s.inner.element e = true := by
  obtain ⟨hallowed, hhead⟩ := hnested.allowed he
  refine receives_of_has hallowed (fun k hk => h.has k ?_) fun hvolume => ?_
  · rw [← hk]
    exact List.mem_of_mem_head? (Option.mem_def.mpr hhead)
  · subst hvolume
    exact h.desk s.inner (State.mem_inner_of_child he) (needsMixer_of_child hallowed he rfl (by decide))

/-- No event fails for an element that is astray. -/
theorem avoids_take (disk : Disk) (hnested : Nested s) (h : Anchored s) (event : Event) :
    Avoids .astray ((event.take disk).run.run s).1 := by
  cases event with
  | opens line tag attributes =>
    cases hfound : (Grammar.elementOfTag? s.inner.children tag).filter
        fun _ => s.frames.length - 1 < Grammar.maxDepth with
    | none =>
      rw [run_take_opens, run_openElement, hfound]
      exact avoids_error (by rw [Error.misplacement?_atLine]; nofun)
    | some e =>
      obtain ⟨hmem, -⟩ := Option.filter_eq_some_iff.mp hfound
      have hallowed := List.find?_some hmem
      rw [Bool.and_eq_true, List.contains_iff_mem] at hallowed
      exact avoids_opens hfound fun _ => h.receives hnested hallowed.1
  | closes line =>
    refine avoids_closes disk line fun _ hinner => ?_
    refine h.desk s.inner (State.mem_inner fun hnone => ?_) ?_
    · rw [hnone] at hinner
      cases hinner
    · rw [Frame.needsMixer, hinner]
      rfl

/-- No element tree that is gone through has an element that is astray, whatever has been loaded before. -/
theorem avoids_walk (disk : Disk) (hearly : s.preInit.toList = []) (file : Location) (elements : List Xml.Element) :
    Avoids .astray ((walkElements disk elements).run.run (s.enter file)).1 := by
  intro err herr
  rw [walkElements_eq_takeAll] at herr
  obtain ⟨done, event, rest, u, -, hdone, hevent⟩ :=
    error_takeAll_iff.mp (Prod.ext herr rfl : _ = (Except.error err, _))
  obtain ⟨hu, hu'⟩ := anchored_takeAll (nested_enter hearly file) (anchored_enter s file) hdone
  exact avoids_take disk hu hu' event err (by rw [hevent])

variable {rack : Rack} {file p : Location} {earlier : List Location}

/-- A file is taken up without early writes. -/
theorem TakesUp.early (h : TakesUp disk rack file earlier p s) : s.preInit.toList = [] := by
  cases h with
  | first => rfl
  | next h hrun =>
    obtain ⟨elements, hread, hwalk⟩ := runs_loadFile.mp hrun
    obtain ⟨done, e, rest, u, hevents, hdone, hnext⟩ := runs_takeAll_some hwalk
    have htop := h.reaches hread
    rw [hevents] at htop
    exact early_of_next (nested_of_reaches (htop.of_done hdone)) (steps_of_take hnext)

theorem foreign_readTree (disk : Disk) (file : Location) : Foreign (readTree disk file) := by
  rw [readTree]
  split
  · exact foreign_error rfl
  · split
    · exact foreign_ok _
    · exact foreign_error rfl

theorem avoids_finish (disk : Disk) (s : State) : Avoids .astray ((finish disk).run.run s).1 := by
  refine avoids_bind (avoids_ok s) fun u t _ => ?_
  refine avoids_bind ?_ fun desk t _ => avoids_bind (avoids_ok _) fun _ _ _ => avoids_ok _
  cases u.desk? with
  | none => exact (spares_error rfl).avoids
  | some desk => exact avoids_ok desk

/-- No load fails for an element that is astray. -/
theorem avoids_load (disk : Disk) (rack : Rack) (file : Location) : Avoids .astray (load disk rack file).1 := by
  obtain ⟨earlier, last, s, htakes, ⟨t, -, hload⟩ | ⟨err, t, hlast, hload⟩⟩ := load_ends disk rack file
  · rw [hload]
    exact avoids_finish disk t
  · have hfile : Avoids .astray ((loadFile disk last).run.run s).1 := by
      refine avoids_bind (avoids_ofResult (foreign_readTree disk last).spares) fun elements u hread => ?_
      obtain ⟨-, rfl⟩ := ofResult_iff.mp hread
      refine avoids_bind (avoids_ok _) fun _ u hu => ?_
      obtain rfl := modify_iff.mp hu
      exact avoids_walk disk htakes.early last elements
    rw [hlast] at hfile
    rw [hload]
    exact avoids_error (hfile err rfl)

end Config

end SoundRouting
