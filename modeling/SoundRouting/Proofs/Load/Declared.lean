import SoundRouting.Proofs.Load.Course
import SoundRouting.Proofs.Load.Rest
/-!
What a model declares.

The names of paths, the devices with the paths they have, and the streams with their types and with the paths
of their own make up what a model declares. Bindings, settings and counts are no part of it. Loading adds one
declaration after another, and checks each of them against those before it.
-/
namespace SoundRouting

structure Declarations where
  names : List String
  devices : List DeviceOutline
  anonymous : List StreamOutline
  named : List StreamOutline
  outputs : DeviceMask
  inputs : DeviceMask

def Model.declarations (m : Model) : Declarations :=
  { names := m.pathNames.toList
    devices := m.outlines
    anonymous := m.anonymous.toList.map Stream.outline
    named := m.named.toList.map Stream.outline
    outputs := m.outputs
    inputs := m.inputs }

/-- The view of an array with one element changed is its view with that element set to the view of the new one. -/
theorem GranularArray.map_toList_modify_of_get? {α β : Type} {a : GranularArray α} {i : Nat} {x : α}
    (hx : a.get? i = some x) (f : α → α) (view : α → β) :
    (a.modify i f).toList.map view = (a.toList.map view).set i (view (f x)) := by
  have hget : a.toList[i]? = some x := by rw [getElem?_toList, hx]
  rw [toList_modify, List.modify_eq_set_getElem?, hget, Option.map_eq_map, Option.map_some, Option.getD_some,
    List.map_set]

namespace Model

variable {m : Model}

/-- Room that is given back declares nothing. -/
theorem declarations_compress : m.compress.declarations = m.declarations := by
  simp only [declarations, outlines, compress, GranularArray.toList_compress, GranularArray.toList_map,
    List.map_map, Declarations.mk.injEq, true_and, and_true]
  refine ⟨List.map_congr_left fun d _ => ?_, rfl, rfl⟩
  simp only [Function.comp_apply, Device.outline, Device.compress, GranularArray.toList_compress,
    GranularArray.toList_map, List.map_map, DeviceOutline.mk.injEq, true_and]
  rfl

/-- Bindings declare nothing. -/
theorem declarations_unbind : m.unbind.declarations = m.declarations := by
  simp only [declarations, outlines, unbind, GranularArray.toList_map, List.map_map, Declarations.mk.injEq,
    true_and, and_true]
  refine ⟨List.map_congr_left fun d _ => ?_, rfl, rfl⟩
  simp only [Function.comp_apply, Device.outline, Device.unbind, GranularArray.toList_map, List.map_map,
    DeviceOutline.mk.injEq, true_and]
  rfl

theorem declarations_modifyDevice {i : Nat} {f : Device → Device}
    (hf : ∀ d, m.devices.get? i = some d → (f d).outline = d.outline) :
    (m.modifyDevice i f).declarations = m.declarations := by
  simp only [declarations, outlines, modifyDevice, GranularArray.map_toList_modify m.devices hf]

theorem declarations_modifyStream {id : StreamId} {f : Stream → Stream}
    (hf : ∀ s, m.stream? id = some s → (f s).outline = s.outline) :
    (m.modifyStream id f).declarations = m.declarations := by
  obtain ⟨pool, i⟩ := id
  cases pool with
  | anonymous => simp only [declarations, outlines, modifyStream, GranularArray.map_toList_modify m.anonymous hf]
  | named => simp only [declarations, outlines, modifyStream, GranularArray.map_toList_modify m.named hf]

end Model

namespace Declarations

def unionOf (input : Bool) (devices : List DeviceOutline) : DeviceMask :=
  (devices.filter fun o => o.mask.isInput == input).foldl (fun union o => union ||| o.mask) DeviceMask.nothing

/-- Declarations that go together. -/
structure WellFormed (d : Declarations) : Prop where
  first : ["off", "on"] <+: d.names
  names : d.names.Nodup
  devicePaths : ∀ o ∈ d.devices, ∀ id ∈ o.paths, id < d.names.length
  streamPaths : ∀ o ∈ d.anonymous ++ d.named, ∀ id ∈ o.ownPaths, id < d.names.length
  outputs : d.outputs = unionOf false d.devices
  inputs : d.inputs = unionOf true d.devices
  anonymous : ∀ o ∈ d.anonymous, o.name = none ∧ o.type ∈ Config.anonymousTypes
  named : ∀ o ∈ d.named, o.name ≠ none ∧ (o.type = .global ↔ o.name = some "global")
  distinct : (d.named.map (·.name)).Nodup

/-- The stream has become another one only as far as its own paths go, and those are known. -/
structure Retraced (known : Nat) (o o' : StreamOutline) : Prop where
  name : o'.name = o.name
  type : o'.type = o.type
  paths : ∀ p ∈ o'.ownPaths, p ∈ o.ownPaths ∨ p < known

inductive Declares (d : Declarations) : Declarations → Prop
  | device (mask : DeviceMask) :
      Declares d { d with
        devices := d.devices ++ [⟨mask, []⟩]
        outputs := if mask.isInput then d.outputs else d.outputs ||| mask
        inputs := if mask.isInput then d.inputs ||| mask else d.inputs }
  | path {place : Nat} {o : DeviceOutline} {id : PathId} {name : String} {names : List String}
      (ho : d.devices[place]? = some o) (hnames : Config.Knows d.names name id names) :
      Declares d { d with devices := d.devices.set place ⟨o.mask, o.paths ++ [id]⟩, names := names }
  | anonymous {o : StreamOutline} (hname : o.name = none) (htype : o.type ∈ Config.anonymousTypes)
      (hpaths : o.ownPaths = []) : Declares d { d with anonymous := d.anonymous ++ [o] }
  | named {o : StreamOutline} (hname : o.name ≠ none) (hfresh : ∀ p ∈ d.named, p.name ≠ o.name)
      (htype : o.type = .global ↔ o.name = some "global") (hpaths : o.ownPaths = []) :
      Declares d { d with named := d.named ++ [o] }
  | anonymousPaths {i : Nat} {o o' : StreamOutline} (ho : d.anonymous[i]? = some o)
      (h : Retraced d.names.length o o') : Declares d { d with anonymous := d.anonymous.set i o' }
  | namedPaths {i : Nat} {o o' : StreamOutline} (ho : d.named[i]? = some o)
      (h : Retraced d.names.length o o') : Declares d { d with named := d.named.set i o' }

theorem unionOf_append (input : Bool) (devices : List DeviceOutline) (o : DeviceOutline) :
    unionOf input (devices ++ [o])
      = if o.mask.isInput == input then unionOf input devices ||| o.mask else unionOf input devices := by
  rw [unionOf, List.filter_append, List.foldl_append, List.filter_singleton]
  cases o.mask.isInput == input <;> rfl

/-- The union is that of the masks alone. -/
theorem unionOf_congr {input : Bool} {devices devices' : List DeviceOutline}
    (h : devices'.map (·.mask) = devices.map (·.mask)) : unionOf input devices' = unionOf input devices := by
  have hmasks : ∀ os : List DeviceOutline, unionOf input os
      = ((os.map (·.mask)).filter (·.isInput == input)).foldl (· ||| ·) DeviceMask.nothing := by
    intro os
    rw [unionOf, List.filter_map, List.foldl_map]
    rfl
  rw [hmasks, hmasks, h]

theorem set_of_getElem? {α : Type} {l : List α} {i : Nat} {x : α} (h : l[i]? = some x) : l.set i x = l := by
  obtain ⟨hi, rfl⟩ := List.getElem?_eq_some_iff.mp h
  exact List.set_getElem_self hi

/-- Setting one element keeps what holds of all if it holds of the new one. -/
theorem forall_mem_set {α : Type} {P : α → Prop} {l : List α} (h : ∀ x ∈ l, P x) {y : α} (hy : P y) (i : Nat) :
    ∀ x ∈ l.set i y, P x := by
  intro x hx
  rcases List.mem_or_eq_of_mem_set hx with hx | rfl
  · exact h x hx
  · exact hy

variable {d d' : Declarations}

/-- Names that are added keep the declarations together. -/
theorem WellFormed.withNames (h : d.WellFormed) {name : String} {id : PathId} {names : List String}
    (hnames : Config.Knows d.names name id names) :
    WellFormed { d with names := names } ∧ id < names.length := by
  cases hnames with
  | known hid => exact ⟨h, (List.getElem?_eq_some_iff.mp hid).1⟩
  | new hnew =>
    have hmore : d.names.length < (d.names ++ [name]).length := by simp
    exact ⟨⟨h.first.trans (List.prefix_append _ _), Config.nodup_concat h.names hnew,
      fun o ho id hid => (h.devicePaths o ho id hid).trans hmore,
      fun o ho id hid => (h.streamPaths o ho id hid).trans hmore,
      h.outputs, h.inputs, h.anonymous, h.named, h.distinct⟩, hmore⟩

/-- One declaration more keeps the declarations together. -/
theorem WellFormed.declares (h : d.WellFormed) (hd : Declares d d') : d'.WellFormed := by
  have hstreams := h.streamPaths
  rw [List.forall_mem_append] at hstreams
  cases hd with
  | device mask =>
    refine ⟨h.first, h.names, ?_, h.streamPaths, ?_, ?_, h.anonymous, h.named, h.distinct⟩
    · rw [List.forall_mem_append, List.forall_mem_singleton]
      exact ⟨h.devicePaths, fun _ hid => absurd hid List.not_mem_nil⟩
    · rw [unionOf_append, ← h.outputs]
      cases mask.isInput <;> rfl
    · rw [unionOf_append, ← h.inputs]
      cases mask.isInput <;> rfl
  | @path place o id name names ho hnames =>
    obtain ⟨hwell, hid⟩ := h.withNames hnames
    have hmasks : (d.devices.set place ⟨o.mask, o.paths ++ [id]⟩).map (·.mask) = d.devices.map (·.mask) := by
      rw [List.map_set]
      exact set_of_getElem? (by rw [List.getElem?_map, ho, Option.map_some])
    refine ⟨hwell.first, hwell.names, forall_mem_set hwell.devicePaths ?_ place, hwell.streamPaths, ?_, ?_,
      h.anonymous, h.named, h.distinct⟩
    · rw [List.forall_mem_append, List.forall_mem_singleton]
      exact ⟨hwell.devicePaths o (List.mem_of_getElem? ho), hid⟩
    · rw [unionOf_congr hmasks]
      exact h.outputs
    · rw [unionOf_congr hmasks]
      exact h.inputs
  | @anonymous o hname htype hpaths =>
    refine ⟨h.first, h.names, h.devicePaths, ?_, h.outputs, h.inputs, ?_, h.named, h.distinct⟩
    · simp only [List.forall_mem_append, List.forall_mem_singleton, hpaths]
      exact ⟨⟨hstreams.1, fun _ hid => absurd hid List.not_mem_nil⟩, hstreams.2⟩
    · rw [List.forall_mem_append, List.forall_mem_singleton]
      exact ⟨h.anonymous, hname, htype⟩
  | @named o hname hfresh htype hpaths =>
    refine ⟨h.first, h.names, h.devicePaths, ?_, h.outputs, h.inputs, h.anonymous, ?_, ?_⟩
    · simp only [List.forall_mem_append, List.forall_mem_singleton, hpaths]
      exact ⟨hstreams.1, hstreams.2, fun _ hid => absurd hid List.not_mem_nil⟩
    · rw [List.forall_mem_append, List.forall_mem_singleton]
      exact ⟨h.named, hname, htype⟩
    · rw [List.map_append]
      refine Config.nodup_concat h.distinct fun hmem => ?_
      obtain ⟨p, hp, hsame⟩ := List.mem_map.mp hmem
      exact hfresh p hp hsame
  | @anonymousPaths i o o' ho hretraced =>
    have hmem := List.mem_of_getElem? ho
    refine ⟨h.first, h.names, h.devicePaths, ?_, h.outputs, h.inputs, forall_mem_set h.anonymous ?_ i, h.named,
      h.distinct⟩
    · rw [List.forall_mem_append]
      refine ⟨forall_mem_set hstreams.1 (fun p hp => ?_) i, hstreams.2⟩
      exact (hretraced.paths p hp).elim (hstreams.1 o hmem p) id
    · rw [hretraced.name, hretraced.type]
      exact h.anonymous o hmem
  | @namedPaths i o o' ho hretraced =>
    have hmem := List.mem_of_getElem? ho
    refine ⟨h.first, h.names, h.devicePaths, ?_, h.outputs, h.inputs, h.anonymous, forall_mem_set h.named ?_ i, ?_⟩
    · rw [List.forall_mem_append]
      refine ⟨hstreams.1, forall_mem_set hstreams.2 (fun p hp => ?_) i⟩
      exact (hretraced.paths p hp).elim (hstreams.2 o hmem p) id
    · rw [hretraced.name, hretraced.type]
      exact h.named o hmem
    · rw [List.map_set, set_of_getElem? (by rw [List.getElem?_map, ho, Option.map_some, hretraced.name])]
      exact h.distinct

end Declarations

namespace Config

open Declarations Runs

variable {disk : Disk} {s t : State}

theorem outline_of_extends {c c' : Cursor} {e : ElementKind} {stream changed : Stream}
    (h : Extends c stream e changed c') :
    changed.outline.name = stream.outline.name ∧ changed.outline.type = stream.outline.type := by
  cases h <;> exact ⟨rfl, rfl⟩

theorem declarations_lists {a : Assignment} {parent : Option ElementKind} (h : Lists a s parent t) :
    t.model.declarations = s.model.declarations := by
  cases h with
  | path =>
    refine Model.declarations_modifyDevice fun d _ => ?_
    exact congrArg (DeviceOutline.mk d.mask) (GranularArray.map_toList_modify d.paths fun _ _ => rfl)
  | useCaseCase => exact Model.declarations_modifyStream fun _ _ => rfl
  | init | preInit => rfl

/-- The unions that a device is admitted with have its mask in that of its direction. -/
theorem unions_of_admits {m : Model} {mask outputs inputs : DeviceMask} (h : Admits m mask outputs inputs) :
    outputs = (if mask.isInput then m.outputs else m.outputs ||| mask)
      ∧ inputs = if mask.isInput then m.inputs ||| mask else m.inputs := by
  cases h with
  | global hmask =>
    subst hmask
    exact ⟨BitVec.or_zero.symm, rfl⟩
  | input _ hdir =>
    rw [if_pos hdir, if_pos hdir]
    exact ⟨rfl, rfl⟩
  | output _ hdir =>
    rw [hdir]
    exact ⟨rfl, rfl⟩

theorem declares_device {m : Model} {mask outputs inputs : DeviceMask} {devices : GranularArray Device}
    (hadmits : Admits m mask outputs inputs) (hpush : m.devices.push (.blank mask) = .ok devices) :
    Declares m.declarations
      (Model.declarations { m with devices := devices, outputs := outputs, inputs := inputs }) := by
  have hdeclares := Declares.device (d := m.declarations) mask
  obtain ⟨houtputs, hinputs⟩ := unions_of_admits hadmits
  have hdevices : devices.toList.map Device.outline = m.outlines ++ [⟨mask, []⟩] := by
    rw [GranularArray.toList_push hpush, List.map_append]
    rfl
  rw [houtputs, hinputs]
  simp only [Model.declarations, Model.outlines, hdevices] at hdeclares ⊢
  exact hdeclares

theorem declares_path {m : Model} {place : Nat} {device : Device} {id : PathId} {paths : GranularArray Path}
    {names : GranularArray String} {name : String} (hd : m.devices.get? place = some device)
    (hpush : device.paths.push (.blank id) = .ok paths) (hnames : Knows m.pathNames.toList name id names.toList) :
    Declares m.declarations
      (Model.declarations { m with
        devices := m.devices.modify place fun d => { d with paths := paths }, pathNames := names }) := by
  have hat : m.declarations.devices[place]? = some device.outline := by
    rw [Model.declarations, Model.outlines, List.getElem?_map, GranularArray.getElem?_toList, hd, Option.map_some]
  have hdeclares := Declares.path hat hnames
  have hids : paths.toList.map (·.id) = device.outline.paths ++ [id] := by
    rw [GranularArray.toList_push hpush, List.map_append]
    rfl
  simp only [Model.declarations, Model.outlines, GranularArray.map_toList_modify_of_get? hd, Device.outline, hids]
    at hdeclares ⊢
  exact hdeclares

theorem declares_modifyStream {m : Model} {id : StreamId} {stream changed : Stream} (hs : m.stream? id = some stream)
    (h : Retraced m.declarations.names.length stream.outline changed.outline) :
    Declares m.declarations (m.modifyStream id fun _ => changed).declarations := by
  obtain ⟨pool, i⟩ := id
  have hat : ∀ {streams : GranularArray Stream}, streams.get? i = some stream →
      (streams.toList.map Stream.outline)[i]? = some stream.outline := by
    intro streams hget
    rw [List.getElem?_map, GranularArray.getElem?_toList, hget, Option.map_some]
  cases pool with
  | anonymous =>
    have hget : m.anonymous.get? i = some stream := hs
    have hdeclares := Declares.anonymousPaths (d := m.declarations) (hat hget) h
    simp only [Model.declarations, Model.outlines, Model.modifyStream, GranularArray.map_toList_modify_of_get? hget]
      at hdeclares ⊢
    exact hdeclares
  | named =>
    have hget : m.named.get? i = some stream := hs
    have hdeclares := Declares.namedPaths (d := m.declarations) (hat hget) h
    simp only [Model.declarations, Model.outlines, Model.modifyStream, GranularArray.map_toList_modify_of_get? hget]
      at hdeclares ⊢
    exact hdeclares

/-- An element that begins declares one thing more, or nothing. -/
theorem declares_begins {parent : Option ElementKind} {e : ElementKind} (h : Begins disk s parent e t) :
    t.model.declarations = s.model.declarations ∨ Declares s.model.declarations t.model.declarations := by
  cases h with
  | aside => exact Or.inl rfl
  | mixer =>
    left
    simp only [State.detached]
    split
    · exact Model.declarations_unbind
    · rfl
  | device _ hadmits hpush => exact Or.inr (declares_device hadmits hpush)
  | path hd _ hpush names _ hnames => exact Or.inr (declares_path hd hpush hnames)
  | control _ hbind hlists =>
    left
    rw [declarations_lists hlists]
    rcases bindEarly_cases hbind with ⟨-, -, rfl⟩ | ⟨_, _, _, -, -, rfl⟩ <;> rfl
  | @anonymous stream streams name e instances hblank hpush hname hsuits =>
    right
    subst hblank
    have hdeclares := Declares.anonymous (d := s.model.declarations) (o := (Stream.blank name e instances).outline)
      hname (hsuits.anonymous hname) rfl
    simp only [Model.declarations, GranularArray.toList_push hpush, List.map_append] at hdeclares ⊢
    exact hdeclares
  | @named stream streams name e instances hblank hpush hname hsuits =>
    right
    subst hblank
    have hfresh : ∀ p ∈ s.model.declarations.named, p.name ≠ (Stream.blank name e instances).outline.name := by
      rw [Model.declarations, List.forall_mem_map]
      exact hsuits.fresh hname
    have hdeclares := Declares.named (d := s.model.declarations) hname hfresh hsuits.global rfl
    simp only [Model.declarations, GranularArray.toList_push hpush, List.map_append] at hdeclares ⊢
    exact hdeclares
  | setting e hs hextends _ _ hpaths =>
    obtain ⟨hname, htype⟩ := outline_of_extends hextends
    exact Or.inr (declares_modifyStream hs ⟨hname, htype, hpaths⟩)
  | volume _ hbind hs =>
    left
    obtain ⟨_, -, -, -, rfl⟩ := bindVolumeEarly_cases hbind
    refine Model.declarations_modifyStream fun stream hstream => ?_
    obtain rfl := Option.some.inj (hs.symm.trans hstream)
    rfl

theorem declarations_ends {e : ElementKind} (h : Ends disk s e t) : t.model.declarations = s.model.declarations := by
  cases h with
  | aside => rfl
  | preInit => exact Model.declarations_unbind

/-- An event declares one thing more, or nothing. -/
theorem declares_steps {next : Option Location} (h : Steps disk s next t) :
    t.model.declarations = s.model.declarations ∨ Declares s.model.declarations t.model.declarations := by
  cases h with
  | @opens _ u _ hbegin =>
    have hdeclares := declares_begins hbegin
    exact hdeclares
  | closes _ _ hend =>
    have hsame := declarations_ends hend
    exact Or.inl hsame
  | leaves | rests => exact Or.inl rfl

/-- Before anything is loaded, the names of the counted paths are declared. -/
theorem wellFormed_first :
    (Model.declarations { Model.blank with pathNames := State.firstNames }).WellFormed :=
  ⟨List.prefix_refl _, by decide, by decide, by decide, rfl, rfl, by decide, by decide, by decide⟩

/-- Whatever has been declared so far goes together. -/
theorem wellFormed_of_reaches {rack : Rack} {file : Location} {events : List Event}
    (h : Reaches disk rack file s events) : s.model.declarations.WellFormed := by
  refine h.induction (I := fun s => s.model.declarations.WellFormed) wellFormed_first
    (fun _ _ _ _ _ hs hsteps => ?_) fun _ _ _ _ _ ht => ht
  rcases declares_steps hsteps with hsame | hdeclares
  · rwa [hsame]
  · exact hs.declares hdeclares

/-! ### The names of paths -/

def Event.pathName? (event : Event) : Option String :=
  (event.values? .path).bind (·.get? .name)

/-- The names of the paths that events declare, with those that every model has before them. -/
def namesSeen (done : List (State × Event)) : List String :=
  State.firstNames.toList ++ done.filterMap fun step => step.2.pathName?

/-- Only paths have names that are added. -/
theorem names_begins {parent : Option ElementKind} {e : ElementKind} (h : Begins disk s parent e t)
    (he : e ≠ .path) : t.model.declarations.names = s.model.declarations.names := by
  cases h with
  | path => exact absurd rfl he
  | mixer =>
    simp only [State.detached]
    split <;> rfl
  | control _ hbind hlists =>
    rw [declarations_lists hlists]
    rcases bindEarly_cases hbind with ⟨-, -, rfl⟩ | ⟨_, _, _, -, -, rfl⟩ <;> rfl
  | @setting id => obtain ⟨_ | _, _⟩ := id <;> rfl
  | @volume _ _ _ _ _ id _ _ _ _ hbind =>
    obtain ⟨_, -, -, -, rfl⟩ := bindVolumeEarly_cases hbind
    obtain ⟨_ | _, _⟩ := id <;> rfl
  | aside | device | anonymous | named => rfl

/-- A name that is known is not added once more. -/
theorem names_of_knows {names names' : List String} {name : String} {id : PathId} (h : Knows names name id names') :
    names' = names ++ [name].removeAll names := by
  cases h with
  | known hid =>
    have hmem := List.mem_of_getElem? hid
    simp [List.removeAll, hmem]
  | new hnew => simp [List.removeAll, hnew]

theorem names_take {e : Event} {next : Option Location} (h : Runs (e.take disk) s next t) :
    t.model.declarations.names
      = s.model.declarations.names ++ e.pathName?.toList.removeAll s.model.declarations.names := by
  cases e with
  | closes line =>
    have hsame : t.model.declarations.names = s.model.declarations.names := by
      rcases runs_closeElement (atLine_iff.mp h) with ⟨-, -, rfl⟩ | ⟨e, -, hend, -⟩
      · rfl
      · have hends := declarations_ends hend
        exact congrArg Declarations.names hends
    have hnone : (Event.closes line).pathName? = none := rfl
    rw [hsame, hnone, Option.toList_none, List.removeAll, List.filter_nil, List.append_nil]
  | opens line tag attributes =>
    obtain ⟨_, _, hopen, h⟩ := bind_iff.mp h
    obtain ⟨-, rfl⟩ := pure_iff.mp h
    obtain ⟨e, values, u, -, rfl, hvalues, hbegin, rfl⟩ := runs_openElement (atLine_iff.mp hopen)
    by_cases he : e = .path
    · subst he
      obtain ⟨name, place, device, id, paths, names, hname, -, -, -, -, hknows, rfl⟩ := runs_beginPath hbegin
      rw [Event.pathName?, Event.values?_opens hvalues, Option.bind_some, hname, Option.toList_some]
      exact names_of_knows hknows
    · have hnames := names_begins (begins_of_runs hbegin) he
      rw [Event.pathName?, Event.values?_other (tag_ne (by decide) he), Option.bind_none, Option.toList_none,
        List.removeAll, List.filter_nil, List.append_nil]
      exact hnames

/-- The names of paths stand in the order in which they have been seen first. -/
theorem names_of_course {rack : Rack} {file : Location} {done : List (State × Event)} {events : List Event}
    (h : Course disk rack file done s events) : s.model.pathNames.toList = (namesSeen done).eraseDups := by
  refine h.induction (I := fun done s => s.model.declarations.names = (namesSeen done).eraseDups) rfl
    (fun _ _ _ hs => hs) fun done s e events next t _ hs hrun => ?_
  have hseen : namesSeen (done ++ [(s, e)]) = namesSeen done ++ e.pathName?.toList := by
    rw [namesSeen, List.filterMap_append, ← List.append_assoc, ← namesSeen]
    cases hname : e.pathName? <;> simp [hname]
  have hone : (e.pathName?.toList.removeAll (namesSeen done)).eraseDups
      = e.pathName?.toList.removeAll (namesSeen done) := by
    cases e.pathName? with
    | none => rfl
    | some name =>
      rw [Option.toList_some, List.removeAll, List.filter_singleton]
      cases !List.elem name (namesSeen done) <;> rfl
  rw [names_take hrun, hs, hseen, List.eraseDups_append, hone]
  congr 1
  simp only [List.removeAll, List.elem_eq_contains, List.contains_eq_mem, List.mem_eraseDups]

end Config

end SoundRouting
