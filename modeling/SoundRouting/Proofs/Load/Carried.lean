import SoundRouting.Proofs.Load.Accepted
/-!
Going through a file on another disk.

Where no codec probe is open, the events of a file do the same on every disk on which the files that they
name have the same bytes, whatever probe has been declared, whatever files have been taken up before, and
on whatever lines the elements stand.
-/
namespace SoundRouting

/-- If the value is to be taken from a file, the file has the same bytes on both disks. -/
def Value.Agrees (disk disk' : Disk) (v : Value) : Prop :=
  ∀ file, v = .pendingFile file → disk'.read file = disk.read file

variable {disk disk' : Disk}

/-- Converting a value leaves it as it is or takes it from its file. -/
theorem Value.Agrees.convert {a : Assignment} (h : a.value.Agrees disk disk') (type : ControlType) (count : Nat) :
    (a.convert disk type count).1.value.Agrees disk disk' := by
  cases type with
  | switch | integer | enumerated =>
    simp only [Assignment.convert]
    split
    · rintro _ ⟨⟩
    · exact h
  | bytes =>
    simp only [Assignment.convert]
    split
    · exact h
    · split
      · rename_i value hvalue
        simp only [Assignment.byteValue] at hvalue
        split at hvalue
        · cases hvalue
        · split at hvalue <;> cases hvalue
          rintro _ ⟨⟩
      · exact h
  | iec958 | integer64 | unknown => exact h

theorem Value.Agrees.bind {a b : Assignment} {m m' : Mixer} {card : Card} {outcome : Except Error Unit}
    (h : a.value.Agrees disk disk') (hbind : m.bind disk card a = (m', b, outcome)) : b.value.Agrees disk disk' := by
  simp only [Mixer.bind] at hbind
  split at hbind
  · cases hbind
    exact h
  · split at hbind
    · cases hbind
      exact h
    · split at hbind
      · cases hbind
        exact h
      · rename_i info _
        have hconvert := h.convert info.type info.count
        split at hbind <;> cases hbind <;> exact hconvert

/-- A list of writes is applied alike on both disks. -/
theorem Desk.apply_congr_disk {list : List Assignment} (h : ∀ a ∈ list, a.value.Agrees disk disk') (desk : Desk) :
    desk.apply disk' list = desk.apply disk list := by
  induction list generalizing desk with
  | nil => rfl
  | cons a more ih =>
    rw [List.forall_mem_cons] at h
    have hone : desk.applyOne disk' a = desk.applyOne disk a := by
      simp only [applyOne, Config.bind_congr_disk h.1]
    simp only [apply, hone, ih h.2]

namespace Config

open LoadM Runs

variable {probe : Option CodecProbe} {visited : List Location} {p : Location} {s t : State} {e : ElementKind}
  {tag : String} {line line' : Nat} {attributes : List (String × String)} {l : Level} {levels : List Level}
  {next : Option Location}

def Event.fileNames : Event → List String
  | .opens _ _ attributes => attributes.filterMap fun a => if a.1 = "file" then some a.2 else none
  | .closes _ => []

def Event.unlined : Event → Event
  | .opens _ tag attributes => .opens 0 tag attributes
  | .closes _ => .closes 0

/-- The value of an attribute is one that is written. -/
theorem mem_of_ofWritten {a : AttributeValues} (h : AttributeValues.ofWritten e attributes = .ok a)
    {kind : AttributeKind} {value : String} (hvalue : a.get? kind = some value) : (kind.text, value) ∈ attributes := by
  have hcollect : ∀ (written : List (String × String)) (a₀ a : AttributeValues),
      AttributeValues.collect e a₀ written = .ok a → a.get? kind = some value →
      a₀.get? kind = some value ∨ (kind.text, value) ∈ written := by
    intro written
    induction written with
    | nil =>
      intro a₀ a h hvalue
      cases h
      exact Or.inl hvalue
    | cons first more ih =>
      intro a₀ a h hvalue
      simp only [AttributeValues.collect] at h
      split at h
      · rename_i k hk
        have htext := List.find?_some hk
        rw [Bool.and_eq_true, beq_iff_eq] at htext
        rcases ih _ _ h hvalue with hset | hmem
        · by_cases hkind : k = kind
          · subst hkind
            rw [AttributeValues.get?_set_self, Option.some.injEq] at hset
            rw [htext.2, ← hset]
            exact Or.inr List.mem_cons_self
          · rw [AttributeValues.get?_set_other _ _ hkind] at hset
            exact Or.inl hset
        · exact Or.inr (List.mem_cons_of_mem _ hmem)
      · cases h
  rw [AttributeValues.ofWritten] at h
  split at h
  · cases h
  · rename_i a' ha'
    split at h <;> cases h
    rcases hcollect _ _ _ ha' hvalue with hblank | hmem
    · cases hblank
    · exact hmem

/-! ### The values that are still to be taken from files -/

def State.values (s : State) : List Value :=
  (s.preInit.toList ++ s.init.toList).map (·.value)

theorem values_unbind (s : State) : s.unbind.values = s.values := by
  simp only [State.values, State.unbind, GranularArray.toList_map, List.map_append, List.map_map]
  rfl

theorem mem_values_lists {a : Assignment} {parent : Option ElementKind} (h : Lists a s parent t) {v : Value}
    (hv : v ∈ t.values) : v ∈ s.values ∨ v = a.value := by
  cases h with
  | path | useCaseCase => exact Or.inl hv
  | init h | preInit h =>
    simp only [State.values, GranularArray.toList_push h, List.mem_map, List.mem_append, List.mem_singleton] at hv ⊢
    obtain ⟨b, hb, rfl⟩ := hv
    by_cases hba : b = a
    · exact Or.inr (by rw [hba])
    · exact Or.inl ⟨b, by tauto, rfl⟩

/-- An element other than a write adds no values. -/
theorem values_begins {parent : Option ElementKind} (hbegin : Begins disk s parent e t) (he : e ≠ .control) :
    t.values = s.values := by
  cases hbegin with
  | control => exact absurd rfl he
  | mixer =>
    change s.detached.values = s.values
    rw [State.detached]
    split
    · exact values_unbind s
    · rfl
  | volume _ hbind =>
    obtain ⟨_, -, -, -, rfl⟩ := bindVolumeEarly_cases hbind
    rfl
  | aside | device | path | anonymous | named | setting => rfl

theorem mem_values_ends (hend : Ends disk s e t) {v : Value} (hv : v ∈ t.values) : v ∈ s.values := by
  cases hend with
  | aside => exact hv
  | preInit =>
    have hinit : v ∈ (s.unbind.init.toList).map (·.value) := by simpa [State.values] using hv
    rw [← values_unbind, State.values, List.map_append]
    exact List.mem_append_right _ hinit

/-- A write adds its value, which is taken from a file that the element names. -/
theorem agrees_beginElement {a : AttributeValues} {parent : Option ElementKind}
    (h : ∀ v ∈ s.values, v.Agrees disk disk')
    (hread : ∀ name, a.get? .file = some name → disk'.read (s.file.resolve name) = disk.read (s.file.resolve name))
    (hrun : Runs (beginElement disk parent a e) s () t) : ∀ v ∈ t.values, v.Agrees disk disk' := by
  by_cases he : e = .control
  · subst he
    obtain ⟨b, bound, u, -, -, -, hfile, hbind, hlists⟩ := runs_beginControl hrun
    have hb : b.value.Agrees disk disk' := by
      intro file hvalue
      obtain ⟨name, hname, rfl⟩ := hfile file hvalue
      exact hread name hname
    have hu : u.values = s.values ∧ bound.value.Agrees disk disk' := by
      rcases bindEarly_cases hbind with ⟨-, rfl, rfl⟩ | ⟨_, _, _, -, hbound, rfl⟩
      · exact ⟨rfl, hb⟩
      · exact ⟨rfl, hb.bind hbound⟩
    intro v hv
    rcases mem_values_lists hlists hv with hv | rfl
    · exact h v (hu.1 ▸ hv)
    · exact hu.2
  · rw [values_begins (begins_of_runs hrun) he]
    exact h

/-! ### The events -/

/-- What the events of a file need to do the same on the other disk. -/
structure Portable (disk disk' : Disk) (p : Location) (s : State) (levels : List Level) : Prop where
  follows : Follows s levels
  plain : ∀ l ∈ levels, l.element ≠ some .codecProbe
  located : Located p s.visited s
  agrees : ∀ v ∈ s.values, v.Agrees disk disk'

variable (probe visited) in
/-- Opening an element that is allowed does the same, if it is no part of a codec probe. -/
theorem alike_openKnown (parent : Option ElementKind) (hprobe : e ≠ .codecProbe) (hcase : e ≠ .codecCase)
    (hread : ∀ name, ("file", name) ∈ attributes → disk'.read (s.file.resolve name) = disk.read (s.file.resolve name)) :
    Alike .refused probe visited s (openKnown disk' parent e attributes) (openKnown disk parent e attributes) := by
  refine alike_bind (alike_ofResult (spares_ofWritten e attributes)) fun values u hvalues => ?_
  obtain ⟨hwritten, rfl⟩ := ofResult_iff.mp hvalues
  refine alike_bind (alike_beginElement hprobe hcase nofun ?_) fun _ _ _ => alike_modify rfl
  exact fun _ name hname => hread name (mem_of_ofWritten hwritten hname)

theorem mem_fileNames {name : String} :
    name ∈ (Event.opens line tag attributes).fileNames ↔ ("file", name) ∈ attributes := by
  simp only [Event.fileNames, List.mem_filterMap, Option.ite_none_right_eq_some, Option.some.injEq, Prod.exists]
  constructor
  · rintro ⟨_, _, hmem, rfl, rfl⟩
    exact hmem
  · exact fun hmem => ⟨_, _, hmem, rfl, rfl⟩

theorem portable_opens (h : Portable disk disk' p s levels) (htag : tag ≠ "codec_probe")
    (hread : ∀ name ∈ (Event.opens line tag attributes).fileNames,
      disk'.read (p.resolve name) = disk.read (p.resolve name))
    (hrun : Runs (Event.take disk (.opens line tag attributes)) s next t) :
    (∃ after, Event.advance (.opens line tag attributes) levels = some after ∧ Portable disk disk' p t after)
      ∧ Runs (Event.take disk' (.opens line' tag attributes)) (s.reframe probe visited) none
        (t.reframe probe visited) := by
  obtain ⟨after, hadvance, hafter⟩ := follows_opens h.follows hrun
  obtain ⟨l, rest, e, rfl, he, hetag, -, hknown⟩ := known_of_opens h.follows hrun
  obtain ⟨-, hopen⟩ := (opens_iff_of_known hknown).mp hrun
  rw [Event.advance, elementOfTag?_followers.mpr ⟨he, hetag⟩, Option.map_some, Option.some.injEq] at hadvance
  subst hadvance
  have hprobe : e ≠ .codecProbe := by
    rintro rfl
    exact htag hetag.symm
  have hcase : e ≠ .codecCase := by
    rintro rfl
    exact h.plain l List.mem_cons_self ((place_of_allowed (allowed_of_follows he)).2.2 rfl)
  have hread' : ∀ name, ("file", name) ∈ attributes →
      disk'.read (s.file.resolve name) = disk.read (s.file.resolve name) := by
    intro name hname
    rw [h.located.file]
    exact hread name (mem_fileNames.mpr hname)
  have hopen' := (alike_openKnown probe visited s.inner.element hprobe hcase hread').runs hopen
  -- what opens is settled by the frames, which both states share
  refine ⟨⟨_, ?_, hafter, ?_, ?_, ?_⟩, (opens_iff_of_known (by exact hknown)).mpr ⟨rfl, hopen'⟩⟩
  · rw [Event.advance, elementOfTag?_followers.mpr ⟨he, hetag⟩, Option.map_some]
  · have hplain := h.plain
    rw [List.forall_mem_cons] at hplain ⊢
    rw [List.forall_mem_cons]
    exact ⟨fun heq => hprobe (Option.some.inj heq), hplain⟩
  · have ht := (located_steps h.located (steps_of_take hrun)).1
    rwa [ht.visited]
  · simp only [openKnown, bind_iff, modify_iff, ofResult_iff] at hopen
    obtain ⟨values, _, ⟨hwritten, rfl⟩, _, w, hbegin, rfl⟩ := hopen
    have hw : ∀ v ∈ w.values, v.Agrees disk disk' :=
      agrees_beginElement h.agrees (fun name hname => hread' name (mem_of_ofWritten hwritten hname)) hbegin
    exact hw

/-- Closing an element adds no value. -/
theorem values_closes (h : Follows s levels) (hrun : Runs (Event.take disk (.closes line)) s none t) :
    ∀ v ∈ t.values, v ∈ s.values := by
  intro v hv
  have htracks := h.tracks
  cases levels with
  | nil =>
    -- with no element open there is nothing to close
    cases hframes : s.frames with
    | nil =>
      have hclose := atLine_iff.mp hrun
      simp only [closeElement, bind_iff, get_iff] at hclose
      obtain ⟨_, _, ⟨rfl, rfl⟩, hclose⟩ := hclose
      rw [hframes] at hclose
      obtain ⟨-, rfl⟩ := pure_iff.mp hclose
      exact hv
    | cons f outer =>
      rw [hframes] at htracks
      exact absurd htracks id
  | cons l rest =>
    have hcloses := closes_of_closes h hrun
    revert hcloses
    generalize l.element = element
    intro hcloses
    cases hcloses with
    | ends hend _ => exact mem_values_ends hend hv
    | leaves => exact hv

variable (probe visited) in
/-- Closing an element does the same, if it is no codec probe and the values of the assignments read alike. -/
theorem alike_closeElement (hprobe : ∀ f outer, s.frames = f :: outer → f.element ≠ some .codecProbe)
    (hagrees : ∀ v ∈ s.values, v.Agrees disk disk') :
    Alike .refused probe visited s (closeElement disk') (closeElement disk) := by
  refine alike_get ?_
  rw [State.frames_reframe]
  cases hframes : s.frames with
  | nil => exact alike_pure none
  | cons f outer =>
    refine alike_bind (alike_modify rfl) fun _ u hu => ?_
    obtain rfl := modify_iff.mp hu
    cases hf : f.element with
    | none => exact alike_pure none
    | some e =>
      have he : e ≠ .codecProbe := by
        rintro rfl
        exact hprobe f outer hframes hf
      refine alike_endElement he (fun hk => absurd hk (by decide)) fun _ desk _ => Desk.apply_congr_disk ?_ desk
      exact fun a ha => hagrees _ (List.mem_map_of_mem (List.mem_append_left _ ha))

theorem portable_closes (h : Portable disk disk' p s levels)
    (hrun : Runs (Event.take disk (.closes line)) s none t) : Portable disk disk' p t levels.tail
      ∧ Runs (Event.take disk' (.closes line')) (s.reframe probe visited) none (t.reframe probe visited) := by
  have hprobe : ∀ f outer, s.frames = f :: outer → f.element ≠ some .codecProbe := by
    intro f outer hframes
    have htracks := h.follows.tracks
    rw [hframes] at htracks
    cases levels with
    | nil => exact absurd htracks id
    | cons l rest =>
      rw [htracks.1]
      exact h.plain l List.mem_cons_self
  have halike := alike_closeElement probe visited hprobe h.agrees
  refine ⟨⟨follows_closes h.follows hrun, fun l hl => h.plain l (List.mem_of_mem_tail hl), ?_,
    fun v hv => h.agrees v (values_closes h.follows hrun v hv)⟩, atLine_iff.mpr (halike.runs (atLine_iff.mp hrun))⟩
  have ht := (located_steps h.located (steps_of_take hrun)).1
  rwa [ht.visited]

theorem portable_take {event event' : Event} (h : Portable disk disk' p s levels)
    (hsame : event'.unlined = event.unlined) (htag : event.opensTag "codec_probe" = false)
    (hread : ∀ name ∈ event.fileNames, disk'.read (p.resolve name) = disk.read (p.resolve name))
    (hrun : Runs (event.take disk) s none t) :
    (∃ after, event.advance levels = some after ∧ Portable disk disk' p t after)
      ∧ Runs (event'.take disk') (s.reframe probe visited) none (t.reframe probe visited) := by
  cases event with
  | opens line tag attributes =>
    cases event' with
    | opens line' tag' attributes' =>
      cases hsame
      exact portable_opens h (by simpa [Event.opensTag] using htag) hread hrun
    | closes => cases hsame
  | closes line =>
    cases event' with
    | opens => cases hsame
    | closes line' =>
      obtain ⟨ht, hrun'⟩ := portable_closes h hrun
      exact ⟨⟨levels.tail, rfl, ht⟩, hrun'⟩

variable (probe visited) in
/-- Events that are taken on one disk are taken on the other one, and lead to the same state but for the
codec probe and the files taken up before. -/
theorem portable_takeAll {events events' : List Event} (h : Portable disk disk' p s levels)
    (hsame : events'.map Event.unlined = events.map Event.unlined)
    (htag : ∀ event ∈ events, event.opensTag "codec_probe" = false)
    (hread : ∀ event ∈ events, ∀ name ∈ event.fileNames, disk'.read (p.resolve name) = disk.read (p.resolve name))
    (hrun : Runs (takeAll disk events) s none t) : (∃ after, Portable disk disk' p t after)
      ∧ Runs (takeAll disk' events') (s.reframe probe visited) none (t.reframe probe visited) := by
  induction events generalizing s levels events' with
  | nil =>
    obtain ⟨-, rfl⟩ := pure_iff.mp hrun
    rw [List.map_nil, List.map_eq_nil_iff] at hsame
    exact ⟨⟨levels, h⟩, hsame ▸ pure_iff.mpr ⟨rfl, rfl⟩⟩
  | cons event more ih =>
    rw [List.forall_mem_cons] at htag hread
    rw [List.map_cons, List.map_eq_cons_iff] at hsame
    obtain ⟨event', more', rfl, hevent, hmore⟩ := hsame
    obtain ⟨r, u, htake, hrest⟩ := bind_iff.mp hrun
    cases r with
    | some next => exact nomatch (pure_iff.mp hrest).1
    | none =>
      obtain ⟨⟨after, -, hu⟩, htake'⟩ := portable_take h hevent htag.1 hread.1 htake
      obtain ⟨hlast, hrest'⟩ := ih hu hmore htag.2 hread.2 hrest
      exact ⟨hlast, bind_iff.mpr ⟨none, _, htake', hrest'⟩⟩

end Config

end SoundRouting
