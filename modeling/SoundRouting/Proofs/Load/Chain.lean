import Mathlib.Data.List.Nodup
import Mathlib.Data.List.Perm.Subperm
import Mathlib.Data.Nat.Digits.Defs
import SoundRouting.Proofs.Load.Steps
/-!
The files of a load.

A load takes up one file after the other, each in the state that the one before left. Their names have
different parts, so that there are fewer of them than a load may take up, and the load ends as it ends in
the last one.
-/
namespace SoundRouting

def FileTree.ofText (text : String) : FileTree :=
  .file text.toByteArray.data.toList

/-- The bytes of an array, from a place on, behind those that have been taken. -/
theorem FileTree.toList_loop (bytes : ByteArray) (i : Nat) (taken : List UInt8) :
    ByteArray.toList.loop bytes i taken = taken.reverse ++ bytes.data.toList.drop i := by
  fun_induction ByteArray.toList.loop bytes i taken with
  | case1 i taken hlt ih =>
    have hdrop : bytes.data.toList.drop i = bytes.get! i :: bytes.data.toList.drop (i + 1) := by
      rw [List.drop_eq_getElem_cons (by simpa using hlt)]
      congr 1
      simp [ByteArray.get!, getElem!_pos bytes.data i hlt]
    rw [ih, hdrop, List.reverse_cons, List.append_assoc, List.singleton_append]
  | case2 i taken hge =>
    rw [List.drop_eq_nil_of_le (by simpa using hge), List.append_nil]

theorem FileTree.file_toUTF8 (text : String) : FileTree.file text.toUTF8.toList = .ofText text := by
  rw [ByteArray.toList, toList_loop]
  rfl

theorem Disk.readText_of_find {disk : Disk} {p : Location} {text : String}
    (h : disk.find p = .ok (.ofText text)) : disk.readText p = .ok text := by
  have hdecode : decode? text.toByteArray.data.toList = some text := by
    have hvalid := text.isValidUTF8
    rw [decode?, Array.toArray_toList, String.fromUTF8?, dif_pos hvalid]
    rfl
  rw [readText, read, h, FileTree.ofText]
  simp only [hdecode]

theorem Disk.find_of_steps (disk : Disk) {p : Location} {steps : List String}
    (hwritten : p.chars.isEmpty = false ∧ p.chars.any (· == '\x00') = false ∧ p.text.utf8ByteSize ≤ maxLocation)
    (hsteps : writtenSteps (disk.folder.join p).text = steps) : disk.find p = FileTree.follow [] disk.root steps := by
  obtain ⟨hsome, hvalid, hshort⟩ := hwritten
  rw [find, hsome, hvalid, if_neg Bool.false_ne_true, if_neg Bool.false_ne_true, if_neg (Nat.not_lt.mpr hshort), hsteps]

namespace Config

open Runs

/-- The load of a configuration takes up this file in this state, after the earlier ones. -/
inductive TakesUp (disk : Disk) (rack : Rack) (file : Location) : List Location → Location → State → Prop
  | first : TakesUp disk rack file [] (Location.absolute disk.folder file) (State.start rack)
  | next {earlier : List Location} {p next : Location} {s t : State}
      (h : TakesUp disk rack file earlier p s) (hrun : Runs (loadFile disk p) s (some next) t) :
      TakesUp disk rack file (earlier ++ [p]) next t

variable {disk : Disk} {rack : Rack} {file : Location} {earlier : List Location} {p : Location}
  {s t : State} {elements : List Xml.Element} {events done rest : List Event} {r : Option Location}

theorem runs_loadFile : Runs (loadFile disk p) s r t ↔ ∃ elements, readTree disk p = .ok elements
    ∧ Runs (takeAll disk (eventsOfAll elements)) (s.enter p) r t := by
  simp only [loadFile, walkElements_eq_takeAll, bind_iff, ofResult_iff, modify_iff]
  constructor
  · rintro ⟨elements, _, ⟨hread, rfl⟩, _, _, rfl, hrun⟩
    exact ⟨elements, hread, hrun⟩
  · rintro ⟨elements, hread, hrun⟩
    exact ⟨elements, _, ⟨hread, rfl⟩, (), _, rfl, hrun⟩

theorem runs_takeAll_append : Runs (takeAll disk (done ++ rest)) s none t ↔ ∃ u,
    Runs (takeAll disk done) s none u ∧ Runs (takeAll disk rest) u none t := by
  rw [takeAll_append, bind_iff]
  constructor
  · rintro ⟨r, u, hdone, hrest⟩
    cases r with
    | none => exact ⟨u, hdone, hrest⟩
    | some next => exact nomatch (pure_iff.mp hrest).1
  · rintro ⟨u, hdone, hrest⟩
    exact ⟨none, u, hdone, hrest⟩

theorem runs_takeAll_one {e : Event} : Runs (takeAll disk [e]) s none t ↔ Runs (e.take disk) s none t := by
  rw [takeAll, bind_iff]
  constructor
  · rintro ⟨r, u, htake, h⟩
    cases r with
    | none =>
      obtain ⟨-, rfl⟩ := pure_iff.mp h
      exact htake
    | some next => exact nomatch (pure_iff.mp h).1
  · exact fun htake => ⟨none, t, htake, pure_iff.mpr ⟨rfl, rfl⟩⟩

theorem runs_takeAll_cons {e : Event} : Runs (takeAll disk (e :: rest)) s none t ↔ ∃ u,
    Runs (e.take disk) s none u ∧ Runs (takeAll disk rest) u none t := by
  rw [← List.singleton_append, runs_takeAll_append]
  simp only [runs_takeAll_one]

/-- Events that lead to another file do so with one of them, which the others are not taken after. -/
theorem runs_takeAll_some {next : Location} (h : Runs (takeAll disk events) s (some next) t) :
    ∃ done e rest u, events = done ++ e :: rest ∧ Runs (takeAll disk done) s none u
      ∧ Runs (e.take disk) u (some next) t := by
  induction events generalizing s with
  | nil => exact nomatch (pure_iff.mp h).1
  | cons e more ih =>
    obtain ⟨r, u, htake, h⟩ := bind_iff.mp h
    cases r with
    | none =>
      obtain ⟨done, e', rest, v, rfl, hdone, hnext⟩ := ih h
      exact ⟨e :: done, e', rest, v, rfl, bind_iff.mpr ⟨none, u, htake, hdone⟩, hnext⟩
    | some other =>
      obtain ⟨hother, rfl⟩ := pure_iff.mp h
      cases hother
      exact ⟨[], e, more, s, rfl, pure_iff.mpr ⟨rfl, rfl⟩, htake⟩

/-- Taking events fails where one of them does that all before it lead to. -/
theorem error_takeAll_iff {events : List Event} {err : Error} :
    (takeAll disk events).run.run s = (.error err, t) ↔ ∃ done event rest u, events = done ++ event :: rest
      ∧ Runs (takeAll disk done) s none u ∧ (event.take disk).run.run u = (.error err, t) := by
  induction events generalizing s with
  | nil =>
    refine iff_of_false (fun h => by cases h) ?_
    rintro ⟨done, event, rest, -, hevents, -⟩
    exact absurd hevents.symm (List.append_ne_nil_of_right_ne_nil done (List.cons_ne_nil event rest))
  | cons first more ih =>
    rw [takeAll, error_bind_iff]
    constructor
    · rintro (hfails | ⟨r, u, htake, hmore⟩)
      · exact ⟨[], first, more, s, rfl, pure_iff.mpr ⟨rfl, rfl⟩, hfails⟩
      · cases r with
        | some next => cases hmore
        | none =>
          obtain ⟨done, event, rest, v, rfl, hdone, hevent⟩ := ih.mp hmore
          exact ⟨first :: done, event, rest, v, rfl, bind_iff.mpr ⟨none, u, htake, hdone⟩, hevent⟩
    · rintro ⟨done, event, rest, v, hevents, hdone, hevent⟩
      cases done with
      | nil =>
        cases hevents
        obtain ⟨-, rfl⟩ := pure_iff.mp hdone
        exact Or.inl hevent
      | cons first' done =>
        cases hevents
        obtain ⟨r, u, htake, hdone⟩ := bind_iff.mp hdone
        cases r with
        | some next => cases (pure_iff.mp hdone).1
        | none => exact Or.inr ⟨none, u, htake, ih.mpr ⟨done, event, rest, v, rfl, hdone, hevent⟩⟩

/-- What every event of some events keeps is kept by all of them. -/
theorem takeAll_induction {I : List Event → State → Prop} (hfirst : I [] s)
    (hstep : ∀ done e rest u v, events = done ++ e :: rest → Runs (takeAll disk done) s none u → I done u →
      Runs (e.take disk) u none v → I (done ++ [e]) v) :
    ∀ done rest t, events = done ++ rest → Runs (takeAll disk done) s none t → I done t := by
  intro done
  induction done using List.reverseRecOn with
  | nil =>
    intro rest t _ hrun
    obtain ⟨-, rfl⟩ := pure_iff.mp hrun
    exact hfirst
  | append_singleton done e ih =>
    intro rest t hevents hrun
    rw [List.append_assoc, List.singleton_append] at hevents
    obtain ⟨u, hdone, hlast⟩ := runs_takeAll_append.mp hrun
    exact hstep done e rest u t hevents hdone (ih _ u hevents hdone) (runs_takeAll_one.mp hlast)

theorem Reaches.of_done (h : Reaches disk rack file s (done ++ rest)) (hrun : Runs (takeAll disk done) s none t) :
    Reaches disk rack file t rest := by
  induction done generalizing s with
  | nil =>
    obtain ⟨-, rfl⟩ := pure_iff.mp hrun
    exact h
  | cons e more ih =>
    obtain ⟨r, u, htake, hrest⟩ := bind_iff.mp hrun
    cases r with
    | none => exact ih (h.event htake) hrest
    | some next => exact nomatch (pure_iff.mp hrest).1

/-- A file that is taken up is gone through from its top. -/
theorem TakesUp.reaches (h : TakesUp disk rack file earlier p s) (hread : readTree disk p = .ok elements) :
    Reaches disk rack file (s.enter p) (eventsOfAll elements) := by
  induction h generalizing elements with
  | first => exact .first hread
  | next _ hrun ih =>
    obtain ⟨before, hbefore, hwalk⟩ := runs_loadFile.mp hrun
    exact ((ih hbefore).of_takeAll hwalk).2 _ elements rfl hread

theorem eq_ok_of_toOption {α β : Type} {r : Except β α} {c : α} (h : r.toOption = some c) : r = .ok c := by
  cases r with
  | error e => cases h
  | ok c' => rw [← Option.some.inj h]

theorem Runs.of_toOption {α : Type} {action : LoadM α} {c : α}
    (h : (action.run.run s).1.toOption = some c) : Runs action s c (action.run.run s).2 :=
  Prod.ext (eq_ok_of_toOption h) rfl

/-- Loading a file takes its events. -/
theorem run_loadFile (h : (readTree disk p).toOption.map eventsOfAll = some events) (s : State) :
    (loadFile disk p).run.run s = (takeAll disk events).run.run (s.enter p) := by
  cases hread : readTree disk p with
  | error e =>
    rw [hread] at h
    cases h
  | ok elements =>
    rw [hread] at h
    obtain rfl : eventsOfAll elements = events := Option.some.inj h
    rw [loadFile, hread, ← walkElements_eq_takeAll]
    rfl

/-- There is one chain of files that are taken up. -/
theorem TakesUp.unique (h : TakesUp disk rack file earlier p s) {earlier' : List Location} {p' : Location}
    {s' : State} (h' : TakesUp disk rack file earlier' p' s') (hlength : earlier'.length = earlier.length) :
    earlier' = earlier ∧ p' = p ∧ s' = s := by
  induction h generalizing earlier' p' s' with
  | first =>
    cases h' with
    | first => exact ⟨rfl, rfl, rfl⟩
    | next => simp at hlength
  | next _ hrun ih =>
    cases h' with
    | first => simp at hlength
    | next h' hrun' =>
      rw [List.length_append, List.length_append] at hlength
      obtain ⟨rfl, rfl, rfl⟩ := ih h' (Nat.add_right_cancel hlength)
      obtain ⟨hnext, rfl⟩ := hrun.unique hrun'
      exact ⟨rfl, Option.some.inj hnext, rfl⟩

theorem TakesUp.length_le (h : TakesUp disk rack file earlier p s)
    (hlast : ∀ next t, ¬ Runs (loadFile disk p) s (some next) t) {earlier' : List Location} {p' : Location}
    {s' : State} (h' : TakesUp disk rack file earlier' p' s') : earlier'.length ≤ earlier.length := by
  induction h' with
  | first => exact Nat.zero_le _
  | next h' hrun ih =>
    rw [List.length_append, List.length_singleton]
    refine Nat.lt_of_le_of_ne ih fun hlength => ?_
    obtain ⟨-, rfl, rfl⟩ := h.unique h' hlength
    exact hlast _ _ hrun

/-- One file only does not hand over. -/
theorem TakesUp.unique_of_last (h : TakesUp disk rack file earlier p s)
    (hlast : ∀ next t, ¬ Runs (loadFile disk p) s (some next) t) {earlier' : List Location} {p' : Location}
    {s' : State} (h' : TakesUp disk rack file earlier' p' s')
    (hlast' : ∀ next t, ¬ Runs (loadFile disk p') s' (some next) t) : earlier' = earlier ∧ p' = p ∧ s' = s :=
  h.unique h' (Nat.le_antisymm (h.length_le hlast h') (h'.length_le hlast' h))

/-- No file is taken up behind the one that does not hand over. -/
theorem TakesUp.mem_of_last (h : TakesUp disk rack file earlier p s)
    (hlast : ∀ next t, ¬ Runs (loadFile disk p) s (some next) t) {earlier' : List Location} {p' : Location}
    {s' : State} (h' : TakesUp disk rack file earlier' p' s') : p' ∈ earlier ++ [p] := by
  have hmem : ∀ {earlier p s}, TakesUp disk rack file earlier p s → ∀ n ≤ earlier.length,
      ∃ before q u, TakesUp disk rack file before q u ∧ before.length = n ∧ q ∈ earlier ++ [p] := by
    intro earlier p s h
    induction h with
    | first => exact fun n hn => ⟨[], _, _, .first, (Nat.le_zero.mp hn).symm, List.mem_cons_self⟩
    | @next earlier p next s t h hrun ih =>
      intro n hn
      rcases Nat.le_succ_iff.mp (by simpa using hn) with hn | rfl
      · obtain ⟨before, q, u, hq, hbefore, hmem⟩ := ih n hn
        exact ⟨before, q, u, hq, hbefore, List.mem_append_left _ hmem⟩
      · exact ⟨_, next, t, h.next hrun, by simp, List.mem_append_right _ List.mem_cons_self⟩
  obtain ⟨before, q, u, hq, hbefore, hmem⟩ := hmem h _ (h.length_le hlast h')
  obtain ⟨-, rfl, -⟩ := hq.unique h' hbefore.symm
  exact hmem

/-! ### Where the names come from -/

/-- The file that is being read, those taken up so far, and the files its codec probe may hand over to. -/
structure Located (p : Location) (visited : List Location) (s : State) : Prop where
  file : s.file = p
  visited : s.visited = visited
  cases : ∀ probe, s.probe = some probe → ∀ c ∈ probe.cases.toList, ∃ name, c.file = p.resolve name

variable {visited : List Location}

theorem located_enter (s : State) (p : Location) : Located p (s.visited ++ [p]) (s.enter p) :=
  ⟨rfl, rfl, nofun⟩

theorem Located.of_eq (h : Located p visited s) (hfile : t.file = s.file) (hvisited : t.visited = s.visited)
    (hprobe : t.probe = s.probe) : Located p visited t :=
  ⟨hfile.trans h.file, hvisited.trans h.visited, by rw [hprobe]; exact h.cases⟩

theorem located_begins {parent : Option ElementKind} {e : ElementKind} (h : Located p visited s)
    (hbegin : Begins disk s parent e t) : Located p visited t := by
  cases hbegin with
  | aside hprobes =>
    refine ⟨h.file, h.visited, ?_⟩
    cases hprobes with
    | kept => exact h.cases
    | declared name =>
      rintro _ ⟨⟩ c hc
      exact absurd hc List.not_mem_nil
    | extended codec name hprobe hpush =>
      rintro _ ⟨⟩
      rw [← h.file]
      exact GranularArray.forall_push hpush (by rw [h.file]; exact h.cases _ hprobe) ⟨name, rfl⟩
  | mixer =>
    simp only [State.detached]
    split <;> exact h.of_eq rfl rfl rfl
  | control _ hbind hlists =>
    rcases bindEarly_cases hbind with ⟨-, -, rfl⟩ | ⟨_, _, _, -, -, rfl⟩ <;> cases hlists <;>
      exact h.of_eq rfl rfl rfl
  | volume _ hbind =>
    obtain ⟨_, -, -, -, rfl⟩ := bindVolumeEarly_cases hbind
    exact h.of_eq rfl rfl rfl
  | device | path | anonymous | named | setting => exact h.of_eq rfl rfl rfl

/-- Every event keeps to the file; the next one is named by this one and has not been taken up before. -/
theorem located_steps (h : Located p visited s) (hsteps : Steps disk s r t) : Located p visited t
    ∧ ∀ next, r = some next → (∃ name, next = p.resolve name) ∧ ∀ q ∈ visited, q.sameAs next = false := by
  cases hsteps with
  | opens _ hbegin => exact ⟨(located_begins h hbegin).of_eq rfl rfl rfl, nofun⟩
  | closes _ _ hend hnext =>
    refine ⟨?_, fun next hr => ?_⟩
    · cases hend with
      | aside => exact h.of_eq rfl rfl rfl
      | preInit => exact h.of_eq rfl rfl rfl
    · obtain ⟨-, probe, hprobe, ⟨c, hc, rfl⟩, hnew⟩ := hnext next hr
      exact ⟨h.cases probe hprobe c hc, by rw [← h.visited]; exact hnew⟩
  | leaves => exact ⟨h.of_eq rfl rfl rfl, nofun⟩
  | rests => exact ⟨h, nofun⟩

theorem located_takeAll (h : Located p visited s) (hrun : Runs (takeAll disk events) s r t) :
    Located p visited t
      ∧ ∀ next, r = some next → (∃ name, next = p.resolve name) ∧ ∀ q ∈ visited, q.sameAs next = false := by
  induction events generalizing s with
  | nil =>
    obtain ⟨rfl, rfl⟩ := pure_iff.mp hrun
    exact ⟨h, nofun⟩
  | cons e more ih =>
    obtain ⟨r', u, htake, hrest⟩ := bind_iff.mp hrun
    obtain ⟨hu, hnext⟩ := located_steps h (steps_of_take htake)
    cases r' with
    | none => exact ih hu hrest
    | some next =>
      obtain ⟨rfl, rfl⟩ := pure_iff.mp hrest
      exact ⟨hu, hnext⟩

/-- The files that are taken up remember the earlier ones, and have different parts. -/
theorem TakesUp.apart (h : TakesUp disk rack file earlier p s) : s.visited = earlier
    ∧ (earlier ++ [p]).Pairwise fun q q' => q.sameAs q' = false := by
  induction h with
  | first => exact ⟨rfl, List.pairwise_singleton _ _⟩
  | @next earlier p next s t h hrun ih =>
    obtain ⟨hvisited, hapart⟩ := ih
    obtain ⟨elements, -, hwalk⟩ := runs_loadFile.mp hrun
    obtain ⟨ht, hnext⟩ := located_takeAll (located_enter s p) hwalk
    rw [hvisited] at ht hnext
    refine ⟨ht.visited, List.pairwise_append.mpr ⟨hapart, List.pairwise_singleton _ _, ?_⟩⟩
    rintro q hq _ (_ | ⟨_, ⟨⟩⟩)
    exact (hnext next rfl).2 q hq

/-- Every file but the first is named by the one before. -/
theorem TakesUp.induction {I : Location → Prop} (hfirst : I (Location.absolute disk.folder file))
    (hnext : ∀ p name elements, I p → readTree disk p = .ok elements → I (p.resolve name))
    (h : TakesUp disk rack file earlier p s) : ∀ q ∈ earlier ++ [p], I q := by
  induction h with
  | first => exact fun q hq => by rwa [List.mem_singleton.mp hq]
  | @next earlier p next s t h hrun ih =>
    obtain ⟨elements, hread, hwalk⟩ := runs_loadFile.mp hrun
    obtain ⟨⟨name, rfl⟩, -⟩ := (located_takeAll (located_enter s p) hwalk).2 next rfl
    rw [List.forall_mem_append, List.forall_mem_singleton]
    exact ⟨ih, hnext p name elements (ih p (List.mem_append_right _ List.mem_cons_self)) hread⟩

/-- All files but the last could be read. -/
theorem TakesUp.read (h : TakesUp disk rack file earlier p s) :
    ∀ q ∈ earlier, ∃ elements, readTree disk q = .ok elements := by
  induction h with
  | first => exact fun _ h => absurd h List.not_mem_nil
  | next _ hrun ih =>
    obtain ⟨elements, hread, -⟩ := runs_loadFile.mp hrun
    rw [List.forall_mem_append, List.forall_mem_singleton]
    exact ⟨ih, elements, hread⟩

/-! ### The end of a load -/

/-- A text as a number: its bytes as digits, below a one. -/
def numberOf (text : String) : Nat :=
  Nat.ofDigits 256 (text.toByteArray.data.toList.map UInt8.toNat ++ [1])

theorem digits_numberOf (text : String) :
    (256).digits (numberOf text) = text.toByteArray.data.toList.map UInt8.toNat ++ [1] := by
  refine Nat.digits_ofDigits 256 (by decide) _ ?_ fun _ => ?_
  · rw [List.forall_mem_append, List.forall_mem_singleton, List.forall_mem_map]
    exact ⟨fun b _ => b.toNat_lt, by decide⟩
  · rw [List.getLast_append_singleton]
    decide

theorem numberOf_injective {a b : String} (h : numberOf a = numberOf b) : a = b := by
  have hdigits := congrArg (256).digits h
  rw [digits_numberOf, digits_numberOf] at hdigits
  have hbytes := List.map_injective_iff.mpr (fun _ _ => UInt8.toNat_inj.mp) (List.append_cancel_right hdigits)
  exact String.toByteArray_inj.mp (ByteArray.ext (Array.toList_inj.mp hbytes))

theorem numberOf_lt {text : String} {n : Nat} (h : text.utf8ByteSize ≤ n) : numberOf text < 256 ^ (n + 1) := by
  have hdigits : ∀ d ∈ text.toByteArray.data.toList.map UInt8.toNat ++ [1], d < 256 := by
    rw [List.forall_mem_append, List.forall_mem_singleton, List.forall_mem_map]
    exact ⟨fun b _ => b.toNat_lt, by decide⟩
  refine (Nat.ofDigits_lt_base_pow_length (by decide) hdigits).trans_le (Nat.pow_le_pow_right (by decide) ?_)
  rw [List.length_append, List.length_map]
  exact Nat.succ_le_succ h

/-- There are fewer texts of a limited length than this. -/
theorem length_lt_of_short {texts : List String} {n : Nat} (hnodup : texts.Nodup)
    (h : ∀ text ∈ texts, text.utf8ByteSize ≤ n) : texts.length < Nat.pow 256 (n + 1) := by
  rw [Nat.pow_eq]
  have hmap : (0 :: texts.map numberOf).Nodup := by
    refine List.nodup_cons.mpr ⟨fun hmem => ?_, List.Nodup.map (fun _ _ => numberOf_injective) hnodup⟩
    obtain ⟨text, -, hzero⟩ := List.mem_map.mp hmem
    have hdigits := digits_numberOf text
    rw [hzero, Nat.digits_zero] at hdigits
    exact absurd hdigits.symm (List.append_ne_nil_of_right_ne_nil _ (by decide))
  have hsub : ∀ k ∈ 0 :: texts.map numberOf, k ∈ List.range (256 ^ (n + 1)) := by
    simp only [List.forall_mem_cons, List.forall_mem_map, List.mem_range]
    exact ⟨Nat.pow_pos (by decide), fun text htext => numberOf_lt (h text htext)⟩
  have hle := (hmap.subperm hsub).length_le
  rwa [List.length_cons, List.length_map, List.length_range] at hle

theorem readable_of_readTree (h : readTree disk p = .ok elements) : ∃ bytes, disk.read p = .ok bytes := by
  simp only [readTree, Disk.readText] at h
  cases hread : disk.read p with
  | ok bytes => exact ⟨bytes, rfl⟩
  | error fault =>
    rw [hread] at h
    cases h

theorem short_of_read {bytes : List UInt8} (h : disk.read p = .ok bytes) :
    p.text.utf8ByteSize ≤ Disk.maxLocation := by
  simp only [Disk.read, Disk.find] at h
  by_contra hlong
  rw [if_pos (Nat.lt_of_not_le hlong)] at h
  split at h
  · rename_i hfind
    split at hfind
    · cases hfind
    · split at hfind <;> cases hfind
  · cases h
  · cases h

/-- A load takes up fewer files than it may. -/
theorem TakesUp.length_lt (h : TakesUp disk rack file earlier p s) : earlier.length < chainBound := by
  have hapart := (List.pairwise_append.mp h.apart.2).1
  have hnodup : (earlier.map (·.text)).Nodup := by
    rw [List.Nodup, List.pairwise_map]
    refine hapart.imp fun {q q'} hne htext => ?_
    obtain rfl : q = q' := by
      cases q
      cases q'
      exact congrArg Location.mk htext
    rw [Location.sameAs_refl] at hne
    cases hne
  have hshort : ∀ text ∈ earlier.map (·.text), text.utf8ByteSize ≤ Disk.maxLocation := by
    rw [List.forall_mem_map]
    intro q hq
    obtain ⟨elements, hread⟩ := h.read q hq
    obtain ⟨bytes, hbytes⟩ := readable_of_readTree hread
    exact short_of_read hbytes
  have hlt := length_lt_of_short hnodup hshort
  rw [List.length_map] at hlt
  unfold chainBound
  exact hlt

/-- A chain of files ends as it ends in the last one. -/
theorem loadChain_ends {bound : Nat} (h : TakesUp disk rack file earlier p s)
    (hbound : earlier.length + bound = chainBound) :
    ∃ earlier' last u, TakesUp disk rack file earlier' last u
      ∧ ((∃ t, Runs (loadFile disk last) u none t ∧ Runs (loadChain disk bound p) s () t)
        ∨ ∃ e t, (loadFile disk last).run.run u = (.error e, t)
          ∧ (loadChain disk bound p).run.run s = (.error e, t)) := by
  induction bound generalizing earlier p s with
  | zero =>
    have hlt := h.length_lt
    rw [← hbound] at hlt
    exact absurd hlt (Nat.lt_irrefl _)
  | succ bound ih =>
    have hchain : (loadChain disk (bound + 1) p).run.run s = match (loadFile disk p).run.run s with
        | (.ok none, t) => (.ok (), t)
        | (.ok (some next), t) => (loadChain disk bound next).run.run t
        | (.error e, t) => (.error e, t) := by
      rw [loadChain, run_bind]
      cases (loadFile disk p).run.run s with
      | mk result t =>
        cases result with
        | error e => rfl
        | ok r => cases r <;> rfl
    cases hrun : (loadFile disk p).run.run s with
    | mk result t =>
      rw [hrun] at hchain
      cases result with
      | error e => exact ⟨earlier, p, s, h, Or.inr ⟨e, t, hrun, hchain⟩⟩
      | ok r =>
        cases r with
        | none => exact ⟨earlier, p, s, h, Or.inl ⟨t, hrun, hchain⟩⟩
        | some next =>
          simp only [Runs, hchain]
          refine ih (h.next hrun) ?_
          rw [List.length_append, List.length_singleton]
          omega

/-- The load ends in a file that is taken up in this state: it fails where the file does, or finishes
after it. -/
def EndsIn (disk : Disk) (rack : Rack) (file last : Location) (s : State) : Prop :=
  (∃ t, Runs (loadFile disk last) s none t
    ∧ load disk rack file = (((finish disk).run.run t).1, ((finish disk).run.run t).2.rack))
  ∨ ∃ e t, (loadFile disk last).run.run s = (.error e, t) ∧ load disk rack file = (.error e, t.rack)

/-- The file that a load ends in does not hand over. -/
theorem EndsIn.last (h : EndsIn disk rack file p s) (next : Location) (t : State) :
    ¬ Runs (loadFile disk p) s (some next) t := by
  intro hnext
  rcases h with ⟨u, hrun, -⟩ | ⟨e, u, hfails, -⟩
  · exact hrun.not_some hnext
  · exact hnext.not_error hfails

/-- A load ends in one of the files that it takes up. -/
theorem load_ends (disk : Disk) (rack : Rack) (file : Location) :
    ∃ earlier last s, TakesUp disk rack file earlier last s ∧ EndsIn disk rack file last s := by
  have hfirst : TakesUp disk rack file [] (Location.absolute disk.folder file) (State.start rack) := .first
  obtain ⟨earlier, last, s, htakes, hends⟩ := loadChain_ends hfirst (by rw [List.length_nil, Nat.zero_add])
  refine ⟨earlier, last, s, htakes, ?_⟩
  have hload : load disk rack file
      = match (loadChain disk chainBound (Location.absolute disk.folder file)).run.run (State.start rack) with
        | (.ok (), t) => (((finish disk).run.run t).1, ((finish disk).run.run t).2.rack)
        | (.error e, t) => (.error e, t.rack) := by
    rw [load, run_bind]
    cases (loadChain disk chainBound (Location.absolute disk.folder file)).run.run (State.start rack) with
    | mk result t => cases result <;> rfl
  rw [EndsIn, hload]
  rcases hends with ⟨t, hlast, hchain⟩ | ⟨e, t, hlast, hchain⟩
  · rw [Runs] at hchain
    exact Or.inl ⟨t, hlast, by rw [hchain]⟩
  · exact Or.inr ⟨e, t, hlast, by rw [hchain]⟩

/-- A load that succeeds finishes after its last file. -/
theorem finishes_of_load {loaded : Loaded} {after : Rack} (h : load disk rack file = (.ok loaded, after)) :
    ∃ earlier last s t u, TakesUp disk rack file earlier last s ∧ Runs (loadFile disk last) s none t
      ∧ Runs (finish disk) t loaded u ∧ u.rack = after := by
  obtain ⟨earlier, last, s, htakes, ⟨t, hlast, hload⟩ | ⟨e, t, -, hload⟩⟩ := load_ends disk rack file
  · rw [h, Prod.mk.injEq] at hload
    exact ⟨earlier, last, s, t, _, htakes, hlast, Prod.ext hload.1.symm rfl, hload.2.symm⟩
  · rw [h] at hload
    cases hload

/-- A load ends in the file that it takes up and that does not hand over. -/
theorem TakesUp.endsIn (h : TakesUp disk rack file earlier p s)
    (hlast : ∀ next t, ¬ Runs (loadFile disk p) s (some next) t) : EndsIn disk rack file p s := by
  obtain ⟨earlier', last, s', h', hends⟩ := load_ends disk rack file
  obtain ⟨-, rfl, rfl⟩ := h.unique_of_last hlast h' hends.last
  exact hends

/-- A load that gets through a file without another one, and finishes, succeeds. -/
theorem load_of_takesUp (h : TakesUp disk rack file earlier p s) (hrun : Runs (loadFile disk p) s none t)
    {loaded : Loaded} {u : State} (hfinish : Runs (finish disk) t loaded u) :
    load disk rack file = (.ok loaded, u.rack) := by
  rcases h.endsIn fun _ _ => hrun.not_some with ⟨t', hrun', hload⟩ | ⟨e, t', hfails, -⟩
  · obtain ⟨-, rfl⟩ := hrun.unique hrun'
    rw [hload, hfinish]
  · exact absurd hfails hrun.not_error

/-- A load fails where a file that it takes up does. -/
theorem TakesUp.load_of_error (h : TakesUp disk rack file earlier p s) {e : Error}
    (hfails : ((loadFile disk p).run.run s).1 = .error e) : (load disk rack file).1 = .error e := by
  have hfails : (loadFile disk p).run.run s = (.error e, ((loadFile disk p).run.run s).2) := Prod.ext hfails rfl
  rcases h.endsIn fun _ _ hnext => hnext.not_error hfails with ⟨t', hrun, -⟩ | ⟨e', t', hfails', hload⟩
  · exact absurd hfails hrun.not_error
  · rw [hfails, Prod.mk.injEq] at hfails'
    rw [hload, ← Except.error.inj hfails'.1]

/-- A file whose events lead to another one hands over to it. -/
theorem TakesUp.next_of_events (h : TakesUp disk rack file earlier p s)
    (hread : (readTree disk p).toOption.map eventsOfAll = some events) {next : Location}
    (hrun : ((takeAll disk events).run.run (s.enter p)).1.toOption = some (some next)) :
    TakesUp disk rack file (earlier ++ [p]) next ((takeAll disk events).run.run (s.enter p)).2 := by
  refine h.next ?_
  rw [Runs, run_loadFile hread]
  exact Runs.of_toOption hrun

/-- A load whose last file is gone through to its end finishes there. -/
theorem TakesUp.load_of_events (h : TakesUp disk rack file earlier p s)
    (hread : (readTree disk p).toOption.map eventsOfAll = some events)
    (hrun : ((takeAll disk events).run.run (s.enter p)).1.toOption = some none)
    (ht : ((takeAll disk events).run.run (s.enter p)).2 = t) (loaded : Loaded)
    (hfinish : ((finish disk).run.run t).1.toOption = some loaded) :
    Runs (loadFile disk p) s none t ∧ load disk rack file = (.ok loaded, ((finish disk).run.run t).2.rack) := by
  have hloads : Runs (loadFile disk p) s none t := by
    rw [Runs, run_loadFile hread, ← ht]
    exact Runs.of_toOption hrun
  exact ⟨hloads, load_of_takesUp h hloads (Runs.of_toOption hfinish)⟩

theorem TakesUp.start (hname : Location.absolute disk.folder file = p) :
    TakesUp disk rack file [] p (State.start rack) :=
  hname ▸ .first

/-! ### Disks that are written out -/

theorem toList_append_of {a b : String} {as bs : List Char} (ha : a.toList = as) (hb : b.toList = bs) :
    (a ++ b).toList = as ++ bs := by
  rw [String.toList_append, ha, hb]

/-- What can be said of the elements of a text can be said of those of a file with this text. The text is
given by its characters, since it takes long to take a text apart. -/
theorem readTree_of_find {α : Type} {f : List Xml.Element → α} {a : α} {text : String} {chars : List Char}
    (hfind : disk.find p = .ok (.ofText text)) (htext : text.toList = chars)
    (h : ∀ t : String, t.toList = chars → (Xml.elements? t).map f = some a) :
    (readTree disk p).toOption.map f = some a := by
  have hread : (readTree disk p).toOption = Xml.elements? text := by
    rw [readTree, Disk.readText_of_find hfind]
    dsimp only
    cases Xml.elements? text <;> rfl
  rw [hread]
  exact h text htext

end Config

end SoundRouting
