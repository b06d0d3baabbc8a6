import Mathlib.Data.List.TakeWhile
import SoundRouting.Files.Disk
/-!
The places of a tree of files.

Walking from the root of a tree, `..` takes back the step before. What a walk ends at is told by the names
that are left, its place; a tree has as many places with a file as it has files, and two walks end at the
same file if they come to the same place.
-/
namespace SoundRouting

namespace FileTree

mutual

def files : FileTree → List (List String)
  | .file _ => [[]]
  | .folder entries => filesOfAll entries

def filesOfAll : List (String × FileTree) → List (List String)
  | [] => []
  | e :: more => filesOf e ++ filesOfAll more

def filesOf : String × FileTree → List (List String)
  | (name, tree) => (files tree).map (name :: ·)

end

/-- The names that are left of some steps, after those in `above`, the last one first. -/
def settle : List String → List String → List String
  | above, [] => above.reverse
  | above, step :: more =>
    if step == "" || step == "." then settle above more
    else if step == ".." then settle above.tail more
    else settle (step :: above) more

/-- Names lead from the root of a tree, by these folders, to what is found there. The names and the folders
are in reverse order. -/
inductive Leads (root : FileTree) : List FileTree → FileTree → List String → Prop
  | root : Leads root [] root []
  | entry {above : List FileTree} {entries : List (String × FileTree)} {names : List String} {name : String}
      {tree : FileTree} (h : Leads root above (.folder entries) names)
      (hentry : entry? entries name = some tree) :
      Leads root (.folder entries :: above) tree (name :: names)

variable {root here tree : FileTree} {above : List FileTree} {names steps place : List String}

theorem mem_filesOfAll {e : String × FileTree} {entries : List (String × FileTree)} (he : e ∈ entries)
    (h : place ∈ filesOf e) : place ∈ filesOfAll entries := by
  induction entries with
  | nil => exact absurd he List.not_mem_nil
  | cons e' more ih =>
    rw [filesOfAll, List.mem_append]
    rcases List.mem_cons.mp he with rfl | he
    · exact Or.inl h
    · exact Or.inr (ih he)

theorem mem_of_entry {entries : List (String × FileTree)} {name : String}
    (h : entry? entries name = some tree) : (name, tree) ∈ entries := by
  obtain ⟨⟨name', tree'⟩, hfind, rfl⟩ := Option.map_eq_some_iff.mp h
  obtain rfl : name' = name := by simpa using List.find?_some hfind
  exact List.mem_of_find?_eq_some hfind

/-- Only a file lies at the root itself. -/
theorem eq_file_of_nil_mem (h : [] ∈ tree.files) : ∃ bytes, tree = .file bytes := by
  cases tree with
  | file bytes => exact ⟨bytes, rfl⟩
  | folder entries =>
    rw [files] at h
    induction entries with
    | nil => exact absurd h List.not_mem_nil
    | cons e more ih =>
      rw [filesOfAll, filesOf, List.mem_append] at h
      rcases h with h | h
      · obtain ⟨_, -, hnil⟩ := List.mem_map.mp h
        cases hnil
      · exact nomatch ih h

/-- The files below what names lead to are files of the tree. -/
theorem Leads.mem_files (h : Leads root above here names) (hplace : place ∈ here.files) :
    names.reverse ++ place ∈ root.files := by
  induction h generalizing place with
  | root => exact hplace
  | @entry above entries names name tree h hentry ih =>
    rw [List.reverse_cons, List.append_assoc]
    refine ih ?_
    rw [files]
    refine mem_filesOfAll (mem_of_entry hentry) ?_
    rw [filesOf]
    exact List.mem_map_of_mem hplace

/-- Following steps ends where the names that are left of them lead to. -/
theorem Leads.follow (h : Leads root above here names) (hfollow : FileTree.follow above here steps = .ok tree) :
    ∃ above', Leads root above' tree (settle names steps).reverse := by
  induction steps generalizing above here names with
  | nil =>
    rw [settle, List.reverse_reverse]
    cases here <;> cases hfollow <;> exact ⟨above, h⟩
  | cons step more ih =>
    cases here with
    | file bytes => cases hfollow
    | folder entries =>
      simp only [FileTree.follow] at hfollow
      rw [settle]
      split
      · rename_i hidle
        rw [if_pos hidle] at hfollow
        exact ih h hfollow
      · rename_i hidle
        rw [if_neg hidle] at hfollow
        split
        · rename_i hup
          rw [if_pos hup] at hfollow
          cases h with
          | root => exact ih .root hfollow
          | entry h hentry => exact ih h hfollow
        · rename_i hup
          rw [if_neg hup] at hfollow
          split at hfollow
          · cases hfollow
          · split at hfollow
            · rename_i tree' hentry
              exact ih (h.entry hentry) hfollow
            · cases hfollow

/-- Steps none of which is `..` are left as they are, idle ones apart. -/
theorem settle_of_forward (names : List String) (h : ".." ∉ steps) :
    settle names steps = names.reverse ++ steps.filter fun step => !(step == "" || step == ".") := by
  induction steps generalizing names with
  | nil => rw [settle, List.filter_nil, List.append_nil]
  | cons step more ih =>
    rw [List.mem_cons, not_or] at h
    have hstep : (step == "..") = false := by simpa using Ne.symm h.1
    rw [settle, hstep, List.filter_cons]
    cases hidle : (step == "" || step == ".") with
    | true =>
      rw [if_pos rfl, ih names h.2]
      rfl
    | false =>
      rw [if_neg Bool.false_ne_true, if_neg Bool.false_ne_true, ih _ h.2, List.reverse_cons, List.append_assoc]
      rfl

end FileTree

namespace Disk

def place (d : Disk) (p : Location) : List String :=
  FileTree.settle [] (writtenSteps (d.folder.join p).text)

variable {d : Disk} {p q : Location}

theorem follow_of_read {bytes : List UInt8} (h : d.read p = .ok bytes) :
    FileTree.follow [] d.root (writtenSteps (d.folder.join p).text) = .ok (.file bytes) := by
  simp only [read] at h
  split at h <;> cases h
  rename_i hfind
  simp only [find] at hfind
  split at hfind
  · cases hfind
  · split at hfind
    · cases hfind
    · split at hfind
      · cases hfind
      · exact hfind

/-- A file that is found is at the place that its location leads to. -/
theorem place_mem_files {bytes : List UInt8} (h : d.read p = .ok bytes) : d.place p ∈ d.root.files := by
  obtain ⟨above, hleads⟩ := FileTree.Leads.root.follow (follow_of_read h)
  have hself : [] ∈ FileTree.files (.file bytes) := by
    rw [FileTree.files]
    exact List.mem_singleton_self []
  have hmem := hleads.mem_files hself
  rwa [List.reverse_reverse, List.append_nil] at hmem

end Disk

namespace Location

/-- A location that goes back to a folder above. -/
def climbs (p : Location) : Bool :=
  p.trail.contains ['.', '.']

variable {d : Disk} {p q : Location}

theorem chars_of_isAbsolute (h : p.isAbsolute = true) : ∃ rest, p.chars = '/' :: rest := by
  rw [isAbsolute, beq_iff_eq, List.head?_eq_some_iff] at h
  exact h

theorem anchor_of_isAbsolute (h : p.isAbsolute = true) : p.anchor = ['/'] := by
  rw [anchor, if_pos h]

theorem startsHere_of_isAbsolute (h : p.isAbsolute = true) : p.startsHere = false := by
  obtain ⟨rest, hchars⟩ := chars_of_isAbsolute h
  simp [startsHere, hchars]

theorem pieces_cons_separator (separator : Char) (rest : List Char) :
    Text.pieces (· == separator) (separator :: rest) = [] :: Text.pieces (· == separator) rest :=
  @Text.pieces_append_cons (· == separator) [] nofun _ (beq_self_eq_true separator) rest

/-- A step is idle if its name is. -/
theorem isIdle_iff_name (step : List Char) :
    (String.ofList step == "" || String.ofList step == ".") = isIdle step := by
  have hempty : (String.ofList step == "") = step.isEmpty := by
    rw [Bool.eq_iff_iff, beq_iff_eq, List.isEmpty_iff, show ("" : String) = String.ofList [] from rfl]
    exact String.ofList_inj
  have hdot : (String.ofList step == ".") = (step == ['.']) := by
    rw [Bool.eq_iff_iff, beq_iff_eq, beq_iff_eq, show "." = String.ofList ['.'] from rfl]
    exact String.ofList_inj
  rw [hempty, hdot, isIdle]

/-- The steps of an absolute location begin at the root. -/
theorem writtenSteps_of_isAbsolute (h : p.isAbsolute = true) :
    Disk.writtenSteps (d.folder.join p).text = "" :: p.steps.map String.ofList := by
  obtain ⟨rest, hchars⟩ := chars_of_isAbsolute h
  have hjoin : d.folder.join p = p := by
    rw [join, h, Bool.true_or, if_pos rfl]
  rw [hjoin, Disk.writtenSteps, show p.text.toList = '/' :: rest from hchars, pieces_cons_separator, List.map_cons,
    steps, anchor_of_isAbsolute h, hchars]
  rfl

/-- An absolute location that does not go back leads to its steps. -/
theorem place_of_isAbsolute (habs : p.isAbsolute = true) (hclimbs : p.climbs = false) :
    d.place p = p.trail.map String.ofList := by
  have hforward : ".." ∉ "" :: p.steps.map String.ofList := by
    rw [List.mem_cons, not_or]
    refine ⟨by decide, fun hmem => ?_⟩
    obtain ⟨step, hstep, htext⟩ := List.mem_map.mp hmem
    obtain rfl : step = ['.', '.'] := String.ofList_inj.mp htext
    have htrail : ['.', '.'] ∈ p.trail := List.mem_filter.mpr ⟨hstep, rfl⟩
    rw [climbs, List.contains_iff_mem.mpr htrail] at hclimbs
    cases hclimbs
  rw [Disk.place, writtenSteps_of_isAbsolute habs, FileTree.settle_of_forward [] hforward, List.reverse_nil,
    List.nil_append, List.filter_cons_of_neg (by decide), List.filter_map, trail]
  congr 1
  refine List.filter_congr fun step _ => ?_
  rw [Function.comp_apply, isIdle_iff_name]

/-- Absolute locations that do not go back are the same name if they lead to the same place. -/
theorem sameAs_of_place (hp : p.isAbsolute = true) (hq : q.isAbsolute = true) (hpc : p.climbs = false)
    (hqc : q.climbs = false) (h : d.place p = d.place q) : p.sameAs q = true := by
  rw [place_of_isAbsolute hp hpc, place_of_isAbsolute hq hqc] at h
  have htrail : p.trail = q.trail := (List.map_inj_right fun _ _ => String.ofList_inj.mp).mp h
  rw [sameAs, parts, parts, anchor_of_isAbsolute hp, anchor_of_isAbsolute hq, htrail]
  exact beq_self_eq_true _

theorem isAbsolute_join {dir : Location} (h : dir.isAbsolute = true) (name : Location) :
    (dir.join name).isAbsolute = true := by
  obtain ⟨rest, hchars⟩ := chars_of_isAbsolute h
  have htext : dir.text.toList = '/' :: rest := hchars
  rw [join]
  split
  · rename_i hor
    rw [Bool.or_eq_true, hchars] at hor
    exact hor.resolve_right Bool.false_ne_true
  · split <;> simp [isAbsolute, chars, String.toList_append, htext]

/-- An absolute location is the same from every working folder. -/
theorem absolute_of_isAbsolute (folder : Location) (h : p.isAbsolute = true) : absolute folder p = p := by
  obtain ⟨rest, hchars⟩ := chars_of_isAbsolute h
  have htext : p.text.toList = '/' :: rest := hchars
  have htrimmed : trimmed p.text = p := by
    rw [trimmed, htext, Text.trimStart_cons (by decide), ← htext, String.ofList_toList]
  rw [absolute, htrimmed, if_pos h]

/-- A location made absolute is absolute if the working folder is. -/
theorem isAbsolute_absolute {folder : Location} (h : folder.isAbsolute = true) (p : Location) :
    (absolute folder p).isAbsolute = true := by
  rw [absolute]
  split
  · assumption
  · exact isAbsolute_join h _

theorem isAbsolute_parent? {dir : Location} (h : p.isAbsolute = true) (hparent : p.parent? = some dir) :
    dir.isAbsolute = true := by
  rw [parent?] at hparent
  split at hparent
  · rw [startsHere_of_isAbsolute h] at hparent
    cases hparent
  · cases hparent
    rw [anchor_of_isAbsolute h]
    simp [isAbsolute, chars]

/-- The location of a file has a folder. -/
theorem parent?_of_read {bytes : List UInt8} (h : p.isAbsolute = true) (hread : d.read p = .ok bytes) :
    ∃ dir, p.parent? = some dir := by
  rw [parent?]
  split
  · rename_i hidle
    have htrail : p.trail = [] := by
      rw [dropIdleEnd, List.reverse_eq_nil_iff] at hidle
      rw [trail, List.filter_eq_nil_iff]
      intro step hstep
      rw [List.dropWhile_eq_nil_iff.mp hidle step (List.mem_reverse.mpr hstep)]
      exact Bool.false_ne_true
    have hplace : d.place p = [] := by
      rw [place_of_isAbsolute h (by rw [climbs, htrail]; rfl), htrail, List.map_nil]
    have hmem := Disk.place_mem_files hread
    rw [hplace] at hmem
    obtain ⟨root, hroot⟩ := FileTree.eq_file_of_nil_mem hmem
    have hfollow := Disk.follow_of_read hread
    rw [writtenSteps_of_isAbsolute h, hroot] at hfollow
    cases hfollow
  · exact ⟨_, rfl⟩

/-- What a file at an absolute location names is at an absolute location. -/
theorem isAbsolute_resolve {bytes : List UInt8} (h : p.isAbsolute = true) (hread : d.read p = .ok bytes)
    (name : String) : (p.resolve name).isAbsolute = true := by
  obtain ⟨dir, hparent⟩ := parent?_of_read h hread
  rw [resolve, hparent]
  dsimp only
  split
  · assumption
  · exact isAbsolute_join (isAbsolute_parent? h hparent) _

end Location

end SoundRouting
