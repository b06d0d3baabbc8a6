import SoundRouting.Proofs.Load.Chain
import SoundRouting.Proofs.Places
/-!
Which files a load opens, and how often.

A load remembers the names of the files it has taken up, not the files. Names without `..` lead to different
files if they have different parts, so that a file can only be opened again by a name that goes back to a
folder above.
-/
namespace SoundRouting.Config

open Runs

/-- The files that can be opened, of those that are taken up. -/
def opened (disk : Disk) (locations : List Location) : List Location :=
  locations.filter fun p => (disk.read p).isOk

/-- Some of these names lead to the same file, and one of them goes back to a folder above. -/
def Detour (disk : Disk) (locations : List Location) : Prop :=
  ∃ p ∈ locations, ∃ q ∈ locations, p ≠ q ∧ p.climbs = true ∧ disk.place p = disk.place q

variable {disk : Disk} {rack : Rack} {file : Location} {earlier : List Location} {p : Location} {s : State}

theorem mem_opened {locations : List Location} :
    p ∈ opened disk locations ↔ p ∈ locations ∧ ∃ bytes, disk.read p = .ok bytes := by
  rw [opened, List.mem_filter]
  refine and_congr_right fun _ => ?_
  cases disk.read p with
  | ok bytes => exact iff_of_true rfl ⟨bytes, rfl⟩
  | error fault => exact iff_of_false Bool.false_ne_true nofun

/-- On a disk with a working folder, the files that are taken up are named from the root. -/
theorem TakesUp.isAbsolute (h : TakesUp disk rack file earlier p s) (hfolder : disk.folder.isAbsolute = true) :
    ∀ q ∈ earlier ++ [p], q.isAbsolute = true := by
  refine h.induction (Location.isAbsolute_absolute hfolder file) fun q name elements hq hread => ?_
  obtain ⟨bytes, hbytes⟩ := readable_of_readTree hread
  exact Location.isAbsolute_resolve hq hbytes name

/-- The files that are opened are different files, unless a name makes a detour. -/
theorem TakesUp.nodup_iff (h : TakesUp disk rack file earlier p s) (hfolder : disk.folder.isAbsolute = true) :
    ((opened disk (earlier ++ [p])).map disk.place).Nodup ↔ ¬ Detour disk (opened disk (earlier ++ [p])) := by
  have hapart : (opened disk (earlier ++ [p])).Pairwise fun q q' => q.sameAs q' = false :=
    h.apart.2.sublist List.filter_sublist
  constructor
  · rintro hnodup ⟨q, hq, q', hq', hne, -, hplace⟩
    exact hne (List.inj_on_of_nodup_map hnodup hq hq' hplace)
  · intro hdirect
    rw [List.Nodup, List.pairwise_map]
    refine hapart.imp_of_mem fun {q q'} hq hq' happart hplace => ?_
    have habs := h.isAbsolute hfolder q (mem_opened.mp hq).1
    have habs' := h.isAbsolute hfolder q' (mem_opened.mp hq').1
    have hne : q ≠ q' := by
      rintro rfl
      rw [Location.sameAs_refl] at happart
      cases happart
    cases hc : q.climbs with
    | true => exact hdirect ⟨q, hq, q', hq', hne, hc, hplace⟩
    | false =>
      cases hc' : q'.climbs with
      | true => exact hdirect ⟨q', hq', q, hq, hne.symm, hc', hplace.symm⟩
      | false =>
        rw [Location.sameAs_of_place habs habs' hc hc' hplace] at happart
        cases happart

/-- Different files are no more than the disk has. -/
theorem length_opened_le {locations : List Location}
    (h : ((opened disk locations).map disk.place).Nodup) :
    (opened disk locations).length ≤ disk.root.files.length := by
  have hsub : (opened disk locations).map disk.place ⊆ disk.root.files := by
    intro place hplace
    obtain ⟨q, hq, rfl⟩ := List.mem_map.mp hplace
    obtain ⟨-, bytes, hread⟩ := mem_opened.mp hq
    exact Disk.place_mem_files hread
  have hle := (h.subperm hsub).length_le
  rwa [List.length_map] at hle

/-- A load ends in one of the files it takes up. Each file of the disk is opened at most once on the way,
so that there are no more openings than files, exactly if no name makes a detour by a folder above. -/
theorem opened_once_iff (hfolder : disk.folder.isAbsolute = true) (rack : Rack) (file : Location) :
    ∃ earlier last s, TakesUp disk rack file earlier last s ∧ EndsIn disk rack file last s
      ∧ (((opened disk (earlier ++ [last])).map disk.place).Nodup ↔ ¬ Detour disk (opened disk (earlier ++ [last])))
      ∧ (¬ Detour disk (opened disk (earlier ++ [last])) →
        (opened disk (earlier ++ [last])).length ≤ disk.root.files.length) := by
  obtain ⟨earlier, last, s, htakes, hends⟩ := load_ends disk rack file
  have hiff := htakes.nodup_iff hfolder
  exact ⟨earlier, last, s, htakes, hends, hiff, fun hdirect => length_opened_le (hiff.mpr hdirect)⟩

def errorOf? {α : Type} : Except Error α → Option Error
  | .ok _ => none
  | .error e => some e

theorem eq_error_of_errorOf? {α : Type} {result : Except Error α} {e : Error} (h : errorOf? result = some e) :
    result = .error e := by
  cases result with
  | ok a => cases h
  | error e' => rw [Option.some.inj h]

/-- A configuration that hands over to another one if the file `c` names the codec `k`. -/
def probeText (next : String) : String :=
  "<audiohal><codec_probe file='c'><case name='k' file='" ++ next ++ "'/></codec_probe></audiohal>"

def probeElements (next : String) : List Xml.Element :=
  [.mk "audiohal" 1 [] [.mk "codec_probe" 1 [("file", "c")] [.mk "case" 1 [("name", "k"), ("file", next)] []]]]

/-- Two configurations that hand over to others, and the file that names the codec. -/
def ringDisk (first second : String) : Disk :=
  ⟨.folder [("d", .folder [("a", .file (probeText first).toUTF8.toList), ("b", .file (probeText second).toUTF8.toList),
    ("c", .file "k".toUTF8.toList)])], ⟨"/"⟩⟩

theorem find_ringDisk (first second : String) :
    (ringDisk first second).find ⟨"/d/a"⟩ = .ok (.ofText (probeText first))
      ∧ (ringDisk first second).find ⟨"/d/../d/a"⟩ = .ok (.ofText (probeText first))
      ∧ (ringDisk first second).find ⟨"/d/b"⟩ = .ok (.ofText (probeText second)) := by
  refine ⟨?_, ?_, ?_⟩
  · have hsteps : Disk.writtenSteps ((⟨"/"⟩ : Location).join ⟨"/d/a"⟩).text = ["", "d", "a"] := by decide +kernel
    rw [(ringDisk first second).find_of_steps (by decide) hsteps, ← FileTree.file_toUTF8]
    rfl
  · have hsteps : Disk.writtenSteps ((⟨"/"⟩ : Location).join ⟨"/d/../d/a"⟩).text = ["", "d", "..", "d", "a"] := by
      decide +kernel
    rw [(ringDisk first second).find_of_steps (by decide) hsteps, ← FileTree.file_toUTF8]
    rfl
  · have hsteps : Disk.writtenSteps ((⟨"/"⟩ : Location).join ⟨"/d/b"⟩).text = ["", "d", "b"] := by decide +kernel
    rw [(ringDisk first second).find_of_steps (by decide) hsteps, ← FileTree.file_toUTF8]
    rfl

theorem readTree_ring :
    (readTree (ringDisk "b" "a") ⟨"/d/a"⟩).toOption.map eventsOfAll = some (eventsOfAll (probeElements "b"))
      ∧ (readTree (ringDisk "b" "a") ⟨"/d/b"⟩).toOption.map eventsOfAll = some (eventsOfAll (probeElements "a")) := by
  obtain ⟨hone, -, htwo⟩ := find_ringDisk "b" "a"
  constructor
  · have htext : (probeText "b").toList = _ :=
      toList_append_of (toList_append_of String.toList_ofList String.toList_ofList) String.toList_ofList
    refine readTree_of_find hone htext fun t ht => ?_
    rw [Xml.elements?, ht]
    decide +kernel
  · have htext : (probeText "a").toList = _ :=
      toList_append_of (toList_append_of String.toList_ofList String.toList_ofList) String.toList_ofList
    refine readTree_of_find htwo htext fun t ht => ?_
    rw [Xml.elements?, ht]
    decide +kernel

/-- Two files that hand over to each other by their names are opened once each. -/
theorem opened_once_iff_ring :
    let disk := ringDisk "b" "a"
    let names : List Location := [⟨"/d/a"⟩, ⟨"/d/b"⟩]
    disk.folder.isAbsolute = true
      ∧ (∃ s, TakesUp disk ⟨[]⟩ ⟨"/d/a"⟩ [⟨"/d/a"⟩] ⟨"/d/b"⟩ s ∧ EndsIn disk ⟨[]⟩ ⟨"/d/a"⟩ ⟨"/d/b"⟩ s)
      ∧ opened disk names = names ∧ ¬ Detour disk names ∧ (names.map disk.place).Nodup
      ∧ names.length ≤ disk.root.files.length := by
  intro disk names
  have hfolder : disk.folder.isAbsolute = true := by decide
  obtain ⟨earlier, last, s, htakes, hends, hiff, hle⟩ := opened_once_iff hfolder ⟨[]⟩ ⟨"/d/a"⟩
  have hstart : TakesUp disk ⟨[]⟩ ⟨"/d/a"⟩ [] ⟨"/d/a"⟩ _ := TakesUp.start (by decide)
  have hnext : TakesUp disk ⟨[]⟩ ⟨"/d/a"⟩ [⟨"/d/a"⟩] ⟨"/d/b"⟩ _ :=
    hstart.next_of_events readTree_ring.1 (by decide +kernel)
  -- the second file fails when it is about to hand over to the first one
  obtain ⟨rfl, rfl, rfl⟩ : earlier = _ ∧ last = _ ∧ s = _ := by
    refine hnext.unique_of_last (fun next t hrun => ?_) htakes hends.last
    rw [Runs, run_loadFile readTree_ring.2] at hrun
    have hok := congrArg (fun r => r.1.isOk) hrun
    change _ = true at hok
    exact absurd hok (by decide +kernel)
  obtain ⟨hone, -, htwo⟩ := find_ringDisk "b" "a"
  have hopened : opened disk names = names := by
    rw [opened, List.filter_eq_self, List.forall_mem_cons, List.forall_mem_singleton]
    exact ⟨by rw [Disk.read, hone]; rfl, by rw [Disk.read, htwo]; rfl⟩
  have hdirect : ¬ Detour disk names := by
    have hclimbs : ∀ p ∈ names, p.climbs = false := by decide +kernel
    rintro ⟨p, hp, -, -, -, hclimb, -⟩
    rw [hclimbs p hp] at hclimb
    cases hclimb
  have hnames : opened disk ([⟨"/d/a"⟩] ++ [⟨"/d/b"⟩]) = names := hopened
  rw [hnames] at hiff hle
  exact ⟨hfolder, ⟨_, htakes, hends⟩, hopened, hdirect, hiff.mpr hdirect, hle hdirect⟩

/-- By the name `../d/a` the first file is opened once more: the load goes from it to the second one, back
to it, and stops only when it is about to open the second one again. -/
theorem reopened_by_detour :
    let disk := ringDisk "/d/b" "../d/a"
    let names : List Location := [⟨"/d/a"⟩, ⟨"/d/b"⟩, ⟨"/d/../d/a"⟩]
    (∃ s, TakesUp disk ⟨[]⟩ ⟨"/d/a"⟩ [⟨"/d/a"⟩, ⟨"/d/b"⟩] ⟨"/d/../d/a"⟩ s)
      ∧ opened disk names = names ∧ ¬ (names.map disk.place).Nodup
      ∧ (load disk ⟨[]⟩ ⟨"/d/a"⟩).1 = .error (.config 1 (.loadedTwice ⟨"/d/b"⟩)) := by
  intro disk names
  obtain ⟨hone, hback, htwo⟩ := find_ringDisk "/d/b" "../d/a"
  have hfirst : ∀ {p}, disk.find p = .ok (.ofText (probeText "/d/b")) →
      (readTree disk p).toOption.map eventsOfAll = some (eventsOfAll (probeElements "/d/b")) := by
    intro p hfind
    have htext : (probeText "/d/b").toList = _ :=
      toList_append_of (toList_append_of String.toList_ofList String.toList_ofList) String.toList_ofList
    refine readTree_of_find hfind htext fun t ht => ?_
    rw [Xml.elements?, ht]
    decide +kernel
  have hsecond : (readTree disk ⟨"/d/b"⟩).toOption.map eventsOfAll
      = some (eventsOfAll (probeElements "../d/a")) := by
    have htext : (probeText "../d/a").toList = _ :=
      toList_append_of (toList_append_of String.toList_ofList String.toList_ofList) String.toList_ofList
    refine readTree_of_find htwo htext fun t ht => ?_
    rw [Xml.elements?, ht]
    decide +kernel
  have hstart : TakesUp disk ⟨[]⟩ ⟨"/d/a"⟩ [] ⟨"/d/a"⟩ _ := TakesUp.start (by decide)
  have hnext : TakesUp disk ⟨[]⟩ ⟨"/d/a"⟩ [⟨"/d/a"⟩] ⟨"/d/b"⟩ _ :=
    hstart.next_of_events (hfirst hone) (by decide +kernel)
  have hagain : TakesUp disk ⟨[]⟩ ⟨"/d/a"⟩ [⟨"/d/a"⟩, ⟨"/d/b"⟩] ⟨"/d/../d/a"⟩ _ :=
    hnext.next_of_events hsecond (by decide +kernel)
  have hopened : opened disk names = names := by
    have hreads : ∀ {p text}, disk.find p = .ok (.ofText text) → (disk.read p).isOk = true := by
      intro p text hfind
      rw [Disk.read, hfind]
      rfl
    rw [opened, List.filter_eq_self, List.forall_mem_cons, List.forall_mem_cons, List.forall_mem_singleton]
    exact ⟨hreads hone, hreads htwo, hreads hback⟩
  refine ⟨⟨_, hagain⟩, hopened, by decide +kernel, ?_⟩
  refine hagain.load_of_error ?_
  rw [run_loadFile (hfirst hback)]
  exact eq_error_of_errorOf? (by decide +kernel)

end SoundRouting.Config
