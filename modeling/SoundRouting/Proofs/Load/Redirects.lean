import SoundRouting.Proofs.Load.Carried
import SoundRouting.Proofs.Load.Opened
import SoundRouting.Proofs.Load.Stages
/-!
A load that is handed over is that of the last file.

If the files have one root element each, a file that hands over to another one leaves nothing behind, and
the last one is loaded as it would be on its own, without its codec probe.
-/
namespace SoundRouting

def Xml.Element.withoutProbe : Xml.Element → Xml.Element
  | .mk tag line attributes children => .mk tag line attributes (children.filter fun c => c.tag != "codec_probe")

namespace Config

open LoadM Runs

variable {disk disk' : Disk} {rack after : Rack} {file p : Location} {s t u v : State} {e : ElementKind}
  {early mixers : Nat} {earlier : List Location} {l : Level} {levels : List Level} {kinds kinds' : List ElementKind}
  {x : Xml.Element} {xs : List Xml.Element} {loaded : Loaded}

/-! ### A root element without its codec probe -/

theorem tag_of_conforms (h : Conforms e x) : x.tag = e.tag := by
  cases h with
  | mk => rfl

theorem conformAll_append (h : ConformAll (kinds ++ kinds') xs) :
    ∃ ys zs, xs = ys ++ zs ∧ ConformAll kinds ys ∧ ConformAll kinds' zs := by
  induction kinds generalizing xs with
  | nil => exact ⟨[], xs, rfl, .nil, h⟩
  | cons k kinds ih =>
    cases h with
    | cons h hmore =>
      obtain ⟨ys, zs, rfl, hys, hzs⟩ := ih hmore
      exact ⟨_ :: ys, zs, rfl, .cons h hys, hzs⟩

theorem forall_tag_of_conformAll {P : String → Prop} (h : ConformAll kinds xs) (hkinds : ∀ k ∈ kinds, P k.tag) :
    ∀ x ∈ xs, P x.tag := by
  induction kinds generalizing xs with
  | nil =>
    cases h
    exact fun _ h => absurd h List.not_mem_nil
  | cons k kinds ih =>
    cases h with
    | cons h hmore =>
      rw [List.forall_mem_cons] at hkinds ⊢
      exact ⟨tag_of_conforms h ▸ hkinds.1, ih hmore hkinds.2⟩

/-- What an element holds is allowed in it. -/
theorem allowed_of_content {element : Option ElementKind} (h : kinds ∈ (content element).matches') :
    ∀ k ∈ kinds, k ∈ allowedIn element := by
  induction kinds using List.reverseRecOn with
  | nil => exact fun _ h => absurd h List.not_mem_nil
  | append_singleton kinds k ih =>
    obtain ⟨hkinds, hk⟩ := concat_mem_content.mp h
    rw [List.forall_mem_append, List.forall_mem_singleton]
    exact ⟨ih hkinds, allowed_of_follows (l := ⟨element, kinds⟩) hk⟩

/-- Root elements and codec probes stand in no other element than the root and the document. -/
theorem inner_of_content (h : kinds ∈ (content (some e)).matches') (he : e ≠ .root) :
    ∀ k ∈ kinds, k ≠ .root ∧ k ≠ .codecProbe := by
  have hallowed : ∀ k ∈ allowedIn (some e), k ≠ .root ∧ k ≠ .codecProbe := by
    cases e with
    | root => exact absurd rfl he
    | _ => decide
  exact fun k hk => hallowed k (allowed_of_content h k hk)

mutual

/-- No codec probe opens within another element than the root. -/
theorem opensTag_of_conforms : ∀ {e : ElementKind} {x : Xml.Element}, Conforms e x → e ≠ .root ∧ e ≠ .codecProbe →
    ∀ event ∈ eventsOf x, event.opensTag "codec_probe" = false
  | e, .mk _ line attributes children, .mk _ _ hcontent h, he => by
    have hall := opensTag_of_conformAll h (inner_of_content hcontent he.1)
    have htag : ∀ k : ElementKind, k ≠ .codecProbe → (k.tag == "codec_probe") = false := by
      intro k hk
      cases k <;> first | rfl | exact absurd rfl hk
    rw [eventsOf, List.forall_mem_cons, List.forall_mem_append, List.forall_mem_singleton]
    exact ⟨htag e he.2, hall, rfl⟩

theorem opensTag_of_conformAll : ∀ {kinds : List ElementKind} {xs : List Xml.Element}, ConformAll kinds xs →
    (∀ k ∈ kinds, k ≠ .root ∧ k ≠ .codecProbe) → ∀ event ∈ eventsOfAll xs, event.opensTag "codec_probe" = false
  | _, [], .nil, _ => by simp [eventsOfAll]
  | _, x :: xs, .cons h hmore, hkinds => by
    rw [List.forall_mem_cons] at hkinds
    rw [eventsOfAll, List.forall_mem_append]
    exact ⟨opensTag_of_conforms h hkinds.1, opensTag_of_conformAll hmore hkinds.2⟩

end

/-- The root element holds codec probes, and behind them what it holds without them. -/
theorem split_of_conforms (h : Conforms .root x) : ∃ line attributes probes front body,
    eventsOf x = .opens line "audiohal" attributes :: (eventsOfAll front ++ (eventsOfAll body ++ [.closes line]))
      ∧ eventsOf x.withoutProbe = .opens line "audiohal" attributes :: (eventsOfAll body ++ [.closes line])
      ∧ ConformAll probes front ∧ (∀ k ∈ probes, k = .codecProbe)
      ∧ ∀ event ∈ eventsOfAll body, event.opensTag "codec_probe" = false := by
  cases h with
  | @mk _ kinds children line attributes hcontent h =>
    have hsplit : ∃ probes rest, kinds = probes ++ rest ∧ (∀ k ∈ probes, k = .codecProbe)
        ∧ ∀ k ∈ rest, k ≠ .root ∧ k ≠ .codecProbe := by
      rcases mem_content_root.mp hcontent with hprobes | ⟨probes, rest, rfl, hprobes, hrest⟩
      · exact ⟨kinds, [], (List.append_nil _).symm, hprobes, fun _ h => absurd h List.not_mem_nil⟩
      · refine ⟨probes, .mixer :: rest, rfl, hprobes, ?_⟩
        have hafter : ∀ k ∈ Grammar.afterMixer, k ≠ .root ∧ k ≠ .codecProbe := by decide
        rw [List.forall_mem_cons]
        exact ⟨by decide, fun k hk => hafter k (hrest k hk)⟩
    obtain ⟨probes, rest, rfl, hprobes, hrest⟩ := hsplit
    obtain ⟨front, body, rfl, hfront, hbody⟩ := conformAll_append h
    have hdropped : ∀ x ∈ front, x.tag = "codec_probe" := by
      refine forall_tag_of_conformAll (P := (· = "codec_probe")) hfront fun k hk => ?_
      rw [hprobes k hk]
      rfl
    have hkept : ∀ x ∈ body, x.tag ≠ "codec_probe" := by
      refine forall_tag_of_conformAll (P := (· ≠ "codec_probe")) hbody fun k hk => ?_
      have hne := (hrest k hk).2
      cases k <;> first | decide | exact absurd rfl hne
    refine ⟨line, attributes, probes, front, body, ?_, ?_, hfront, hprobes, opensTag_of_conformAll hbody hrest⟩
    · rw [eventsOf, eventsOfAll_append, List.append_assoc]
      rfl
    · have hfilter : (front ++ body).filter (fun c => c.tag != "codec_probe") = body := by
        rw [List.filter_append, List.filter_eq_nil_iff.mpr, List.filter_eq_self.mpr, List.nil_append]
        · simpa using hkept
        · simpa using hdropped
      rw [Xml.Element.withoutProbe, hfilter, eventsOf]
      rfl

/-! ### The state behind a codec probe -/

/-- Outside of a mixer the levels determine the frames. -/
theorem frames_of_tracks {frames : List Frame} {levels : List Level} (h : Tracks frames levels)
    (hplain : ∀ l ∈ levels, l.element ≠ some .mixer) :
    frames = levels.map fun l => ⟨l.element, l.followers⟩ := by
  induction levels generalizing frames with
  | nil =>
    cases frames with
    | nil => rfl
    | cons f frames => exact absurd h id
  | cons l levels ih =>
    cases frames with
    | nil => exact absurd h id
    | cons f frames =>
      rw [List.forall_mem_cons] at hplain
      obtain ⟨helement, hchildren, houter⟩ := h
      obtain ⟨element, children⟩ := f
      obtain rfl : element = l.element := helement
      obtain rfl : children = l.followers := hchildren
      have hwidened : closeElement.widened l.element frames = frames := by
        obtain ⟨element, begun⟩ := l
        cases element with
        | none => rfl
        | some e => cases e <;> first | rfl | exact absurd rfl hplain.1
      rw [hwidened] at houter
      rw [List.map_cons, ← ih houter hplain.2]

/-- Two states of a file in which nothing has been loaded are the same but for the codec probe. -/
theorem Fresh.reframe_eq (hs : Fresh rack s) (ht : Fresh rack t) (hfile : t.file = s.file)
    (hframes : t.frames = s.frames) (probe : Option CodecProbe) (visited : List Location) :
    t.reframe probe visited = s.reframe probe visited := by
  obtain ⟨hmodel, hmixer, hinit, hpre, hrack, hcard, hcursor⟩ := hs
  obtain ⟨hmodel', hmixer', hinit', hpre', hrack', hcard', hcursor'⟩ := ht
  simp only [State.reframe, hmodel, hmixer, hinit, hpre, hrack, hcard, hcursor, hmodel', hmixer', hinit', hpre',
    hrack', hcard', hcursor', hfile, hframes]

theorem Fresh.values (h : Fresh rack s) : s.values = [] := by
  rw [State.values, h.preInit, h.init]
  rfl

variable (disk') in
/-- Behind the codec probes of a file taken up afresh, the state is that behind the start of the root
element, but for the probe. -/
theorem TakesUp.behind_probes (htakes : TakesUp disk rack file earlier p s) (hfresh : Fresh rack s)
    (hread : readTree disk p = .ok [x]) {done rest : List Event} (hevents : eventsOf x = done ++ rest)
    (hdone : Runs (takeAll disk done) (s.enter p) none u) {begun : List ElementKind}
    (hlevels : levelsAfter done [.top] = some [⟨some .root, begun⟩, .rooted]) (hbegun : .mixer ∉ begun) :
    Fresh rack u ∧ Portable disk disk' p u [⟨some .root, begun⟩, .rooted]
      ∧ u.frames = [⟨some .root, ElementKind.root.children⟩, ⟨none, Grammar.topLevel⟩] := by
  obtain ⟨levels, hlevels', hfollows, hstage⟩ := htakes.stage hfresh hread done rest u hevents hdone
  rw [hlevels, Option.some.injEq] at hlevels'
  subst hlevels'
  have hu := hstage.fresh rfl rfl hbegun
  have hlocated := (located_takeAll (located_enter s p) hdone).1
  refine ⟨hu, ⟨hfollows, ?_, by rwa [hlocated.visited], by rw [hu.values]; exact fun _ h => absurd h List.not_mem_nil⟩, ?_⟩
  · rw [List.forall_mem_cons, List.forall_mem_singleton]
    constructor <;> rintro ⟨⟩
  · rw [frames_of_tracks hfollows.tracks]
    · rw [List.map_cons, List.map_singleton, Level.followers, if_neg hbegun]
      rfl
    · rw [List.forall_mem_cons, List.forall_mem_singleton]
      constructor <;> rintro ⟨⟩

/-! ### The last file on its own -/

/-- Going through a file taken up afresh, and through the same elements without the codec probe from the
start, leads to the same state but for the codec probe and the files taken up before. -/
theorem TakesUp.withoutProbe (htakes : TakesUp disk rack file earlier p s) (hfresh : Fresh rack s)
    (hread : readTree disk p = .ok [x]) (hconforms : Conforms .root x)
    (hrun : Runs (takeAll disk (eventsOf x)) (s.enter p) none t) {events : List Event}
    (hsame : events.map Event.unlined = (eventsOf x.withoutProbe).map Event.unlined)
    (hnames : ∀ name ∈ (eventsOf x.withoutProbe).flatMap Event.fileNames,
      disk'.read (p.resolve name) = disk.read (p.resolve name)) :
    Runs (takeAll disk' events) ((State.start rack).enter p) none (t.reframe none [p])
      ∧ ∀ v ∈ t.values, v.Agrees disk disk' := by
  obtain ⟨line, attributes, probes, front, body, hevents, hwithout, hfront, hprobes, hplain⟩ :=
    split_of_conforms hconforms
  rw [hwithout, List.flatMap_cons, List.forall_mem_append] at hnames
  obtain ⟨hfirst, hmore⟩ := hnames
  simp only [List.mem_flatMap, forall_exists_index, and_imp] at hmore
  rw [hwithout, List.map_cons, List.map_eq_cons_iff] at hsame
  obtain ⟨first, more, rfl, hsame, hsameMore⟩ := hsame
  -- the root element begins, its codec probes follow, and then comes what is left without them
  have hdone : eventsOf x = (.opens line "audiohal" attributes :: eventsOfAll front)
      ++ (eventsOfAll body ++ [.closes line]) := hevents
  rw [hdone] at hrun
  obtain ⟨v, hv, hrest⟩ := runs_takeAll_append.mp hrun
  have hroot : levelsAfter [.opens line "audiohal" attributes] [.top] = some [⟨some .root, []⟩, .rooted] := rfl
  obtain ⟨u, hu, -⟩ := runs_takeAll_append.mp (List.singleton_append ▸ hv)
  have hbegun : .mixer ∉ probes := fun hmem => nomatch hprobes _ hmem
  have hlevels : levelsAfter (.opens line "audiohal" attributes :: eventsOfAll front) [.top]
      = some [⟨some .root, probes⟩, .rooted] := by
    rw [← List.singleton_append, levelsAfter_append, hroot, Option.bind_some]
    refine (levelsAfter_eventsOfAll front ⟨some .root, []⟩ (nil_mem_content _)).mpr ⟨probes, ?_, hfront, ?_⟩
    · exact mem_content_root.mpr (Or.inl hprobes)
    · rw [List.nil_append]
  obtain ⟨hfreshU, -, hframesU⟩ := htakes.behind_probes disk' hfresh hread hevents hu hroot List.not_mem_nil
  obtain ⟨hfreshV, hportable, hframesV⟩ := htakes.behind_probes disk' hfresh hread hdone hv hlevels hbegun
  have htop : Portable disk disk' p (s.enter p) [.top] :=
    ⟨follows_top rfl, by rw [List.forall_mem_singleton]; exact nofun, located_enter s p, by
      rw [(hfresh.enter p).values]
      exact fun _ h => absurd h List.not_mem_nil⟩
  have hstart : (s.enter p).reframe none [p] = (State.start rack).enter p := by
    have hempty : Fresh rack ((State.start rack).enter p) := ⟨rfl, rfl, rfl, rfl, rfl, rfl, rfl⟩
    exact hempty.reframe_eq (hfresh.enter p) rfl rfl none [p]
  have hlocated : ∀ {done w}, Runs (takeAll disk done) (s.enter p) none w → w.file = p :=
    fun hdone => (located_takeAll (located_enter s p) hdone).1.file
  have hsameUV : u.reframe none [p] = v.reframe none [p] :=
    hfreshV.reframe_eq hfreshU ((hlocated hu).trans (hlocated hv).symm) (hframesU.trans hframesV.symm) none [p]
  have hone : [first].map Event.unlined = [Event.opens line "audiohal" attributes].map Event.unlined := by
    rw [List.map_singleton, List.map_singleton, hsame]
  obtain ⟨-, hbegins⟩ := portable_takeAll none [p] htop hone (by rw [List.forall_mem_singleton]; rfl)
    (by rw [List.forall_mem_singleton]; exact hfirst) hu
  obtain ⟨⟨after, hlast⟩, hgoes⟩ := portable_takeAll none [p] hportable hsameMore
    (by rw [List.forall_mem_append, List.forall_mem_singleton]; exact ⟨hplain, rfl⟩)
    (fun event hevent name hname => hmore name event hevent hname) hrest
  rw [hstart, hsameUV] at hbegins
  exact ⟨runs_takeAll_append.mpr ⟨_, hbegins, hgoes⟩, hlast.agrees⟩

/-- Finishing applies the initial writes alike if their values are taken from the same bytes. -/
theorem runs_finish_reframe (hrun : Runs (finish disk) s loaded t) (h : ∀ v ∈ s.values, v.Agrees disk disk')
    (probe : Option CodecProbe) (visited : List Location) :
    Runs (finish disk') (s.reframe probe visited) loaded (t.reframe probe visited) := by
  have halike : Alike .refused probe visited s (finish disk') (finish disk) := by
    refine alike_get (alike_bind (alike_need rfl s.desk?) fun desk u hdesk => ?_)
    obtain ⟨-, rfl⟩ := need_iff.mp hdesk
    have hinit : ∀ a ∈ s.init.toList, a.value.Agrees disk disk' :=
      fun a ha => h _ (List.mem_map_of_mem (List.mem_append_right _ ha))
    rw [show (s.reframe probe visited).init = s.init from rfl, Desk.apply_congr_disk hinit]
    exact alike_bind (alike_set rfl) fun _ _ _ => alike_pure _
  exact halike.runs hrun

/-- Finishing opens no card, and says which one was opened. -/
theorem opensOf_finish (hrun : Runs (finish disk) s loaded t) (hbound : Bound s) :
    loaded.card = s.card ∧ ∀ n, opensOf t.rack n = opensOf s.rack n := by
  obtain ⟨desk, hdesk, rfl, rfl⟩ := runs_finish hrun
  exact ⟨rfl, opensOf_apply hbound hdesk hbound.initial⟩

/-- Where a mixer begins in a file with one root element, none is open. -/
theorem TakesUp.first_mixer (htakes : TakesUp disk rack file earlier p s) (hfresh : Fresh rack s)
    (hread : readTree disk p = .ok [x]) {done rest : List Event} {line : Nat} {attributes : List (String × String)}
    (hevents : eventsOf x = done ++ .opens line "mixer" attributes :: rest)
    (hdone : Runs (takeAll disk done) (s.enter p) none u)
    (hmixer : Runs (Event.take disk (.opens line "mixer" attributes)) u none v) : u.mixer = none := by
  obtain ⟨levels, -, hfollows, hstage⟩ := htakes.stage hfresh hread done _ u hevents hdone
  obtain ⟨-, l, rest, e, w, rfl, he, hetag, -, -⟩ := begins_of_opens hfollows hmixer
  obtain rfl : e = .mixer := by
    have h := opensTag_mixer (k := e)
    rw [hetag] at h
    simpa using h.symm
  obtain ⟨hroot, hnot⟩ := root_of_mixer he
  exact (hstage.fresh rfl hroot hnot).mixer

/-- If all files that a load takes up have one root element, it does what loading the last file without its
codec probe does: on every disk that has those elements there, on whatever lines, and the same bytes in the
files that they name, it succeeds with the same model, mixer and card, and leaves the cards the same. Nothing
has been loaded wherever a file is taken up, no mixer is open where one begins, and the card is opened once,
and once more for each list of early writes. -/
theorem redirects_neutral (hload : load disk rack file = (.ok loaded, after)) (hroots : SingleRoots disk rack file)
    (hfolder : disk.folder.isAbsolute = true) :
    ∃ earlier last s t root, TakesUp disk rack file earlier last s ∧ Runs (loadFile disk last) s none t
      ∧ readTree disk last = .ok [root]
      ∧ (∀ disk' elements, readTree disk' last = .ok elements →
        (eventsOfAll elements).map Event.unlined = (eventsOf root.withoutProbe).map Event.unlined →
        (∀ name ∈ (eventsOf root.withoutProbe).flatMap Event.fileNames,
          disk'.read (last.resolve name) = disk.read (last.resolve name)) →
        load disk' rack last = (.ok loaded, after))
      ∧ (∀ earlier p s, TakesUp disk rack file earlier p s → Fresh rack s)
      ∧ (∀ earlier p s x done line attributes rest u v, TakesUp disk rack file earlier p s →
        readTree disk p = .ok [x] → eventsOf x = done ++ .opens line "mixer" attributes :: rest →
        Runs (takeAll disk done) (s.enter p) none u →
        Runs (Event.take disk (.opens line "mixer" attributes)) u none v → u.mixer = none)
      ∧ ∀ n, opensOf after n = (opensOf rack n).map
        (· + if n = loaded.card then 1 + (eventsOf root).countP (·.opensTag "pre_init") else 0) := by
  obtain ⟨earlier, last, s, t, u, htakes, hlast, hfinish, rfl⟩ := finishes_of_load hload
  obtain ⟨root, hread, hconforms, hwalk, hstage⟩ := htakes.ends hroots hlast
  have hfresh := htakes.fresh hroots
  have hreaches := htakes.reaches hread
  rw [eventsOfAll, eventsOfAll, List.append_nil, ← List.append_nil (eventsOf root)] at hreaches
  obtain ⟨hcard, hopens⟩ := opensOf_finish hfinish (bound_of_reaches (hreaches.of_done hwalk))
  refine ⟨earlier, last, s, t, root, htakes, hlast, hread, fun disk' elements hread' hsame hnames => ?_,
    fun _ _ _ h => h.fresh hroots, fun _ _ _ _ _ _ _ _ _ _ h hread hevents hdone hmixer =>
      h.first_mixer (h.fresh hroots) hread hevents hdone hmixer, fun n => ?_⟩
  · obtain ⟨hruns, hagrees⟩ := htakes.withoutProbe hfresh hread hconforms hwalk hsame hnames
    have habsolute := htakes.isAbsolute hfolder last (List.mem_append_right _ List.mem_cons_self)
    have hfirst : TakesUp disk' rack last [] (Location.absolute disk'.folder last) (State.start rack) := .first
    rw [Location.absolute_of_isAbsolute disk'.folder habsolute] at hfirst
    have hsame := load_of_takesUp hfirst (runs_loadFile.mpr ⟨elements, hread', hruns⟩)
      (runs_finish_reframe hfinish hagrees none [last])
    exact hsame
  · rcases hstage.of_rooted rfl with ⟨hnothing, -, -⟩ | ⟨hopened, -⟩
    · have hmixer := mixer_of_finish hfinish
      rw [hnothing.mixer] at hmixer
      cases hmixer
    · rw [hopens n, hopened.opens n, hcard, Nat.add_comm]

/-- A configuration that hands over to the other one, which has a probe of its own, one list of early writes
and a device. -/
def relayDisk : Disk :=
  ⟨.folder [
    ("a", .ofText "<audiohal><codec_probe file='c'><case name='k' file='b'/></codec_probe></audiohal>"),
    ("b", .ofText "<audiohal><codec_probe file='c'/><mixer card='0'><pre_init/></mixer>
      <device name='sco'><path name='on'><ctl name='S' val='1'/></path></device></audiohal>"),
    ("c", .ofText "k")], ⟨"/"⟩⟩

def relayRack : Rack :=
  ⟨[.ofControls 0 none [.switch "S" 1]]⟩

def relayLoaded : Loaded :=
  { model :=
      { devices := ⟨#[⟨0x70#32, 0, ⟨#[⟨.on, ⟨#[⟨"S", .all, .int 1, .bound 0 .switch⟩], 1⟩⟩], 1⟩⟩], 1⟩
        anonymous := .empty
        named := .empty
        pathNames := ⟨#["off", "on"], 2⟩
        outputs := 0x70#32
        inputs := 0x0#32 }
    mixer := ⟨0, [0]⟩
    card := 0 }

def relayFirst : List Xml.Element :=
  [.mk "audiohal" 1 [] [.mk "codec_probe" 1 [("file", "c")] [.mk "case" 1 [("name", "k"), ("file", "b")] []]]]

def relayBody : List Xml.Element :=
  [.mk "mixer" 1 [("card", "0")] [.mk "pre_init" 1 [] []],
    .mk "device" 2 [("name", "sco")] [.mk "path" 2 [("name", "on")] [.mk "ctl" 2 [("name", "S"), ("val", "1")] []]]]

def relaySecond : List Xml.Element :=
  [.mk "audiohal" 1 [] (.mk "codec_probe" 1 [("file", "c")] [] :: relayBody)]

set_option maxRecDepth 4000 in
theorem readTree_relay : (readTree relayDisk ⟨"/a"⟩).toOption.map (fun es => (es.length, eventsOfAll es))
      = some (1, eventsOfAll relayFirst)
    ∧ (readTree relayDisk ⟨"/b"⟩).toOption.map
        (fun es => (es.length, eventsOfAll es, eventsOfAll (es.map (·.withoutProbe))))
      = some (1, eventsOfAll relaySecond, eventsOfAll [.mk "audiohal" 1 [] relayBody]) := by
  constructor
  · refine readTree_of_find rfl String.toList_ofList fun t ht => ?_
    rw [Xml.elements?, ht]
    decide +kernel
  · refine readTree_of_find rfl String.toList_ofList fun t ht => ?_
    rw [Xml.elements?, ht]
    decide +kernel

theorem events_relay : (readTree relayDisk ⟨"/a"⟩).toOption.map eventsOfAll = some (eventsOfAll relayFirst)
    ∧ (readTree relayDisk ⟨"/b"⟩).toOption.map eventsOfAll = some (eventsOfAll relaySecond) := by
  obtain ⟨hfirst, hsecond⟩ := readTree_relay
  obtain ⟨es, hes, hpair⟩ := Option.map_eq_some_iff.mp hfirst
  obtain ⟨es', hes', htriple⟩ := Option.map_eq_some_iff.mp hsecond
  rw [hes, hes', Option.map_some, Option.map_some]
  exact ⟨congrArg (fun c => some c.2) hpair, congrArg (fun c => some c.2.1) htriple⟩

def relayBetween : State :=
  ((takeAll relayDisk (eventsOfAll relayFirst)).run.run ((State.start relayRack).enter ⟨"/a"⟩)).2

def relayEnd : State :=
  ((takeAll relayDisk (eventsOfAll relaySecond)).run.run (relayBetween.enter ⟨"/b"⟩)).2

theorem loads_relay : TakesUp relayDisk relayRack ⟨"a"⟩ [⟨"/a"⟩] ⟨"/b"⟩ relayBetween
    ∧ Runs (loadFile relayDisk ⟨"/b"⟩) relayBetween none relayEnd
    ∧ load relayDisk relayRack ⟨"a"⟩
      = (.ok relayLoaded, ⟨relayRack.cards.map fun card => { card with opens := 2 }⟩) := by
  have htakes : TakesUp relayDisk relayRack ⟨"a"⟩ [⟨"/a"⟩] ⟨"/b"⟩ relayBetween :=
    (TakesUp.start (by decide)).next_of_events events_relay.1 (by decide +kernel)
  obtain ⟨hloads, hload⟩ :=
    htakes.load_of_events events_relay.2 (by decide +kernel) rfl relayLoaded (by decide +kernel)
  refine ⟨htakes, hloads, ?_⟩
  rw [hload, Prod.mk.injEq]
  exact ⟨rfl, by decide +kernel⟩

theorem singleRoots_relay : SingleRoots relayDisk relayRack ⟨"a"⟩ := by
  intro earlier p s elements htakes hread
  obtain ⟨hfirst, hsecond⟩ := readTree_relay
  refine List.length_eq_one_iff.mp ?_
  rcases List.mem_append.mp (loads_relay.1.mem_of_last (fun _ _ => loads_relay.2.1.not_some) htakes) with hp | hp
  · rw [List.mem_singleton] at hp
    rw [← hp, hread] at hfirst
    exact congrArg Prod.fst (Option.some.inj hfirst)
  · rw [List.mem_singleton] at hp
    rw [← hp, hread] at hsecond
    exact congrArg Prod.fst (Option.some.inj hsecond)

def plainDisk : Disk :=
  ⟨.folder [("b", .ofText "<audiohal>\n<mixer card='0'><pre_init/></mixer>
    <device name='sco'><path name='on'><ctl name='S' val='1'/></path></device></audiohal>")], ⟨"/"⟩⟩

set_option maxRecDepth 4000 in
theorem readTree_plain : (readTree plainDisk ⟨"/b"⟩).toOption.map (fun es => (eventsOfAll es).map Event.unlined)
    = some ((eventsOfAll [.mk "audiohal" 1 [] relayBody]).map Event.unlined) := by
  refine readTree_of_find rfl String.toList_ofList fun t ht => ?_
  rw [Xml.elements?, ht]
  decide +kernel

/-- It is loaded as it is behind the first one. -/
theorem redirects_neutral_relay :
    let after : Rack := ⟨relayRack.cards.map fun card => { card with opens := 2 }⟩
    load relayDisk relayRack ⟨"a"⟩ = (.ok relayLoaded, after) ∧ SingleRoots relayDisk relayRack ⟨"a"⟩
      ∧ relayDisk.folder.isAbsolute = true ∧ load plainDisk relayRack ⟨"/b"⟩ = (.ok relayLoaded, after) := by
  intro after
  have hfolder : relayDisk.folder.isAbsolute = true := by decide
  refine ⟨loads_relay.2.2, singleRoots_relay, hfolder, ?_⟩
  obtain ⟨earlier, last, s, t, root, htakes, hlast, hread, hneutral, -⟩ :=
    redirects_neutral loads_relay.2.2 singleRoots_relay hfolder
  obtain ⟨-, rfl, -⟩ := loads_relay.1.unique_of_last (fun _ _ => loads_relay.2.1.not_some) htakes
    fun _ _ => hlast.not_some
  have hplain : eventsOf root.withoutProbe = eventsOfAll [.mk "audiohal" 1 [] relayBody] := by
    have hevents := readTree_relay.2
    rw [hread] at hevents
    have hboth : eventsOfAll [root.withoutProbe] = eventsOfAll [.mk "audiohal" 1 [] relayBody] :=
      congrArg (fun c => c.2.2) (Option.some.inj hevents)
    rwa [eventsOfAll, eventsOfAll, List.append_nil] at hboth
  obtain ⟨elements, helements, hsame⟩ := Option.map_eq_some_iff.mp readTree_plain
  refine hneutral plainDisk elements (eq_ok_of_toOption helements) (hplain ▸ hsame) ?_
  have hnone : (eventsOf root.withoutProbe).flatMap Event.fileNames = [] := by
    rw [hplain]
    decide
  rw [hnone]
  exact fun _ h => absurd h List.not_mem_nil

/-- A configuration with an entity that ends the root element; another one follows, and hands over. -/
def leakDisk : Disk :=
  ⟨.folder [
    ("a", .ofText "<!DOCTYPE a [<!ENTITY z \"<mixer card='0'/><device name='sco'><path name='on'>
      <ctl name='S' val='1'/></path></device></audiohal>\">]><audiohal>&z;<audiohal>
      <codec_probe file='c'><case name='k' file='b'/></codec_probe></audiohal>"),
    ("b", .ofText "<audiohal><mixer card='2'/></audiohal>"),
    ("c", .ofText "k")], ⟨"/"⟩⟩

def leakRack : Rack :=
  ⟨[.ofControls 0 none [.switch "S" 1], .blank 2 none]⟩

/-- The second configuration on its own declares no device. -/
def leakLast : Loaded :=
  ⟨(State.start leakRack).model.compress, ⟨2, []⟩, 2⟩

/-- Behind the first one, it is loaded with its device, which the other card does not have. -/
def leakLoaded : Loaded :=
  { leakLast with
    model :=
      { leakLast.model with
        devices := ⟨#[⟨0x70#32, 0, ⟨#[⟨.on, ⟨#[⟨"S", .all, .int 1, .unresolved⟩], 1⟩⟩], 1⟩⟩], 1⟩
        outputs := 0x70#32 } }

def leakFirst : List Xml.Element :=
  [.mk "audiohal" 2 [] [.mk "mixer" 1 [("card", "0")] [],
      .mk "device" 1 [("name", "sco")] [.mk "path" 1 [("name", "on")] [.mk "ctl" 2 [("name", "S"), ("val", "1")] []]]],
    .mk "audiohal" 2 [] [.mk "codec_probe" 3 [("file", "c")] [.mk "case" 3 [("name", "k"), ("file", "b")] []]]]

def leakSecond : List Xml.Element :=
  [.mk "audiohal" 1 [] [.mk "mixer" 1 [("card", "2")] []]]

set_option maxRecDepth 4000 in
theorem readTree_leak : (readTree leakDisk ⟨"/a"⟩).toOption.map eventsOfAll = some (eventsOfAll leakFirst)
    ∧ (readTree leakDisk ⟨"/b"⟩).toOption.map eventsOfAll = some (eventsOfAll leakSecond) := by
  constructor
  · refine readTree_of_find rfl String.toList_ofList fun t ht => ?_
    rw [Xml.elements?, ht]
    decide +kernel
  · refine readTree_of_find rfl String.toList_ofList fun t ht => ?_
    rw [Xml.elements?, ht]
    decide +kernel

theorem load_leak : ∃ s, TakesUp leakDisk leakRack ⟨"a"⟩ [⟨"/a"⟩] ⟨"/b"⟩ s
    ∧ load leakDisk leakRack ⟨"a"⟩ = (.ok leakLoaded, ⟨leakRack.cards.map fun card => { card with opens := 1 }⟩) := by
  have htakes : TakesUp leakDisk leakRack ⟨"a"⟩ [⟨"/a"⟩] ⟨"/b"⟩ _ :=
    (TakesUp.start (by decide)).next_of_events readTree_leak.1 (by decide +kernel)
  obtain ⟨-, hload⟩ := htakes.load_of_events readTree_leak.2 (by decide +kernel) rfl leakLoaded
    (by decide +kernel)
  refine ⟨_, htakes, ?_⟩
  rw [hload, Prod.mk.injEq]
  exact ⟨rfl, by decide +kernel⟩

/-- A configuration with a control whose value is the configuration itself. -/
def selfDisk : Disk :=
  ⟨.folder [
    ("a", .ofText "<audiohal><codec_probe file='c'><case name='k' file='b'/></codec_probe></audiohal>"),
    ("b", .ofText "<audiohal><codec_probe file='c'/><mixer card='0'><init><ctl name='B' file='b'/></init></mixer>
      </audiohal>"),
    ("c", .ofText "k")], ⟨"/"⟩⟩

def selfPlainDisk : Disk :=
  ⟨.folder [
    ("b", .ofText "<audiohal><mixer card='0'><init><ctl name='B' file='b'/></init></mixer>
      </audiohal>")], ⟨"/"⟩⟩

def selfRack : Rack :=
  ⟨[.ofControls 0 none [.bytes "B" 16]]⟩

def selfAfter (text : String) : Rack :=
  let data := text.toByteArray.data.toList
  ⟨[{ Card.blank 0 none with
    controls := [{ LiveControl.start (.bytes "B" 16) with bytes := data }]
    log := [⟨"B", .bytes data⟩]
    opens := 1 }]⟩

def selfLoaded : Loaded :=
  ⟨(State.start selfRack).model.compress, ⟨0, [0]⟩, 0⟩

def selfBody : List Xml.Element :=
  [.mk "mixer" 1 [("card", "0")] [.mk "init" 1 [] [.mk "ctl" 1 [("name", "B"), ("file", "b")] []]]]

set_option maxRecDepth 4000 in
theorem readTree_self : (readTree selfDisk ⟨"/a"⟩).toOption.map eventsOfAll = some (eventsOfAll relayFirst)
    ∧ (readTree selfDisk ⟨"/b"⟩).toOption.map eventsOfAll
      = some (eventsOfAll [.mk "audiohal" 1 [] (.mk "codec_probe" 1 [("file", "c")] [] :: selfBody)])
    ∧ (readTree selfPlainDisk ⟨"/b"⟩).toOption.map eventsOfAll = some (eventsOfAll [.mk "audiohal" 1 [] selfBody]) := by
  refine ⟨?_, ?_, ?_⟩
  all_goals
    refine readTree_of_find rfl String.toList_ofList fun t ht => ?_
    rw [Xml.elements?, ht]
    decide +kernel

/-- With two root elements in the first file, what it has declared is handed over to the second one. And if
the value of a control is its own file, the file does not do the same without the codec probe. -/
theorem handed_over_differs :
    ((∃ s, TakesUp leakDisk leakRack ⟨"a"⟩ [⟨"/a"⟩] ⟨"/b"⟩ s)
      ∧ load leakDisk leakRack ⟨"a"⟩ = (.ok leakLoaded, ⟨leakRack.cards.map fun card => { card with opens := 1 }⟩)
      ∧ (load leakDisk leakRack ⟨"/b"⟩).1 = .ok leakLast ∧ leakLoaded.model ≠ leakLast.model)
    ∧ (∃ s, TakesUp selfDisk selfRack ⟨"a"⟩ [⟨"/a"⟩] ⟨"/b"⟩ s)
      ∧ load selfDisk selfRack ⟨"a"⟩ = (.ok selfLoaded, selfAfter "<audiohal><codec")
      ∧ load selfPlainDisk selfRack ⟨"/b"⟩ = (.ok selfLoaded, selfAfter "<audiohal><mixer")
      ∧ selfAfter "<audiohal><codec" ≠ selfAfter "<audiohal><mixer" := by
  obtain ⟨s, htakes, hload⟩ := load_leak
  obtain ⟨hfirst, hsecond, hplain⟩ := readTree_self
  refine ⟨⟨⟨s, htakes⟩, hload, ?_, by decide +kernel⟩, ?_⟩
  · have hstart : TakesUp leakDisk leakRack ⟨"/b"⟩ [] ⟨"/b"⟩ _ := TakesUp.start (by decide)
    rw [(hstart.load_of_events readTree_leak.2 (by decide +kernel) rfl leakLast (by decide +kernel)).2]
  · have hself : TakesUp selfDisk selfRack ⟨"a"⟩ [⟨"/a"⟩] ⟨"/b"⟩ _ :=
      (TakesUp.start (by decide)).next_of_events hfirst (by decide +kernel)
    have hstart : TakesUp selfPlainDisk selfRack ⟨"/b"⟩ [] ⟨"/b"⟩ _ := TakesUp.start (by decide)
    refine ⟨⟨_, hself⟩, ?_, ?_, by decide +kernel⟩
    · rw [(hself.load_of_events hsecond (by decide +kernel) rfl selfLoaded (by decide +kernel)).2,
        Prod.mk.injEq]
      exact ⟨rfl, by decide +kernel⟩
    · rw [(hstart.load_of_events hplain (by decide +kernel) rfl selfLoaded (by decide +kernel)).2,
        Prod.mk.injEq]
      exact ⟨rfl, by decide +kernel⟩

end Config

end SoundRouting
