import Mathlib.Computability.RegularExpressions
import SoundRouting.Proofs.Load.Events
/-!
The language of configurations.

What an element holds is a regular expression over the elements, and a document conforms if every element
holds what its expression says. Events are taken as long as they can still be completed to a document: a
level per open element remembers the elements that have begun in it, which settles those that may follow.
-/
namespace SoundRouting.Config

open ElementKind RegularExpression

def anyOf : List ElementKind → RegularExpression ElementKind
  | kinds => star (kinds.foldr (fun e r => char e + r) 0)

/-- What an element holds, and what a document does. -/
def content : Option ElementKind → RegularExpression ElementKind
  | none => anyOf [.root]
  | some .root => anyOf [.codecProbe] * (1 + char .mixer * anyOf [.device, .stream])
  | some .mixer => anyOf [.preInit] * (1 + char .init)
  | some .preInit | some .init | some .path | some .useCaseCase => anyOf [.control]
  | some .device => anyOf [.path]
  | some .stream => anyOf [.volume, .enable, .disable, .useCase, .constant]
  | some .useCase => anyOf [.useCaseCase]
  | some .codecProbe => anyOf [.codecCase]
  | some .control | some .enable | some .disable | some .constant | some .volume | some .codecCase => 1

mutual

/-- A tree is the element of a kind, and everything in it is what it may be. -/
inductive Conforms : ElementKind → Xml.Element → Prop
  | mk {e : ElementKind} {kinds : List ElementKind} {children : List Xml.Element} (line : Nat)
      (attributes : List (String × String)) (hcontent : kinds ∈ (content (some e)).matches')
      (h : ConformAll kinds children) : Conforms e (.mk e.tag line attributes children)

inductive ConformAll : List ElementKind → List Xml.Element → Prop
  | nil : ConformAll [] []
  | cons {e : ElementKind} {kinds : List ElementKind} {x : Xml.Element} {more : List Xml.Element}
      (h : Conforms e x) (hmore : ConformAll kinds more) : ConformAll (e :: kinds) (x :: more)

end

/-- The elements of a document are as the language has them. -/
def InLanguage (elements : List Xml.Element) : Prop :=
  ∃ kinds ∈ (content none).matches', ConformAll kinds elements

/-- The events are those that some document of the language begins with. -/
def Completable (events : List Event) : Prop :=
  ∃ elements rest, InLanguage elements ∧ eventsOfAll elements = events ++ rest

/-! ### What may follow -/

theorem mem_anyOf {kinds ks : List ElementKind} : ks ∈ (anyOf kinds).matches' ↔ ∀ k ∈ ks, k ∈ kinds := by
  have hone : ∀ k : List ElementKind, k ∈ (kinds.foldr (fun e r => char e + r) 0).matches'
      ↔ ∃ e ∈ kinds, k = [e] := by
    intro k
    induction kinds with
    | nil => exact iff_of_false (Set.notMem_empty k) nofun
    | cons e more ih =>
      rw [List.foldr_cons, matches'_add, Language.mem_add, ih, List.exists_mem_cons_iff]
      exact Iff.rfl
  rw [anyOf, matches'_star, Language.mem_kstar]
  constructor
  · rintro ⟨parts, rfl, hparts⟩ k hk
    obtain ⟨part, hpart, hk⟩ := List.mem_flatten.mp hk
    obtain ⟨e, he, rfl⟩ := (hone part).mp (hparts part hpart)
    rwa [List.mem_singleton.mp hk]
  · intro h
    refine ⟨ks.map fun k => [k], ?_, ?_⟩
    · rw [← List.flatMap_def, List.flatMap_singleton']
    · rw [List.forall_mem_map]
      exact fun k hk => (hone _).mpr ⟨k, h k hk, rfl⟩

/-- A document, or an open element, and the elements that have begun in it. -/
structure Level where
  element : Option ElementKind
  begun : List ElementKind
  deriving DecidableEq, Repr

def Level.followers : Level → List ElementKind
  | ⟨none, _⟩ => Grammar.topLevel
  | ⟨some .root, begun⟩ => if .mixer ∈ begun then Grammar.afterMixer else ElementKind.root.children
  | ⟨some .mixer, begun⟩ => if .init ∈ begun then [] else ElementKind.mixer.children
  | ⟨some e, _⟩ => e.children

theorem nil_mem_content (e : Option ElementKind) : [] ∈ (content e).matches' := by
  have hany : ∀ kinds, [] ∈ (anyOf kinds).matches' := fun kinds => mem_anyOf.mpr (by simp)
  have hopt : ∀ r : RegularExpression ElementKind, [] ∈ (1 + r).matches' :=
    fun r => (Language.mem_add _ _ _).mpr (Or.inl Language.nil_mem_one)
  cases e with
  | none => exact hany _
  | some e =>
    cases e with
    | root | mixer => exact Language.mem_mul.mpr ⟨[], hany _, [], hopt _, rfl⟩
    | control | enable | disable | constant | volume | codecCase => exact Language.nil_mem_one
    | _ => exact hany _

theorem concat_mem_anyOf {kinds ks : List ElementKind} {k : ElementKind} :
    ks ++ [k] ∈ (anyOf kinds).matches' ↔ ks ∈ (anyOf kinds).matches' ∧ k ∈ kinds := by
  rw [mem_anyOf, mem_anyOf, List.forall_mem_append, List.forall_mem_singleton]

theorem mem_char {k : ElementKind} {ks : List ElementKind} : ks ∈ (char k).matches' ↔ ks = [k] :=
  Iff.rfl

/-- The contents of the root element: probes, and behind them a mixer and what it is for. -/
theorem mem_content_root {ks : List ElementKind} : ks ∈ (content (some .root)).matches' ↔
    (∀ k ∈ ks, k = .codecProbe) ∨ ∃ probes rest, ks = probes ++ .mixer :: rest
      ∧ (∀ k ∈ probes, k = .codecProbe) ∧ ∀ k ∈ rest, k ∈ Grammar.afterMixer := by
  simp only [content, matches'_mul, matches'_add, Language.mem_mul, Language.mem_add, mem_anyOf, mem_char,
    List.mem_singleton]
  constructor
  · rintro ⟨probes, hprobes, _, rfl | ⟨_, rfl, rest, hrest, rfl⟩, rfl⟩
    · exact Or.inl (by rwa [List.append_nil])
    · exact Or.inr ⟨probes, rest, rfl, hprobes, hrest⟩
  · rintro (hprobes | ⟨probes, rest, rfl, hprobes, hrest⟩)
    · exact ⟨ks, hprobes, [], Or.inl rfl, List.append_nil ks⟩
    · exact ⟨probes, hprobes, .mixer :: rest, Or.inr ⟨[.mixer], rfl, rest, hrest, rfl⟩, rfl⟩

/-- The contents of a mixer: early writes, and behind them perhaps the initial ones. -/
theorem mem_content_mixer {ks : List ElementKind} : ks ∈ (content (some .mixer)).matches' ↔
    (∀ k ∈ ks, k = .preInit) ∨ ∃ early, ks = early ++ [.init] ∧ ∀ k ∈ early, k = .preInit := by
  simp only [content, matches'_mul, matches'_add, Language.mem_mul, Language.mem_add, mem_anyOf, mem_char,
    List.mem_singleton]
  constructor
  · rintro ⟨early, hearly, _, rfl | rfl, rfl⟩
    · exact Or.inl (by rwa [List.append_nil])
    · exact Or.inr ⟨early, rfl, hearly⟩
  · rintro (hearly | ⟨early, rfl, hearly⟩)
    · exact ⟨ks, hearly, [], Or.inl rfl, List.append_nil ks⟩
    · exact ⟨early, hearly, [.init], Or.inr rfl, rfl⟩

theorem concat_mem_root {ks : List ElementKind} {k : ElementKind} :
    ks ++ [k] ∈ (content (some .root)).matches'
      ↔ ks ∈ (content (some .root)).matches' ∧ k ∈ Level.followers ⟨some .root, ks⟩ := by
  have hfront : ∀ {l : List ElementKind}, (∀ k ∈ l, k = .codecProbe) → .mixer ∉ l :=
    fun h hmem => nomatch h _ hmem
  rw [mem_content_root, mem_content_root, Level.followers]
  constructor
  · rintro (h | ⟨probes, rest, he, hprobes, hrest⟩)
    · rw [List.forall_mem_append, List.forall_mem_singleton] at h
      obtain ⟨hks, rfl⟩ := h
      exact ⟨Or.inl hks, by rw [if_neg (hfront hks)]; decide⟩
    · rcases rest.eq_nil_or_concat' with rfl | ⟨rest, last, rfl⟩
      · obtain ⟨rfl, hk⟩ := List.append_inj' he rfl
        cases hk
        exact ⟨Or.inl hprobes, by rw [if_neg (hfront hprobes)]; decide⟩
      · rw [← List.cons_append, ← List.append_assoc] at he
        obtain ⟨rfl, hk⟩ := List.append_inj' he rfl
        cases hk
        rw [List.forall_mem_append, List.forall_mem_singleton] at hrest
        exact ⟨Or.inr ⟨probes, rest, rfl, hprobes, hrest.1⟩, by rw [if_pos (by simp)]; exact hrest.2⟩
  · rintro ⟨hks | ⟨probes, rest, rfl, hprobes, hrest⟩, hk⟩
    · rw [if_neg (hfront hks)] at hk
      rcases List.mem_cons.mp hk with rfl | hk
      · exact Or.inr ⟨ks, [], rfl, hks, fun _ h => absurd h List.not_mem_nil⟩
      · rw [List.forall_mem_append, List.forall_mem_singleton]
        exact Or.inl ⟨hks, List.mem_singleton.mp hk⟩
    · rw [if_pos (by simp)] at hk
      refine Or.inr ⟨probes, rest ++ [k], by simp, hprobes, ?_⟩
      rw [List.forall_mem_append, List.forall_mem_singleton]
      exact ⟨hrest, hk⟩

theorem concat_mem_mixer {ks : List ElementKind} {k : ElementKind} :
    ks ++ [k] ∈ (content (some .mixer)).matches'
      ↔ ks ∈ (content (some .mixer)).matches' ∧ k ∈ Level.followers ⟨some .mixer, ks⟩ := by
  have hearly : ∀ {l : List ElementKind}, (∀ k ∈ l, k = .preInit) → .init ∉ l :=
    fun h hmem => nomatch h _ hmem
  rw [mem_content_mixer, mem_content_mixer, Level.followers]
  constructor
  · rintro (h | ⟨early, he, h⟩)
    · rw [List.forall_mem_append, List.forall_mem_singleton] at h
      obtain ⟨hks, rfl⟩ := h
      exact ⟨Or.inl hks, by rw [if_neg (hearly hks)]; decide⟩
    · obtain ⟨rfl, hk⟩ := List.append_inj' he rfl
      cases hk
      exact ⟨Or.inl h, by rw [if_neg (hearly h)]; decide⟩
  · rintro ⟨hks | ⟨early, rfl, h⟩, hk⟩
    · rw [if_neg (hearly hks)] at hk
      rcases List.mem_cons.mp hk with rfl | hk
      · exact Or.inr ⟨ks, rfl, hks⟩
      · rw [List.forall_mem_append, List.forall_mem_singleton]
        exact Or.inl ⟨hks, List.mem_singleton.mp hk⟩
    · rw [if_pos (by simp)] at hk
      exact absurd hk List.not_mem_nil

/-- What has begun in an element goes on with one of the followers, and with nothing else. -/
theorem concat_mem_content {e : Option ElementKind} {ks : List ElementKind} {k : ElementKind} :
    ks ++ [k] ∈ (content e).matches' ↔ ks ∈ (content e).matches' ∧ k ∈ Level.followers ⟨e, ks⟩ := by
  have hnone : ks ++ [k] ∈ (1 : RegularExpression ElementKind).matches'
      ↔ ks ∈ (1 : RegularExpression ElementKind).matches' ∧ k ∈ ([] : List ElementKind) := by
    refine iff_of_false (fun h => ?_) fun h => absurd h.2 List.not_mem_nil
    exact List.append_ne_nil_of_right_ne_nil ks (List.cons_ne_nil k []) ((Language.mem_one _).mp h)
  cases e with
  | none => exact concat_mem_anyOf
  | some e =>
    cases e with
    | root => exact concat_mem_root
    | mixer => exact concat_mem_mixer
    | control | enable | disable | constant | volume | codecCase => exact hnone
    | stream =>
      rw [content, concat_mem_anyOf]
      exact and_congr_right fun _ => by simp [Level.followers, ElementKind.children]; tauto
    | _ => exact concat_mem_anyOf

theorem prefix_mem_content {e : Option ElementKind} {ks more : List ElementKind}
    (h : ks ++ more ∈ (content e).matches') : ks ∈ (content e).matches' := by
  induction more using List.reverseRecOn with
  | nil => rwa [List.append_nil] at h
  | append_singleton more k ih =>
    rw [← List.append_assoc] at h
    exact ih (concat_mem_content.mp h).1

/-- Followers that are written in the same way are the same. -/
theorem elementOfTag?_followers {l : Level} {e : ElementKind} {tag : String} :
    Grammar.elementOfTag? l.followers tag = some e ↔ e ∈ l.followers ∧ e.tag = tag := by
  have hsplit : ∀ kinds : List ElementKind, (∀ a ∈ kinds, Grammar.elementOfTag? kinds a.tag = some a) →
      (Grammar.elementOfTag? kinds tag = some e ↔ e ∈ kinds ∧ e.tag = tag) := by
    intro kinds hkinds
    constructor
    · intro h
      have hallowed := List.find?_some h
      rwa [Bool.and_eq_true, List.contains_iff_mem, beq_iff_eq] at hallowed
    · rintro ⟨he, rfl⟩
      exact hkinds e he
  refine hsplit _ ?_
  obtain ⟨e, begun⟩ := l
  cases e with
  | none => exact of_decide_eq_true rfl
  | some e =>
    cases e with
    | root | mixer =>
      rw [Level.followers]
      split <;> decide
    | _ => exact of_decide_eq_true rfl

/-! ### Taking events -/

/-- The open levels after an event, the innermost one first, if the event may come. -/
def Event.advance : Event → List Level → Option (List Level)
  | .opens _ tag _, l :: outer =>
    (Grammar.elementOfTag? l.followers tag).map fun e =>
      ⟨some e, []⟩ :: { l with begun := l.begun ++ [e] } :: outer
  | .opens _ _ _, [] => none
  | .closes _, levels => some levels.tail

def levelsAfter : List Event → List Level → Option (List Level)
  | [], levels => some levels
  | e :: more, levels => (e.advance levels).bind (levelsAfter more)

theorem levelsAfter_append (a b : List Event) (levels : List Level) :
    levelsAfter (a ++ b) levels = (levelsAfter a levels).bind (levelsAfter b) := by
  induction a generalizing levels with
  | nil => rfl
  | cons e more ih =>
    rw [List.cons_append, levelsAfter, levelsAfter, Option.bind_assoc]
    congr 1
    funext next
    exact ih next

theorem levelsAfter_one (e : Event) (levels : List Level) : levelsAfter [e] levels = e.advance levels := by
  rw [levelsAfter]
  cases e.advance levels <;> rfl

mutual

/-- An element leads through its events to its level with one more element begun. -/
theorem levelsAfter_eventsOf {outer levels : List Level} : ∀ (x : Xml.Element) (l : Level),
    levelsAfter (eventsOf x) (l :: outer) = some levels
      ↔ ∃ e ∈ l.followers, Conforms e x ∧ levels = { l with begun := l.begun ++ [e] } :: outer
  | .mk tag line attributes children, l => by
    rw [eventsOf, levelsAfter, Event.advance]
    constructor
    · intro h
      obtain ⟨next, hnext, hrest⟩ := Option.bind_eq_some_iff.mp h
      obtain ⟨e, he, rfl⟩ := Option.map_eq_some_iff.mp hnext
      obtain ⟨hfollows, rfl⟩ := elementOfTag?_followers.mp he
      rw [levelsAfter_append] at hrest
      obtain ⟨inner, hinner, hclose⟩ := Option.bind_eq_some_iff.mp hrest
      obtain ⟨kinds, hkinds, hconform, rfl⟩ :=
        (levelsAfter_eventsOfAll children ⟨some e, []⟩ (nil_mem_content _)).mp hinner
      cases hclose
      exact ⟨e, hfollows, .mk line attributes hkinds hconform, rfl⟩
    · rintro ⟨e, hfollows, hconforms, rfl⟩
      cases hconforms with
      | mk _ _ hcontent hconform =>
        rw [elementOfTag?_followers.mpr ⟨hfollows, rfl⟩, Option.map_some, Option.bind_some, levelsAfter_append,
          (levelsAfter_eventsOfAll children ⟨some e, []⟩ (nil_mem_content _)).mpr ⟨_, hcontent, hconform, rfl⟩]
        rfl

/-- Elements lead through their events to their level with all of them begun. -/
theorem levelsAfter_eventsOfAll {outer levels : List Level} : ∀ (xs : List Xml.Element) (l : Level),
    l.begun ∈ (content l.element).matches' →
    (levelsAfter (eventsOfAll xs) (l :: outer) = some levels
      ↔ ∃ kinds, l.begun ++ kinds ∈ (content l.element).matches' ∧ ConformAll kinds xs
        ∧ levels = { l with begun := l.begun ++ kinds } :: outer)
  | [], l, hl => by
    rw [eventsOfAll, levelsAfter, Option.some.injEq]
    constructor
    · rintro rfl
      exact ⟨[], by rwa [List.append_nil], .nil, by rw [List.append_nil]⟩
    · rintro ⟨kinds, -, hconform, rfl⟩
      cases hconform
      rw [List.append_nil]
  | x :: more, l, hl => by
    rw [eventsOfAll, levelsAfter_append]
    constructor
    · intro h
      obtain ⟨next, hnext, hrest⟩ := Option.bind_eq_some_iff.mp h
      obtain ⟨e, he, hconforms, rfl⟩ := (levelsAfter_eventsOf x l).mp hnext
      have hl' := concat_mem_content.mpr ⟨hl, he⟩
      obtain ⟨kinds, hkinds, hconform, rfl⟩ :=
        (levelsAfter_eventsOfAll more { l with begun := l.begun ++ [e] } hl').mp hrest
      rw [List.append_assoc] at hkinds ⊢
      exact ⟨e :: kinds, hkinds, .cons hconforms hconform, rfl⟩
    · rintro ⟨kinds, hkinds, hconform, rfl⟩
      cases hconform with
      | @cons e kinds _ _ hconforms hconform =>
        rw [List.append_cons] at hkinds
        have hl' := prefix_mem_content hkinds
        have he := (concat_mem_content.mp hl').2
        rw [(levelsAfter_eventsOf x l).mpr ⟨e, he, hconforms, rfl⟩, Option.bind_some]
        refine (levelsAfter_eventsOfAll more { l with begun := l.begun ++ [e] } hl').mpr ⟨kinds, hkinds, hconform, ?_⟩
        rw [← List.append_cons]

end

def Level.top : Level :=
  ⟨none, []⟩

/-- Elements are in the language if all their events may come. -/
theorem inLanguage_iff {elements : List Xml.Element} :
    InLanguage elements ↔ (levelsAfter (eventsOfAll elements) [.top]).isSome = true := by
  rw [InLanguage, Option.isSome_iff_exists]
  constructor
  · rintro ⟨kinds, hkinds, hconform⟩
    exact ⟨_, (levelsAfter_eventsOfAll elements .top (nil_mem_content _)).mpr ⟨kinds, hkinds, hconform, rfl⟩⟩
  · rintro ⟨levels, h⟩
    obtain ⟨kinds, hkinds, hconform, -⟩ := (levelsAfter_eventsOfAll elements .top (nil_mem_content _)).mp h
    exact ⟨kinds, hkinds, hconform⟩

def Event.opensTag (tag : String) : Event → Bool
  | .opens _ t _ => t == tag
  | .closes _ => false

def Event.IsEnd (e : Event) : Prop :=
  ∃ line, e = .closes line

mutual

/-- An element can be cut off anywhere: what is open there ends at once. -/
theorem cut_eventsOf : ∀ (x : Xml.Element) (done rest : List Event), eventsOf x = done ++ rest →
    ∃ elements ends, eventsOfAll elements = done ++ ends ∧ ∀ e ∈ ends, e.IsEnd
  | .mk tag line attributes children, done, rest, h => by
    rw [eventsOf] at h
    cases done with
    | nil => exact ⟨[], [], rfl, fun _ h => absurd h List.not_mem_nil⟩
    | cons first done =>
      rw [List.cons_append] at h
      obtain ⟨rfl, hevents⟩ := List.cons.inj h
      rcases List.append_eq_append_iff.mp hevents with ⟨inner, -, hclose⟩ | ⟨inner, hchildren, -⟩
      · refine ⟨[.mk tag line attributes children], rest, ?_, fun e he => ⟨line, ?_⟩⟩
        · rw [eventsOfAll, eventsOf, eventsOfAll, List.append_nil, hevents, List.cons_append]
        · rw [← List.mem_singleton, hclose]
          exact List.mem_append_right inner he
      · obtain ⟨elements, ends, helements, hends⟩ := cut_eventsOfAll children done inner hchildren
        refine ⟨[.mk tag line attributes elements], ends ++ [.closes line], ?_, ?_⟩
        · rw [eventsOfAll, eventsOf, helements, eventsOfAll, List.append_nil, List.cons_append, List.append_assoc]
        · rw [List.forall_mem_append, List.forall_mem_singleton]
          exact ⟨hends, line, rfl⟩

/-- Elements can be cut off anywhere. -/
theorem cut_eventsOfAll : ∀ (xs : List Xml.Element) (done rest : List Event), eventsOfAll xs = done ++ rest →
    ∃ elements ends, eventsOfAll elements = done ++ ends ∧ ∀ e ∈ ends, e.IsEnd
  | [], done, rest, h => by
    rw [eventsOfAll, List.nil_eq_append_iff] at h
    exact ⟨[], [], by rw [h.1]; rfl, fun _ h => absurd h List.not_mem_nil⟩
  | x :: more, done, rest, h => by
    rw [eventsOfAll] at h
    rcases List.append_eq_append_iff.mp h with ⟨done', rfl, hmore⟩ | ⟨rest', hx, -⟩
    · obtain ⟨elements, ends, helements, hends⟩ := cut_eventsOfAll more done' rest hmore
      exact ⟨x :: elements, ends, by rw [eventsOfAll, helements, List.append_assoc], hends⟩
    · exact cut_eventsOf x done rest' hx

end

mutual

/-- Within an element, what is open around it stays as it is. -/
theorem levelsAfter_within {outer levels : List Level} : ∀ (x : Xml.Element) (l : Level) (done rest : List Event),
    eventsOf x = done ++ rest → levelsAfter done (l :: outer) = some levels →
    ∃ upper begun, levels = upper ++ ⟨l.element, begun⟩ :: outer
  | .mk tag line attributes children, l, done, rest, hevents, h => by
    rw [eventsOf] at hevents
    cases done with
    | nil =>
      cases h
      exact ⟨[], l.begun, rfl⟩
    | cons first done =>
      rw [List.cons_append] at hevents
      obtain ⟨rfl, hinside⟩ := List.cons.inj hevents
      obtain ⟨next, hnext, h⟩ := Option.bind_eq_some_iff.mp h
      obtain ⟨e, he, rfl⟩ := Option.map_eq_some_iff.mp hnext
      have hinner : ∀ before after, eventsOfAll children = before ++ after → ∀ inner,
          levelsAfter before (⟨some e, []⟩ :: { l with begun := l.begun ++ [e] } :: outer) = some inner →
          ∃ upper begun, inner = upper ++ ⟨some e, begun⟩ :: { l with begun := l.begun ++ [e] } :: outer :=
        fun before after hbefore inner => levelsAfter_withinAll children ⟨some e, []⟩ before after hbefore
      rcases List.append_eq_append_iff.mp hinside with ⟨tail, rfl, htail⟩ | ⟨tail, hchildren, -⟩
      · rw [levelsAfter_append] at h
        obtain ⟨inner, hchildren, h⟩ := Option.bind_eq_some_iff.mp h
        obtain ⟨upper, begun, rfl⟩ := hinner (eventsOfAll children) [] (List.append_nil _).symm inner hchildren
        cases tail with
        | nil =>
          cases h
          exact ⟨upper ++ [⟨some e, begun⟩], l.begun ++ [e], by rw [List.append_assoc]; rfl⟩
        | cons first tail =>
          obtain ⟨rfl, hnil⟩ := List.cons.inj htail
          obtain ⟨rfl, -⟩ := List.append_eq_nil_iff.mp hnil.symm
          cases h
          cases upper with
          | nil => exact ⟨[], l.begun ++ [e], rfl⟩
          | cons u upper => exact ⟨upper ++ [⟨some e, begun⟩], l.begun ++ [e], by rw [List.append_assoc]; rfl⟩
      · obtain ⟨upper, begun, rfl⟩ := hinner done tail hchildren levels h
        exact ⟨upper ++ [⟨some e, begun⟩], l.begun ++ [e], by rw [List.append_assoc]; rfl⟩

/-- Within elements, what is open around them stays as it is. -/
theorem levelsAfter_withinAll {outer levels : List Level} : ∀ (xs : List Xml.Element) (l : Level)
    (done rest : List Event), eventsOfAll xs = done ++ rest → levelsAfter done (l :: outer) = some levels →
    ∃ upper begun, levels = upper ++ ⟨l.element, begun⟩ :: outer
  | [], l, done, rest, hevents, h => by
    rw [eventsOfAll, List.nil_eq_append_iff] at hevents
    obtain ⟨rfl, -⟩ := hevents
    cases h
    exact ⟨[], l.begun, rfl⟩
  | x :: more, l, done, rest, hevents, h => by
    rw [eventsOfAll] at hevents
    rcases List.append_eq_append_iff.mp hevents with ⟨tail, rfl, hmore⟩ | ⟨tail, hx, -⟩
    · rw [levelsAfter_append] at h
      obtain ⟨next, hnext, h⟩ := Option.bind_eq_some_iff.mp h
      obtain ⟨e, -, -, rfl⟩ := (levelsAfter_eventsOf x l).mp hnext
      exact levelsAfter_withinAll more { l with begun := l.begun ++ [e] } tail rest hmore h
    · exact levelsAfter_within x l done tail hx h

end

/-- Within a document of one element, that element is open. -/
theorem levelsAfter_rooted {x : Xml.Element} {done rest : List Event} {e : Event} {levels : List Level}
    (h : eventsOf x = done ++ e :: rest) (hlevels : levelsAfter done [.top] = some levels) :
    done = [] ∧ levels = [.top] ∨ ∃ upper begun, levels = upper ++ [⟨some .root, begun⟩, ⟨none, [.root]⟩] := by
  obtain ⟨tag, line, attributes, children⟩ := x
  rw [eventsOf] at h
  cases done with
  | nil =>
    cases hlevels
    exact Or.inl ⟨rfl, rfl⟩
  | cons first done =>
    rw [List.cons_append] at h
    obtain ⟨rfl, hinside⟩ := List.cons.inj h
    obtain ⟨next, hnext, hlevels⟩ := Option.bind_eq_some_iff.mp hlevels
    obtain ⟨k, hk, rfl⟩ := Option.map_eq_some_iff.mp hnext
    obtain rfl : k = .root := List.mem_singleton.mp (elementOfTag?_followers.mp hk).1
    -- the last event closes the element, so those before it stand in it
    obtain ⟨tail, hchildren⟩ : ∃ tail, eventsOfAll children = done ++ tail := by
      rcases concat_eq_split hinside with ⟨tail, hchildren⟩ | ⟨rfl, -⟩
      · exact ⟨_, hchildren⟩
      · exact ⟨[], (List.append_nil _).symm⟩
    obtain ⟨upper, begun, rfl⟩ := levelsAfter_withinAll children ⟨some .root, []⟩ done tail hchildren hlevels
    exact Or.inr ⟨upper, begun, rfl⟩

theorem levelsAfter_ends {ends : List Event} (h : ∀ e ∈ ends, e.IsEnd) (levels : List Level) :
    (levelsAfter ends levels).isSome = true := by
  induction ends generalizing levels with
  | nil => rfl
  | cons e more ih =>
    rw [List.forall_mem_cons] at h
    obtain ⟨⟨line, rfl⟩, hmore⟩ := h
    exact ih hmore levels.tail

/-- The first events of a document can be completed if each of them may come. -/
theorem completable_iff {elements : List Xml.Element} {done rest : List Event}
    (h : eventsOfAll elements = done ++ rest) :
    Completable done ↔ (levelsAfter done [.top]).isSome = true := by
  constructor
  · rintro ⟨elements', rest', hlanguage, hevents⟩
    rw [inLanguage_iff, hevents, levelsAfter_append, Option.isSome_bind] at hlanguage
    exact Option.isSome_of_any hlanguage
  · intro hsome
    obtain ⟨elements', ends, hevents, hends⟩ := cut_eventsOfAll elements done rest h
    refine ⟨elements', ends, inLanguage_iff.mpr ?_, hevents⟩
    obtain ⟨levels, hlevels⟩ := Option.isSome_iff_exists.mp hsome
    rw [hevents, levelsAfter_append, hlevels, Option.bind_some]
    exact levelsAfter_ends hends levels

end SoundRouting.Config
