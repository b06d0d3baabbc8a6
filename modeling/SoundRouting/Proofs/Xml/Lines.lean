import SoundRouting.Xml.Document
/-!
The lines of elements.

A scanner leaves an end of the text that it was given, and the text of an entity comes before what follows its
declaration. So behind a tag there are never more line feeds than the document has, and the line that an element
gets is counted from 1.
-/
namespace SoundRouting

namespace Text

variable {σ : Type} {step : List Char → σ → Option (List Char × σ × Bool)} {s rest : List Char}

theorem suffix_of_after? {word : String} (h : after? word s = some rest) : rest <:+ s :=
  ⟨word.toList, (afterWord?_eq_some_iff.mp h).symm⟩

theorem suffix_of_splitAt? {word : String} {before : List Char} (h : splitAt? word s = some (before, rest)) :
    rest <:+ s :=
  ⟨before ++ word.toList, (splitAt?_eq_some h).symm⟩

/-- What every step keeps, repeating the step keeps. -/
theorem repeatStep_induction {I : List Char → σ → Prop}
    (hstep : ∀ s state rest next again, I s state → step s state = some (rest, next, again) → I rest next)
    {state last : σ} (h : I s state) (hrun : repeatStep step s state = some (rest, last)) : I rest last := by
  suffices ∀ bound s state, I s state → repeatWithin step bound s state = some (rest, last) → I rest last from
    this _ s state h hrun
  intro bound
  induction bound with
  | zero => exact fun s state _ hrun => nomatch hrun
  | succ bound ih =>
    intro s state h hrun
    rw [repeatWithin] at hrun
    split at hrun
    · cases hrun
    · rename_i hlast
      cases hrun
      exact hstep _ _ _ _ _ h hlast
    · rename_i hagain
      exact ih _ _ (hstep _ _ _ _ _ h hagain) hrun

/-- A step that leaves an end of its text does so however often it is repeated. -/
theorem suffix_of_repeatStep (hstep : ∀ s state rest next again, step s state = some (rest, next, again) → rest <:+ s)
    {state last : σ} (hrun : repeatStep step s state = some (rest, last)) : rest <:+ s :=
  repeatStep_induction (I := fun left _ => left <:+ s)
    (fun _ _ _ _ _ h htake => (hstep _ _ _ _ _ htake).trans h) (List.suffix_refl s) hrun

end Text

namespace Xml

open Text

variable {s rest text : List Char} {entities : List Entity}

/-! ### Scanners -/

theorem suffix_skipSpace (s : List Char) : skipSpace s <:+ s :=
  List.dropWhile_suffix _

theorem suffix_of_someSpace? (h : someSpace? s = some rest) : rest <:+ s := by
  cases s with
  | nil => cases h
  | cons c more =>
    obtain ⟨-, heq⟩ := Option.ite_none_right_eq_some.mp h
    cases heq
    exact (suffix_skipSpace more).trans (List.suffix_cons c more)

theorem suffix_of_name? {name : List Char} (h : name? s = some (name, rest)) : rest <:+ s := by
  cases s with
  | nil => cases h
  | cons c more =>
    obtain ⟨-, heq⟩ := Option.ite_none_right_eq_some.mp h
    cases heq
    exact (List.dropWhile_suffix _).trans (List.suffix_cons c more)

theorem suffix_of_qname? {name : QName} (h : qname? s = some (name, rest)) : rest <:+ s := by
  simp only [qname?] at h
  split at h
  all_goals
    obtain ⟨-, heq⟩ := Option.ite_none_right_eq_some.mp h
    cases heq
    exact List.dropWhile_suffix _

/-- A text up to a mark, the mark and what follows are the whole. -/
theorem eq_of_upTo? {mark : Char} (h : upTo? mark s = some (text, rest)) : ∃ c, s = text ++ c :: rest := by
  rw [upTo?] at h
  split at h
  · rename_i c more hdrop
    cases h
    exact ⟨c, by rw [← hdrop, List.takeWhile_append_dropWhile]⟩
  · cases h

theorem suffix_of_upTo? {mark : Char} (h : upTo? mark s = some (text, rest)) : rest <:+ s := by
  obtain ⟨c, rfl⟩ := eq_of_upTo? h
  exact (List.suffix_cons c rest).trans (List.suffix_append text _)

/-- A quoted text and what follows it stand one behind the other. -/
theorem suffix_of_quoted? (h : quoted? s = some (text, rest)) : ∃ c, text ++ c :: rest <:+ s := by
  unfold quoted? at h
  split at h
  · obtain ⟨c, rfl⟩ := eq_of_upTo? h
    exact ⟨c, List.suffix_cons _ _⟩
  · obtain ⟨c, rfl⟩ := eq_of_upTo? h
    exact ⟨c, List.suffix_cons _ _⟩
  · cases h

theorem rest_suffix_of_quoted? (h : quoted? s = some (text, rest)) : rest <:+ s := by
  obtain ⟨c, h⟩ := suffix_of_quoted? h
  exact ((List.suffix_cons c rest).trans (List.suffix_append text _)).trans h

theorem suffix_of_rawValue? (h : rawValue? s = some (text, rest)) : rest <:+ s := by
  rw [rawValue?] at h
  split at h
  · rename_i hquoted
    obtain ⟨-, heq⟩ := Option.ite_none_right_eq_some.mp h
    cases heq
    exact rest_suffix_of_quoted? hquoted
  · cases h

theorem suffix_of_rawAttribute? {name : QName} (h : rawAttribute? s = some (name, text, rest)) : rest <:+ s := by
  simp only [rawAttribute?, Option.bind_eq_bind, Option.bind_eq_some_iff, Prod.exists, Option.pure_def,
    Option.some.injEq, Prod.mk.injEq] at h
  obtain ⟨name, r₁, hname, r₂, hequals, value, r₃, hvalue, -, -, rfl⟩ := h
  exact ((suffix_of_rawValue? hvalue).trans (suffix_skipSpace r₂)).trans
    (((suffix_of_after? hequals).trans (suffix_skipSpace r₁)).trans (suffix_of_qname? hname))

theorem suffix_of_comment? (h : comment? s = some rest) : rest <:+ s := by
  simp only [comment?, Option.bind_eq_bind, Option.bind_eq_some_iff, Prod.exists] at h
  obtain ⟨text, r, hsplit, h⟩ := h
  obtain ⟨-, heq⟩ := Option.ite_none_right_eq_some.mp h
  cases heq
  exact suffix_of_splitAt? hsplit

theorem suffix_of_instruction? (h : instruction? s = some rest) : rest <:+ s := by
  simp only [instruction?] at h
  split at h
  · cases h
  · simp only [Option.bind_eq_bind, Option.bind_eq_some_iff, Prod.exists] at h
    obtain ⟨r₁, hmark, name, r₂, hname, text, r₃, hend, h⟩ := h
    obtain ⟨-, heq⟩ := Option.ite_none_right_eq_some.mp h
    cases heq
    exact ((suffix_of_splitAt? hend).trans (suffix_skipSpace r₂)).trans
      ((suffix_of_name? hname).trans (suffix_of_after? hmark))

theorem suffix_of_misc? (h : misc? s = some rest) : rest <:+ s := by
  obtain ⟨⟨left, u⟩, hrun, rfl⟩ := Option.map_eq_some_iff.mp h
  refine suffix_of_repeatStep (fun s _ rest _ again hstep => ?_) hrun
  simp only [miscStep] at hstep
  refine List.IsSuffix.trans ?_ (suffix_skipSpace s)
  split at hstep
  · rename_i hmark
    obtain ⟨r, hcomment, heq⟩ := Option.map_eq_some_iff.mp hstep
    cases heq
    exact (suffix_of_comment? hcomment).trans (suffix_of_after? hmark)
  · split at hstep
    · obtain ⟨r, hinstruction, heq⟩ := Option.map_eq_some_iff.mp hstep
      cases heq
      exact suffix_of_instruction? hinstruction
    · cases hstep
      exact List.suffix_refl _

/-! ### The declaration of a document -/

theorem suffix_of_declarationGap? (h : declarationGap? s = some rest) : rest <:+ s := by
  unfold declarationGap? at h
  split at h
  · cases h
    exact List.suffix_refl _
  · split at h
    · cases h
      exact suffix_skipSpace _
    · obtain ⟨-, heq⟩ := Option.ite_none_right_eq_some.mp h
      cases heq
      exact List.suffix_refl _

theorem suffix_of_declarationPart? {word : String} (h : declarationPart? word s = some rest) : rest <:+ s := by
  rw [declarationPart?] at h
  split at h
  · obtain ⟨⟨name, value, r⟩, hattribute, rfl⟩ := Option.map_eq_some_iff.mp h
    exact suffix_of_rawAttribute? hattribute
  · cases h
    exact List.suffix_refl _

theorem suffix_of_declaration? (h : declaration? s = some rest) : rest <:+ s := by
  simp only [declaration?, Option.bind_eq_bind, Option.bind_eq_some_iff] at h
  obtain ⟨r₁, hgap, h⟩ := h
  split at h
  · cases h
  · obtain ⟨r₂, hversion, h⟩ := Option.bind_eq_some_iff.mp h
    obtain ⟨r₃, hgap', h⟩ := Option.bind_eq_some_iff.mp h
    have hfront : r₃ <:+ s :=
      ((suffix_of_declarationGap? hgap').trans (suffix_of_declarationPart? hversion)).trans
        (suffix_of_declarationGap? hgap)
    have hback : ∀ r, (do after? "?>" (skipSpace (← declarationPart? "standalone" r))) = some rest → rest <:+ r := by
      intro r hr
      obtain ⟨r', hstandalone, hend⟩ := Option.bind_eq_some_iff.mp hr
      exact ((suffix_of_after? hend).trans (suffix_skipSpace r')).trans (suffix_of_declarationPart? hstandalone)
    refine List.IsSuffix.trans ?_ hfront
    split at h
    · obtain ⟨r₄, hencoding, h⟩ := Option.bind_eq_some_iff.mp h
      obtain ⟨r, hpart, hgap⟩ := Option.bind_eq_some_iff.mp hencoding
      exact (hback r₄ h).trans ((suffix_of_declarationGap? hgap).trans (suffix_of_declarationPart? hpart))
    · exact hback r₃ h

/-! ### The document type -/

def Entity.Within (lines : Nat) (e : Entity) : Prop :=
  e.text.count '\n' + e.linesAfter ≤ lines

theorem suffix_of_externalId? {found : Bool} (h : externalId? s = some (found, rest)) : rest <:+ s := by
  unfold externalId? at h
  split at h
  · rename_i hmark
    simp only [Option.bind_eq_bind, Option.bind_eq_some_iff, Prod.exists, Option.pure_def, Option.some.injEq,
      Prod.mk.injEq] at h
    obtain ⟨r₁, hspace, text, r₂, hquoted, -, rfl⟩ := h
    exact ((rest_suffix_of_quoted? hquoted).trans (suffix_of_someSpace? hspace)).trans (suffix_of_after? hmark)
  · rename_i hmark
    simp only [Option.bind_eq_bind, Option.bind_eq_some_iff, Prod.exists, Option.pure_def, Option.some.injEq,
      Prod.mk.injEq] at h
    obtain ⟨r₁, hspace, text, r₂, hquoted, r₃, hspace', text', r₄, hquoted', -, rfl⟩ := h
    exact ((rest_suffix_of_quoted? hquoted').trans (suffix_of_someSpace? hspace')).trans
      (((rest_suffix_of_quoted? hquoted).trans (suffix_of_someSpace? hspace)).trans (suffix_of_after? hmark))
  · cases h
    exact List.suffix_refl _

/-- What an entity stands for, if it is a text, stands in front of what follows it. -/
theorem suffix_of_entityText? {general : Bool} {found : Option (List Char × List Char)}
    (h : entityText? general s = some (found, rest)) :
    rest <:+ s ∧ ∀ text behind, found = some (text, behind) → ∃ c, text ++ c :: behind <:+ s := by
  have hfound : ∀ {s text rest : List Char}, quoted? s = some (text, rest) →
      rest <:+ s ∧ ∀ t behind, some (text, rest) = some (t, behind) → ∃ c, t ++ c :: behind <:+ s := by
    intro s text rest hquoted
    refine ⟨rest_suffix_of_quoted? hquoted, ?_⟩
    rintro _ _ ⟨⟩
    exact suffix_of_quoted? hquoted
  unfold entityText? at h
  split at h
  · obtain ⟨⟨text, r⟩, hquoted, heq⟩ := Option.map_eq_some_iff.mp h
    cases heq
    exact hfound hquoted
  · obtain ⟨⟨text, r⟩, hquoted, heq⟩ := Option.map_eq_some_iff.mp h
    cases heq
    exact hfound hquoted
  · simp only [Option.bind_eq_bind, Option.bind_eq_some_iff, Prod.exists] at h
    obtain ⟨outside, r₁, hexternal, h⟩ := h
    have hrest := suffix_of_externalId? hexternal
    split at h
    · cases h
    · split at h
      · rename_i hmark
        simp only [Option.bind_eq_some_iff, Prod.exists, Option.pure_def, Option.some.injEq, Prod.mk.injEq] at h
        obtain ⟨r₂, hspace, name, r₃, hname, rfl, rfl⟩ := h
        refine ⟨?_, nofun⟩
        exact ((suffix_of_name? hname).trans (suffix_of_someSpace? hspace)).trans
          (((suffix_of_after? hmark).trans (suffix_skipSpace r₁)).trans hrest)
      · cases h
        exact ⟨hrest, nofun⟩

/-- The parts of an entity's declaration, and the entity that it adds if there is a text for it. -/
theorem entity?_eq_some {more : List Entity} (h : entity? s entities = some (rest, more)) :
    ∃ general r name r₁ r₂ found r₃, r <:+ s ∧ name? r = some (name, r₁) ∧ someSpace? r₁ = some r₂
      ∧ entityText? general r₂ = some (found, r₃) ∧ after? ">" (skipSpace r₃) = some rest
      ∧ more = entities ++ (found.map fun text => ⟨name, text.1, text.2.count '\n'⟩).toList := by
  simp only [entity?, Option.bind_eq_bind] at h
  obtain ⟨r₀, hspace, h⟩ := Option.bind_eq_some_iff.mp h
  have hbegin := suffix_of_someSpace? hspace
  split at h
  · rename_i hpercent
    obtain ⟨r, hspace', h⟩ := Option.bind_eq_some_iff.mp h
    have hr : r <:+ s := (suffix_of_someSpace? hspace').trans ((suffix_of_after? hpercent).trans hbegin)
    simp only [Option.bind_eq_some_iff, Prod.exists] at h
    obtain ⟨name, r₁, hname, r₂, hspace, found, r₃, htext, r₄, hend, h⟩ := h
    refine ⟨_, r, name, r₁, r₂, found, r₃, hr, hname, hspace, htext, ?_⟩
    cases found <;> cases h
    · exact ⟨hend, (List.append_nil _).symm⟩
    · exact ⟨hend, rfl⟩
  · simp only [Option.bind_some, Option.bind_eq_some_iff, Prod.exists] at h
    obtain ⟨name, r₁, hname, r₂, hspace, found, r₃, htext, r₄, hend, h⟩ := h
    refine ⟨_, r₀, name, r₁, r₂, found, r₃, hbegin, hname, hspace, htext, ?_⟩
    cases found <;> cases h
    · exact ⟨hend, (List.append_nil _).symm⟩
    · exact ⟨hend, rfl⟩

/-- An entity that is declared has its text in the document. -/
theorem within_of_entity? {lines : Nat} {more : List Entity} (h : entity? s entities = some (rest, more))
    (hs : s.count '\n' ≤ lines) (hentities : ∀ e ∈ entities, e.Within lines) :
    rest <:+ s ∧ ∀ e ∈ more, e.Within lines := by
  obtain ⟨general, r, name, r₁, r₂, found, r₃, hr, hname, hspace, htext, hend, rfl⟩ := entity?_eq_some h
  have hfront : r₂ <:+ s := ((suffix_of_someSpace? hspace).trans (suffix_of_name? hname)).trans hr
  obtain ⟨hback, hfound⟩ := suffix_of_entityText? htext
  refine ⟨((suffix_of_after? hend).trans (suffix_skipSpace r₃)).trans (hback.trans hfront), ?_⟩
  rw [List.forall_mem_append]
  refine ⟨hentities, fun e he => ?_⟩
  obtain ⟨⟨text, behind⟩, hsome, rfl⟩ := Option.map_eq_some_iff.mp (Option.mem_toList.mp he)
  obtain ⟨c, hsuffix⟩ := hfound text behind hsome
  have hcount := (hsuffix.trans hfront).sublist.count_le '\n'
  rw [List.count_append, List.count_cons] at hcount
  simp only [Entity.Within]
  omega

theorem within_of_subsetStep {lines : Nat} {more : List Entity} {again : Bool}
    (h : subsetStep s entities = some (rest, more, again)) (hs : s.count '\n' ≤ lines)
    (hentities : ∀ e ∈ entities, e.Within lines) : rest <:+ s ∧ ∀ e ∈ more, e.Within lines := by
  have hskip := suffix_skipSpace s
  simp only [subsetStep] at h
  split at h
  · rename_i r hmark
    obtain ⟨⟨left, found⟩, hentity, heq⟩ := Option.map_eq_some_iff.mp h
    cases heq
    have hr := (suffix_of_after? hmark).trans hskip
    have hcount := hr.sublist.count_le '\n'
    obtain ⟨hrest, hwithin⟩ := within_of_entity? hentity (by omega) hentities
    exact ⟨hrest.trans hr, hwithin⟩
  · split at h
    · rename_i hmark
      obtain ⟨r, hcomment, heq⟩ := Option.map_eq_some_iff.mp h
      cases heq
      exact ⟨(suffix_of_comment? hcomment).trans ((suffix_of_after? hmark).trans hskip), hentities⟩
    · split at h
      · obtain ⟨r, hinstruction, heq⟩ := Option.map_eq_some_iff.mp h
        cases heq
        exact ⟨(suffix_of_instruction? hinstruction).trans hskip, hentities⟩
      · split at h
        · rename_i left hmark
          obtain ⟨r, hend, heq⟩ := Option.map_eq_some_iff.mp h
          cases heq
          exact ⟨((suffix_of_after? hend).trans (suffix_skipSpace left)).trans ((suffix_of_after? hmark).trans hskip),
            hentities⟩
        · obtain ⟨-, h⟩ := Option.ite_none_right_eq_some.mp h
          obtain ⟨⟨text, r⟩, hend, heq⟩ := Option.map_eq_some_iff.mp h
          cases heq
          exact ⟨(suffix_of_upTo? hend).trans hskip, hentities⟩

theorem within_of_documentType? {lines : Nat} (h : documentType? s = some (rest, entities))
    (hs : s.count '\n' ≤ lines) : rest <:+ s ∧ ∀ e ∈ entities, e.Within lines := by
  simp only [documentType?, Option.bind_eq_bind, Option.bind_eq_some_iff, Prod.exists] at h
  obtain ⟨r₁, hspace, name, r₂, hname, found, r₃, hexternal, h⟩ := h
  have hfront : r₂ <:+ s := (suffix_of_name? hname).trans (suffix_of_someSpace? hspace)
  have hback : skipSpace r₃ <:+ s := ((suffix_skipSpace r₃).trans (suffix_of_externalId? hexternal)).trans
    ((suffix_skipSpace r₂).trans hfront)
  split at h
  · rename_i r hr
    cases h
    exact ⟨(List.suffix_cons _ _).trans (hr ▸ hback), nofun⟩
  · rename_i r hr
    have hsubset : r <:+ s := (List.suffix_cons _ _).trans (hr ▸ hback)
    refine repeatStep_induction (I := fun left found => left <:+ s ∧ ∀ e ∈ found, e.Within lines)
      (fun left found rest more again hkept hstep => ?_) ⟨hsubset, nofun⟩ h
    have hcount := hkept.1.sublist.count_le '\n'
    obtain ⟨hrest, hwithin⟩ := within_of_subsetStep hstep (by omega) hkept.2
    exact ⟨hrest.trans hkept.1, hwithin⟩
  · cases h

theorem within_of_prologType? {lines : Nat} (h : prologType? s = some (rest, entities)) (hs : s.count '\n' ≤ lines) :
    rest <:+ s ∧ ∀ e ∈ entities, e.Within lines := by
  rw [prologType?] at h
  split at h
  · rename_i hmark
    simp only [Option.bind_eq_bind, Option.bind_eq_some_iff, Prod.exists, Option.pure_def, Option.some.injEq,
      Prod.mk.injEq] at h
    obtain ⟨r₁, found, htype, r₂, hmisc, rfl, rfl⟩ := h
    have hmark' := suffix_of_after? hmark
    have hcount := hmark'.sublist.count_le '\n'
    obtain ⟨hrest, hwithin⟩ := within_of_documentType? htype (Nat.le_trans hcount hs)
    exact ⟨((suffix_of_misc? hmisc).trans hrest).trans hmark', hwithin⟩
  · cases h
    exact ⟨List.suffix_refl _, nofun⟩

/-! ### Elements -/

inductive Element.Numbered : Element → Prop
  | mk {tag : String} {line : Nat} {attributes : List (String × String)} {children : List Element} (h : 0 < line)
      (hchildren : ∀ c ∈ children, c.Numbered) : Numbered (.mk tag line attributes children)

structure Builder.Numbered (b : Builder) : Prop where
  start : ∀ start, b.start = some start → 0 < start.line
  opened : ∀ o ∈ b.opened, 0 < o.start.line ∧ ∀ c ∈ o.children, c.Numbered
  closed : ∀ e ∈ b.closed, e.Numbered

namespace Builder

variable {b next : Builder}

theorem numbered_blank : blank.Numbered :=
  ⟨nofun, nofun, nofun⟩

theorem Numbered.begin (h : b.Numbered) {start : StartTag} (hline : 0 < start.line)
    (hbegin : b.begin? start = some next) : next.Numbered := by
  obtain ⟨-, heq⟩ := Option.ite_none_left_eq_some.mp hbegin
  cases heq
  exact ⟨fun other he => Option.some.inj he ▸ hline, h.opened, h.closed⟩

/-- Attributes have no lines. -/
theorem Numbered.attribute (h : b.Numbered) {name : QName} {value : String}
    (hattribute : b.attribute? name value = some next) : next.Numbered := by
  have hsame : next.start = b.start ∧ next.opened = b.opened ∧ next.closed = b.closed := by
    unfold attribute? declare? declareDefault? at hattribute
    grind
  obtain ⟨hstart, hopened, hclosed⟩ := hsame
  exact ⟨hstart ▸ h.start, hopened ▸ h.opened, hclosed ▸ h.closed⟩

theorem Numbered.append (h : b.Numbered) {e : Element} (he : e.Numbered) : (b.append e).Numbered := by
  have hopened := h.opened
  rw [Builder.append]
  split
  · exact ⟨h.start, hopened, List.forall_mem_cons.mpr ⟨he, h.closed⟩⟩
  · rename_i inner outer hb
    rw [hb, List.forall_mem_cons] at hopened
    obtain ⟨⟨hinner, hchildren⟩, houter⟩ := hopened
    refine ⟨h.start, List.forall_mem_cons.mpr ⟨⟨hinner, ?_⟩, houter⟩, h.closed⟩
    exact List.forall_mem_cons.mpr ⟨he, hchildren⟩

theorem Numbered.knownStart (h : b.Numbered) {start : StartTag} (hstart : b.knownStart? = some start) :
    0 < start.line :=
  h.start start (Option.filter_eq_some_iff.mp hstart).1

theorem Numbered.open (h : b.Numbered) (hopen : b.open? = some next) : next.Numbered := by
  simp only [open?, Option.bind_eq_bind, Option.bind_eq_some_iff, Option.pure_def, Option.some.injEq] at hopen
  obtain ⟨attributes, -, start, hstart, rfl⟩ := hopen
  refine ⟨h.start, List.forall_mem_cons.mpr ⟨⟨h.knownStart hstart, nofun⟩, h.opened⟩, h.closed⟩

theorem Numbered.empty (h : b.Numbered) (hempty : b.empty? = some next) : next.Numbered := by
  simp only [empty?, Option.bind_eq_bind, Option.bind_eq_some_iff, Option.pure_def, Option.some.injEq] at hempty
  obtain ⟨attributes, -, start, hstart, rfl⟩ := hempty
  have hcleared : b.cleared.Numbered := ⟨h.start, h.opened, h.closed⟩
  exact hcleared.append (.mk (h.knownStart hstart) nofun)

theorem Numbered.close (h : b.Numbered) {name : QName} (hclose : b.close? name = some next) : next.Numbered := by
  simp only [close?, Option.bind_eq_bind, Option.bind_eq_some_iff] at hclose
  obtain ⟨start, -, attributes, -, hclose⟩ := hclose
  have hopened := h.opened
  split at hclose
  · cases hclose
  · rename_i inner outer hb
    obtain ⟨-, heq⟩ := Option.ite_none_right_eq_some.mp hclose
    cases heq
    rw [hb, List.forall_mem_cons] at hopened
    obtain ⟨⟨hinner, hchildren⟩, houter⟩ := hopened
    have houtside : Builder.Numbered { b.cleared with opened := outer } := ⟨h.start, houter, h.closed⟩
    exact houtside.append (.mk hinner fun c hc => hchildren c (List.mem_reverse.mp hc))

theorem Numbered.elements (h : b.Numbered) {elements : List Element} (he : b.elements? = some elements) :
    ∀ e ∈ elements, e.Numbered := by
  obtain ⟨-, heq⟩ := Option.ite_none_right_eq_some.mp he
  cases heq
  exact fun e he => h.closed e (List.mem_reverse.mp he)

end Builder

/-! ### Content -/

variable {place : Place} {b next : Builder}

/-- No more line feeds than the document has stand in the text that is left here and behind it, nor in the texts of
entities and behind them. -/
structure Place.Fits (place : Place) (s : List Char) : Prop where
  text : s.count '\n' + place.linesAfter ≤ place.lines
  entities : ∀ e ∈ place.entities, e.Within place.lines

theorem Place.Fits.suffix (h : place.Fits s) (hrest : rest <:+ s) : place.Fits rest := by
  have hcount := hrest.sublist.count_le '\n'
  have htext := h.text
  exact ⟨by omega, h.entities⟩

theorem Place.Fits.lineOf_pos (h : place.Fits s) : 0 < place.lineOf s := by
  have htext := h.text
  rw [lineOf]
  omega

theorem numbered_of_tagStep {state state' : Builder × Bool} {again : Bool}
    (h : tagStep place s state = some (rest, state', again)) :
    rest <:+ s ∧ (state.1.Numbered → state'.1.Numbered) := by
  have hskip := suffix_skipSpace s
  simp only [tagStep, Option.bind_eq_bind] at h
  split at h
  · cases h
    exact ⟨List.suffix_refl _, id⟩
  · split at h
    · cases h
    · rename_i r hr
      simp only [Option.bind_eq_some_iff, Option.pure_def, Option.some.injEq, Prod.mk.injEq] at h
      obtain ⟨r', hend, b, hempty, rfl, rfl, -⟩ := h
      exact ⟨(suffix_of_after? hend).trans ((List.suffix_cons _ _).trans (hr ▸ hskip)), fun hb => hb.empty hempty⟩
    · rename_i r hr
      simp only [Option.bind_eq_some_iff, Option.pure_def, Option.some.injEq, Prod.mk.injEq] at h
      obtain ⟨b, hopen, rfl, rfl, -⟩ := h
      exact ⟨(List.suffix_cons _ _).trans (hr ▸ hskip), fun hb => hb.open hopen⟩
    · rename_i c r _ _ hr
      split at h
      · cases h
      · simp only [Option.bind_eq_some_iff, Option.pure_def, Option.some.injEq, Prod.mk.injEq, Prod.exists] at h
        obtain ⟨name, raw, r', hattribute, value, expansions, -, b, hb, rfl, rfl, -⟩ := h
        refine ⟨(suffix_of_rawAttribute? hattribute).trans (hr ▸ hskip), fun hstate => ?_⟩
        obtain ⟨hstart, hopened, hclosed⟩ := hstate.attribute hb
        exact ⟨hstart, hopened, hclosed⟩

/-- A start tag gets the line that it begins on. -/
theorem numbered_of_startTag? {state : Builder × Bool} (h : startTag? place s b = some (rest, state))
    (hs : place.Fits s) (hb : b.Numbered) : rest <:+ s ∧ state.1.Numbered := by
  simp only [startTag?, Option.bind_eq_bind, Option.bind_eq_some_iff, Prod.exists] at h
  obtain ⟨name, r, ⟨r', hmark, hname⟩, b', hbegin, h⟩ := h
  have hr : r <:+ s := (suffix_of_qname? hname).trans (suffix_of_after? hmark)
  refine repeatStep_induction (I := fun left state => left <:+ s ∧ state.1.Numbered)
    (fun left state rest next again hkept hstep => ?_) ⟨hr, hb.begin hs.lineOf_pos hbegin⟩ h
  obtain ⟨hrest, hnumbered⟩ := numbered_of_tagStep hstep
  exact ⟨hrest.trans hkept.1, hnumbered hkept.2⟩

theorem numbered_of_endTag? (h : endTag? s b = some (rest, next)) : rest <:+ s ∧ (b.Numbered → next.Numbered) := by
  simp only [endTag?, Option.bind_eq_bind, Option.bind_eq_some_iff, Prod.exists, Option.pure_def, Option.some.injEq,
    Prod.mk.injEq] at h
  obtain ⟨name, r, hname, r', hend, b', hclose, rfl, rfl⟩ := h
  exact ⟨((suffix_of_after? hend).trans (suffix_skipSpace r)).trans (suffix_of_qname? hname), fun hb => hb.close hclose⟩

section Follow

variable {follow : List Char → Builder → Option Builder}
  (hfollow : ∀ name b next, follow name b = some next → b.Numbered → next.Numbered)

include hfollow

theorem numbered_of_foldPieces {depth : Nat} {pieces : List Piece} (h : foldPieces follow depth pieces b = some next)
    (hb : b.Numbered) : next.Numbered := by
  induction pieces generalizing b with
  | nil =>
    cases h
    exact hb
  | cons piece more ih =>
    cases piece with
    | plain | char => exact ih h hb
    | entity name =>
      simp only [foldPieces, Option.bind_eq_bind, Option.bind_eq_some_iff] at h
      obtain ⟨count, -, inner, hinner, h⟩ := h
      have hinner := hfollow _ _ _ hinner ⟨nofun, hb.opened, hb.closed⟩
      exact ih h ⟨hb.start, hinner.opened, hinner.closed⟩

theorem numbered_of_text? {depth : Nat} (h : text? follow depth s b = some (rest, next)) :
    rest <:+ s ∧ (b.Numbered → next.Numbered) := by
  simp only [text?, Option.bind_eq_bind] at h
  split at h
  · cases h
  · simp only [Option.bind_eq_some_iff, Option.pure_def, Option.some.injEq, Prod.mk.injEq] at h
    obtain ⟨pieces, -, b', hfold, rfl, rfl⟩ := h
    exact ⟨List.dropWhile_suffix _, numbered_of_foldPieces hfollow hfold⟩

theorem numbered_of_contentStep {state state' : Builder × Nat} {again : Bool}
    (h : contentStep follow place s state = some (rest, state', again)) (hs : place.Fits s)
    (hb : state.1.Numbered) : rest <:+ s ∧ state'.1.Numbered := by
  obtain ⟨b, level⟩ := state
  simp only [contentStep, Option.bind_eq_bind] at h
  split at h
  · cases h
    exact ⟨List.suffix_refl _, hb⟩
  · split at h
    · rename_i hmark
      obtain ⟨r, hcomment, heq⟩ := Option.map_eq_some_iff.mp h
      cases heq
      exact ⟨(suffix_of_comment? hcomment).trans (suffix_of_after? hmark), hb⟩
    · split at h
      · rename_i hmark
        obtain ⟨⟨text, r⟩, hsplit, h⟩ := Option.bind_eq_some_iff.mp h
        obtain ⟨-, heq⟩ := Option.ite_none_right_eq_some.mp h
        cases heq
        exact ⟨(suffix_of_splitAt? hsplit).trans (suffix_of_after? hmark), hb⟩
      · cases h
  · obtain ⟨r, hinstruction, heq⟩ := Option.map_eq_some_iff.mp h
    cases heq
    exact ⟨suffix_of_instruction? hinstruction, hb⟩
  · obtain ⟨⟨r, b'⟩, hend, heq⟩ := Option.bind_eq_some_iff.mp h
    cases heq
    obtain ⟨hr, hnumbered⟩ := numbered_of_endTag? hend
    exact ⟨hr.trans ((List.suffix_cons _ _).trans (List.suffix_cons _ _)), hnumbered hb⟩
  · obtain ⟨⟨r, b', hasContent⟩, hstart, heq⟩ := Option.bind_eq_some_iff.mp h
    cases heq
    exact numbered_of_startTag? hstart hs hb
  · obtain ⟨⟨r, b'⟩, htext, heq⟩ := Option.bind_eq_some_iff.mp h
    cases heq
    obtain ⟨hr, hnumbered⟩ := numbered_of_text? hfollow htext
    exact ⟨hr, hnumbered hb⟩

theorem numbered_of_content? (h : content? follow place s b = some (rest, next)) (hs : place.Fits s)
    (hb : b.Numbered) : rest <:+ s ∧ next.Numbered := by
  obtain ⟨⟨left, b', level⟩, hrun, heq⟩ := Option.map_eq_some_iff.mp h
  cases heq
  refine repeatStep_induction (I := fun left (state : Builder × Nat) => left <:+ s ∧ state.1.Numbered)
    (fun left state rest next again hkept hstep => ?_) ⟨List.suffix_refl s, hb⟩ hrun
  obtain ⟨hrest, hnumbered⟩ := numbered_of_contentStep hfollow hstep (hs.suffix hkept.1) hkept.2
  exact ⟨hrest.trans hkept.1, hnumbered⟩

end Follow

/-- The text of an entity is content of the document too. -/
theorem numbered_of_follow? {room : Nat} {name : List Char} (hs : place.Fits s)
    (h : follow? place room name b = some next) (hb : b.Numbered) : next.Numbered := by
  -- An entity is read with less room than what refers to it, so the references in it are the smaller case.
  induction room generalizing name b next with
  | zero => cases h
  | succ room ih =>
    simp only [follow?, Option.bind_eq_bind, Option.bind_eq_some_iff, Prod.exists, Option.pure_def,
      Option.some.injEq] at h
    obtain ⟨e, he, left, b', hcontent, rfl⟩ := h
    have hwithin := hs.entities e (List.mem_of_find?_eq_some he)
    exact (numbered_of_content? (fun name b next h hb => ih h hb) hcontent ⟨hwithin, hs.entities⟩ hb).2

theorem numbered_of_element? (h : element? place s = some (rest, b)) (hs : place.Fits s) : b.Numbered := by
  simp only [element?, Option.bind_eq_bind, Option.bind_eq_some_iff, Prod.exists] at h
  obtain ⟨r, b', hasContent, hstart, h⟩ := h
  obtain ⟨hr, hb⟩ := numbered_of_startTag? hstart hs Builder.numbered_blank
  split at h
  · exact (numbered_of_content? (fun name b next h hb => numbered_of_follow? hs h hb) h (hs.suffix hr) hb).2
  · cases h
    exact hb

/-- The lines of a document are counted from 1. -/
theorem numbered_of_elements? {text : String} {elements : List Element} (h : elements? text = some elements) :
    ∀ e ∈ elements, e.Numbered := by
  have htail : ∀ {r r₁ r₂ r₃ : List Char} {entities b}, r.count '\n' ≤ (dropMark text.toList).count '\n' →
      misc? r = some r₁ → prologType? (skipSpace r₁) = some (r₂, entities) →
      element? ⟨entities, maxDepth, (dropMark text.toList).count '\n', 0⟩ (skipSpace r₂) = some (r₃, b) →
      b.elements? = some elements → ∀ e ∈ elements, e.Numbered := by
    intro r r₁ r₂ r₃ entities b hr hmisc hprolog helement h
    have hcount := ((suffix_skipSpace r₁).trans (suffix_of_misc? hmisc)).sublist.count_le '\n'
    obtain ⟨hr₂, hwithin⟩ := within_of_prologType? hprolog (Nat.le_trans hcount hr)
    have hcount' := ((suffix_skipSpace r₂).trans hr₂).sublist.count_le '\n'
    have hb := numbered_of_element? helement ⟨Nat.le_trans hcount' (Nat.le_trans hcount hr), hwithin⟩
    exact hb.elements h
  simp only [elements?, Option.bind_eq_bind] at h
  split at h
  · rename_i r hmark
    obtain ⟨r', hdeclaration, h⟩ := Option.bind_eq_some_iff.mp h
    have hcount := (suffix_of_declaration? hdeclaration).sublist.count_le '\n'
    have hcount' := (suffix_of_after? hmark).sublist.count_le '\n'
    rw [List.count_cons_of_ne (by decide)] at hcount
    simp only [Option.bind_eq_some_iff, Prod.exists] at h
    obtain ⟨r₁, hmisc, r₂, entities, hprolog, r₃, b, helement, r₄, -, h⟩ := h
    exact htail (Nat.le_trans hcount hcount') hmisc hprolog helement (Option.ite_none_right_eq_some.mp h).2
  · simp only [Option.bind_some, Option.bind_eq_some_iff, Prod.exists] at h
    obtain ⟨r₁, hmisc, r₂, entities, hprolog, r₃, b, helement, r₄, -, h⟩ := h
    exact htail (Nat.le_refl _) hmisc hprolog helement (Option.ite_none_right_eq_some.mp h).2

end Xml

end SoundRouting
