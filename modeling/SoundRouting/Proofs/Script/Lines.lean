import Mathlib.Data.Bool.AllAny
import SoundRouting.Proofs.Literals
import SoundRouting.Script.Step
/-!
Steps are read as they are written.

A line is first cut at a hash mark, then trimmed, then taken apart into words. A text in quotes is one word, whatever
white space there is in it and around it, and a step that is written with its texts in quotes is read back. Only a hash
mark comes between: it ends the line inside quotes too.
-/
namespace SoundRouting.Script

open Text Numeral

/-- A word of a line, bare or in double quotes. -/
inductive Word where
  | bare (text : String)
  | quoted (text : String)
  deriving DecidableEq, Repr

namespace Word

def text : Word → String
  | bare s => s
  | quoted s => s

def written : Word → List Char
  | bare s => s.toList
  | quoted s => '"' :: s.toList ++ ['"']

def isQuoted : Word → Bool
  | bare _ => false
  | quoted _ => true

/-- What a word can be: in quotes anything without a quote, else what no blank, quote or comment interrupts. -/
def Writable : Word → Prop
  | bare s => s.toList ≠ [] ∧ ∀ c ∈ s.toList, isBlank c = false ∧ c ≠ '"' ∧ c ≠ '#'
  | quoted s => '"' ∉ s.toList

@[simp] theorem writable_quoted_iff {s : String} : (quoted s).Writable ↔ '"' ∉ s.toList := Iff.rfl

/-- A written word begins with a character that is not blank. -/
theorem Writable.head {w : Word} (hw : w.Writable) : ∃ c s, w.written = c :: s ∧ isBlank c = false := by
  cases w with
  | bare s =>
    obtain ⟨c, rest, hs⟩ := List.exists_cons_of_ne_nil hw.1
    exact ⟨c, rest, hs, (hw.2 c (by simp [hs])).1⟩
  | quoted s => exact ⟨'"', s.toList ++ ['"'], rfl, by decide⟩

/-- A written word ends with a character that is not blank. -/
theorem Writable.last {w : Word} (hw : w.Writable) : ∃ s c, w.written = s ++ [c] ∧ isBlank c = false := by
  cases w with
  | bare s =>
    have hs : s.toList = s.toList.dropLast ++ [s.toList.getLast hw.1] := (List.dropLast_append_getLast hw.1).symm
    exact ⟨_, _, hs, (hw.2 _ (List.getLast_mem hw.1)).1⟩
  | quoted s => exact ⟨'"' :: s.toList, '"', rfl, by decide⟩

/-- The quotes of a word are no comment. -/
theorem Writable.hash_mem_written {w : Word} (hw : w.Writable) :
    '#' ∈ w.written ↔ w.isQuoted = true ∧ '#' ∈ w.text.toList := by
  cases w with
  | bare s =>
    refine iff_of_false (fun h => (hw.2 _ h).2.2 rfl) ?_
    rintro ⟨⟨⟩, -⟩
  | quoted s => simp [written, isQuoted, text]

end Word

/-- Words one behind the other, with any white space between them; without any, a bare word would not end. -/
inductive Spaced : List Word → List Char → Prop
  | last {w : Word} : Spaced [w] w.written
  | more {w : Word} {gap : List Char} {ws : List Word} {rest : List Char} (hgap : ∀ c ∈ gap, isBlank c = true)
      (hends : gap ≠ [] ∨ w.isQuoted = true) (h : Spaced ws rest) : Spaced (w :: ws) (w.written ++ (gap ++ rest))

/-- A line with these words; white space may stand around them. -/
def HasWords (ws : List Word) (line : List Char) : Prop :=
  ∃ before core behind, line = before ++ (core ++ behind) ∧ (∀ c ∈ before, isBlank c = true)
    ∧ (∀ c ∈ behind, isBlank c = true) ∧ Spaced ws core

/-! ### Reading words -/

theorem wordStep_append_blank {gap : List Char} (hgap : ∀ c ∈ gap, isBlank c = true) (s : List Char)
    (found : List String) : wordStep (gap ++ s) found = wordStep s found := by
  rw [wordStep, trimStart_append hgap, wordStep]

/-- A word is read up to its end. -/
theorem wordStep_written {w : Word} (hw : w.Writable) {rest : List Char}
    (hends : w.isQuoted = true ∨ ∀ c, rest.head? = some c → isBlank c = true) (found : List String) :
    wordStep (w.written ++ rest) found = some (rest, w.text :: found, true) := by
  cases w with
  | bare s =>
    have hends : ∀ c, rest.head? = some c → isBlank c = true := hends.resolve_left Bool.false_ne_true
    obtain ⟨htake, hdrop⟩ := @cut_append (fun c => !isBlank c) s.toList rest
      (fun c hc => by simp [(hw.2 c hc).1]) (fun c hc => by simp [hends c hc])
    obtain ⟨c, t, hs⟩ := List.exists_cons_of_ne_nil hw.1
    obtain ⟨hblank, hquote, -⟩ := hw.2 c (by simp [hs])
    have hline : s.toList ++ rest = c :: (t ++ rest) := by rw [hs, List.cons_append]
    rw [Word.written, wordStep, hline, trimStart_cons hblank, ← hline]
    split
    · rename_i h
      rw [hline] at h
      cases h
    · rename_i h
      rw [hline] at h
      exact absurd (List.cons.inj h).1 hquote
    · rename_i h
      rw [← h, htake, hdrop, String.ofList_toList, Word.text]
  | quoted s =>
    obtain ⟨htake, hdrop⟩ := @cut_append (· != '"') s.toList ('"' :: rest)
      (fun c hc => by simpa using ne_of_mem_of_not_mem hc hw) (fun c hc => by cases hc; decide)
    have hstart : (Word.quoted s).written ++ rest = '"' :: (s.toList ++ '"' :: rest) := by simp [Word.written]
    rw [hstart, wordStep, trimStart_cons (by decide)]
    simp only [hdrop, htake, String.ofList_toList, Word.text]

/-- A quote that is not closed fails. -/
theorem wordStep_unclosed {s : List Char} (hs : '"' ∉ s) (found : List String) : wordStep ('"' :: s) found = none := by
  have hdrop : s.dropWhile (· != '"') = [] := by
    simpa using (@cut_append (· != '"') s [] (fun c hc => by simpa using ne_of_mem_of_not_mem hc hs) nofun).2
  rw [wordStep, trimStart_cons (by decide)]
  simp only [hdrop]

/-- After a word and the white space behind it, reading goes on. -/
theorem repeatStep_written {w : Word} (hw : w.Writable) {gap : List Char} (hgap : ∀ c ∈ gap, isBlank c = true)
    (hends : gap ≠ [] ∨ w.isQuoted = true) (rest : List Char) (found : List String) :
    repeatStep wordStep (w.written ++ (gap ++ rest)) found = repeatStep wordStep rest (w.text :: found) := by
  have hboundary : w.isQuoted = true ∨ ∀ c, (gap ++ rest).head? = some c → isBlank c = true := by
    refine hends.symm.imp_right fun hne c hc => ?_
    obtain ⟨d, t, rfl⟩ := List.exists_cons_of_ne_nil hne
    cases hc
    exact hgap _ List.mem_cons_self
  rw [repeatStep_again shortens_wordStep (wordStep_written hw hboundary found)]
  exact repeatStep_congr shortens_wordStep (wordStep_append_blank hgap rest _)

/-- The words of a line are read in their order. -/
theorem repeatStep_spaced {ws : List Word} {core : List Char} (h : Spaced ws core) (hws : ∀ w ∈ ws, w.Writable)
    (found : List String) :
    repeatStep wordStep core found = some ([], (ws.map Word.text).reverse ++ found) := by
  induction h generalizing found with
  | @last w =>
    have hread := @wordStep_written w (hws w List.mem_cons_self) [] (Or.inr nofun) found
    rw [List.append_nil] at hread
    rw [repeatStep_again shortens_wordStep hread, repeatStep_done rfl]
    rfl
  | more hgap hends _ ih =>
    rw [List.forall_mem_cons] at hws
    rw [repeatStep_written hws.1 hgap hends, ih hws.2]
    simp

theorem words?_spaced {ws : List Word} {core : List Char} (h : Spaced ws core) (hws : ∀ w ∈ ws, w.Writable) :
    words? core = some (ws.map Word.text) := by
  rw [words?, repeatStep_spaced h hws]
  simp

/-! ### What is left of a line -/

theorem bne_hash {s : List Char} (h : '#' ∉ s) : ∀ c ∈ s, (c != '#') = true :=
  fun _ hc => bne_iff_ne.mpr (ne_of_mem_of_not_mem hc h)

theorem hash_not_mem_of_blank {gap : List Char} (hgap : ∀ c ∈ gap, isBlank c = true) : '#' ∉ gap :=
  fun h => absurd (hgap _ h) (by decide)

/-- Of the characters between words none begins a comment. -/
theorem hash_mem_spaced {ws : List Word} {core : List Char} (h : Spaced ws core) (hws : ∀ w ∈ ws, w.Writable) :
    '#' ∈ core ↔ ∃ w ∈ ws, w.isQuoted = true ∧ '#' ∈ w.text.toList := by
  induction h with
  | last =>
    rw [List.forall_mem_singleton] at hws
    simp [hws.hash_mem_written]
  | @more w gap ws rest hgap _ _ ih =>
    rw [List.forall_mem_cons] at hws
    simp [hws.1.hash_mem_written, hash_not_mem_of_blank hgap, ih hws.2]

/-- Words begin and end with characters that are not blank. -/
theorem Spaced.ends {ws : List Word} {core : List Char} (h : Spaced ws core) (hws : ∀ w ∈ ws, w.Writable) :
    (∃ c s, core = c :: s ∧ isBlank c = false) ∧ ∃ s c, core = s ++ [c] ∧ isBlank c = false := by
  induction h with
  | last =>
    rw [List.forall_mem_singleton] at hws
    exact ⟨hws.head, hws.last⟩
  | @more w gap ws rest _ _ _ ih =>
    rw [List.forall_mem_cons] at hws
    obtain ⟨c, s, hw, hc⟩ := hws.1.head
    obtain ⟨-, t, d, rfl, hd⟩ := ih hws.2
    exact ⟨⟨c, s ++ (gap ++ (t ++ [d])), by rw [hw, List.cons_append], hc⟩, w.written ++ (gap ++ t), d, by simp, hd⟩

/-- A line without a hash mark is left with its words. -/
theorem content_spaced {ws : List Word} {before core behind : List Char} (h : Spaced ws core)
    (hws : ∀ w ∈ ws, w.Writable) (hbefore : ∀ c ∈ before, isBlank c = true) (hbehind : ∀ c ∈ behind, isBlank c = true)
    (hhash : '#' ∉ core) : content (before ++ (core ++ behind)) = core := by
  have hkept : '#' ∉ before ++ (core ++ behind) := by
    simp [hhash, hash_not_mem_of_blank hbefore, hash_not_mem_of_blank hbehind]
  have htake := (@cut_append _ _ [] (bne_hash hkept) nofun).1
  rw [List.append_nil] at htake
  obtain ⟨⟨c, s, hfirst, hc⟩, t, d, hlast, hd⟩ := h.ends hws
  have hstart : trimStart core = core := by rw [hfirst, trimStart_cons hc]
  have hend : trimEnd core = core := by
    rw [hlast, trimEnd_append_cons hd]
    rfl
  rw [content, htake, trim_append hbefore hbehind, trim_eq, hstart, hend]

/-- A line is left with what stands before its first hash mark. -/
theorem Word.Writable.takeWhile_of_hash {w : Word} (hw : w.Writable) (hhash : '#' ∈ w.written) (rest : List Char) :
    ∃ u, (w.written ++ rest).takeWhile (· != '#') = '"' :: u ∧ '"' ∉ u := by
  obtain ⟨hquoted, hmem⟩ := hw.hash_mem_written.mp hhash
  cases w with
  | bare s => cases hquoted
  | quoted s =>
    obtain ⟨u, v, hs, hu⟩ := List.eq_append_cons_of_mem hmem
    have hline : (Word.quoted s).written ++ rest = ('"' :: u) ++ '#' :: (v ++ '"' :: rest) := by
      rw [text] at hs
      simp [written, hs]
    refine ⟨u, ?_, fun h => hw ?_⟩
    · rw [hline]
      exact (cut_append (bne_hash (by simp [hu])) (fun c hc => by cases hc; decide)).1
    · rw [text] at hs
      simp [hs, h]

/-- A hash mark in a word leaves the line with a quote that is not closed. -/
theorem exists_unclosed {ws : List Word} {core : List Char} (h : Spaced ws core) (hws : ∀ w ∈ ws, w.Writable)
    (hhash : '#' ∈ core) :
    ∃ s u, core.takeWhile (· != '#') = s ++ '"' :: u ∧ '"' ∉ u ∧
      ∀ v, '"' ∉ v → ∀ found, repeatStep wordStep (s ++ '"' :: v) found = none := by
  induction h with
  | last =>
    rw [List.forall_mem_singleton] at hws
    obtain ⟨u, hu, hquote⟩ := hws.takeWhile_of_hash hhash []
    rw [List.append_nil] at hu
    exact ⟨[], u, hu, hquote, fun v hv found => repeatStep_none (wordStep_unclosed hv found)⟩
  | @more w gap ws rest hgap hends _ ih =>
    rw [List.forall_mem_cons] at hws
    by_cases hword : '#' ∈ w.written
    · obtain ⟨u, hu, hquote⟩ := hws.1.takeWhile_of_hash hword (gap ++ rest)
      exact ⟨[], u, hu, hquote, fun v hv found => repeatStep_none (wordStep_unclosed hv found)⟩
    · have hno := hash_not_mem_of_blank hgap
      obtain ⟨s, u, hu, hquote, hunclosed⟩ := ih hws.2 (by simpa [hword, hno] using hhash)
      refine ⟨w.written ++ (gap ++ s), u, ?_, hquote, fun v hv found => ?_⟩
      · rw [List.takeWhile_append_of_pos (bne_hash hword), List.takeWhile_append_of_pos (bne_hash hno), hu]
        simp
      · rw [List.append_assoc, List.append_assoc, repeatStep_written hws.1 hgap hends]
        exact hunclosed v hv _

/-- The words of a line with a hash mark in one of them are not read. -/
theorem words?_content_of_hash {ws : List Word} {before core : List Char} (h : Spaced ws core)
    (hws : ∀ w ∈ ws, w.Writable) (hbefore : ∀ c ∈ before, isBlank c = true) (hhash : '#' ∈ core)
    (behind : List Char) : words? (content (before ++ (core ++ behind))) = none := by
  obtain ⟨s, u, hu, hquote, hunclosed⟩ := exists_unclosed h hws hhash
  have htake : (core ++ behind).takeWhile (· != '#') = core.takeWhile (· != '#') := by
    obtain ⟨t, v, hcore, ht⟩ := List.eq_append_cons_of_mem hhash
    have hcut := fun r => (@cut_append _ _ ('#' :: r) (bne_hash ht) (fun c hc => by cases hc; decide)).1
    rw [hcore, List.append_assoc, List.cons_append, hcut, hcut]
  have hstart : trimStart (s ++ '"' :: u) = s ++ '"' :: u := by
    obtain ⟨⟨c, t, rfl, hc⟩, -⟩ := h.ends hws
    rw [← hu, List.takeWhile_cons]
    split
    · exact trimStart_cons hc _
    · rfl
  have hleft : '"' ∉ trimEnd u := fun h => hquote (mem_of_mem_trimEnd h)
  rw [content, List.takeWhile_append_of_pos (bne_hash (hash_not_mem_of_blank hbefore)), htake, hu, trim_eq,
    trimStart_append hbefore, hstart, trimEnd_append_cons (by decide), words?, hunclosed _ hleft]
  rfl

/-! ### Steps -/

namespace Word

theorem writable_of_decimal {s : String} {v : Int} (h : Decimal s.toList v) : (bare s).Writable := by
  have hdigits : ∀ d < 10, isBlank d.digitChar = false ∧ d.digitChar ≠ '"' ∧ d.digitChar ≠ '#' := by decide
  refine ⟨h.ne_nil, fun c hc => ?_⟩
  rcases h.eq_digitChar c hc with rfl | ⟨d, hd, rfl⟩
  · decide
  · exact hdigits d hd

theorem writable_of_spells {s : String} {n : Nat} (h : Spells 10 s.toList n) : (bare s).Writable :=
  writable_of_decimal (.natural h)

end Word

namespace Step

/-- How a step is written: the word of its operation, then its arguments, numbers in decimal and texts in quotes. -/
inductive Written : Step → List Word → Prop
  | acquire (target : String) : Written (.acquire target none) [.bare "open", .quoted target]
  | acquireAs (target format : String) :
      Written (.acquire target (some format)) [.bare "open", .quoted target, .quoted format]
  | route {slot : Nat} {s : String} (hs : Spells 10 s.toList slot) (devices : String) :
      Written (.route slot devices) [.bare "route", .bare s, .quoted devices]
  | useCase {slot : Nat} {s : String} (hs : Spells 10 s.toList slot) (setting caseName : String) :
      Written (.useCase slot setting caseName) [.bare "usecase", .bare s, .quoted setting, .quoted caseName]
  | volume {slot : Nat} {left right : Int} {s l r : String} (hs : Spells 10 s.toList slot)
      (hl : Decimal l.toList left) (hr : Decimal r.toList right) :
      Written (.volume slot left right) [.bare "volume", .bare s, .bare l, .bare r]
  | close {slot : Nat} {s : String} (hs : Spells 10 s.toList slot) : Written (.close slot) [.bare "close", .bare s]

def texts : Step → List String
  | .acquire target format => target :: format.toList
  | .route _ devices => [devices]
  | .useCase _ setting caseName => [setting, caseName]
  | .volume .. | .close _ => []

/-- The numbers of a step fit their words: slots have sixty-four bits, volumes thirty-two and a sign. -/
def Fits : Step → Prop
  | .acquire .. => True
  | .route slot _ | .useCase slot _ _ | .close slot => slot < 2 ^ 64
  | .volume slot left right =>
    slot < 2 ^ 64 ∧ (-2 ^ 31 ≤ left ∧ left < 2 ^ 31) ∧ (-2 ^ 31 ≤ right ∧ right < 2 ^ 31)

instance : DecidablePred Fits
  | .acquire .. => inferInstanceAs (Decidable True)
  | .route slot _ | .useCase slot _ _ | .close slot => inferInstanceAs (Decidable (slot < 2 ^ 64))
  | .volume .. => inferInstanceAs (Decidable (_ ∧ _))

variable {step : Step} {ws : List Word}

/-- The texts are what stands in quotes. -/
theorem Written.exists_quoted_iff (h : Written step ws) (p : String → Prop) :
    (∃ w ∈ ws, w.isQuoted = true ∧ p w.text) ↔ ∃ text ∈ step.texts, p text := by
  cases h <;> simp [texts, Word.isQuoted, Word.text]

/-- Texts without quotes are all that it takes to write a step. -/
theorem Written.writable (h : Written step ws) (htexts : ∀ text ∈ step.texts, '"' ∉ text.toList) :
    ∀ w ∈ ws, w.Writable := by
  have hall : ∀ s ∈ ["open", "route", "usecase", "volume", "close"],
      s.toList ≠ [] ∧ s.toList.all fun c => isBlank c = false ∧ c ≠ '"' ∧ c ≠ '#' := by decide
  have hoperation : ∀ s ∈ ["open", "route", "usecase", "volume", "close"], Word.Writable (.bare s) :=
    fun s hs => (hall s hs).imp_right List.all_iff_forall_prop.mp
  simp only [List.forall_mem_cons] at hoperation
  obtain ⟨hopen, hroute, huseCase, hvolume, hclose, -⟩ := hoperation
  cases h with
  | acquire | acquireAs => simpa [texts, hopen] using htexts
  | route hs => simpa [texts, hroute, Word.writable_of_spells hs] using htexts
  | useCase hs => simpa [texts, huseCase, Word.writable_of_spells hs] using htexts
  | volume hs hl hr =>
    simp [hvolume, Word.writable_of_spells hs, Word.writable_of_decimal hl, Word.writable_of_decimal hr]
  | close hs => simp [hclose, Word.writable_of_spells hs]

/-- Its words stand for the step. -/
theorem ofWords_written (h : Written step ws) (hfits : step.Fits) (line : String) :
    ofWords line (ws.map Word.text) = .ok (some step) := by
  have hslot : ∀ {n : Nat} {s : String}, Spells 10 s.toList n → n < 2 ^ 64 → slot s = .ok n := by
    intro n s hs hn
    have hbound : n < 0x10000000000000000 := hn
    simp only [slot, plainUnsigned?_of_spells hs hbound]
  have hvolume : ∀ {v : Int} {s : String}, Decimal s.toList v → -2 ^ 31 ≤ v ∧ v < 2 ^ 31 → Script.volume s = .ok v := by
    intro v s hs hv
    simp only [Script.volume, plainSigned?_of_decimal hs hv]
  cases h with
  | acquire | acquireAs => rfl
  | route hs | useCase hs | close hs => simp [Word.text, ofWords, hslot hs hfits, bind, Except.bind, pure, Except.pure]
  | volume hs hl hr =>
    simp [Word.text, ofWords, hslot hs hfits.1, hvolume hl hfits.2.1, hvolume hr hfits.2.2, bind, Except.bind, pure,
      Except.pure]

/-- A step that is written in a line is read back unless one of its texts has a hash mark; then the line is taken to
end there, in the middle of a word. -/
theorem ofLine_written_iff (hfits : step.Fits) (hwritten : step.Written ws)
    (htexts : ∀ text ∈ step.texts, '"' ∉ text.toList) {line : List Char} (hline : HasWords ws line) :
    (ofLine line = .ok (some step) ↔ ∀ text ∈ step.texts, '#' ∉ text.toList)
      ∧ ((∃ text ∈ step.texts, '#' ∈ text.toList) →
        ofLine line = .error (.unterminatedQuote (String.ofList (content line)))) := by
  obtain ⟨before, core, behind, rfl, hbefore, hbehind, hcore⟩ := hline
  have hws := hwritten.writable htexts
  have hhash : '#' ∈ core ↔ ∃ text ∈ step.texts, '#' ∈ text.toList :=
    (hash_mem_spaced hcore hws).trans (hwritten.exists_quoted_iff fun text => '#' ∈ text.toList)
  by_cases hmem : '#' ∈ core
  · have hnone := words?_content_of_hash hcore hws hbefore hmem behind
    have hfails : ofLine (before ++ (core ++ behind))
        = .error (.unterminatedQuote (String.ofList (content (before ++ (core ++ behind))))) := by
      simp only [ofLine, hnone]
    refine ⟨iff_of_false ?_ ?_, fun _ => hfails⟩
    · rw [hfails]
      exact nofun
    · obtain ⟨text, ht, h⟩ := hhash.mp hmem
      exact fun hno => hno text ht h
  · have hno : ∀ text ∈ step.texts, '#' ∉ text.toList := fun text ht h => hmem (hhash.mpr ⟨text, ht, h⟩)
    refine ⟨iff_of_true ?_ hno, fun ⟨text, ht, h⟩ => absurd h (hno text ht)⟩
    have hcontent := content_spaced hcore hws hbefore hbehind hmem
    simp only [ofLine, hcontent, words?_spaced hcore hws]
    exact ofWords_written hwritten hfits _

/-- The case is named by an empty text, which stands right behind the setting; a zero is in front of the slot. -/
theorem ofLine_written_iff_empty :
    let step := Step.useCase 7 "call  mode" ""
    let line := "\tusecase 07\u3000\"call  mode\"\"\" ".toList
    step.Fits ∧ step.Written [.bare "usecase", .bare "07", .quoted "call  mode", .quoted ""]
      ∧ HasWords [.bare "usecase", .bare "07", .quoted "call  mode", .quoted ""] line
      ∧ ofLine line = .ok (some step) := by
  intro step line
  have hfits : step.Fits := by decide
  have hslot : Spells 10 "07".toList 7 :=
    ⟨[0, 7], by decide, by decide, .cons (Or.inl rfl) (.cons (Or.inl rfl) .nil), by decide⟩
  have hwritten : step.Written [.bare "usecase", .bare "07", .quoted "call  mode", .quoted ""] :=
    .useCase hslot _ _
  have hspaced : Spaced [.bare "usecase", .bare "07", .quoted "call  mode", .quoted ""] _ :=
    @Spaced.more _ [' '] _ _ (List.all_eq_true.mp rfl) (Or.inl (by decide)) <|
      @Spaced.more _ ['\u3000'] _ _ (List.all_eq_true.mp rfl) (Or.inl (by decide)) <|
      @Spaced.more _ [] _ _ nofun (Or.inr rfl) .last
  have hline : HasWords [.bare "usecase", .bare "07", .quoted "call  mode", .quoted ""] line :=
    ⟨['\t'], _, [' '], by decide, List.all_eq_true.mp rfl, List.all_eq_true.mp rfl, hspaced⟩
  obtain ⟨hiff, -⟩ := ofLine_written_iff hfits hwritten (by decide) hline
  exact ⟨hfits, hwritten, hline, hiff.mpr (by decide)⟩

/-- A stream whose name has a hash mark cannot be opened: the quote is taken not to be closed. -/
theorem cut_at_hash :
    let step := Step.acquire "mic #1" none
    let line := "open \"mic #1\"".toList
    step.Fits ∧ step.Written [.bare "open", .quoted "mic #1"]
      ∧ (∀ text ∈ step.texts, '"' ∉ text.toList ∧ '\n' ∉ text.toList ∧ '\r' ∉ text.toList)
      ∧ HasWords [.bare "open", .quoted "mic #1"] line
      ∧ ofLine line = .error (.unterminatedQuote "open \"mic") := by
  intro step line
  have hspaced : Spaced [.bare "open", .quoted "mic #1"] _ :=
    @Spaced.more _ [' '] _ _ (List.all_eq_true.mp rfl) (Or.inl (by decide)) .last
  exact ⟨by decide, .acquire _, by decide, ⟨[], _, [], by decide, nofun, nofun, hspaced⟩, by decide⟩

end Step

end SoundRouting.Script
