/-!
Scanning: reading a text from the front.

A scanner takes the characters that are left and returns what it read with the characters left
after it, or nothing if the text is not of the form it reads. `repeatStep` repeats a step for as
long as the step asks for it; a step that reads something whenever it asks is repeated to its end.
-/
namespace SoundRouting.Text

/-- What follows `word` when the text begins with it. -/
def afterWord? : List Char → List Char → Option (List Char)
  | [], s => some s
  | _ :: _, [] => none
  | w :: word, c :: rest => if w = c then afterWord? word rest else none

def after? (word : String) (s : List Char) : Option (List Char) :=
  afterWord? word.toList s

def startsWith (word : String) (s : List Char) : Bool :=
  (after? word s).isSome

/-- What stands before the first occurrence of `word`, and what follows that occurrence. -/
def splitAt? (word : String) : List Char → Option (List Char × List Char)
  | [] => (after? word []).map fun rest => ([], rest)
  | c :: rest =>
    match after? word (c :: rest) with
    | some after => some ([], after)
    | none => (splitAt? word rest).map fun (before, after) => (c :: before, after)

/-- Repeats a step on what the step before left, for as long as the step asks for it, and at most
`bound` times. -/
def repeatWithin {σ : Type} (step : List Char → σ → Option (List Char × σ × Bool)) :
    Nat → List Char → σ → Option (List Char × σ)
  | 0, _, _ => none
  | bound + 1, s, state =>
    match step s state with
    | none => none
    | some (rest, next, false) => some (rest, next)
    | some (rest, next, true) => repeatWithin step bound rest next

/-- Repeats a step for as long as it asks for it. A step that asks for it has read something, so
that there are no more repetitions than characters. -/
def repeatStep {σ : Type} (step : List Char → σ → Option (List Char × σ × Bool))
    (s : List Char) (state : σ) : Option (List Char × σ) :=
  repeatWithin step (s.length + 1) s state

/-- A step that leaves less than it was given whenever it asks to be repeated. -/
def Shortens {σ : Type} (step : List Char → σ → Option (List Char × σ × Bool)) : Prop :=
  ∀ s state rest next, step s state = some (rest, next, true) → rest.length < s.length

theorem afterWord?_eq_some_iff {word s rest : List Char} :
    afterWord? word s = some rest ↔ s = word ++ rest := by
  induction word generalizing s with
  | nil => simp [afterWord?]
  | cons w word ih =>
    cases s with
    | nil => simp [afterWord?]
    | cons c more =>
      simp only [afterWord?, List.cons_append, List.cons.injEq]
      split
      · rename_i h
        simp [ih, h]
      · rename_i h
        constructor
        · intro hn
          cases hn
        · rintro ⟨rfl, -⟩
          exact absurd rfl h

/-- A text is cut where a test fails for the first time. -/
theorem cut_append {p : Char → Bool} {s rest : List Char} (hs : ∀ c ∈ s, p c = true)
    (hrest : ∀ c, rest.head? = some c → p c = false) :
    (s ++ rest).takeWhile p = s ∧ (s ++ rest).dropWhile p = rest := by
  rw [List.takeWhile_append_of_pos hs, List.dropWhile_append_of_pos hs]
  cases rest with
  | nil => simp
  | cons c rest => simp [hrest c rfl]

/-- What is split off is the text up to the word, and nothing is lost. -/
theorem splitAt?_eq_some {word : String} {s before rest : List Char}
    (h : splitAt? word s = some (before, rest)) : s = before ++ word.toList ++ rest := by
  induction s generalizing before rest with
  | nil =>
    simp only [splitAt?, after?, Option.map_eq_some_iff, Prod.mk.injEq] at h
    obtain ⟨r, hr, rfl, rfl⟩ := h
    simpa using afterWord?_eq_some_iff.1 hr
  | cons c more ih =>
    simp only [splitAt?] at h
    split at h
    · rename_i r hr
      cases h
      exact afterWord?_eq_some_iff.1 hr
    · simp only [Option.map_eq_some_iff, Prod.exists, Prod.mk.injEq] at h
      obtain ⟨b, r, hb, rfl, rfl⟩ := h
      rw [ih hb]
      simp

/-- A bound beyond the length of the text is no bound. -/
theorem repeatWithin_eq_repeatStep {σ : Type}
    {step : List Char → σ → Option (List Char × σ × Bool)} (h : Shortens step) {bound : Nat}
    {s : List Char} (hb : s.length < bound) (state : σ) :
    repeatWithin step bound s state = repeatStep step s state := by
  suffices ∀ n m (s : List Char) (state : σ), s.length < n → s.length < m →
      repeatWithin step n s state = repeatWithin step m s state from
    this bound (s.length + 1) s state hb (by omega)
  intro n
  induction n with
  | zero => omega
  | succ n ih =>
    intro m s state hn hm
    cases m with
    | zero => omega
    | succ m =>
      simp only [repeatWithin]
      split
      · rfl
      · rfl
      · rename_i rest next hstep
        have shorter := h s state rest next hstep
        exact ih m rest next (by omega) (by omega)

/-- A step that does not ask to be repeated is the last one. -/
theorem repeatStep_done {σ : Type} {step : List Char → σ → Option (List Char × σ × Bool)}
    {s rest : List Char} {state next : σ} (h : step s state = some (rest, next, false)) :
    repeatStep step s state = some (rest, next) := by
  simp only [repeatStep, repeatWithin, h]

/-- A step that fails fails the repetition. -/
theorem repeatStep_none {σ : Type} {step : List Char → σ → Option (List Char × σ × Bool)}
    {s : List Char} {state : σ} (h : step s state = none) : repeatStep step s state = none := by
  simp only [repeatStep, repeatWithin, h]

/-- A step that asks to be repeated is. -/
theorem repeatStep_again {σ : Type} {step : List Char → σ → Option (List Char × σ × Bool)}
    (shortens : Shortens step) {s rest : List Char} {state next : σ}
    (h : step s state = some (rest, next, true)) :
    repeatStep step s state = repeatStep step rest next := by
  have shorter := shortens s state rest next h
  rw [← repeatWithin_eq_repeatStep shortens shorter next]
  simp only [repeatStep, repeatWithin, h]

/-- Texts that a step reads alike are alike to its repetition. -/
theorem repeatStep_congr {σ : Type} {step : List Char → σ → Option (List Char × σ × Bool)}
    (shortens : Shortens step) {s t : List Char} {state : σ} (h : step s state = step t state) :
    repeatStep step s state = repeatStep step t state := by
  cases ht : step t state with
  | none => rw [repeatStep_none (h.trans ht), repeatStep_none ht]
  | some result =>
    obtain ⟨rest, next, again⟩ := result
    cases again with
    | false => rw [repeatStep_done (h.trans ht), repeatStep_done ht]
    | true => rw [repeatStep_again shortens (h.trans ht), repeatStep_again shortens ht]

end SoundRouting.Text
