/-!
White space, trimming, and the cutting of a text into pieces and lines.

White space is the Unicode property of that name, in every place where this library skips or
trims it. The pieces of a text, joined again by the separator, give the text back.
-/
namespace SoundRouting.Text

/-- The twenty-five characters that Unicode calls white space. -/
def isBlank (c : Char) : Bool :=
  let n := c.toNat
  (9 ≤ n && n ≤ 13) || n == 0x20 || n == 0x85 || n == 0xA0 || n == 0x1680
    || (0x2000 ≤ n && n ≤ 0x200A) || n == 0x2028 || n == 0x2029 || n == 0x202F
    || n == 0x205F || n == 0x3000

def trimStart (s : List Char) : List Char :=
  s.dropWhile isBlank

def trim (s : List Char) : List Char :=
  (trimStart (trimStart s).reverse).reverse

def trimEnd (s : List Char) : List Char :=
  (trimStart s.reverse).reverse

@[simp] theorem trimStart_nil : trimStart [] = [] := rfl

theorem trim_eq (s : List Char) : trim s = trimEnd (trimStart s) := rfl

theorem trimStart_append {gap : List Char} (hgap : ∀ c ∈ gap, isBlank c = true) (s : List Char) :
    trimStart (gap ++ s) = trimStart s :=
  List.dropWhile_append_of_pos hgap

theorem trimStart_of_blank {gap : List Char} (hgap : ∀ c ∈ gap, isBlank c = true) : trimStart gap = [] := by
  simpa using trimStart_append hgap []

theorem trimStart_cons {c : Char} (hc : isBlank c = false) (s : List Char) : trimStart (c :: s) = c :: s := by
  simp [trimStart, hc]

theorem trimEnd_append {gap : List Char} (hgap : ∀ c ∈ gap, isBlank c = true) (s : List Char) :
    trimEnd (s ++ gap) = trimEnd s := by
  rw [trimEnd, List.reverse_append, trimStart_append (by simpa using hgap), trimEnd]

/-- Nothing is trimmed in front of a character that is not blank. -/
theorem trimEnd_append_cons {c : Char} (hc : isBlank c = false) (s u : List Char) :
    trimEnd (s ++ c :: u) = s ++ c :: trimEnd u := by
  have hrev : (s ++ c :: u).reverse = u.reverse ++ c :: s.reverse := by simp
  simp only [trimEnd, trimStart, hrev]
  rw [List.dropWhile_append]
  split
  · rename_i h
    rw [List.isEmpty_iff] at h
    simp [h, hc]
  · simp

/-- White space around a text is trimmed away. -/
theorem trim_append {before behind : List Char} (hbefore : ∀ c ∈ before, isBlank c = true)
    (hbehind : ∀ c ∈ behind, isBlank c = true) (s : List Char) : trim (before ++ (s ++ behind)) = trim s := by
  have hstart : trimStart (s ++ behind)
      = if (trimStart s).isEmpty then trimStart behind else trimStart s ++ behind := List.dropWhile_append
  rw [trim_eq, trimStart_append hbefore, hstart, trim_eq]
  split
  · rename_i h
    rw [List.isEmpty_iff.mp h, trimStart_of_blank hbehind]
  · exact trimEnd_append hbehind _

theorem mem_of_mem_trimEnd {c : Char} {s : List Char} (h : c ∈ trimEnd s) : c ∈ s := by
  rw [trimEnd, List.mem_reverse] at h
  exact List.mem_reverse.mp ((List.dropWhile_sublist isBlank).mem h)

/-- The pieces between the separators: one more than there are separators. -/
def pieces (isSeparator : Char → Bool) : List Char → List (List Char)
  | [] => [[]]
  | c :: rest =>
    match pieces isSeparator rest with
    | [] => [[c]]
    | first :: more => if isSeparator c then [] :: first :: more else (c :: first) :: more

@[simp] theorem pieces_nil (p : Char → Bool) : pieces p [] = [[]] := rfl

theorem pieces_ne_nil (p : Char → Bool) (s : List Char) : pieces p s ≠ [] := by
  cases s with
  | nil => simp
  | cons c rest =>
    simp only [pieces]
    split
    · simp
    · split <;> simp

/-- A text without separators is in one piece. -/
theorem pieces_of_forall {p : Char → Bool} {s : List Char} (h : ∀ c ∈ s, p c = false) : pieces p s = [s] := by
  induction s with
  | nil => rfl
  | cons c rest ih =>
    rw [List.forall_mem_cons] at h
    simp [pieces, ih h.2, h.1]

/-- The first piece ends at the first separator. -/
theorem pieces_append_cons {p : Char → Bool} {s : List Char} (h : ∀ c ∈ s, p c = false) {c : Char} (hc : p c = true)
    (rest : List Char) : pieces p (s ++ c :: rest) = s :: pieces p rest := by
  induction s with
  | nil =>
    rw [List.nil_append, pieces]
    split
    · rename_i hnil
      exact absurd hnil (pieces_ne_nil p rest)
    · rename_i first more hmore
      rw [if_pos hc, hmore]
  | cons d s ih =>
    rw [List.forall_mem_cons] at h
    simp [pieces, ih h.2, h.1]

/-- The pieces with the separator between each two of them are the text again. -/
theorem intercalate_pieces (separator : Char) (s : List Char) :
    [separator].intercalate (pieces (· == separator) s) = s := by
  induction s with
  | nil => rfl
  | cons c rest ih =>
    simp only [pieces]
    split
    · rename_i h
      exact absurd h (pieces_ne_nil _ _)
    · rename_i first more h
      rw [h] at ih
      split
      · rename_i hc
        rw [List.intercalate_cons_cons, ih, beq_iff_eq.1 hc]
        rfl
      · cases more with
        | nil =>
          simp only [List.intercalate_singleton] at ih ⊢
          rw [ih]
        | cons second others =>
          simp only [List.intercalate_cons_cons] at ih ⊢
          rw [← ih]
          simp

/-- A line without the carriage return that stands before its line feed. -/
def dropReturn (line : List Char) : List Char :=
  if line.getLast? = some '\r' then line.dropLast else line

/-- The lines among pieces cut at line feeds; what follows the last line feed is a line unless it
is empty, and keeps a carriage return at its end. -/
def linesOfPieces : List (List Char) → List (List Char)
  | [] => []
  | [last] => if last.isEmpty then [] else [last]
  | line :: more => dropReturn line :: linesOfPieces more

def lines (s : List Char) : List (List Char) :=
  linesOfPieces (pieces (· == '\n') s)

def joinWith (separator : String) : List String → String
  | [] => ""
  | [s] => s
  | s :: more => s ++ separator ++ joinWith separator more

end SoundRouting.Text
