import SoundRouting.Text.Hex
import SoundRouting.Text.Scan
/-!
Strings and keys of TOML.

A basic string has escapes, a literal string has none; both also come with three quotation marks
around them, and then may hold line feeds and single quotation marks of their kind. The parts of a
key are bounded in number, because each of them but the last names a table within the one before.
-/
namespace SoundRouting.Toml

open SoundRouting.Text

/-- How deep a document may be nested: how many arrays and tables in braces may stand one within
another, and how many parts a key may have. -/
def maxNesting : Nat := 79

def isBlank (c : Char) : Bool :=
  c == ' ' || c == '\t'

def skipBlank (s : List Char) : List Char :=
  s.dropWhile isBlank

def newline? : List Char → Option (List Char)
  | '\n' :: rest => some rest
  | '\r' :: '\n' :: rest => some rest
  | _ => none

def isPrintable (c : Char) : Bool :=
  c == '\t' || (0x20 ≤ c.toNat && c.toNat != 0x7F)

def hexChar? (count : Nat) (s : List Char) : Option (Char × List Char) := do
  let digits ← (s.take count).mapM hexValue?
  if digits.length ≠ count then none
  let n := digits.foldl (fun n d => 16 * n + d) 0
  if n.isValidChar then some (Char.ofNat n, s.drop count) else none

def escape? : List Char → Option (Char × List Char)
  | 'b' :: rest => some ('\x08', rest)
  | 't' :: rest => some ('\t', rest)
  | 'n' :: rest => some ('\n', rest)
  | 'f' :: rest => some ('\x0c', rest)
  | 'r' :: rest => some ('\r', rest)
  | '"' :: rest => some ('"', rest)
  | '\\' :: rest => some ('\\', rest)
  | 'u' :: rest => hexChar? 4 rest
  | 'U' :: rest => hexChar? 8 rest
  | _ => none

/-- Reads one character of a basic string; the quotation mark ends it. -/
def basicStep (s : List Char) (found : List Char) : Option (List Char × List Char × Bool) :=
  match s with
  | [] => none
  | '"' :: rest => some (rest, found, false)
  | '\\' :: rest => (escape? rest).map fun (c, rest) => (rest, c :: found, true)
  | c :: rest => if isPrintable c then some (rest, c :: found, true) else none

def skipLines : List Char → List Char
  | ' ' :: rest | '\t' :: rest | '\n' :: rest => skipLines rest
  | '\r' :: '\n' :: rest => skipLines rest
  | s => s

/-- Reads a run of quotation marks in a string with three of them around it: up to two are part of
the string, three end it, and up to two more may stand in front of those three. -/
def quotesStep (quote : Char) (s : List Char) (found : List Char) :
    List Char × List Char × Bool :=
  let run := min 5 (s.takeWhile (· == quote)).length
  let kept := List.replicate (if 3 ≤ run then run - 3 else run) quote
  (s.drop run, kept ++ found, run < 3)

/-- Reads one part of a basic string of several lines. A backslash at the end of a line leaves out
all blanks and line ends that follow. -/
def longBasicStep (s : List Char) (found : List Char) :
    Option (List Char × List Char × Bool) :=
  match s with
  | [] => none
  | '"' :: _ => some (quotesStep '"' s found)
  | '\\' :: rest =>
    match newline? (skipBlank rest) with
    | some rest => some (skipLines rest, found, true)
    | none => (escape? rest).map fun (c, rest) => (rest, c :: found, true)
  | c :: rest =>
    match newline? s with
    | some rest => some (rest, '\n' :: found, true)
    | none => if isPrintable c then some (rest, c :: found, true) else none

def longLiteralStep (s : List Char) (found : List Char) :
    Option (List Char × List Char × Bool) :=
  match s with
  | [] => none
  | '\'' :: _ => some (quotesStep '\'' s found)
  | c :: rest =>
    match newline? s with
    | some rest => some (rest, '\n' :: found, true)
    | none => if isPrintable c then some (rest, c :: found, true) else none

/-- Reads a string to its end by steps that collect its characters, the last one first. -/
def collect? (step : List Char → List Char → Option (List Char × List Char × Bool))
    (s : List Char) : Option (String × List Char) :=
  (repeatStep step s []).map fun (rest, found) => (String.ofList found.reverse, rest)

/-- Leaves out a line end right behind the opening of a string of several lines. -/
def dropNewline (s : List Char) : List Char :=
  (newline? s).getD s

def literal? (s : List Char) : Option (String × List Char) :=
  let text := s.takeWhile (· != '\'')
  match s.dropWhile (· != '\'') with
  | [] => none
  | _ :: rest => if text.all isPrintable then some (String.ofList text, rest) else none

def shortString? : List Char → Option (String × List Char)
  | '"' :: rest => collect? basicStep rest
  | '\'' :: rest => literal? rest
  | _ => none

def string? (s : List Char) : Option (String × List Char) :=
  match after? "\"\"\"" s, after? "'''" s with
  | some rest, _ => collect? longBasicStep (dropNewline rest)
  | none, some rest => collect? longLiteralStep (dropNewline rest)
  | none, none => shortString? s

def isBareKeyChar (c : Char) : Bool :=
  c.isAlphanum || c == '-' || c == '_'

/-- Reads one part of a key: bare, or a string of one line. -/
def keyPart? (s : List Char) : Option (String × List Char) :=
  match s with
  | '"' :: _ | '\'' :: _ => shortString? s
  | _ =>
    let bare := s.takeWhile isBareKeyChar
    if bare.isEmpty then none else some (String.ofList bare, s.dropWhile isBareKeyChar)

def keyStep (s : List Char) (found : List String) : Option (List Char × List String × Bool) := do
  let (part, rest) ← keyPart? (skipBlank s)
  match skipBlank rest with
  | '.' :: rest => return (rest, part :: found, true)
  | rest => return (rest, part :: found, false)

def key? (s : List Char) : Option (List String × List Char) := do
  let (rest, found) ← repeatStep keyStep s []
  if found.length ≤ maxNesting then return (found.reverse, rest) else none

end SoundRouting.Toml
