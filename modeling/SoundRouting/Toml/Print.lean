import SoundRouting.Text.Hex
/-!
Writing strings as TOML.

A string is written without escapes, tabs apart, if one of the four forms allows it; of these the
first is taken in the order basic, literal, basic over several lines, literal over several lines.
Any other string is basic, with escapes, over several lines if it has a line feed.
-/
namespace SoundRouting.Toml

/-- The forms of a string. The long ones have three quotation marks at each end and may span lines.
-/
inductive StringForm where
  | basic
  | literal
  | longBasic
  | longLiteral
  deriving DecidableEq, Repr

/-- The length of the longest run of a character; `run` of them stand in front. -/
def longestRun (quote : Char) : Nat → List Char → Nat
  | run, [] => run
  | run, c :: rest =>
    if c = quote then longestRun quote (run + 1) rest else max run (longestRun quote 0 rest)

/-- The control characters of ASCII other than tab and line feed: no form shows them as they are. -/
def isHidden (c : Char) : Bool :=
  (c.toNat < 0x20 && c != '\t' && c != '\n') || c.toNat == 0x7F

namespace StringForm

def delimiter : StringForm → String
  | basic => "\""
  | literal => "'"
  | longBasic => "\"\"\""
  | longLiteral => "'''"

def isLong : StringForm → Bool
  | basic | literal => false
  | longBasic | longLiteral => true

def isBasic : StringForm → Bool
  | basic | longBasic => true
  | literal | longLiteral => false

/-- How many quotation marks of the form's kind may stand in a row as they are. -/
def maxRun (form : StringForm) : Nat :=
  if form.isLong then 2 else 0

/-- Whether a form needs no escapes for a string, tabs apart: it has a line feed only if the form is
long, no backslash if the form is basic, no other control character than tab, and not too many of
the form's quotation marks in a row. -/
def shows (s : List Char) (form : StringForm) : Bool :=
  let quote := if form.isBasic then '"' else '\''
  (form.isLong || !s.contains '\n') && !(form.isBasic && s.contains '\\')
    && !s.any isHidden && longestRun quote 0 s ≤ form.maxRun

def of (s : List Char) : StringForm :=
  match [basic, literal, longBasic, longLiteral].find? (shows s) with
  | some form => form
  | none => if s.contains '\n' then longBasic else basic

end StringForm

def writeChar (long : Bool) (c : Char) : List Char :=
  if c = '\x08' then ['\\', 'b']
  else if c = '\t' then ['\\', 't']
  else if c = '\n' then if long then ['\n'] else ['\\', 'n']
  else if c = '\x0c' then ['\\', 'f']
  else if c = '\r' then ['\\', 'r']
  else if c = '\\' then ['\\', '\\']
  else if isHidden c then
    ['\\', 'u'] ++ ((Text.hexDigits c.toNat).map Char.toUpper).leftpad 4 '0'
  else [c]

/-- Writes the characters of a basic string, before which stand `run` quotation marks. A quotation
mark that would be one too many in a row is escaped, and the count begins anew after it. -/
def writeBasic (form : StringForm) : Nat → List Char → List Char
  | _, [] => []
  | run, c :: rest =>
    if c = '"' then
      if run < form.maxRun then c :: writeBasic form (run + 1) rest
      else '\\' :: c :: writeBasic form 0 rest
    else writeChar form.isLong c ++ writeBasic form 0 rest

/-- A string as a document has it. Behind the opening of a string with a line feed stands one more,
which is not part of it. -/
def writeString (text : String) : String :=
  let s := text.toList
  let form := StringForm.of s
  let opening := form.delimiter ++ (if s.contains '\n' && form.isLong then "\n" else "")
  let body := if form.isBasic then String.ofList (writeBasic form 0 s) else text
  opening ++ body ++ form.delimiter

end SoundRouting.Toml
