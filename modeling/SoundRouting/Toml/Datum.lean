/-!
Values of TOML documents, and how a document puts them together.

A table remembers how it came to be, because that decides what may still be added to it: a table
written in braces is closed; one opened by a header is not opened again; one that only stood in
front of a dot in a header may be opened once; one that stood in front of a dot in a key takes more
such keys.
-/
namespace SoundRouting.Toml

inductive Origin where
  | braces
  | header
  | aboveHeader
  | dottedKey
  deriving DecidableEq, Repr

/-- A value. Of a floating-point number and of a date or time it is only known that it is one: no
description uses them. The tables of a list are those that headers in double brackets opened. -/
inductive Datum where
  | string (text : String)
  | integer (value : Int)
  | float
  | boolean (value : Bool)
  | moment
  | array (items : List Datum)
  | table (origin : Origin) (entries : List (String × Datum))
  | tables (items : List (List (String × Datum)))
  deriving Inhabited

/-- Keys with their values; no key occurs twice. -/
abbrev Entries := List (String × Datum)

namespace Entries

def get? (entries : Entries) (key : String) : Option Datum :=
  (entries.find? fun e => e.1 == key).map Prod.snd

def set (entries : Entries) (key : String) (value : Datum) : Entries :=
  match entries with
  | [] => [(key, value)]
  | e :: more => if e.1 == key then (key, value) :: more else e :: set more key value

def changeLast? (change : Entries → Option Entries) : List Entries → Option (List Entries)
  | [] => none
  | [last] => (change last).map fun entries => [entries]
  | t :: more => (changeLast? change more).map (t :: ·)

def add? (entries : Entries) (key : String) (value : Datum) : Option Entries :=
  if (get? entries key).isSome then none else some (entries ++ [(key, value)])

/-- Adds a value at a dotted key. The tables in front of the last dot are made where they are
missing; otherwise dotted keys have to have made the last of them, and neither a header nor braces
the others. -/
def addAt? (value : Datum) : List String → Entries → Option Entries
  | [], _ => none
  | [key], entries => add? entries key value
  | first :: second :: more, entries => do
    let inner := addAt? value (second :: more)
    match get? entries first with
    | none =>
      let made ← inner []
      return set entries first (.table .dottedKey made)
    | some (.table .dottedKey found) =>
      let changed ← inner found
      return set entries first (.table .dottedKey changed)
    | some (.table .aboveHeader found) =>
      if more.isEmpty then none
      let changed ← inner found
      return set entries first (.table .aboveHeader changed)
    | some (.tables items) =>
      if more.isEmpty then none
      let changed ← changeLast? inner items
      return set entries first (.tables changed)
    | some _ => none

/-- What a header does with the value that its last key has so far: a table is opened anew, or one
table more is added to a list. -/
def opened? (isList : Bool) (body : Entries → Option Entries) : Option Datum → Option Datum
  | none => do
    let entries ← body []
    return if isList then .tables [entries] else .table .header entries
  | some (.table .aboveHeader found) =>
    if isList then none else (body found).map (.table .header)
  | some (.tables items) =>
    if isList then (body []).map fun entries => .tables (items ++ [entries]) else none
  | some _ => none

/-- Opens the table that a header names and fills it with `body`. -/
def openAt? (isList : Bool) (body : Entries → Option Entries) :
    List String → Entries → Option Entries
  | [], entries => body entries
  | [key], entries => (opened? isList body (get? entries key)).map (set entries key)
  | first :: second :: more, entries => do
    let inner := openAt? isList body (second :: more)
    match get? entries first with
    | none =>
      let made ← inner []
      return set entries first (.table .aboveHeader made)
    | some (.table .braces _) => none
    | some (.table origin found) =>
      let changed ← inner found
      return set entries first (.table origin changed)
    | some (.tables items) =>
      let changed ← changeLast? inner items
      return set entries first (.tables changed)
    | some _ => none

end Entries

end SoundRouting.Toml
