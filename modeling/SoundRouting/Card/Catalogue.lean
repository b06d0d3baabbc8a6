import SoundRouting.Files.Disk
import SoundRouting.Text.Numeral
/-!
Finding the number of a sound card by its name in a folder that lists the cards.

The folder has a folder for each card, called `card` and the card's number; the first line of the
file `id` in it is the name of the card.
-/
namespace SoundRouting.Catalogue

open Text

/-- The number in the name of a card's folder. -/
def numberOfEntry? (name : String) : Option Nat :=
  match name.toList with
  | 'c' :: 'a' :: 'r' :: 'd' :: digits => Numeral.plainUnsigned? 0x100000000 digits
  | _ => none

def nameFile (root : Location) (number : Nat) : Location :=
  (root.join ⟨"card" ++ toString number⟩).join ⟨"id"⟩

/-- The name of a card, if its file can be read and is not empty. -/
def cardName? (disk : Disk) (root : Location) (number : Nat) : Option String :=
  match disk.readText (nameFile root number) with
  | .ok text => (lines text.toList).head?.map String.ofList
  | .error _ => none

/-- The number of the first card in the folder that has this name. -/
def cardNumber? (disk : Disk) (root : Location) (name : String) : Option Nat :=
  match disk.names? root with
  | none => none
  | some entries => (entries.filterMap numberOfEntry?).find? fun number =>
    cardName? disk root number == some name

end SoundRouting.Catalogue
