import SoundRouting.AudioFormat
import SoundRouting.DeviceMask
import SoundRouting.Script.Fault
import SoundRouting.Text.Numeral
import SoundRouting.Text.Scan
/-!
The words of a script line, and what device lists and formats mean.

White space separates words. A word in double quotes may hold anything but a double quote; the next
word may follow it directly.
-/
namespace SoundRouting.Script

open Text

/-- Reads the next word; only a quote that is not closed fails. -/
def wordStep (s : List Char) (found : List String) : Option (List Char × List String × Bool) :=
  match trimStart s with
  | [] => some ([], found, false)
  | '"' :: rest =>
    match rest.dropWhile (· != '"') with
    | [] => none
    | _ :: tail => some (tail, String.ofList (rest.takeWhile (· != '"')) :: found, true)
  | c :: rest =>
    some ((c :: rest).dropWhile (fun c => !isBlank c),
      String.ofList ((c :: rest).takeWhile fun c => !isBlank c) :: found, true)

/-- Every word that is read leaves less of the line. -/
theorem shortens_wordStep : Shortens wordStep := by
  intro s found rest next h
  have hs : (trimStart s).length ≤ s.length := (List.dropWhile_sublist isBlank).length_le
  simp only [wordStep] at h
  split at h
  · cases h
  · rename_i tail ht
    split at h
    · cases h
    · rename_i q after hq
      have hd : (q :: after).length ≤ tail.length :=
        hq ▸ (List.dropWhile_sublist _).length_le
      cases h
      simp only [ht, List.length_cons] at hs hd
      omega
  · rename_i c tail hne ht
    cases h
    have hc : isBlank c = false := by
      have hh := List.head?_dropWhile_not isBlank s
      simp only [trimStart] at ht
      simpa [ht] using hh
    have hd : (tail.dropWhile fun c => !isBlank c).length ≤ tail.length :=
      (List.dropWhile_sublist _).length_le
    simp only [ht, List.length_cons, List.dropWhile_cons, hc, Bool.not_false, if_true] at hs ⊢
    omega

def words? (line : List Char) : Option (List String) :=
  (repeatStep wordStep line []).map fun (_, found) => found.reverse

/-- The line without its comment and without white space around it. -/
def content (line : List Char) : List Char :=
  trim (line.takeWhile (· != '#'))

def deviceOfToken (list token : String) : Except ScriptFault DeviceMask :=
  if token == "" then .error (.emptyDevice list)
  else if token == "none" then .ok DeviceMask.nothing
  else match DeviceMask.ofName? token with
    | some mask => .ok mask
    | none => match Numeral.unsigned? token with
      | some n => .ok (BitVec.ofNat 32 n)
      | none => .error (.unknownDevice token)

/-- The names of a device list: what stands between its bars and commas, without white space around
it. -/
def deviceTokens (list : String) : List String :=
  (pieces (fun c => c == '|' || c == ',') list.toList).map fun token =>
    String.ofList (trim token)

def unionOf (list : String) : List String → DeviceMask → Except ScriptFault DeviceMask
  | [], mask => .ok mask
  | token :: more, mask =>
    match deviceOfToken list token with
    | .ok bits => unionOf list more (mask ||| bits)
    | .error e => .error e

def devices (list : String) : Except ScriptFault DeviceMask :=
  unionOf list (deviceTokens list) DeviceMask.nothing

def format (text : String) : Except ScriptFault AudioFormat :=
  match text with
  | "pcm" => .ok .pcm16
  | "mp3" => .ok .mp3
  | "aac" => .ok .aac
  | other => match Numeral.unsigned? other with
    | some n => .ok ⟨BitVec.ofNat 32 n⟩
    | none => .error (.unknownFormat other)

end SoundRouting.Script
