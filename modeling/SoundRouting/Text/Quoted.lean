import SoundRouting.Text.Hex
import SoundRouting.Text.Unprintable
/-!
Quoted text, as diagnostics show a value.

A quoted text stands between double quotes. A double quote and a backslash follow a backslash; NUL,
tab, line feed and carriage return are written `\0`, `\t`, `\n` and `\r`; any other character that
is not printable is written as its number in hexadecimal between braces after `\u`. All else stands
as it is; only in the name of a file a single quote follows a backslash too.
-/
namespace SoundRouting.Text

def quoteChar (c : Char) : List Char :=
  if c = '\x00' then ['\\', '0']
  else if c = '\t' then ['\\', 't']
  else if c = '\n' then ['\\', 'n']
  else if c = '\r' then ['\\', 'r']
  else if c = '"' then ['\\', '"']
  else if c = '\\' then ['\\', '\\']
  else if isUnprintable c then ['\\', 'u', '\x7b'] ++ hexDigits c.toNat ++ ['\x7d']
  else [c]

def quote (s : String) : String :=
  String.ofList ('"' :: s.toList.flatMap quoteChar ++ ['"'])

def quoteFile (s : String) : String :=
  String.ofList
    ('"' :: s.toList.flatMap (fun c => if c = '\'' then ['\\', '\''] else quoteChar c) ++ ['"'])

end SoundRouting.Text
