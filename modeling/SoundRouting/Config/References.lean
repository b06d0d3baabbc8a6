import SoundRouting.Files.Disk
import SoundRouting.Xml.Document
/-!
The files that a configuration names: files with bytes, probe files, and other configurations.

A program that loads a configuration from outside needs to know them before it has loaded it.
-/
namespace SoundRouting.Config

mutual

/-- The values of the `file` attributes in an element and below it. -/
def namesInElement : Xml.Element → List String
  | .mk _ _ attributes children =>
    (attributes.filter fun e => e.1 == "file").map Prod.snd ++ namesInElements children

def namesInElements : List Xml.Element → List String
  | [] => []
  | e :: more => namesInElement e ++ namesInElements more

end

/-- The files that the text of the file `owner` names, if it is a configuration. -/
def references (owner : Location) (text : String) : List Location :=
  (namesInElements ((Xml.elements? text).getD [])).map owner.resolve

end SoundRouting.Config
