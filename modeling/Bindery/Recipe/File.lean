/-
# Recipe files

A recipe file is a text in UTF-8: JSON if the file's name says so, and TOML else.
-/
import Bindery.Disk
import Bindery.Json
import Bindery.Recipe
import Bindery.Toml

namespace Bindery.Recipe

/-- The bytes of a recipe file. -/
def fileBytes (disk : Disk) (location : Location) : Except Fault ByteArray := do
  if Disk.hasNul location then throw .pathWithNul
  let fail (refusal : Refusal) : Except Fault ByteArray :=
    throw (.file (.readRecipes ⟨refusal, location.text⟩))
  match disk.find location with
  | .ok (.file data) => return data
  | .ok (.directory _) => fail .isDirectory
  | .error refusal => fail refusal

/-- Whether a file's name says that it holds JSON. -/
def isJson (location : Location) : Bool :=
  location.extension?.any fun extension => Text.foldCase extension == "json"

/-- Reads the text of a recipe file. -/
def readText (location : Location) (text : String) : Except ReadFault (Value Text.CodePoints) :=
  if isJson location then Json.read text else (Toml.read text).map (Value.map .ofText)

/-- The value that a recipe file holds. -/
def fileValue (location : Location) (data : ByteArray) : Except Fault (Value Text.CodePoints) :=
  match String.fromUTF8? data with
  | none => refuse (.unreadable location.text)
  | some text =>
    match readText location text with
    | .ok value => .ok value
    | .error .malformed => refuse (.unreadable location.text)
    | .error .numeralTooLong => .error .numeralTooLong
    | .error .nestedTooDeeply => .error .nestedTooDeeply

/-- The recipes of a recipe file. -/
def load (disk : Disk) (location : Location) : Except Fault (List Recipe) := do
  readAll location.text (← fileValue location (← fileBytes disk location))

end Bindery.Recipe
