/-
# Recipes

A recipe file holds a list of recipes, each with a name, a format and a body.  The format says how the
body is made into a book; there is one format.  The texts of a recipe are those of its file, which can
hold surrogates that stand alone.  A book is made from the texts that show them.
-/
import Bindery.Book.Reading
import Bindery.Edition
import Bindery.Text.CodePoint

namespace Bindery

open Text

/-! ## 1. Texts of a recipe file -/

/-- A value of characters is one of code points. -/
instance : Coe Value (Value CodePoints) := ⟨Value.map .ofText⟩

/-- Only a table of characters is shown as it is. -/
instance : CoeOut (Value.Fields CodePoints) Value.Fields := ⟨Value.mapFields CodePoints.shown⟩

/-- A recipe. -/
structure Recipe where
  name : CodePoints
  format : CodePoints
  /-- The fields of its body. -/
  body : Value.Fields CodePoints
  deriving Repr

namespace Recipe

/-! ## 2. Reading recipes -/

/-- The text of a field that has to be a text. -/
def textField (fields : Value.Fields CodePoints) (source : String) (index : Nat) (key : String) :
    Except Fault CodePoints :=
  match fields.get? key with
  | some (.text s) => .ok s
  | _ => refuse (.entryWithoutText source index key)

/-- Reads the recipe at a position of a recipe file. -/
def read (source : String) (index : Nat) : Value CodePoints → Except Fault Recipe
  | .table fields => do
    let name ← textField fields source index "name"
    let format ← textField fields source index "format"
    match Value.Fields.get? fields "recipe" with
    | some (.table body) => return { name, format, body }
    | _ => refuse (.entryWithoutBody source index)
  | _ => refuse (.entryNotTable source index)

/-- Reads the recipes of a recipe file, which messages call `source`. -/
def readAll (source : String) : Value CodePoints → Except Fault (List Recipe)
  | .table fields =>
    match Value.Fields.get? fields "recipes" with
    | some (.list items) => items.zipIdx.mapM fun (item, index) => read source index item
    | _ => refuse (.noRecipeList source)
  | _ => .error .topNotTable

/-- How messages call a recipe file whose name is not known. -/
def unnamedSource : String := "recipe file"

/-- The first recipe of a name. -/
def find (recipes : List Recipe) (name source : String) : Except Fault Recipe :=
  match recipes.find? (·.name == .ofText name) with
  | some recipe => .ok recipe
  | none => refuse (.noSuchRecipe name source)

/-! ## 3. Making a recipe -/

/-- The format of recipes. -/
def bookFormat : String := "epub2"

/-- The book that a recipe describes. -/
def book (recipe : Recipe) : Except Fault Book :=
  Book.ofValue (.table recipe.body)

/-- Makes the book that a value describes in a format, if the format is known; `name` is what the
recipe is called. -/
def makeValue (environment : Environment) (reader : Reader) (name format : String) (body : Value) :
    Except Fault Edition :=
  if format = bookFormat then do Edition.make environment reader (← Book.ofValue body)
  else refuse (.unknownFormat format name)

/-- Makes the book of a recipe. -/
def make (environment : Environment) (reader : Reader) (recipe : Recipe) :
    Except Fault Edition :=
  makeValue environment reader recipe.name recipe.format (.table recipe.body)

/-- A recipe of characters is made from its texts as they are. -/
theorem make_of_texts (environment : Environment) (reader : Reader) (name format : String)
    (body : Value.Fields) :
    make environment reader ⟨name, format, Value.mapFields .ofText body⟩ =
      makeValue environment reader name format (.table body) := by
  rw [make, CodePoints.shown_ofText, CodePoints.shown_ofText,
    Value.mapFields_mapFields_cancel CodePoints.shown_ofText]

end Recipe
end Bindery
