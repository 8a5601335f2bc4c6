/-
# What a recipe file lists

A recipe file lists recipes if its top is a table with a list in which every item describes a recipe.  Any
other file is at fault, and the fault is one of the recipe or of the file.
-/
import Bindery.Recipe.File
import Bindery.Text.Ordinary
import Mathlib.Data.List.Forall2

namespace Bindery.Recipe

open Text

/-- An item of a recipe file describes a recipe. -/
def Describes (item : Value CodePoints) (recipe : Recipe) : Prop :=
  ∃ fields, item = .table fields ∧
    Value.Fields.get? fields "name" = some (.text recipe.name) ∧
    Value.Fields.get? fields "format" = some (.text recipe.format) ∧
    Value.Fields.get? fields "recipe" = some (.table recipe.body)

/-- The table at the top of a recipe file lists recipes, each item one, in order. -/
def Lists (fields : Value.Fields CodePoints) (recipes : List Recipe) : Prop :=
  ∃ items, fields.get? "recipes" = some (.list items) ∧ List.Forall₂ Describes items recipes

/-- A recipe file gives its recipes, or is refused as one that is wrong or cannot be read. -/
def IsAnswered : Except Fault (List Recipe) → Prop
  | .ok _ | .error (.recipe _) | .error (.file _) => True
  | .error _ => False

/-- The faults with which a recipe file is not refused as one. -/
inductive Escapes (disk : Disk) (location : Location) : Fault → Prop where
  | nul (hnul : Disk.hasNul location = true) : Escapes disk location .pathWithNul
  | numeral {data : ByteArray} (hbytes : fileBytes disk location = .ok data)
      (hvalue : fileValue location data = .error .numeralTooLong) :
      Escapes disk location .numeralTooLong
  | nesting {data : ByteArray} (hbytes : fileBytes disk location = .ok data)
      (hvalue : fileValue location data = .error .nestedTooDeeply) :
      Escapes disk location .nestedTooDeeply
  /-- The top of a JSON file can be something else than a table. -/
  | top {data : ByteArray} {value : Value CodePoints} (hjson : isJson location = true)
      (hbytes : fileBytes disk location = .ok data) (hvalue : fileValue location data = .ok value)
      (htop : value.kind ≠ .table) : Escapes disk location .topNotTable

/-- A text opens more brackets than its reader lets be nested. -/
def OpensMany (location : Location) (text : String) : Prop :=
  if isJson location then Json.maxDepth < Scan.openings text.toList
  else Toml.maxDepth < Toml.tableCost * Scan.openings text.toList

end Bindery.Recipe
