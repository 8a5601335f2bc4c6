/-
# Fields of a recipe's tables

How the fields of a table are read: a text or a truth value, required or not, and lists of tables.  A
field that is null counts as left out wherever it may be left out.
-/
import Bindery.Fault
import Bindery.Xml.Character

namespace Bindery

/-- Stops with a fault of the recipe. -/
def refuse {α : Type} (fault : RecipeFault) : Except Fault α :=
  .error (.recipe fault)

namespace Value

/-! ## 1. Kinds of values -/

/-- The fields of a value that has to be a table. -/
def asTable (place : Place) : Value → Except Fault Fields
  | table fields => .ok fields
  | other => refuse (.notTable place other.kind)

/-- The items of a value that has to be a list. -/
def asList (place : Place) : Value → Except Fault (List Value)
  | list items => .ok items
  | other => refuse (.notList place other.kind)

/-- The text of a value that has to be a text which XML allows. -/
def asText (place : Place) : Value → Except Fault String
  | text s =>
    match Xml.illegal? s with
    | some character => refuse (.illegalCharacter place character)
    | none => .ok s
  | other => refuse (.notText place other.kind)

namespace Fields

/-! ## 2. Fields -/

/-- A field that is there and not null. -/
def present? (fields : Fields) (key : String) : Option Value :=
  match fields.get? key with
  | some null => none
  | found => found

/-- A text that must be there. -/
def requiredText (fields : Fields) (place : Place) (key : String) : Except Fault String :=
  match fields.get? key with
  | none => refuse (.missing place key)
  | some value => value.asText (.field place key)

/-- A text that may be left out. -/
def optionalText (fields : Fields) (place : Place) (key : String) :
    Except Fault (Option String) :=
  match fields.present? key with
  | none => .ok none
  | some value => (value.asText (.field place key)).map some

/-- A truth value that may be left out. -/
def optionalBool (fields : Fields) (place : Place) (key : String) : Except Fault (Option Bool) :=
  match fields.present? key with
  | none => .ok none
  | some (bool b) => .ok (some b)
  | some other => refuse (.notBoolean (.field place key) other.kind)

/-- A list at the top of a recipe that may be left out. -/
def optionalList (fields : Fields) (key : String) : Except Fault (Option (List Value)) :=
  match fields.present? key with
  | none => .ok none
  | some value => (value.asList (.top key)).map some

end Fields

/-! ## 3. Lists -/

/-- Reads the items of a list in order, each with its place; the first fault ends the reading. -/
def readItems {α β : Type} (read : Place → α → Except Fault β) (place : Place) (items : List α) :
    Except Fault (List β) :=
  items.zipIdx.mapM fun (item, index) => read (.item place index) item

/-- A list of tables at the top of a recipe that may be left out. -/
def Fields.optionalTables (fields : Fields) (key : String) :
    Except Fault (Option (List Fields)) := do
  match ← fields.optionalList key with
  | none => return none
  | some items => return some (← readItems asTable (.top key) items)

end Value
end Bindery
