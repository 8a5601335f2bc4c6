/-
# The metadata of the package

Every package has a title, an identifier and a language, and its unique identifier is an identifier
with an id.  `Metadata.resolve` adds to the statements of a recipe just what is missing.
-/
import Bindery.Book

namespace Bindery

/-! ## 1. The environment -/

/-- What a build takes from the machine it runs on: an identifier that nobody else uses, and the
language that the user has set. -/
structure Environment where
  uuid : String
  language : Option String
  deriving DecidableEq, Repr

/-- The language of a book that does not name one: the user's as a language tag, or English. -/
def Environment.languageTag (environment : Environment) : String :=
  match environment.language with
  | none => "en"
  | some language =>
    if language = "" ∨ language = "C" ∨ language = "POSIX" then "en"
    else String.ofList ((language.toList.takeWhile (· ≠ '@')).map fun c =>
      if c = '_' then '-' else c)

/-! ## 2. Resolution -/

/-- The metadata of a package, complete. -/
structure Metadata where
  items : List Metadatum
  /-- The id of the unique identifier. -/
  uniqueId : String
  /-- The text of the unique identifier. -/
  identifier : String
  title : String
  deriving DecidableEq, Repr

namespace Metadata

/-- The title of a book that does not give one. -/
def defaultTitle : String := "Untitled"

/-- The statement that an item makes by an element. -/
def statement? (element : DublinCore) : Metadatum → Option Statement
  | .core statement => if statement.element = element then some statement else none
  | .custom _ _ => none

/-- The first statement by an element. -/
def first? (element : DublinCore) (items : List Metadatum) : Option Statement :=
  items.findSome? (statement? element)

/-- The items, with a statement at the end if there is none by its element. -/
def completedBy (items : List Metadatum) (statement : Statement) : List Metadatum :=
  if (first? statement.element items).isNone then items ++ [.core statement] else items

/-- The statements that a package cannot do without, as they are when the recipe leaves them out. -/
def required (environment : Environment) (freshId : String) : List Statement :=
  [{ element := .title, content := defaultTitle },
   { element := .identifier, content := environment.uuid, id := some freshId,
     scheme := some "UUID" },
   { element := .language, content := environment.languageTag }]

/-- An identifier that has an id. -/
def identified? (item : Metadatum) : Option Statement :=
  (statement? .identifier item).filter fun statement => statement.id.any (· ≠ "")

/-- The items with an id given to the first identifier. -/
def giveId (id : String) : List Metadatum → List Metadatum
  | [] => []
  | item :: rest =>
    match statement? .identifier item with
    | some statement => .core { statement with id := some id } :: rest
    | none => item :: giveId id rest

/-- The complete metadata of a book.  `freshId` is the id that a unique identifier without one
gets. -/
def resolve (environment : Environment) (freshId : String) (recipe : Option (List Metadatum)) :
    Metadata :=
  let completed := (required environment freshId).foldl completedBy (recipe.getD [])
  let items :=
    if (completed.findSome? identified?).isSome then completed else giveId freshId completed
  let unique := (items.findSome? identified?).or (first? .identifier items)
  { items
    uniqueId := (unique.bind (·.id)).getD freshId
    identifier := (unique.map (·.content)).getD environment.uuid
    title := ((first? .title items).map (·.content)).getD defaultTitle }

end Metadata
end Bindery
