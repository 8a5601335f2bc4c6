/-
# What can stop a build

One type for every cause that makes a recipe unusable, a document impossible or an archive
unfinished.  The wording of each cause is in one `message` function.
-/
import Bindery.Book.Place
import Bindery.Collision
import Bindery.EntryPath.Check
import Bindery.Value

namespace Bindery

/-! ## 1. Recipes that do not have the right form -/

/-- Why a recipe is not a book, or a recipe file no list of recipes. -/
inductive RecipeFault where
  | notTable (place : Place) (found : Value.Kind)
  | notList (place : Place) (found : Value.Kind)
  | missing (place : Place) (key : String)
  | notText (place : Place) (found : Value.Kind)
  | notBoolean (place : Place) (found : Value.Kind)
  /-- A text holds a character that XML does not allow. -/
  | illegalCharacter (place : Place) (character : Char)
  | twoLabelFields (place : Place)
  | noLabels (place : Place)
  | noLabelField (place : Place)
  /-- A manifest path comes to nothing when it is normalized. -/
  | namesNoFile (place : Place) (path : String)
  | unknownPageKind (place : Place) (found : String)
  | pageValue (place : Place)
  /-- The text of a recipe file cannot be read. -/
  | unreadable (file : String)
  | noRecipeList (source : String)
  | entryNotTable (source : String) (index : Nat)
  | entryWithoutText (source : String) (index : Nat) (key : String)
  | entryWithoutBody (source : String) (index : Nat)
  | noSuchRecipe (name source : String)
  | unknownFormat (format name : String)
  deriving DecidableEq, Repr

namespace RecipeFault

/-- How messages name an entry of a recipe file. -/
def entryText (source : String) (index : Nat) : String :=
  s!"{source}: recipes[{index}]"

open Text in
/-- The message that reports a fault. -/
def message : RecipeFault → String
  | notTable place found => s!"{place.text} must be a table, got {found.name}"
  | notList place found => s!"{place.text} must be a list, got {found.name}"
  | missing place key => s!"{place.text} is missing required field '{key}'"
  | notText place found => s!"{place.text} must be a string, got {found.name}"
  | notBoolean place found => s!"{place.text} must be a boolean, got {found.name}"
  | illegalCharacter place character =>
    s!"{place.text} contains character {quoted character.toString}, which XML does not allow"
  | twoLabelFields place => s!"{place.text} has both 'label' and 'labels'; use one"
  | noLabels place => s!"{place.text} must not be empty"
  | noLabelField place => s!"{place.text} needs either 'label' or 'labels'"
  | namesNoFile place path => s!"{place.text} {quoted path} names no file"
  | unknownPageKind place found =>
    s!"{place.text} must be one of front, normal, special, got '{found}'"
  | pageValue place => s!"{place.text} must be a string or integer"
  | unreadable file => s!"Failed to parse recipe file {file}"
  | noRecipeList source => s!"{source} must contain a 'recipes' list"
  | entryNotTable source index => s!"{entryText source index} must be a table"
  | entryWithoutText source index key => s!"{entryText source index} needs a string '{key}'"
  | entryWithoutBody source index => s!"{entryText source index} needs a 'recipe' table"
  | noSuchRecipe name source => s!"Recipe {name} not found in {source}."
  | unknownFormat format name => s!"Format {format} not recognized in recipe {name}"

end RecipeFault

/-! ## 2. References that lead nowhere -/

/-- Who refers to a manifest item. -/
inductive Referrer where
  | manifest | spine | guide | contents | navLists
  | page (id : String)
  /-- A referrer that a caller names in words of its own. -/
  | other (name : String)
  deriving DecidableEq, Repr

/-- How messages call a referrer. -/
def Referrer.text : Referrer → String
  | manifest => "manifest"
  | spine => "spine"
  | guide => "guide"
  | contents => "navmap"
  | navLists => "navlists"
  | page id => s!"pagelist entry '{id}'"
  | other name => name

/-- An identifier that names no manifest item. -/
inductive MissingItem where
  | reference (idref : String) (referrer : Referrer)
  | fallback (idref item : String)
  deriving DecidableEq, Repr

/-- The message that reports an identifier without an item. -/
def MissingItem.message : MissingItem → String
  | reference idref referrer => s!"Idref '{idref}' used in {referrer.text} not found in manifest."
  | fallback idref item =>
    s!"Idref '{idref}' used as fallback of manifest item '{item}' not found in manifest."

/-! ## 3. Packages without a reading order -/

/-- Why a package has no valid reading order. -/
inductive OrderFault where
  | fallbackCycle (item through : String)
  | nothingEligible
  | nothingLinear
  deriving DecidableEq, Repr

/-- The message that reports a package without a reading order. -/
def OrderFault.message : OrderFault → String
  | fallbackCycle item through =>
    s!"Manifest item '{item}' has a fallback cycle through '{through}'."
  | nothingEligible => "Manifest contains no items legally placeable within the spine."
  | nothingLinear => "Spine contains no linear items."

/-! ## 4. Files that cannot be read and archives that cannot be written -/

/-- The ways in which the file system refuses a path. -/
inductive Refusal where
  | notFound | notDirectory | isDirectory | nameTooLong
  deriving DecidableEq, Repr

/-- The number of a refusal. -/
def Refusal.number : Refusal → Nat
  | notFound => 2
  | notDirectory => 20
  | isDirectory => 21
  | nameTooLong => 36

/-- What a refusal says. -/
def Refusal.text : Refusal → String
  | notFound => "No such file or directory"
  | notDirectory => "Not a directory"
  | isDirectory => "Is a directory"
  | nameTooLong => "File name too long"

/-- A path that the file system refuses. -/
structure PathRefusal where
  refusal : Refusal
  path : String
  deriving DecidableEq, Repr

/-- The message that reports a refused path. -/
def PathRefusal.message (fault : PathRefusal) : String :=
  s!"[Errno {fault.refusal.number}] {fault.refusal.text}: {Text.quoted fault.path}"

/-- Why a file could not be read or an archive entry not be written. -/
inductive FileFault where
  | read (cause : PathRefusal)
  | list (cause : PathRefusal)
  | readRecipes (cause : PathRefusal)
  /-- An entry is started in an archive that is closed. -/
  | archiveClosed (name : String)
  | noEntry
  deriving DecidableEq, Repr

/-- The message that reports a file or entry. -/
def FileFault.message : FileFault → String
  | read cause => s!"Failed to read {cause.path}: {cause.message}"
  | list cause => s!"Failed to list {cause.path}: {cause.message}"
  | readRecipes cause => s!"Failed to read recipe file {cause.path}: {cause.message}"
  | archiveClosed name =>
    s!"Failed to start archive entry {name}: " ++
      "Attempt to use ZIP archive that was already closed"
  | noEntry => "No archive entry has been started"

/-! ## 5. All causes -/

/-- Why a build stops. -/
inductive Fault where
  | recipe (fault : RecipeFault)
  /-- A Dublin Core element that does not exist. -/
  | unknownElement (name : String) (place : Place)
  | path (fault : PathFault)
  | collision (fault : Collision)
  | missingItem (fault : MissingItem)
  | order (fault : OrderFault)
  | file (fault : FileFault)
  /-- The file system refuses a path that is only asked about. -/
  | refused (fault : PathRefusal)
  /-- A text of the environment holds a character that XML does not allow. -/
  | illegalText
  /-- A numeral is longer than numerals that are converted may be. -/
  | numeralTooLong
  /-- A path holds the character U+0000. -/
  | pathWithNul
  /-- A path starts in the home directory of somebody unknown. -/
  | unknownUser
  /-- A switch that has to name a place on disk was given without a value. -/
  | noLocation
  /-- The top of a recipe file is no table. -/
  | topNotTable
  /-- The values of a recipe file are nested deeper than they are read. -/
  | nestedTooDeeply
  /-- An entry is to be compressed in a way that archives here do not have. -/
  | unknownMethod
  /-- An entry's name has more bytes than an archive can record. -/
  | entryNameTooLong
  /-- What a checker puts out is no text. -/
  | reportNotText
  deriving DecidableEq, Repr

namespace Fault

/-- The message of a cause; nothing for a cause that is reported without words. -/
def message? : Fault → Option String
  | recipe fault => some fault.message
  | unknownElement name place =>
    some (s!"Unrecognized DC metadata name: '{name}' in {place.text}; if using custom " ++
      "metadata names, please use the attribute custom_name in place of name.")
  | path fault => some fault.message
  | collision fault => some fault.message
  | missingItem fault => some fault.message
  | order fault => some fault.message
  | file fault => some fault.message
  | refused fault => some fault.message
  | illegalText | numeralTooLong | pathWithNul | unknownUser | noLocation | topNotTable
  | nestedTooDeeply | unknownMethod | entryNameTooLong | reportNotText => none

end Fault
end Bindery
