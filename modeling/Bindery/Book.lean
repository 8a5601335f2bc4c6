/-
# A book

The typed form of a recipe: the files of the package, its metadata, its reading order and its
navigation.  A field that a recipe may leave out is optional here; a list that may be left out is
optional where a missing list and an empty one differ.
-/
namespace Bindery

/-! ## 1. The container -/

/-- A package document that the container offers. -/
structure Rootfile where
  path : String
  mediaType : String
  deriving DecidableEq, Repr

/-! ## 2. Metadata -/

/-- The fifteen elements of Dublin Core. -/
inductive DublinCore where
  | title | identifier | language | creator | subject | description | publisher | contributor
  | date | type | format | source | relation | coverage | rights
  deriving DecidableEq, Repr

namespace DublinCore

/-- All elements, in the order in which they are listed above. -/
def all : List DublinCore :=
  [title, identifier, language, creator, subject, description, publisher, contributor,
    date, type, format, source, relation, coverage, rights]

/-- The name of an element. -/
def name : DublinCore → String
  | title => "title"
  | identifier => "identifier"
  | language => "language"
  | creator => "creator"
  | subject => "subject"
  | description => "description"
  | publisher => "publisher"
  | contributor => "contributor"
  | date => "date"
  | type => "type"
  | format => "format"
  | source => "source"
  | relation => "relation"
  | coverage => "coverage"
  | rights => "rights"

/-- The element of a name. -/
def ofName? (name : String) : Option DublinCore :=
  all.find? (·.name == name)

end DublinCore

/-- A Dublin Core statement about the book. -/
structure Statement where
  element : DublinCore
  content : String
  id : Option String := none
  scheme : Option String := none
  fileAs : Option String := none
  role : Option String := none
  event : Option String := none
  lang : Option String := none
  deriving DecidableEq, Repr

/-- A statement about the book: by a Dublin Core element, or under a name of the author's choice. -/
inductive Metadatum where
  | core (statement : Statement)
  | custom (name content : String)
  deriving DecidableEq, Repr

/-! ## 3. Files -/

/-- A file or directory that is part of the publication. -/
structure ManifestItem where
  /-- Where the contents are read from. -/
  source : String
  /-- Where they go, relative to the directory of the package document. -/
  path : String
  mediaType : String
  id : String
  fallback : Option String := none
  fallbackStyle : Option String := none
  requiredNamespace : Option String := none
  requiredModules : Option String := none
  deriving DecidableEq, Repr

/-- A file or directory that is packed without being part of the publication. -/
structure ExtraFile where
  /-- Where the contents are read from. -/
  source : String
  /-- Where they go in the archive. -/
  path : String
  deriving DecidableEq, Repr

/-! ## 4. Reading order and guide -/

/-- An item of the reading order: an identifier alone, or one with a mark whether it is linear. -/
inductive SpineItem where
  | bare (idref : String)
  | marked (idref : String) (linear : Option Bool)
  deriving DecidableEq, Repr

namespace SpineItem

/-- The manifest item that stands in the reading order. -/
def idref : SpineItem → String
  | bare idref => idref
  | marked idref _ => idref

/-- The mark whether the item is linear, if it has one. -/
def linear : SpineItem → Option Bool
  | bare _ => none
  | marked _ linear => linear

end SpineItem

/-- A structural part of the book that the guide points to. -/
structure GuideReference where
  type : String
  idref : String
  title : Option String := none
  fragment : Option String := none
  deriving DecidableEq, Repr

/-! ## 5. Navigation -/

/-- What a recipe says about the navigation document itself. -/
structure NavigationFile where
  id : Option String := none
  /-- Its path relative to the directory of the package document. -/
  path : Option String := none
  deriving DecidableEq, Repr

/-- A label in one language. -/
structure NavLabel where
  text : String
  lang : Option String := none
  deriving DecidableEq, Repr

/-- The label of a navigation target: one text, or one label or more with their languages. -/
inductive Label where
  | simple (text : String)
  | several (first : NavLabel) (rest : List NavLabel)
  deriving DecidableEq, Repr

/-- The labels to write, in order. -/
def Label.labels : Label → List NavLabel
  | simple text => [⟨text, none⟩]
  | several first rest => first :: rest

/-- A target of the table of contents. -/
structure NavPoint where
  label : Label
  idref : String
  fragment : Option String := none
  deriving DecidableEq, Repr

/-- An entry of the table of contents with the entries below it. -/
inductive NavTree where
  | node (point : NavPoint) (children : List NavTree)
  deriving Repr

/-- The three kinds of page numbers. -/
inductive PageKind where
  | front | normal | special
  deriving DecidableEq, Repr

namespace PageKind

/-- All kinds, in the order in which messages list them. -/
def all : List PageKind := [front, normal, special]

/-- The name of a kind. -/
def name : PageKind → String
  | front => "front"
  | normal => "normal"
  | special => "special"

/-- The kind of a name. -/
def ofName? (name : String) : Option PageKind :=
  all.find? (·.name == name)

end PageKind

/-- A page of the printed book. -/
structure PageTarget where
  label : Label
  id : String
  kind : PageKind
  idref : String
  value : Option String := none
  fragment : Option String := none
  deriving DecidableEq, Repr

/-- A target of a list of figures, tables or the like. -/
structure NavTarget where
  label : Label
  idref : String
  fragment : Option String := none
  deriving DecidableEq, Repr

/-- A list of figures, tables or the like. -/
structure NavList where
  label : Label
  targets : List NavTarget
  deriving DecidableEq, Repr

/-! ## 6. The book -/

/-- A book. -/
structure Book where
  manifest : List ManifestItem
  rootfiles : Option (List Rootfile) := none
  metadata : Option (List Metadatum) := none
  spine : Option (List SpineItem) := none
  guide : Option (List GuideReference) := none
  navigationFile : Option NavigationFile := none
  /-- The table of contents; empty when the recipe gives none. -/
  contents : List NavTree := []
  pages : Option (List PageTarget) := none
  navLists : Option (List NavList) := none
  extraFiles : List ExtraFile := []
  deriving Repr

/-- The manifest item with an identifier: the first, should there be several. -/
def Book.item? (book : Book) (id : String) : Option ManifestItem :=
  book.manifest.find? (·.id == id)

/-- An item that is found is in the manifest and has the identifier that was looked for. -/
theorem Book.mem_and_id_eq_of_item? {book : Book} {id : String} {item : ManifestItem}
    (found : book.item? id = some item) : item ∈ book.manifest ∧ item.id = id := by
  unfold Book.item? at found
  have named := List.find?_some found
  exact ⟨List.mem_of_find?_eq_some found, by simpa using named⟩

end Bindery
