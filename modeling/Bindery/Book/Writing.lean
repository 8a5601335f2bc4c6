/-
# Recipes of books

`Book.toValue` writes a book as the body of a recipe, field by field; a field that the book does not
have is left out.  `Book.WellFormed` says which books a recipe can describe: all their texts are texts
that XML allows, and every manifest path names a file.  The identifiers that stand alone in the reading
order are not looked at.
-/
import Bindery.Book
import Bindery.EntryPath
import Bindery.Outline
import Bindery.Value
import Bindery.Xml.Element

namespace Bindery

/-! ## 1. Fields -/

/-- A field with a text. -/
def textField (key text : String) : String × Value := (key, .text text)

/-- A field with a text, if there is one. -/
def optionalField (key : String) (text : Option String) : Value.Fields :=
  (text.map (textField key)).toList

/-- A field with a list, if there is one. -/
def optionalListField {α : Type} (write : α → Value) (key : String) (items : Option (List α)) :
    Value.Fields :=
  (items.map fun items => (key, Value.list (items.map write))).toList

/-! ## 2. Parts of a book -/

/-- Writes a package document of the container. -/
def Rootfile.toValue (rootfile : Rootfile) : Value :=
  .table [textField "path" rootfile.path, textField "media-type" rootfile.mediaType]

/-- Writes a statement about the book. -/
def Metadatum.toValue : Metadatum → Value
  | .custom name content => .table [textField "custom_name" name, textField "content" content]
  | .core statement =>
    .table ([textField "name" statement.element.name, textField "content" statement.content] ++
      optionalField "id" statement.id ++ optionalField "scheme" statement.scheme ++
      optionalField "file-as" statement.fileAs ++ optionalField "role" statement.role ++
      optionalField "event" statement.event ++ optionalField "lang" statement.lang)

/-- Writes an item of the manifest. -/
def ManifestItem.toValue (item : ManifestItem) : Value :=
  .table ([textField "outside_path" item.source, textField "inside_path_from_opf" item.path,
    textField "media-type" item.mediaType, textField "id" item.id] ++
    optionalField "fallback" item.fallback ++ optionalField "fallback-style" item.fallbackStyle ++
    optionalField "required-namespace" item.requiredNamespace ++
    optionalField "required-modules" item.requiredModules)

/-- Writes a file that is packed without being part of the publication. -/
def ExtraFile.toValue (file : ExtraFile) : Value :=
  .table [textField "outside_path" file.source, textField "inside_path" file.path]

/-- Writes an item of the reading order. -/
def SpineItem.toValue : SpineItem → Value
  | .bare idref => .text idref
  | .marked idref linear =>
    .table (textField "idref" idref :: (linear.map fun mark => ("linear", Value.bool mark)).toList)

/-- Writes a reference of the guide. -/
def GuideReference.toValue (reference : GuideReference) : Value :=
  .table ([textField "type" reference.type, textField "idref" reference.idref] ++
    optionalField "title" reference.title ++ optionalField "fragment" reference.fragment)

/-- Writes what a recipe says about the navigation document. -/
def NavigationFile.toValue (file : NavigationFile) : Value :=
  .table (optionalField "manifest_id" file.id ++ optionalField "manifest_path_from_opf" file.path)

/-- Writes a label with its language. -/
def NavLabel.toValue (label : NavLabel) : Value :=
  .table (textField "label" label.text :: optionalField "lang" label.lang)

/-- The field that holds the label of a target. -/
def Label.toField : Label → String × Value
  | .simple text => textField "label" text
  | .several first rest => ("labels", .list ((first :: rest).map NavLabel.toValue))

/-- The fields of a target. -/
def targetFields (label : Label) (idref : String) (fragment : Option String) : Value.Fields :=
  [label.toField, textField "idref" idref] ++ optionalField "fragment" fragment

namespace NavTree

mutual

/-- Writes an entry of the table of contents with the entries below it. -/
def toValue : NavTree → Value
  | .node point children =>
    .table (targetFields point.label point.idref point.fragment ++
      [("children", .list (allToValues children))])

/-- Writes neighbouring entries of the table of contents. -/
def allToValues : List NavTree → List Value
  | [] => []
  | tree :: rest => tree.toValue :: allToValues rest

end

end NavTree

/-- The field that holds the table of contents; an empty one is left out. -/
def contentsField : List NavTree → Value.Fields
  | [] => []
  | tree :: rest => [("navmap", .list (NavTree.allToValues (tree :: rest)))]

/-- Writes a page. -/
def PageTarget.toValue (page : PageTarget) : Value :=
  .table ([textField "id" page.id, textField "type" page.kind.name] ++
    optionalField "value" page.value ++ targetFields page.label page.idref page.fragment)

/-- Writes a target of a list. -/
def NavTarget.toValue (target : NavTarget) : Value :=
  .table (targetFields target.label target.idref target.fragment)

/-- Writes a list of targets. -/
def NavList.toValue (navList : NavList) : Value :=
  .table [navList.label.toField, ("list", .list (navList.targets.map NavTarget.toValue))]

/-! ## 3. The book -/

/-- Writes a book as the body of a recipe. -/
def Book.toValue (book : Book) : Value :=
  .table (("manifest", .list (book.manifest.map ManifestItem.toValue)) ::
    optionalListField Rootfile.toValue "rootfiles" book.rootfiles ++
    optionalListField Metadatum.toValue "metadata" book.metadata ++
    optionalListField SpineItem.toValue "spine" book.spine ++
    optionalListField GuideReference.toValue "guide" book.guide ++
    (book.navigationFile.map fun file => ("ncx_meta", file.toValue)).toList ++
    contentsField book.contents ++
    optionalListField PageTarget.toValue "pagelist" book.pages ++
    optionalListField NavList.toValue "navlists" book.navLists ++
    [("nonmanifest_files", .list (book.extraFiles.map ExtraFile.toValue))])

/-! ## 4. Well-formed books -/

/-- The texts that are given. -/
def given (texts : List (Option String)) : List String :=
  texts.filterMap fun text => text

/-- The texts of an item of the metadata. -/
def Metadatum.texts : Metadatum → List String
  | .custom name content => [name, content]
  | .core statement =>
    statement.content :: given [statement.id, statement.scheme, statement.fileAs, statement.role,
      statement.event, statement.lang]

/-- The texts of a manifest item. -/
def ManifestItem.texts (item : ManifestItem) : List String :=
  [item.source, item.path, item.mediaType, item.id] ++
    given [item.fallback, item.fallbackStyle, item.requiredNamespace, item.requiredModules]

/-- The texts of an item of the reading order that are looked at. -/
def SpineItem.texts : SpineItem → List String
  | .bare _ => []
  | .marked idref _ => [idref]

/-- The texts of a reference of the guide. -/
def GuideReference.texts (reference : GuideReference) : List String :=
  [reference.type, reference.idref] ++ given [reference.title, reference.fragment]

/-- The texts of a label. -/
def Label.texts (label : Label) : List String :=
  label.labels.flatMap fun label => label.text :: label.lang.toList

/-- The texts of a target. -/
def targetTexts (label : Label) (idref : String) (fragment : Option String) : List String :=
  label.texts ++ idref :: fragment.toList

/-- The texts of a page. -/
def PageTarget.texts (page : PageTarget) : List String :=
  page.id :: page.value.toList ++ targetTexts page.label page.idref page.fragment

/-- The texts of a list of targets. -/
def NavList.texts (navList : NavList) : List String :=
  navList.label.texts ++ navList.targets.flatMap fun target =>
    targetTexts target.label target.idref target.fragment

/-- The texts of a table of contents. -/
def NavTree.textsAll (forest : List NavTree) : List String :=
  (NavTree.pointsAll forest).flatMap fun point =>
    targetTexts point.label point.idref point.fragment

/-- The texts of a book that have to be texts which XML allows. -/
def Book.texts (book : Book) : List String :=
  book.manifest.flatMap ManifestItem.texts ++
    (book.rootfiles.getD []).flatMap (fun rootfile => [rootfile.path, rootfile.mediaType]) ++
    (book.metadata.getD []).flatMap Metadatum.texts ++
    (book.spine.getD []).flatMap SpineItem.texts ++
    (book.guide.getD []).flatMap GuideReference.texts ++
    (book.navigationFile.map fun file => given [file.id, file.path]).getD [] ++
    NavTree.textsAll book.contents ++
    (book.pages.getD []).flatMap PageTarget.texts ++
    (book.navLists.getD []).flatMap NavList.texts ++
    book.extraFiles.flatMap fun file => [file.source, file.path]

/-- A book that a recipe can describe. -/
structure Book.WellFormed (book : Book) : Prop where
  texts_legal : ∀ text ∈ book.texts, Xml.isLegalText text = true
  paths_name_files : ∀ item ∈ book.manifest, EntryPath.normalize item.path ≠ ""

end Bindery
