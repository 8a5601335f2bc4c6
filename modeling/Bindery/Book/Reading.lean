/-
# Books from recipes

`Book.ofValue` reads the body of a recipe into a book, or says what is wrong with it first.  All lists
are looked at before the items of any of them, and the items of the manifest before the others.
-/
import Bindery.Book
import Bindery.Book.Field
import Bindery.EntryPath
import Bindery.Text.Digits

namespace Bindery

open Value

/-! ## 1. Container, metadata and files -/

/-- Reads a package document of the container. -/
def Rootfile.read (place : Place) (fields : Fields) : Except Fault Rootfile := do
  let path ← fields.requiredText place "path"
  let mediaType ← fields.requiredText place "media-type"
  return { path, mediaType }

/-- Reads a statement about the book; `custom_name` makes it one of the author's own. -/
def Metadatum.read (place : Place) (fields : Fields) : Except Fault Metadatum := do
  if (fields.get? "custom_name").isSome then
    let name ← fields.requiredText place "custom_name"
    let content ← fields.requiredText place "content"
    return .custom name content
  let name ← fields.requiredText place "name"
  match DublinCore.ofName? name with
  | none => throw (.unknownElement name place)
  | some element =>
    let content ← fields.requiredText place "content"
    let id ← fields.optionalText place "id"
    let scheme ← fields.optionalText place "scheme"
    let fileAs ← fields.optionalText place "file-as"
    let role ← fields.optionalText place "role"
    let event ← fields.optionalText place "event"
    let lang ← fields.optionalText place "lang"
    return .core { element, content, id, scheme, fileAs, role, event, lang }

/-- Reads an item of the manifest. -/
def ManifestItem.read (place : Place) (fields : Fields) : Except Fault ManifestItem := do
  let path ← fields.requiredText place "inside_path_from_opf"
  if EntryPath.normalize path = "" then
    refuse (.namesNoFile (.field place "inside_path_from_opf") path)
  let source ← fields.requiredText place "outside_path"
  let mediaType ← fields.requiredText place "media-type"
  let id ← fields.requiredText place "id"
  let fallback ← fields.optionalText place "fallback"
  let fallbackStyle ← fields.optionalText place "fallback-style"
  let requiredNamespace ← fields.optionalText place "required-namespace"
  let requiredModules ← fields.optionalText place "required-modules"
  return { source, path, mediaType, id, fallback, fallbackStyle, requiredNamespace,
           requiredModules }

/-- Reads a file that is packed without being part of the publication. -/
def ExtraFile.read (place : Place) (fields : Fields) : Except Fault ExtraFile := do
  let source ← fields.requiredText place "outside_path"
  let path ← fields.requiredText place "inside_path"
  return { source, path }

/-! ## 2. Reading order and guide -/

/-- Reads an item of the reading order; a text alone is taken as it stands. -/
def SpineItem.read (place : Place) : Value → Except Fault SpineItem
  | .text idref => .ok (.bare idref)
  | value => do
    let fields ← value.asTable place
    let idref ← fields.requiredText place "idref"
    let linear ← fields.optionalBool place "linear"
    return .marked idref linear

/-- Reads a reference of the guide. -/
def GuideReference.read (place : Place) (fields : Fields) : Except Fault GuideReference := do
  let type ← fields.requiredText place "type"
  let idref ← fields.requiredText place "idref"
  let title ← fields.optionalText place "title"
  let fragment ← fields.optionalText place "fragment"
  return { type, idref, title, fragment }

/-! ## 3. Labels -/

/-- Reads a label with its language. -/
def NavLabel.read (place : Place) (value : Value) : Except Fault NavLabel := do
  let fields ← value.asTable place
  let text ← fields.requiredText place "label"
  let lang ← fields.optionalText place "lang"
  return { text, lang }

/-- Reads the label of a target, from its field `label` or its field `labels`. -/
def Label.read (place : Place) (fields : Fields) : Except Fault Label :=
  match fields.get? "label", fields.get? "labels" with
  | some _, some _ => refuse (.twoLabelFields place)
  | some _, none => (fields.requiredText place "label").map .simple
  | none, some value => do
    match ← readItems NavLabel.read (.field place "labels")
        (← value.asList (.field place "labels")) with
    | [] => refuse (.noLabels (.field place "labels"))
    | first :: rest => return .several first rest
  | none, none => refuse (.noLabelField place)

/-! ## 4. Table of contents -/

/-- Reads the target of an entry. -/
def NavPoint.read (place : Place) (fields : Fields) : Except Fault NavPoint := do
  let label ← Label.read place fields
  let idref ← fields.requiredText place "idref"
  let fragment ← fields.optionalText place "fragment"
  return { label, idref, fragment }

namespace NavTree

mutual

/-- Reads an entry of the table of contents: first the entries below it, then its own target. -/
def read (place : Place) : Value → Except Fault NavTree
  | .table fields => do
    let children ← readChildren place fields
    let point ← NavPoint.read place fields
    return .node point children
  | other => refuse (.notTable place other.kind)

/-- Reads the entries in the field `children` of a table. -/
def readChildren (place : Place) : List (String × Value) → Except Fault (List NavTree)
  | [] => .ok []
  | (key, value) :: rest =>
    if key = "children" then readBelow place value else readChildren place rest

/-- Reads the entries below an entry. -/
def readBelow (place : Place) : Value → Except Fault (List NavTree)
  | .null => .ok []
  | .list items => readForest (.field place "children") 0 items
  | other => refuse (.notList (.field place "children") other.kind)

/-- Reads neighbouring entries, the first of which stands at position `index`. -/
def readForest (place : Place) (index : Nat) : List Value → Except Fault (List NavTree)
  | [] => .ok []
  | value :: rest => do
    let tree ← read (.item place index) value
    let trees ← readForest place (index + 1) rest
    return tree :: trees

end

end NavTree

/-! ## 5. Pages and lists -/

/-- The text of a whole number, unless it has too many digits. -/
def numeral (n : Int) : Except Fault String :=
  if Text.maxNumeralLength < (Nat.toDigits 10 n.natAbs).length then .error .numeralTooLong
  else .ok (toString n)

/-- Reads the number of a page: a text, or a whole number, which is taken as its numeral. -/
def PageTarget.readValue (place : Place) (fields : Fields) : Except Fault (Option String) :=
  match fields.present? "value" with
  | none => .ok none
  | some (.int n) => (numeral n).map some
  | some (.text s) => ((Value.text s).asText (.field place "value")).map some
  | some _ => refuse (.pageValue (.field place "value"))

/-- Reads a page. -/
def PageTarget.read (place : Place) (fields : Fields) : Except Fault PageTarget := do
  let kindName ← fields.requiredText place "type"
  match PageKind.ofName? kindName with
  | none => refuse (.unknownPageKind (.field place "type") kindName)
  | some kind =>
    let value ← PageTarget.readValue place fields
    let label ← Label.read place fields
    let id ← fields.requiredText place "id"
    let idref ← fields.requiredText place "idref"
    let fragment ← fields.optionalText place "fragment"
    return { label, id, kind, idref, value, fragment }

/-- Reads a target of a list. -/
def NavTarget.read (place : Place) (value : Value) : Except Fault NavTarget := do
  let fields ← value.asTable place
  let label ← Label.read place fields
  let idref ← fields.requiredText place "idref"
  let fragment ← fields.optionalText place "fragment"
  return { label, idref, fragment }

/-- Reads a list of targets: first the targets, then the label of the list. -/
def NavList.read (place : Place) (fields : Fields) : Except Fault NavList := do
  match fields.get? "list" with
  | none => refuse (.missing place "list")
  | some value =>
    let items ← value.asList (.field place "list")
    let targets ← readItems NavTarget.read (.field place "list") items
    let label ← Label.read place fields
    return { label, targets }

/-! ## 6. The book -/

/-- Reads what a recipe says about the navigation document. -/
def NavigationFile.read (value : Value) : Except Fault NavigationFile := do
  let place := Place.top "ncx_meta"
  let fields ← value.asTable place
  let id ← fields.optionalText place "manifest_id"
  let path ← fields.optionalText place "manifest_path_from_opf"
  return { id, path }

/-- Reads the items of a list that may be left out. -/
def readOptional {α β : Type} (read : Place → α → Except Fault β) (key : String) :
    Option (List α) → Except Fault (Option (List β))
  | none => .ok none
  | some items => (readItems read (.top key) items).map some

/-- Reads the body of a recipe. -/
def Book.ofValue (body : Value) : Except Fault Book := do
  let fields ← body.asTable (.top "recipe")
  if (fields.get? "manifest").isNone then
    refuse (.missing (.top "recipe") "manifest")
  let rootfileTables ← fields.optionalTables "rootfiles"
  let metadataTables ← fields.optionalTables "metadata"
  let guideTables ← fields.optionalTables "guide"
  let pageTables ← fields.optionalTables "pagelist"
  let navListTables ← fields.optionalTables "navlists"
  let extraTables ← fields.optionalTables "nonmanifest_files"
  let spineItems ← fields.optionalList "spine"
  let contentsItems ← fields.optionalList "navmap"
  let navigationFile ← (fields.present? "ncx_meta").mapM NavigationFile.read
  let manifestTables ← fields.optionalTables "manifest"
  let manifest ← readItems ManifestItem.read (.top "manifest") (manifestTables.getD [])
  let rootfiles ← readOptional Rootfile.read "rootfiles" rootfileTables
  let metadata ← readOptional Metadatum.read "metadata" metadataTables
  let spine ← readOptional SpineItem.read "spine" spineItems
  let guide ← readOptional GuideReference.read "guide" guideTables
  let contents ← NavTree.readForest (.top "navmap") 0 (contentsItems.getD [])
  let pages ← readOptional PageTarget.read "pagelist" pageTables
  let navLists ← readOptional NavList.read "navlists" navListTables
  let extraFiles ← readItems ExtraFile.read (.top "nonmanifest_files") (extraTables.getD [])
  return { manifest, rootfiles, metadata, spine, guide, navigationFile, contents, pages, navLists,
           extraFiles }

end Bindery
