/-
# The package document

It carries the metadata, the manifest, the reading order and the guide.  A Dublin Core element takes
only some attributes; one that a recipe gives and the element does not take is left out with a
warning.
-/
import Bindery.Layout
import Bindery.Metadata
import Bindery.Spine
import Bindery.Xml.Element

namespace Bindery

/-- A warning: attributes that were left out because an element does not take them. -/
structure Warning where
  element : DublinCore
  ignored : List String
  deriving DecidableEq, Repr

/-- The text of a warning. -/
def Warning.message (warning : Warning) : String :=
  "Ignoring " ++ ", ".intercalate warning.ignored ++ " on dc:" ++ warning.element.name ++
    "; not applicable to this element."

namespace Document.Package

open Xml

/-! ## 1. Metadata -/

/-- The namespace of the package document. -/
def xmlNamespace : String := "http://www.idpf.org/2007/opf"

/-- The namespace of Dublin Core. -/
def coreNamespace : String := "http://purl.org/dc/elements/1.1/"

/-- Whether an element names a person or body. -/
def namesAgent (element : DublinCore) : Bool :=
  [.creator, .contributor].contains element

/-- Whether an element may say in which language it is. -/
def hasLanguage (element : DublinCore) : Bool :=
  [.title, .creator, .subject, .description, .publisher, .contributor, .source, .relation,
    .coverage, .rights].contains element

/-- An attribute of a statement: its key in a recipe, its name in the document, its value, and
whether the element takes it. -/
structure Qualifier where
  key : String
  name : String
  value : Option String
  applies : Bool

/-- The attributes of a statement besides its id, in the order in which they are written. -/
def qualifiers (statement : Statement) : List Qualifier :=
  [⟨"scheme", "opf:scheme", statement.scheme, statement.element == .identifier⟩,
   ⟨"file-as", "opf:file-as", statement.fileAs, namesAgent statement.element⟩,
   ⟨"role", "opf:role", statement.role, namesAgent statement.element⟩,
   ⟨"event", "opf:event", statement.event, statement.element == .date⟩,
   ⟨"lang", "xml:lang", statement.lang, hasLanguage statement.element⟩]

/-- The attribute that a qualifier gives, if it has a value and the element takes it. -/
def Qualifier.attribute? (qualifier : Qualifier) : Option Attribute :=
  if qualifier.applies then qualifier.value.map (⟨qualifier.name, ·⟩) else none

/-- The key of a qualifier that has a value which the element does not take. -/
def Qualifier.ignored? (qualifier : Qualifier) : Option String :=
  if qualifier.applies then none else qualifier.value.map fun _ => qualifier.key

/-- The id of a statement as an attribute; an empty id is left out. -/
def idAttribute (id : Option String) : List Attribute :=
  ((id.filter (· ≠ "")).map (Attribute.mk "id")).toList

/-- The element of an item of the metadata. -/
def metadatumElement : Metadatum → Element
  | .custom name content => .branch "opf:meta" [⟨"name", name⟩, ⟨"content", content⟩] []
  | .core statement =>
    .leaf ("dc:" ++ statement.element.name)
      (idAttribute statement.id ++ (qualifiers statement).filterMap Qualifier.attribute?)
      statement.content

/-- The warning that an item of the metadata gives cause to. -/
def warning? : Metadatum → Option Warning
  | .custom _ _ => none
  | .core statement =>
    match (qualifiers statement).filterMap Qualifier.ignored? with
    | [] => none
    | ignored => some ⟨statement.element, ignored⟩

/-- The warnings of the metadata, in the order of its items. -/
def warnings (metadata : Metadata) : List Warning :=
  metadata.items.filterMap warning?

/-- The metadata of the package. -/
def metadataElement (metadata : Metadata) : Element :=
  .branch "opf:metadata" [⟨"xmlns:dc", coreNamespace⟩, ⟨"xmlns:opf", xmlNamespace⟩]
    (metadata.items.map metadatumElement)

/-! ## 2. Manifest, reading order and guide -/

/-- An attribute that is left out when it has no value. -/
def optionalAttribute (name : String) (value : Option String) : List Attribute :=
  (value.map (Attribute.mk name)).toList

/-- The navigation document as an item of the manifest. -/
def navigationItem (layout : Layout) : Except Fault Element := do
  let href ← Layout.link layout.packagePath layout.navigationPath
  return .branch "item"
    [⟨"id", layout.navigationId⟩, ⟨"href", href⟩, ⟨"media-type", navigationMediaType⟩] []

/-- An item of the manifest. -/
def itemElement (layout : Layout) (item : ManifestItem) : Except Fault Element := do
  let href ← Layout.link layout.packagePath (← layout.itemPath item.id .manifest)
  return .branch "item"
    ([⟨"id", item.id⟩, ⟨"href", href⟩, ⟨"media-type", item.mediaType⟩] ++
      optionalAttribute "fallback" item.fallback ++
      optionalAttribute "fallback-style" item.fallbackStyle ++
      optionalAttribute "required-namespace" item.requiredNamespace ++
      optionalAttribute "required-modules" item.requiredModules) []

/-- The manifest: the navigation document and all items. -/
def manifestElement (layout : Layout) (book : Book) : Except Fault Element := do
  let navigation ← navigationItem layout
  let items ← book.manifest.mapM (itemElement layout)
  return .branch "manifest" [] (navigation :: items)

/-- An item of the reading order. -/
def itemrefElement (layout : Layout) (entry : Spine.Entry) : Except Fault Element := do
  let _ ← layout.itemPath entry.idref .spine
  return .branch "itemref"
    (⟨"idref", entry.idref⟩ :: if entry.linear = some false then [⟨"linear", "no"⟩] else []) []

/-- The reading order. -/
def spineElement (layout : Layout) (book : Book) : Except Fault Element := do
  let itemrefs ← (← Spine.entries book).mapM (itemrefElement layout)
  return .branch "spine" [⟨"toc", layout.navigationId⟩] itemrefs

/-- A reference of the guide. -/
def referenceElement (layout : Layout) (reference : GuideReference) : Except Fault Element := do
  let href ← layout.itemLink layout.packagePath reference.idref reference.fragment .guide
  return .branch "reference"
    (⟨"type", reference.type⟩ :: optionalAttribute "title" reference.title ++ [⟨"href", href⟩]) []

/-- The guide, if the recipe has one. -/
def guideElement (layout : Layout) (book : Book) : Except Fault (List Element) :=
  match book.guide with
  | none => .ok []
  | some references => do
    return [.branch "guide" [] (← references.mapM (referenceElement layout))]

/-! ## 3. The document -/

/-- The root of the package document. -/
def element (layout : Layout) (book : Book) (metadata : Metadata) : Except Fault Element := do
  let head := metadataElement metadata
  if !isLegalText metadata.uniqueId || !head.isLegal then throw .illegalText
  let manifest ← manifestElement layout book
  let spine ← spineElement layout book
  let guide ← guideElement layout book
  return .branch "package"
    [⟨"xmlns", xmlNamespace⟩, ⟨"version", "2.0"⟩, ⟨"unique-identifier", metadata.uniqueId⟩]
    (head :: manifest :: spine :: guide)

/-- The text of the package document. -/
def text (layout : Layout) (book : Book) (metadata : Metadata) : Except Fault String :=
  (element layout book metadata).map Element.document

end Document.Package
end Bindery
