/-
# The navigation document

It carries the table of contents, the page list and the other lists.  First every target gets its
link, its identifier and its place in the play order, in the order of the document (`Targets.of`); then
the targets are written.  A book without a table of contents gets one entry, its title at the first
linear document.  Here the table of contents is a forest; `elementOf` writes the same document from its
table, position by position.
-/
import Bindery.Layout
import Bindery.Metadata
import Bindery.Numbering
import Bindery.Outline
import Bindery.Text.Digits
import Bindery.Xml.Element

namespace Bindery.Document.Navigation

open Xml

/-! ## 1. Targets with their numbers -/

/-- A target with all that its element shows. -/
structure Target where
  id : String
  order : Nat
  labels : List NavLabel
  link : String
  deriving DecidableEq, Repr

/-- An entry of the table of contents with the entries below it. -/
inductive Entry where
  | node (target : Target) (children : List Entry)
  deriving Repr

/-- A page with what only pages have. -/
structure Page where
  target : Target
  kind : PageKind
  value : Option String
  deriving DecidableEq, Repr

/-- A list of targets under its labels. -/
structure TargetList where
  labels : List NavLabel
  targets : List Target
  deriving DecidableEq, Repr

/-- All targets of the document. -/
structure Targets where
  contents : List Entry
  pages : Option (List Page)
  lists : List TargetList
  deriving Repr

/-- A step that may count and may stop. -/
abbrev Counting := StateT Numbering (Except Fault)

/-- Gives a link its place in the play order and makes the target; `id` names the target. -/
def target (id : Counting String) (label : Label) (link : Except Fault String) :
    Counting Target := do
  let link ← link
  let id ← id
  let order ← modifyGet (Numbering.playNumber link)
  return { id, order, labels := label.labels, link }

/-- An identifier of the document's own making. -/
def newId (stem : String) : Counting String :=
  modifyGet (Numbering.nextId stem)

/-- The link from the navigation document to a fragment of an item. -/
def linkTo (layout : Layout) (idref : String) (fragment : Option String) (referrer : Referrer) :
    Except Fault String :=
  layout.itemLink layout.navigationPath idref fragment referrer

mutual

/-- Numbers a tree, each entry before those below it. -/
def numberTree (layout : Layout) : NavTree → Counting Entry
  | .node point children => do
    let entry ← target (newId "navPoint") point.label
      (linkTo layout point.idref point.fragment .contents)
    let below ← numberForest layout children
    return .node entry below

/-- Numbers neighbouring trees. -/
def numberForest (layout : Layout) : List NavTree → Counting (List Entry)
  | [] => return []
  | tree :: rest => do
    let entry ← numberTree layout tree
    let entries ← numberForest layout rest
    return entry :: entries

end

/-- Numbers a page, which has an identifier of its own. -/
def numberPage (layout : Layout) (page : PageTarget) : Counting Page := do
  let target ← target (pure page.id) page.label
    (linkTo layout page.idref page.fragment (.page page.id))
  return { target, kind := page.kind, value := page.value }

/-- Numbers the targets of a list. -/
def numberList (layout : Layout) (navList : NavList) : Counting TargetList := do
  let targets ← navList.targets.mapM fun item =>
    target (newId "navTarget") item.label
      (linkTo layout item.idref item.fragment .navLists)
  return { labels := navList.label.labels, targets }

/-- Numbers all targets: the table of contents, the pages, the lists. -/
def Targets.count (layout : Layout) (book : Book) (contents : List NavTree) : Counting Targets := do
  let contents ← numberForest layout contents
  let pages ← book.pages.mapM (·.mapM (numberPage layout))
  let lists ← (book.navLists.getD []).mapM (numberList layout)
  return { contents, pages, lists }

/-- All targets of the document, numbered. -/
def Targets.of (layout : Layout) (book : Book) (contents : List NavTree) : Except Fault Targets :=
  (Targets.count layout book contents).run' (.beside ((book.pages.getD []).map (·.id)))

/-! ## 2. The elements -/

/-- The namespace of the navigation document. -/
def xmlNamespace : String := "http://www.daisy.org/z3986/2005/ncx/"

/-- A label. -/
def labelElement (label : NavLabel) : Element :=
  .branch "navLabel" ((label.lang.map (Attribute.mk "xml:lang")).toList)
    [.leaf "text" [] label.text]

/-- What every target holds: its labels and its link. -/
def targetChildren (target : Target) : List Element :=
  target.labels.map labelElement ++ [.branch "content" [⟨"src", target.link⟩] []]

/-- The place of a target in the play order. -/
def orderAttribute (target : Target) : Attribute :=
  ⟨"playOrder", toString target.order⟩

mutual

/-- An entry of the table of contents. -/
def entryElement : Entry → Element
  | .node target children =>
    .branch "navPoint" [⟨"id", target.id⟩, orderAttribute target]
      (targetChildren target ++ entryElements children)

/-- Neighbouring entries of the table of contents. -/
def entryElements : List Entry → List Element
  | [] => []
  | entry :: rest => entryElement entry :: entryElements rest

end

/-- A page. -/
def pageElement (page : Page) : Element :=
  .branch "pageTarget"
    ([⟨"id", page.target.id⟩, ⟨"type", page.kind.name⟩] ++
      (page.value.map (Attribute.mk "value")).toList ++ [orderAttribute page.target])
    (targetChildren page.target)

/-- A target of a list. -/
def listTargetElement (target : Target) : Element :=
  .branch "navTarget" [⟨"id", target.id⟩, orderAttribute target] (targetChildren target)

/-- A list of targets. -/
def listElement (targetList : TargetList) : Element :=
  .branch "navList" []
    (targetList.labels.map labelElement ++ targetList.targets.map listTargetElement)

/-- The page list, if the recipe has one. -/
def pageListElement (pages : Option (List Page)) : List Element :=
  (pages.map fun pages => .branch "pageList" [] (pages.map pageElement)).toList

/-! ## 3. The head -/

/-- The number that a page's value denotes; nothing for a value that is not a numeral. -/
def pageNumber? (page : PageTarget) : Except Fault (Option Nat) :=
  match page.value.bind Text.numeralDigits? with
  | none => .ok none
  | some digits =>
    if Text.maxNumeralLength < digits.length then .error .numeralTooLong
    else .ok (some (Text.numberOfDigits digits))

/-- The greatest page number, or zero if no page has one. -/
def maxPageNumber (pages : List PageTarget) : Except Fault Nat := do
  return ((← pages.mapM pageNumber?).filterMap id).foldl max 0

/-- A fact about the document. -/
def metaElement (name content : String) : Element :=
  .branch "meta" [⟨"name", name⟩, ⟨"content", content⟩] []

/-- The facts about the document. -/
def headElement (identifier : String) (depth pageCount maxPage : Nat) : Element :=
  .branch "head" []
    [metaElement "dtb:uid" identifier, metaElement "dtb:depth" (toString depth),
     metaElement "dtb:totalPageCount" (toString pageCount),
     metaElement "dtb:maxPageNumber" (toString maxPage)]

/-! ## 4. The document -/

/-- The table of contents to write; `firstLinear` is where the reading order starts. -/
def contentsOf (book : Book) (title firstLinear : String) : List NavTree :=
  match book.contents with
  | [] => [.node { label := .simple title, idref := firstLinear } []]
  | forest => forest

/-- The root of the navigation document. -/
def element (layout : Layout) (book : Book) (metadata : Metadata) (firstLinear : String) :
    Except Fault Element := do
  let contents := contentsOf book metadata.title firstLinear
  let pages := book.pages.getD []
  let maxPage ← maxPageNumber pages
  let head := headElement metadata.identifier (NavTree.depthAll contents) pages.length maxPage
  if !head.isLegal then throw .illegalText
  let targets ← Targets.of layout book contents
  return .branch "ncx" [⟨"xmlns", xmlNamespace⟩, ⟨"version", "2005-1"⟩]
    ([head, .branch "docTitle" [] [.leaf "text" [] metadata.title],
      .branch "navMap" [] (entryElements targets.contents)] ++
      pageListElement targets.pages ++ targets.lists.map listElement)

/-- The text of the navigation document. -/
def text (layout : Layout) (book : Book) (metadata : Metadata) (firstLinear : String) :
    Except Fault String :=
  (element layout book metadata firstLinear).map Element.document

end Bindery.Document.Navigation
