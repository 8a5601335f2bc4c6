/-
# The navigation document written by position

The navigation document can be written from the table of its table of contents, with no tree in between:
the entry at a position is numbered and written, and inside it the entries at the positions of its children.
A table that does not have a position, or in which positions lead around in a circle, gives no document.
-/
import Bindery.Document.Navigation
import Bindery.Outline.Levels

namespace Bindery.Document.Navigation

open Xml

/-! ## 1. Steps -/

/-- A step that may count and may stop, and that may miss a position. -/
abbrev Walking := StateT Numbering (ExceptT Fault Option)

namespace Walking

variable {α : Type}

/-- A step that needs no position. -/
def ofCounting (step : Counting α) : Walking α := fun numbering => ExceptT.mk (some (step numbering))

/-- What is at a position, or else nothing more. -/
def ofFound (found : Option α) : Walking α := fun numbering =>
  ExceptT.mk (found.map fun a => .ok (a, numbering))

end Walking

/-! ## 2. The elements -/

/-- Writes the entry at a position, and below it at most `levels` levels of entries less one.  An entry is
numbered before those below it. -/
def elementAt (layout : Layout) (entries : List OutlineEntry) :
    (levels position : Nat) → Walking Element
  | 0, _ => .ofFound none
  | levels + 1, position => do
    let entry ← .ofFound entries[position]?
    let made ← .ofCounting (target (newId "navPoint") entry.point.label
      (linkTo layout entry.point.idref entry.point.fragment .contents))
    let below ← entry.children.mapM (elementAt layout entries levels)
    return .branch "navPoint" [⟨"id", made.id⟩, orderAttribute made] (targetChildren made ++ below)

/-- Writes the entries at the roots of a table. -/
def elementsOf (layout : Layout) (outline : Outline) : Walking (List Element) :=
  outline.roots.mapM (elementAt layout outline.entries outline.entries.length)

/-! ## 3. The document -/

/-- What the document holds behind its title: the table of contents, the pages, the lists. -/
def bodyOf (layout : Layout) (book : Book) (outline : Outline) : Walking (List Element) := do
  let contents ← elementsOf layout outline
  let pages ← .ofCounting (book.pages.mapM (·.mapM (numberPage layout)))
  let lists ← .ofCounting ((book.navLists.getD []).mapM (numberList layout))
  return .branch "navMap" [] contents :: (pageListElement pages ++ lists.map listElement)

/-- The root of the navigation document for a table of contents. -/
def elementOf (layout : Layout) (book : Book) (metadata : Metadata) (outline : Outline) :
    ExceptT Fault Option Element := do
  let visits := outline.entries.length
  let levels ← Outline.LevelCount.run outline.entries visits (.start outline)
  let pages := book.pages.getD []
  let maxPage ← maxPageNumber pages
  let head := headElement metadata.identifier levels.deepest pages.length maxPage
  if !head.isLegal then throw .illegalText
  let body ← (bodyOf layout book outline).run' (.beside (pages.map (·.id)))
  return .branch "ncx" [⟨"xmlns", xmlNamespace⟩, ⟨"version", "2005-1"⟩]
    ([head, .branch "docTitle" [] [.leaf "text" [] metadata.title]] ++ body)

end Bindery.Document.Navigation
