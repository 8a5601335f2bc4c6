/-
# Validation

What is checked of a whole book before anything is read or written: the paths of the archive, the
identifiers of both documents, every reference, and that there is a reading order.
-/
import Bindery.Layout
import Bindery.Outline
import Bindery.Spine

namespace Bindery.Validation

/-- Refuses paths of which one may not name an entry or two clash. -/
def checkPaths (paths : List String) : Except Fault Unit := do
  paths.forM fun path => (EntryPath.check path).mapError .path
  (Collision.checkPaths paths).mapError .collision

/-- The references of a book to manifest items, each with the one who refers. -/
def references (book : Book) : List (String × Referrer) :=
  (book.spine.getD []).map (fun item => (item.idref, .spine)) ++
    (book.guide.getD []).map (fun reference => (reference.idref, .guide)) ++
    (NavTree.pointsAll book.contents).map (fun point => (point.idref, .contents)) ++
    (book.pages.getD []).map (fun page => (page.idref, .page page.id)) ++
    (book.navLists.getD []).flatMap fun navList =>
      navList.targets.map fun target => (target.idref, .navLists)

/-- Refuses a book with a reference to no item, or with an item whose chain of fallbacks goes
astray. -/
def checkReferences (layout : Layout) (book : Book) : Except Fault Unit := do
  (references book).forM fun (idref, referrer) => discard (layout.itemPath idref referrer)
  book.manifest.forM fun item => discard (Spine.eligible book item)

/-- Refuses identifiers of which two clash. -/
def checkIdentifiers (owner : String) (identifiers : List String) : Except Fault Unit :=
  (Collision.checkIdentifiers owner identifiers).mapError .collision

/-- Refuses a book that cannot be built. -/
def validate (layout : Layout) (book : Book) : Except Fault Unit := do
  checkPaths ((layout.copied book).map (·.2) ++ layout.generated)
  checkIdentifiers "OPF" (layout.identifiers book)
  checkIdentifiers "NCX page list" ((book.pages.getD []).map (·.id))
  checkReferences layout book
  discard (Spine.firstEligible book)
  discard (Spine.firstLinear book)

end Bindery.Validation
