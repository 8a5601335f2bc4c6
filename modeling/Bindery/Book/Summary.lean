/-
# How much a book holds

The five counts that sum up a book.
-/
import Bindery.Outline

namespace Bindery

/-- The counts of a book. -/
structure Book.Summary where
  manifestItems : Nat
  extraFiles : Nat
  spineItems : Nat
  navPoints : Nat
  pages : Nat
  deriving DecidableEq, Repr

/-- The counts of a book; a list that is left out counts as empty. -/
def Book.summary (book : Book) : Book.Summary where
  manifestItems := book.manifest.length
  extraFiles := book.extraFiles.length
  spineItems := (book.spine.getD []).length
  navPoints := NavTree.sizeAll book.contents
  pages := (book.pages.getD []).length

end Bindery
