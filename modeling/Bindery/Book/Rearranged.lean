/-
# Books and recipes in another order

A recipe lists the items of its manifest, the files packed beside them, its metadata, its reading order,
the references of its guide, its pages and its other lists of targets.  A book is rearranged when each of
these lists holds the same items in any other order; the container, the navigation file and the table
of contents stay.  A recipe is rearranged when the lists in these fields are.
-/
import Bindery.Book
import Bindery.Value

namespace Bindery

/-- A book with the items of its lists in another order. -/
structure Book.Rearranged (book other : Book) : Prop where
  manifest : book.manifest.Perm other.manifest
  extraFiles : book.extraFiles.Perm other.extraFiles
  metadata : Option.Rel List.Perm book.metadata other.metadata
  spine : Option.Rel List.Perm book.spine other.spine
  guide : Option.Rel List.Perm book.guide other.guide
  pages : Option.Rel List.Perm book.pages other.pages
  navLists : Option.Rel List.Perm book.navLists other.navLists
  rootfiles : book.rootfiles = other.rootfiles
  navigationFile : book.navigationFile = other.navigationFile
  contents : book.contents = other.contents

/-- The fields of a recipe with a list that may be rearranged. -/
def Book.listFields : List String :=
  ["manifest", "nonmanifest_files", "metadata", "spine", "guide", "pagelist", "navlists"]

/-- Two lists with the same items. -/
inductive Value.SameItems : Value → Value → Prop where
  | list {items others : List Value} (h : items.Perm others) : SameItems (.list items) (.list others)

/-- The body of a recipe with the items of its lists in another order. -/
inductive Value.Rearranged : Value → Value → Prop where
  | table {fields others : Value.Fields}
      (h : ∀ key, fields.get? key = others.get? key ∨ key ∈ Book.listFields ∧
        Option.Rel SameItems (fields.get? key) (others.get? key)) :
      Rearranged (.table fields) (.table others)

end Bindery
