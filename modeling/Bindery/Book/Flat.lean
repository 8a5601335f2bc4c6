/-
# Flat books

A recipe nests the entries of the table of contents.  A flat book lists them in one table instead, in
which an entry names its children by their positions; a book without a table of contents has no table.
`FlatBook.WellFormed` says which flat books a recipe can describe: besides what is asked of every book,
the table has entries, and it lists them in the order in which a walk through the tree meets them.
-/
import Bindery.Book.Reading
import Bindery.Book.Writing

namespace Bindery

/-! ## 1. Tables in pre-order -/

/-- The trees at some positions fill the entries from `start` up to `stop`: the first tree begins with
the entry at `start`, the trees of its children follow at once, and then come the other trees. -/
inductive Outline.Fill (entries : List OutlineEntry) : List Nat → Nat → Nat → Prop where
  | nil (start : Nat) : Fill entries [] start start
  | cons {start middle stop : Nat} {entry : OutlineEntry} {rest : List Nat} :
      entries[start]? = some entry → Fill entries entry.children (start + 1) middle →
        Fill entries rest middle stop → Fill entries (start :: rest) start stop

/-- The trees of a table fill all its entries: each entry comes before those below it, and these before
its next neighbour. -/
def Outline.InPreorder (outline : Outline) : Prop :=
  Outline.Fill outline.entries outline.roots 0 outline.entries.length

/-- The texts of a table. -/
def Outline.texts (outline : Outline) : List String :=
  outline.entries.flatMap fun entry =>
    targetTexts entry.point.label entry.point.idref entry.point.fragment

/-! ## 2. Flat books -/

/-- A book with its table of contents as a table. -/
structure FlatBook where
  /-- The book but for its table of contents. -/
  parts : Book
  outline : Option Outline
  no_contents : parts.contents = []

/-- A table of contents as a table; an empty one is none. -/
def outlineOf : List NavTree → Option Outline
  | [] => none
  | tree :: rest => some (Outline.ofForest (tree :: rest))

/-- The flat form of a book. -/
def Book.flat (book : Book) : FlatBook where
  parts := { book with contents := [] }
  outline := outlineOf book.contents
  no_contents := rfl

namespace FlatBook

/-- Reads the body of a recipe as a flat book. -/
def ofValue (body : Value) : Except Fault FlatBook :=
  (Book.ofValue body).map Book.flat

/-- The table of contents that a flat book nests in the body of its recipe. -/
def contents? (flat : FlatBook) : Option (List NavTree) :=
  match flat.outline with
  | none => some []
  | some outline => outline.forest?

/-- Writes a flat book as the body of a recipe; nothing if its table is no table of a tree. -/
def toValue? (flat : FlatBook) : Option Value :=
  flat.contents?.map fun contents => { flat.parts with contents }.toValue

/-- A flat book that a recipe can describe.  That an element of the metadata is one of the fifteen, a kind
of pages one of the three, and a list of labels not empty, is in the types of its parts. -/
structure WellFormed (flat : FlatBook) : Prop where
  parts : flat.parts.WellFormed
  nonempty : ∀ outline ∈ flat.outline, outline.entries ≠ []
  preorder : ∀ outline ∈ flat.outline, outline.InPreorder
  outline_legal : ∀ outline ∈ flat.outline, ∀ text ∈ outline.texts, Xml.isLegalText text = true

end FlatBook
end Bindery
