/-
# The table of contents as a tree and as a table

A table of contents is a forest of entries.  `Outline.ofForest` lists its entries in one array, each
before the entries below it, and names the children of an entry by their positions in that array;
`Outline.forest?` builds the forest back.
-/
import Bindery.Book

namespace Bindery

/-! ## 1. The forest -/

namespace NavTree

/-- The target of an entry. -/
def point : NavTree → NavPoint
  | node point _ => point

/-- The entries directly below an entry. -/
def children : NavTree → List NavTree
  | node _ children => children

mutual

/-- The number of entries in a tree. -/
def size : NavTree → Nat
  | node _ children => sizeAll children + 1

/-- The number of entries in a forest. -/
def sizeAll : List NavTree → Nat
  | [] => 0
  | tree :: rest => tree.size + sizeAll rest

end

mutual

/-- The number of levels in a tree. -/
def depth : NavTree → Nat
  | node _ children => depthAll children + 1

/-- The number of levels in a forest. -/
def depthAll : List NavTree → Nat
  | [] => 0
  | tree :: rest => max tree.depth (depthAll rest)

end

mutual

/-- The targets of a tree, each before those below it. -/
def points : NavTree → List NavPoint
  | node point children => point :: pointsAll children

/-- The targets of a forest, each before those below it. -/
def pointsAll : List NavTree → List NavPoint
  | [] => []
  | tree :: rest => tree.points ++ pointsAll rest

end

end NavTree

/-! ## 2. The table -/

/-- An entry whose children are named by position. -/
structure OutlineEntry where
  point : NavPoint
  children : List Nat
  deriving DecidableEq, Repr

/-- A forest written as one list of entries and the positions of its roots. -/
structure Outline where
  entries : List OutlineEntry
  roots : List Nat
  deriving DecidableEq, Repr

namespace Outline

/-- The positions that neighbouring trees take when the first starts at `start`. -/
def positions (start : Nat) : List NavTree → List Nat
  | [] => []
  | tree :: rest => start :: positions (start + tree.size) rest

mutual

/-- The entries of a tree whose first entry is at position `start`. -/
def entriesOf (start : Nat) : NavTree → List OutlineEntry
  | .node point children =>
    ⟨point, positions (start + 1) children⟩ :: entriesOfAll (start + 1) children

/-- The entries of a forest whose first entry is at position `start`. -/
def entriesOfAll (start : Nat) : List NavTree → List OutlineEntry
  | [] => []
  | tree :: rest => entriesOf start tree ++ entriesOfAll (start + tree.size) rest

end

/-- The table of a forest. -/
def ofForest (forest : List NavTree) : Outline :=
  ⟨entriesOfAll 0 forest, positions 0 forest⟩

/-- The tree that starts at a position, of at most `levels` levels. -/
def tree? (entries : List OutlineEntry) : (levels : Nat) → (position : Nat) → Option NavTree
  | 0, _ => none
  | levels + 1, position => do
    let entry ← entries[position]?
    let children ← entry.children.mapM (tree? entries levels)
    return .node entry.point children

/-- The forest that a table describes; nothing if a position is missing or leads back to itself. -/
def forest? (outline : Outline) : Option (List NavTree) :=
  outline.roots.mapM (tree? outline.entries outline.entries.length)

end Outline
end Bindery
