/-
# Names that clash

Two names clash when they are equal after case folding.  The names are sorted by folded form and
then by spelling, so that clashing names become neighbours and the pair reported does not depend on
the order in which the names were listed.
-/
import Bindery.Text.CaseFold
import Bindery.Text.Quoted

namespace Bindery

/-- Two names that differ at most by case, and what they name. -/
inductive Collision where
  | paths (left right : String)
  | identifiers (owner left right : String)
  deriving DecidableEq, Repr

namespace Collision

open Text in
/-- The message that reports a clash. -/
def message : Collision → String
  | paths left right =>
    "Attempted to store multiple files at the same inside path, or at inside paths differing only " ++
      s!"by case: {quoted left} and {quoted right}"
  | identifiers owner left right =>
    s!"Duplicate identifier in {owner}: {quoted left} collides with {quoted right}"

/-! ## 1. The order of names -/

/-- A name with its folded form. -/
structure FoldedName where
  folded : String
  name : String

/-- The folded form of a name beside the name. -/
def FoldedName.of (name : String) : FoldedName := ⟨Text.foldCase name, name⟩

/-- The order by folded form, and by spelling among names that clash. -/
def FoldedName.le (left right : FoldedName) : Bool :=
  left.folded < right.folded || (left.folded == right.folded && left.name ≤ right.name)

/-! ## 2. The first clash -/

/-- The first two neighbours with one folded form. -/
def firstAdjacent : List FoldedName → Option (String × String)
  | left :: right :: rest =>
    if left.folded = right.folded then some (left.name, right.name)
    else firstAdjacent (right :: rest)
  | _ => none

/-- The first clash among names, in the order of folded forms. -/
def first? (names : List String) : Option (String × String) :=
  firstAdjacent ((names.map FoldedName.of).mergeSort FoldedName.le)

/-- Refuses paths of which two clash. -/
def checkPaths (names : List String) : Except Collision Unit :=
  match first? names with
  | some (left, right) => .error (.paths left right)
  | none => .ok ()

/-- Refuses identifiers of which two clash; `owner` says what they identify. -/
def checkIdentifiers (owner : String) (names : List String) : Except Collision Unit :=
  match first? names with
  | some (left, right) => .error (.identifiers owner left right)
  | none => .ok ()

end Collision
end Bindery
