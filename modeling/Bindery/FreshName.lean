/-
# Fresh names

A name that clashes with none of the names taken: the name itself, or the name with the first of the
numbers 1, 2, 3, … that makes it new.  One more candidate than there are names taken is enough, since
the candidates are pairwise different.
-/
import Bindery.Text.CaseFold

namespace Bindery.FreshName

/-- The candidates for a name, in the order in which they are tried. -/
def candidate (base : String) : Nat → String
  | 0 => base
  | number => base ++ "_" ++ toString number

/-- The number of the first candidate for `base` that clashes with none of the names taken. -/
def firstFree? (base : String) (taken : List String) : Option Nat :=
  let folded := taken.map Text.foldCase
  (List.range (taken.length + 1)).find? fun number =>
    !folded.contains (Text.foldCase (candidate base number))

/-- The first candidate for `base` that clashes with none of the names taken. -/
def fresh (base : String) (taken : List String) : String :=
  candidate base ((firstFree? base taken).getD 0)

end Bindery.FreshName
