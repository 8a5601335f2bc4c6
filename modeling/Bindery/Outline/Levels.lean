/-
# Counting the levels of a table

The levels of a table are counted with a stack.  A position is taken from the stack together with its
level, and the positions of its children are put there, one level below; when the stack is empty, the
deepest level that was seen is the number of levels.  The count stops halfway if the table does not have
a position that it names.
-/
import Bindery.Outline

namespace Bindery.Outline

/-- A count under way: the positions still to be visited with their levels, the next one first, and the
deepest level so far. -/
structure LevelCount where
  stack : List (Nat × Nat)
  deepest : Nat
  deriving DecidableEq, Repr

namespace LevelCount

/-- Puts positions of one level on a stack; the last of them is visited first. -/
def push (level : Nat) (positions : List Nat) (stack : List (Nat × Nat)) : List (Nat × Nat) :=
  (positions.map (·, level)).reverse ++ stack

/-- Before the first visit the roots are on the stack, on level one. -/
def start (outline : Outline) : LevelCount :=
  ⟨push 1 outline.roots [], 0⟩

/-- Visits the next position; nothing if none is left, or if there is no entry at the position. -/
def visit (entries : List OutlineEntry) : LevelCount → Option LevelCount
  | ⟨[], _⟩ => none
  | ⟨(position, level) :: stack, deepest⟩ => do
    let entry ← entries[position]?
    return ⟨push (level + 1) entry.children stack, max deepest level⟩

/-- Makes so many visits. -/
def run (entries : List OutlineEntry) : (visits : Nat) → LevelCount → Option LevelCount
  | 0, count => some count
  | visits + 1, count => do run entries visits (← visit entries count)

end LevelCount
end Bindery.Outline
