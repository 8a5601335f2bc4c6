/-
# The table of contents built in place

The table of a table of contents can be filled while the recipe is read, with no tree in between.  An
entry takes its slot before the entries below it take theirs, and the slot stays empty until these have
been read, since only then the positions of its children are known.  At the end the slots that are
filled make the table.
-/
import Bindery.Book.Reading
import Bindery.Outline

namespace Bindery

open Value

/-- A table in the making: some of its entries are not known yet. -/
abbrev Slots := List (Option OutlineEntry)

namespace Slots

mutual

/-- Adds an entry and all entries below it, and gives its position. -/
def add (place : Place) (slots : Slots) : Value → Except Fault (Nat × Slots)
  | .table fields => do
    let (children, filled) ← addChildren place (slots ++ [none]) fields
    let point ← NavPoint.read place fields
    return (slots.length, filled.set slots.length (some ⟨point, children⟩))
  | other => refuse (.notTable place other.kind)

/-- Adds the entries in the field `children` of a table, and gives their positions. -/
def addChildren (place : Place) (slots : Slots) :
    List (String × Value) → Except Fault (List Nat × Slots)
  | [] => .ok ([], slots)
  | (key, value) :: rest =>
    if key = "children" then addBelow place slots value else addChildren place slots rest

/-- Adds the entries below an entry. -/
def addBelow (place : Place) (slots : Slots) : Value → Except Fault (List Nat × Slots)
  | .null => .ok ([], slots)
  | .list items => addAll (.field place "children") 0 slots items
  | other => refuse (.notList (.field place "children") other.kind)

/-- Adds neighbouring entries, the first of which stands at `index` of its list. -/
def addAll (place : Place) (index : Nat) (slots : Slots) :
    List Value → Except Fault (List Nat × Slots)
  | [] => .ok ([], slots)
  | value :: rest => do
    let (position, filled) ← add (.item place index) slots value
    let (positions, filled) ← addAll place (index + 1) filled rest
    return (position :: positions, filled)

end

end Slots

/-- The table of the entries that a recipe lists. -/
def Outline.ofValues (items : List Value) : Except Fault Outline := do
  let (roots, slots) ← Slots.addAll (.top "navmap") 0 [] items
  return ⟨slots.filterMap id, roots⟩

end Bindery
