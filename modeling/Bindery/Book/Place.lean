/-
# Places in a recipe

Every message about a recipe names the place it is about, such as `navmap[0].children[2].label`.
-/
namespace Bindery

/-- A place in a recipe: a table or list named from the top, an item of a list, a field of a table. -/
inductive Place where
  | top (name : String)
  | item (list : Place) (index : Nat)
  | field (table : Place) (key : String)
  deriving DecidableEq, Repr

namespace Place

/-- How a place is written. -/
def text : Place → String
  | top name => name
  | item list index => s!"{list.text}[{index}]"
  | field table key => s!"{table.text}.{key}"

end Place
end Bindery
