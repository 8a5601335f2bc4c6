/-
# The count of the levels ends

In the table of a forest every position on the stack is the root of a tree, and the positions below it
stand on the stack again before anything else is visited.  So the visits to a tree take as many steps as
the tree has entries, and leave the stack as it was without the tree (`run_tree`).  The count of a whole
table visits every entry once, and ends with the number of levels of the forest (`run_ofForest`).
-/
import Bindery.Outline.Levels
import Bindery.Proofs.Outline

namespace Bindery

open NavTree

namespace Outline.LevelCount

variable {entries : List OutlineEntry}

/-- Two runs one after the other. -/
theorem run_add (first second : Nat) (count : LevelCount) :
    run entries (first + second) count = (run entries first count).bind (run entries second) := by
  induction first generalizing count with
  | zero => rw [Nat.zero_add, run, Option.bind_some]
  | succ first ih =>
    rw [Nat.succ_add, run, run]
    cases visit entries count with
    | none => rfl
    | some next => exact ih next

theorem push_cons (level position : Nat) (positions : List Nat) (stack : List (Nat × Nat)) :
    push level (position :: positions) stack = push level positions ((position, level) :: stack) := by
  rw [push, push, List.map_cons, List.reverse_cons, List.append_assoc, List.singleton_append]

/-- **One visit** to the first entry of a tree puts the trees below it on the stack. -/
theorem visit_tree {start level deepest : Nat} {stack : List (Nat × Nat)} {point : NavPoint}
    {children : List NavTree} (h : entriesOf start (.node point children) <+: entries.drop start) :
    visit entries ⟨(start, level) :: stack, deepest⟩ =
      some ⟨push (level + 1) (positions (start + 1) children) stack, max deepest level⟩ := by
  rw [entriesOf] at h
  rw [visit, getElem?_of_prefix_drop h]
  rfl

mutual

/-- **The visits to a tree** take its positions from the stack and see all its levels. -/
theorem run_tree {start level deepest : Nat} {stack : List (Nat × Nat)} : ∀ {tree : NavTree},
    entriesOf start tree <+: entries.drop start →
      run entries tree.size ⟨(start, level + 1) :: stack, deepest⟩ =
        some ⟨stack, max deepest (level + tree.depth)⟩
  | .node point children, h => by
    have hbelow : entriesOfAll (start + 1) children <+: entries.drop (start + 1) := by
      rw [entriesOf] at h
      exact prefix_drop_of_append (show [_] ++ entriesOfAll (start + 1) children <+: _ from h)
    rw [size, depth, run, visit_tree h, Option.bind_eq_bind, Option.bind_some,
      run_forest hbelow (Nat.le_max_right _ _)]
    congr 2
    omega

/-- The visits to neighbouring trees see all their levels; a forest without trees has none to see. -/
theorem run_forest {start level deepest : Nat} {stack : List (Nat × Nat)} : ∀ {forest : List NavTree},
    entriesOfAll start forest <+: entries.drop start → level ≤ deepest →
      run entries (sizeAll forest) ⟨push (level + 1) (positions start forest) stack, deepest⟩ =
        some ⟨stack, max deepest (level + depthAll forest)⟩
  | [], _, hlevel => by
    have hdeepest : max deepest (level + depthAll []) = deepest := Nat.max_eq_left hlevel
    rw [hdeepest]
    rfl
  | tree :: rest, h, hlevel => by
    rw [entriesOfAll] at h
    have htree := (List.prefix_append _ _).trans h
    have hrest := prefix_drop_of_append h
    rw [length_entriesOf] at hrest
    -- The last tree is on top, so the first one is visited when all others have been.
    rw [sizeAll, depthAll, Nat.add_comm, positions, push_cons, run_add, run_forest hrest hlevel,
      Option.bind_some, run_tree htree]
    congr 2
    omega

end

/-- **The count ends**: it visits each entry of the table of a forest once, and the deepest level is the
number of levels of the forest. -/
theorem run_ofForest (forest : List NavTree) :
    run (ofForest forest).entries (ofForest forest).entries.length (start (ofForest forest)) =
      some ⟨[], depthAll forest⟩ := by
  have hall : entriesOfAll 0 forest <+: (entriesOfAll 0 forest).drop 0 := List.prefix_rfl
  rw [ofForest, length_entriesOfAll]
  exact (run_forest hall (Nat.le_refl 0)).trans (by rw [Nat.zero_max, Nat.zero_add])

end Outline.LevelCount
end Bindery
