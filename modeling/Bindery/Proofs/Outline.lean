/-
# The table of a forest describes the forest

The entries of a forest are listed from some position on, each before those below it, and an entry names
its children by the positions that they take.  So the table has one entry for each entry of the forest,
in order (`length_entriesOfAll`, `points_entriesOfAll`); every position is named exactly once
(`positions_perm`), and later than the entry that names it (`lt_of_mem_children`); and the forest can be
read off from the table (`forest?_ofForest`).
-/
import Mathlib.Data.List.Perm.Basic
import Bindery.Outline

namespace Bindery

open NavTree

namespace Outline

/-! ## 1. The entries -/

mutual

theorem length_entriesOf (start : Nat) : ∀ tree : NavTree, (entriesOf start tree).length = tree.size
  | .node point children => by
    rw [entriesOf, List.length_cons, length_entriesOfAll, size]

/-- There is one entry for each entry of the forest. -/
theorem length_entriesOfAll (start : Nat) : ∀ forest : List NavTree,
    (entriesOfAll start forest).length = sizeAll forest
  | [] => rfl
  | tree :: rest => by
    rw [entriesOfAll, List.length_append, length_entriesOf, length_entriesOfAll, sizeAll]

end

mutual

theorem points_entriesOf (start : Nat) : ∀ tree : NavTree,
    (entriesOf start tree).map (·.point) = tree.points
  | .node point children => by
    rw [entriesOf, List.map_cons, points_entriesOfAll, points]

/-- The entries stand in the order of the forest, each before those below it. -/
theorem points_entriesOfAll (start : Nat) : ∀ forest : List NavTree,
    (entriesOfAll start forest).map (·.point) = pointsAll forest
  | [] => rfl
  | tree :: rest => by
    rw [entriesOfAll, List.map_append, points_entriesOf, points_entriesOfAll, pointsAll]

end

/-! ## 2. Positions -/

/-- Neighbouring trees do not start before the first of them. -/
theorem le_of_mem_positions {start position : Nat} {forest : List NavTree}
    (h : position ∈ positions start forest) : start ≤ position := by
  induction forest generalizing start with
  | nil => cases h
  | cons tree rest ih =>
    rcases List.mem_cons.mp h with rfl | h
    · exact Nat.le_refl _
    · exact Nat.le_trans (Nat.le_add_right _ _) (ih h)

mutual

theorem positions_perm_tree (start : Nat) : ∀ tree : NavTree,
    (start :: (entriesOf start tree).flatMap (·.children)).Perm (List.range' start tree.size)
  | .node point children => by
    rw [entriesOf, List.flatMap_cons, size, List.range'_succ]
    exact (positions_perm (start + 1) children).cons start

/-- **Every position is named exactly once**, among the roots or among the children of one entry. -/
theorem positions_perm (start : Nat) : ∀ forest : List NavTree,
    (positions start forest ++ (entriesOfAll start forest).flatMap (·.children)).Perm
      (List.range' start (sizeAll forest))
  | [] => .refl _
  | tree :: rest => by
    have htree := positions_perm_tree start tree
    have hrest := positions_perm (start + tree.size) rest
    rw [positions, entriesOfAll, List.flatMap_append, sizeAll, ← List.range'_append_1]
    -- The children below the first root move in front of the other roots.
    have hmove := (List.perm_append_comm_assoc (positions (start + tree.size) rest)
      ((entriesOf start tree).flatMap (·.children))
      ((entriesOfAll (start + tree.size) rest).flatMap (·.children))).cons start
    exact hmove.trans (htree.append hrest)

end

mutual

theorem lt_of_mem_children_tree {start : Nat} : ∀ {tree : NavTree} {index : Nat} {entry : OutlineEntry},
    (entriesOf start tree)[index]? = some entry → ∀ child ∈ entry.children, start + index < child
  | .node point children, 0, entry, h => by
    rw [entriesOf, List.getElem?_cons_zero, Option.some.injEq] at h
    intro child hchild
    rw [← h] at hchild
    exact le_of_mem_positions hchild
  | .node point children, index + 1, entry, h => by
    rw [entriesOf, List.getElem?_cons_succ] at h
    intro child hchild
    have hlater := lt_of_mem_children h child hchild
    omega

/-- **A child comes after its parent.** -/
theorem lt_of_mem_children {start : Nat} : ∀ {forest : List NavTree} {index : Nat}
    {entry : OutlineEntry}, (entriesOfAll start forest)[index]? = some entry →
      ∀ child ∈ entry.children, start + index < child
  | tree :: rest, index, entry, h => by
    rw [entriesOfAll, List.getElem?_append, length_entriesOf] at h
    intro child hchild
    split at h
    · exact lt_of_mem_children_tree h child hchild
    · have hlater := lt_of_mem_children h child hchild
      omega

end

/-! ## 3. Reading the forest off -/

/-- What a table holds from some position on starts with the entry at that position. -/
theorem getElem?_of_prefix_drop {entries rest : List OutlineEntry} {entry : OutlineEntry}
    {start : Nat} (h : entry :: rest <+: entries.drop start) : entries[start]? = some entry := by
  obtain ⟨after, hafter⟩ := h
  have hfirst := congrArg (·[0]?) hafter
  rw [List.getElem?_drop] at hfirst
  simpa using hfirst.symm

theorem prefix_drop_of_append {entries first second : List OutlineEntry} {start : Nat}
    (h : first ++ second <+: entries.drop start) : second <+: entries.drop (start + first.length) := by
  obtain ⟨after, hafter⟩ := h
  refine ⟨after, ?_⟩
  rw [← List.drop_drop, ← hafter, List.append_assoc, List.drop_left]

mutual

/-- A tree can be read off from every table that holds its entries. -/
theorem tree?_entriesOf {entries : List OutlineEntry} {start : Nat} : ∀ {tree : NavTree}
    {levels : Nat}, entriesOf start tree <+: entries.drop start → tree.size ≤ levels →
      tree? entries levels start = some tree
  | .node point children, 0, _, hlevels => by
    rw [size] at hlevels
    omega
  | .node point children, levels + 1, h, hlevels => by
    rw [entriesOf] at h
    rw [size, Nat.add_le_add_iff_right] at hlevels
    have hentry := getElem?_of_prefix_drop h
    have hbelow : entriesOfAll (start + 1) children <+: entries.drop (start + 1) :=
      prefix_drop_of_append (show [_] ++ entriesOfAll (start + 1) children <+: _ from h)
    rw [tree?, hentry]
    simp [mapM_tree?_positions hbelow hlevels]

theorem mapM_tree?_positions {entries : List OutlineEntry} {start : Nat} : ∀ {forest : List NavTree}
    {levels : Nat}, entriesOfAll start forest <+: entries.drop start → sizeAll forest ≤ levels →
      (positions start forest).mapM (tree? entries levels) = some forest
  | [], _, _, _ => rfl
  | tree :: rest, levels, h, hlevels => by
    rw [entriesOfAll] at h
    rw [sizeAll] at hlevels
    have hrest := prefix_drop_of_append h
    rw [length_entriesOf] at hrest
    have htree : tree? entries levels start = some tree :=
      tree?_entriesOf ((List.prefix_append _ _).trans h) (by omega)
    rw [positions, List.mapM_cons, htree, mapM_tree?_positions hrest (by omega)]
    rfl

end

/-- **A forest can be read off from its table.** -/
theorem forest?_ofForest (forest : List NavTree) : (ofForest forest).forest? = some forest := by
  rw [ofForest, forest?, length_entriesOfAll]
  exact mapM_tree?_positions (by simp) (Nat.le_refl _)

end Outline
end Bindery
