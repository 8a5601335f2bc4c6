/-
# The tables of forests are the tables in pre-order

The table of a forest is filled by its trees (`inPreorder_ofForest`), and a table that is filled by its
trees is the table of the forest that is read off from it (`forest?_of_inPreorder`).  So nothing but the
order of the entries tells the tables that come from a recipe from other tables.
-/
import Bindery.Book.Flat
import Bindery.Proofs.Outline

namespace Bindery.Outline

open NavTree

/-! ## 1. The table of a forest -/

mutual

theorem fill_entriesOf {entries : List OutlineEntry} {start : Nat} : ∀ {tree : NavTree},
    entriesOf start tree <+: entries.drop start →
      ∃ entry, entries[start]? = some entry ∧ Fill entries entry.children (start + 1) (start + tree.size)
  | .node point children, h => by
    rw [entriesOf] at h
    have hbelow : entriesOfAll (start + 1) children <+: entries.drop (start + 1) :=
      prefix_drop_of_append (show [_] ++ entriesOfAll (start + 1) children <+: _ from h)
    refine ⟨_, getElem?_of_prefix_drop h, ?_⟩
    rw [size, Nat.add_comm (sizeAll children), ← Nat.add_assoc]
    exact fill_entriesOfAll hbelow

/-- Neighbouring trees fill their entries in every table that holds these. -/
theorem fill_entriesOfAll {entries : List OutlineEntry} {start : Nat} : ∀ {forest : List NavTree},
    entriesOfAll start forest <+: entries.drop start →
      Fill entries (positions start forest) start (start + sizeAll forest)
  | [], _ => .nil start
  | tree :: rest, h => by
    rw [entriesOfAll] at h
    have hrest := prefix_drop_of_append h
    rw [length_entriesOf] at hrest
    obtain ⟨entry, hentry, hbelow⟩ := fill_entriesOf ((List.prefix_append _ _).trans h)
    rw [positions, sizeAll, ← Nat.add_assoc]
    exact .cons hentry hbelow (fill_entriesOfAll hrest)

end

/-- **The table of a forest is in pre-order.** -/
theorem inPreorder_ofForest (forest : List NavTree) : (ofForest forest).InPreorder := by
  have hfill : Fill (entriesOfAll 0 forest) (positions 0 forest) 0 (0 + sizeAll forest) :=
    fill_entriesOfAll (by simp)
  rwa [InPreorder, ofForest, length_entriesOfAll, ← Nat.zero_add (sizeAll forest)]

/-! ## 2. The forest of a table -/

theorem append_prefix_drop {entries first second : List OutlineEntry} {start : Nat}
    (hfirst : first <+: entries.drop start) (hsecond : second <+: entries.drop (start + first.length)) :
    first ++ second <+: entries.drop start := by
  obtain ⟨after, hafter⟩ := hfirst
  have hdrop : entries.drop (start + first.length) = after := by
    rw [← List.drop_drop, ← hafter, List.drop_left]
  rw [hdrop] at hsecond
  obtain ⟨rest, hrest⟩ := hsecond
  exact ⟨rest, by rw [List.append_assoc, hrest, hafter]⟩

theorem prefix_drop_singleton {entries : List OutlineEntry} {entry : OutlineEntry} {start : Nat}
    (h : entries[start]? = some entry) : [entry] <+: entries.drop start := by
  obtain ⟨hlt, rfl⟩ := List.getElem?_eq_some_iff.mp h
  rw [List.drop_eq_getElem_cons hlt]
  exact ⟨_, rfl⟩

/-- Trees that fill some entries are the trees of a forest whose entries these are. -/
theorem exists_forest_of_fill {entries : List OutlineEntry} {roots : List Nat} {start stop : Nat}
    (h : Fill entries roots start stop) :
    ∃ forest, positions start forest = roots ∧ stop = start + sizeAll forest ∧
      entriesOfAll start forest <+: entries.drop start := by
  induction h with
  | nil start => exact ⟨[], rfl, rfl, List.nil_prefix⟩
  | @cons start middle stop entry rest hentry _ _ ihchildren ihrest =>
    obtain ⟨children, hchildren, rfl, hbelow⟩ := ihchildren
    obtain ⟨others, rfl, rfl, hothers⟩ := ihrest
    have htree : entriesOf start (.node entry.point children) =
        [entry] ++ entriesOfAll (start + 1) children := by
      rw [entriesOf, hchildren]
      rfl
    have hsize : (node entry.point children).size = 1 + sizeAll children := by
      rw [size, Nat.add_comm]
    have hown : entriesOf start (.node entry.point children) <+: entries.drop start := by
      rw [htree]
      exact append_prefix_drop (prefix_drop_singleton hentry) hbelow
    refine ⟨.node entry.point children :: others, ?_, ?_, ?_⟩
    · rw [positions, hsize, ← Nat.add_assoc]
    · rw [sizeAll, hsize]
      omega
    · rw [entriesOfAll, hsize]
      refine append_prefix_drop hown ?_
      rw [length_entriesOf, hsize, ← Nat.add_assoc]
      exact hothers

/-- **A table in pre-order is the table of the forest that is read off from it.** -/
theorem forest?_of_inPreorder {outline : Outline} (h : outline.InPreorder) :
    ∃ forest, outline.forest? = some forest ∧ ofForest forest = outline := by
  obtain ⟨forest, hroots, hlength, hentries⟩ := exists_forest_of_fill h
  rw [List.drop_zero] at hentries
  have hall : entriesOfAll 0 forest = outline.entries := by
    refine hentries.eq_of_length ?_
    rw [length_entriesOfAll, hlength, Nat.zero_add]
  have htable : ofForest forest = outline := by
    rw [ofForest, hall, hroots]
  exact ⟨forest, htable ▸ forest?_ofForest forest, htable⟩

end Bindery.Outline
