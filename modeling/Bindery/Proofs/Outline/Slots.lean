/-
# Building in place gives the table of the forest

An entry is added after all entries there are, so its position is their number, and the entries below it
follow in the order of the forest.  When they have been added its slot is the only empty one, and it is
filled (`set_slot`).  So building in place fills the slots with the entries of the forest that would be
read, and stops with the same fault (`add_eq`); no slot is left empty, and none is dropped in the end
(`ofValues_eq`).
-/
import Bindery.Outline.Slots
import Bindery.Proofs.Outline
import Bindery.Proofs.Outline.Tables

namespace Bindery

open NavTree Outline

namespace Slots

/-- Filling the slot that was taken before the slots of the entries below. -/
theorem set_slot (slots below : Slots) (entry : OutlineEntry) :
    (slots ++ [none] ++ below).set slots.length (some entry) = slots ++ some entry :: below := by
  rw [List.append_assoc, List.set_append_right _ _ (Nat.le_refl _), Nat.sub_self]
  rfl

mutual

/-- **Adding an entry** gives it the next position and adds what the table of its tree holds. -/
theorem add_eq (place : Place) (slots : Slots) : ∀ value : Value,
    add place slots value = (NavTree.read place value).map fun tree =>
      (slots.length, slots ++ (entriesOf slots.length tree).map some)
  | .table fields => by
    rw [add, NavTree.read, addChildren_eq]
    cases readChildren place fields with
    | error fault => rfl
    | ok children =>
      cases NavPoint.read place fields with
      | error fault => rfl
      | ok point =>
        have hset := set_slot slots ((entriesOfAll (slots.length + 1) children).map some)
          ⟨point, positions (slots.length + 1) children⟩
        have hlength : (slots ++ [none]).length = slots.length + 1 := List.length_append
        simp only [Except.map, bind, Except.bind, pure, Except.pure, hlength, hset]
        rw [entriesOf, List.map_cons]
  | .null | .bool _ | .int _ | .decimal _ | .text _ | .list _ | .dateTime _ | .date _ | .time _ => rfl

theorem addChildren_eq (place : Place) (slots : Slots) : ∀ fields : List (String × Value),
    addChildren place slots fields = (readChildren place fields).map fun forest =>
      (positions slots.length forest, slots ++ (entriesOfAll slots.length forest).map some)
  | [] => by
    rw [addChildren, readChildren]
    simp [Except.map, positions, entriesOfAll]
  | (key, value) :: rest => by
    rw [addChildren, readChildren]
    split
    · exact addBelow_eq place slots value
    · exact addChildren_eq place slots rest

theorem addBelow_eq (place : Place) (slots : Slots) : ∀ value : Value,
    addBelow place slots value = (readBelow place value).map fun forest =>
      (positions slots.length forest, slots ++ (entriesOfAll slots.length forest).map some)
  | .null => by
    rw [addBelow, readBelow]
    simp [Except.map, positions, entriesOfAll]
  | .list items => by
    rw [addBelow, readBelow]
    exact addAll_eq _ 0 slots items
  | .table _ | .bool _ | .int _ | .decimal _ | .text _ | .dateTime _ | .date _ | .time _ => rfl

/-- **Adding neighbouring entries** gives them the positions of their trees and adds what the table of
the forest holds. -/
theorem addAll_eq (place : Place) (index : Nat) (slots : Slots) : ∀ items : List Value,
    addAll place index slots items = (readForest place index items).map fun forest =>
      (positions slots.length forest, slots ++ (entriesOfAll slots.length forest).map some)
  | [] => by
    rw [addAll, readForest]
    simp [Except.map, positions, entriesOfAll]
  | value :: rest => by
    rw [addAll, readForest, add_eq]
    cases NavTree.read (.item place index) value with
    | error fault => rfl
    | ok tree =>
      have hlength : (slots ++ (entriesOf slots.length tree).map some).length =
          slots.length + tree.size := by
        rw [List.length_append, List.length_map, length_entriesOf]
      have hrest := addAll_eq place (index + 1)
        (slots ++ (entriesOf slots.length tree).map some) rest
      rw [hlength] at hrest
      simp only [Except.map, bind, Except.bind] at hrest ⊢
      rw [hrest]
      cases readForest place (index + 1) rest with
      | error fault => rfl
      | ok trees =>
        simp only [pure, Except.pure, positions, entriesOfAll, List.map_append, List.append_assoc]

end

end Slots

namespace Outline

/-- **Building in place gives the table of the forest** that is read, or the fault that stops the
reading. -/
theorem ofValues_eq (items : List Value) :
    ofValues items = (readForest (.top "navmap") 0 items).map ofForest := by
  rw [ofValues, Slots.addAll_eq]
  cases readForest (.top "navmap") 0 items with
  | error fault => rfl
  | ok forest =>
    simp [Except.map, bind, Except.bind, pure, Except.pure, ofForest]

/-- A table keeps the tables that a recipe nests: nothing is lost, moved or named twice. -/
structure Keeps (outline : Outline) (items : List Value) (forest : List NavTree) : Prop where
  /-- There is one entry for each table, in the order in which the tables start. -/
  points : List.Forall₂ Value.PointIn (Value.tablesAll items) (outline.entries.map (·.point))
  /-- Every position is named exactly once. -/
  once : (outline.roots ++ outline.entries.flatMap (·.children)).Perm
    (List.range outline.entries.length)
  /-- A child comes after its parent. -/
  later : ∀ (index : Nat) (entry : OutlineEntry), outline.entries[index]? = some entry →
    ∀ child ∈ entry.children, index < child
  /-- The forest can be read off, and it is nested as the tables are. -/
  rebuilt : outline.forest? = some forest
  nested : Value.DescribesAll items forest

theorem keeps_ofForest {items : List Value} {forest : List NavTree}
    (h : readForest (.top "navmap") 0 items = .ok forest) : (ofForest forest).Keeps items forest := by
  obtain ⟨hnested, hpoints⟩ := describes_of_readForest h
  constructor
  · rw [ofForest, points_entriesOfAll]
    exact hpoints
  · rw [ofForest, length_entriesOfAll, List.range_eq_range']
    exact positions_perm 0 forest
  · intro index entry hentry child hchild
    have hlater := lt_of_mem_children hentry child hchild
    omega
  · exact forest?_ofForest forest
  · exact hnested

end Outline
end Bindery
