/-
# The forest that is read is that of the nested tables

A recipe nests the tables of its table of contents in their fields `children`.  What is read from them is
the same forest: an entry for each table, with the labels, the item and the fragment that the table gives
(`PointIn`), above the entries for the tables below it, in their order (`describes_of_read`).  So the
entries are, one for one, the tables in the order in which they start.
-/
import Bindery.Outline
import Bindery.Proofs.Book.Legal

namespace Bindery

open Value

/-! ## 1. Fields -/

theorem of_asText {place : Place} {value : Value} {text : String}
    (h : value.asText place = .ok text) : value = .text text := by
  unfold asText at h
  split at h
  · split at h
    · cases h
    · cases h
      rfl
  · cases h

theorem of_requiredText {fields : Fields} {place : Place} {key text : String}
    (h : fields.requiredText place key = .ok text) : fields.get? key = some (.text text) := by
  unfold Fields.requiredText at h
  split at h
  · cases h
  · rename_i hvalue
    rw [hvalue, of_asText h]

/-- A text that may be left out is read if it is there, and nothing is read in its place. -/
theorem of_optionalText {fields : Fields} {place : Place} {key : String} {text : Option String}
    (h : fields.optionalText place key = .ok text) :
    fields.present? key = text.map Value.text := by
  unfold Fields.optionalText at h
  split at h
  · rename_i hnone
    cases h
    exact hnone
  · rename_i hvalue
    obtain ⟨s, hs, rfl⟩ := map_eq_ok_iff.mp h
    rw [hvalue, of_asText hs]
    rfl

theorem of_asTable {place : Place} {value : Value} {fields : Fields}
    (h : value.asTable place = .ok fields) : value = .table fields := by
  unfold asTable at h
  split at h
  · cases h
    rfl
  · cases h

theorem of_asList {place : Place} {value : Value} {items : List Value}
    (h : value.asList place = .ok items) : value = .list items := by
  unfold asList at h
  split at h
  · cases h
    rfl
  · cases h

/-- A list that is read is there. -/
theorem of_optionalList {fields : Fields} {key : String} {items : List Value}
    (h : fields.optionalList key = .ok (some items)) : fields.get? key = some (.list items) := by
  unfold Fields.optionalList Fields.present? at h
  cases hvalue : fields.get? key with
  | none => simp [hvalue] at h
  | some value => cases value <;> simp_all [asList, refuse, Except.map]

/-- The values that are read from the items of a list, one for one. -/
theorem forall₂_of_readItems {α β : Type} {read : Place → α → Except Fault β} {R : α → β → Prop}
    {place : Place} {items : List α} {values : List β}
    (hread : ∀ place item value, read place item = .ok value → R item value)
    (h : readItems read place items = .ok values) : List.Forall₂ R items values := by
  have hall := (mapM_eq_ok_iff.mp h).imp fun pair value hpair => hread _ pair.1 value hpair
  rw [← List.forall₂_map_left_iff (f := Prod.fst), List.zipIdx_map_fst] at hall
  exact hall

/-! ## 2. What a table says about its entry -/

namespace Value

/-- A table gives a label with its language. -/
def NavLabelIn (value : Value) (label : NavLabel) : Prop :=
  ∃ fields : Fields, value = .table fields ∧ fields.get? "label" = some (.text label.text) ∧
    fields.present? "lang" = label.lang.map Value.text

/-- A table gives the label of a target: one text, or several labels in order. -/
def LabelIn (fields : Fields) : Label → Prop
  | .simple content => fields.get? "label" = some (.text content) ∧ fields.get? "labels" = none
  | .several first rest => fields.get? "label" = none ∧ ∃ values,
      fields.get? "labels" = some (.list values) ∧
      List.Forall₂ NavLabelIn values (first :: rest)

/-- A table gives the target of an entry. -/
structure PointIn (fields : Fields) (point : NavPoint) : Prop where
  label : LabelIn fields point.label
  idref : fields.get? "idref" = some (.text point.idref)
  fragment : fields.present? "fragment" = point.fragment.map Value.text

end Value

theorem navLabelIn_of_read {place : Place} {value : Value} {label : NavLabel}
    (h : NavLabel.read place value = .ok label) : NavLabelIn value label := by
  simp only [NavLabel.read, bind_eq_ok_iff, pure_eq_ok_iff] at h
  obtain ⟨fields, hfields, text, htext, lang, hlang, rfl⟩ := h
  exact ⟨fields, of_asTable hfields, of_requiredText htext, of_optionalText hlang⟩

theorem labelIn_of_read {place : Place} {fields : Fields} {label : Label}
    (h : Label.read place fields = .ok label) : LabelIn fields label := by
  unfold Label.read at h
  split at h
  · cases h
  · rename_i hnone
    obtain ⟨text, htext, rfl⟩ := map_eq_ok_iff.mp h
    exact ⟨of_requiredText htext, hnone⟩
  · rename_i value hnone hvalue
    simp only [bind_eq_ok_iff] at h
    obtain ⟨values, hvalues, labels, hlabels, h⟩ := h
    split at h
    · cases h
    · cases h
      refine ⟨hnone, values, ?_, ?_⟩
      · rw [hvalue, of_asList hvalues]
      · exact forall₂_of_readItems (fun _ _ _ => navLabelIn_of_read) hlabels
  · cases h

theorem pointIn_of_read {place : Place} {fields : Fields} {point : NavPoint}
    (h : NavPoint.read place fields = .ok point) : PointIn fields point := by
  simp only [NavPoint.read, bind_eq_ok_iff, pure_eq_ok_iff] at h
  obtain ⟨label, hlabel, idref, hidref, fragment, hfragment, rfl⟩ := h
  exact ⟨labelIn_of_read hlabel, of_requiredText hidref, of_optionalText hfragment⟩

/-! ## 3. Nested tables -/

namespace Value

/-- The items of a list; any other value has none. -/
def itemsOf : Value → List Value
  | .list items => items
  | _ => []

/-- The values that a table nests in its field `children`. -/
def childValues (fields : Fields) : List Value :=
  ((fields.get? "children").map itemsOf).getD []

mutual

/-- The table of an entry, followed by the tables nested in it. -/
def tables : Value → List Fields
  | .table fields => fields :: tablesIn fields
  | _ => []

/-- The tables nested in some fields. -/
def tablesIn : List (String × Value) → List Fields
  | [] => []
  | (key, value) :: rest => if key = "children" then tablesBelow value else tablesIn rest

/-- The tables nested in the field `children`. -/
def tablesBelow : Value → List Fields
  | .list items => tablesAll items
  | _ => []

/-- The tables of neighbouring entries, each before those nested in it. -/
def tablesAll : List Value → List Fields
  | [] => []
  | value :: rest => tables value ++ tablesAll rest

end

mutual

/-- A value nests its tables as a tree does its entries. -/
def Describes : Value → NavTree → Prop
  | value, .node point children => ∃ fields, value = .table fields ∧ PointIn fields point ∧
      DescribesAll (childValues fields) children

/-- Neighbouring values nest their tables as neighbouring trees do. -/
def DescribesAll : List Value → List NavTree → Prop
  | values, [] => values = []
  | values, tree :: rest => ∃ value others, values = value :: others ∧ Describes value tree ∧
      DescribesAll others rest

end

end Value

namespace NavTree

mutual

/-- **A tree is read** from a table that nests its tables in the same way. -/
theorem describes_of_read {place : Place} : ∀ {value : Value} {tree : NavTree},
    read place value = .ok tree →
      Describes value tree ∧ List.Forall₂ PointIn (tables value) tree.points
  | .table fields, tree, h => by
    simp only [read, bind_eq_ok_iff, pure_eq_ok_iff] at h
    obtain ⟨children, hchildren, point, hpoint, rfl⟩ := h
    obtain ⟨hdescribes, hpoints⟩ := describes_of_readChildren hchildren
    have hown := pointIn_of_read hpoint
    rw [Describes, tables, points]
    exact ⟨⟨fields, rfl, hown, hdescribes⟩, .cons hown hpoints⟩
  | .null, _, h | .bool _, _, h | .int _, _, h | .decimal _, _, h | .text _, _, h
  | .list _, _, h | .dateTime _, _, h | .date _, _, h | .time _, _, h => by
    simp [read, refuse] at h

theorem describes_of_readChildren {place : Place} : ∀ {fields : List (String × Value)}
    {forest : List NavTree}, readChildren place fields = .ok forest →
      DescribesAll (childValues fields) forest ∧
        List.Forall₂ PointIn (tablesIn fields) (pointsAll forest)
  | [], _, h => by
    cases h
    rw [DescribesAll, tablesIn]
    exact ⟨rfl, .nil⟩
  | (key, value) :: rest, _, h => by
    rw [readChildren] at h
    rw [tablesIn]
    split at h
    · rename_i hkey
      have hvalues : childValues ((key, value) :: rest) = itemsOf value := by
        rw [childValues, Fields.get?, hkey, List.lookup_cons_self]
        rfl
      rw [hvalues, if_pos hkey]
      exact describes_of_readBelow h
    · rename_i hkey
      have hvalues : childValues ((key, value) :: rest) = childValues rest := by
        rw [childValues, Fields.get?, List.lookup_cons, beq_eq_false_iff_ne.mpr (Ne.symm hkey)]
        rfl
      rw [hvalues, if_neg hkey]
      exact describes_of_readChildren h

theorem describes_of_readBelow {place : Place} : ∀ {value : Value} {forest : List NavTree},
    readBelow place value = .ok forest →
      DescribesAll (itemsOf value) forest ∧
        List.Forall₂ PointIn (tablesBelow value) (pointsAll forest)
  | .null, _, h => by
    cases h
    rw [DescribesAll]
    exact ⟨rfl, .nil⟩
  | .list items, _, h => by
    rw [readBelow] at h
    rw [tablesBelow]
    exact describes_of_readForest h
  | .table _, _, h | .bool _, _, h | .int _, _, h | .decimal _, _, h | .text _, _, h
  | .dateTime _, _, h | .date _, _, h | .time _, _, h => by
    simp [readBelow, refuse] at h

/-- **A forest is read** from values that nest their tables in the same way. -/
theorem describes_of_readForest {place : Place} {index : Nat} : ∀ {items : List Value}
    {forest : List NavTree}, readForest place index items = .ok forest →
      DescribesAll items forest ∧ List.Forall₂ PointIn (tablesAll items) (pointsAll forest)
  | [], _, h => by
    cases h
    rw [DescribesAll, tablesAll]
    exact ⟨rfl, .nil⟩
  | value :: rest, _, h => by
    simp only [readForest, bind_eq_ok_iff, pure_eq_ok_iff] at h
    obtain ⟨tree, htree, trees, htrees, rfl⟩ := h
    obtain ⟨hvalue, hpoints⟩ := describes_of_read htree
    obtain ⟨hrest, hothers⟩ := describes_of_readForest htrees
    rw [DescribesAll, tablesAll, pointsAll]
    exact ⟨⟨value, rest, rfl, hvalue, hrest⟩, List.rel_append hpoints hothers⟩

end

end NavTree
end Bindery
