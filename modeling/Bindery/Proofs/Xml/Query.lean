/-
# The parts of an element

What a reader looks for in an element it finds in the element itself or below one of its children, and
nowhere else.  Where all identifiers are different, an identifier leads to one part only
(`having_id_eq_singleton`).
-/
import Mathlib.Data.List.Nodup
import Bindery.Xml.Query

namespace Bindery

/-- Where no key comes twice, only one item has a key. -/
theorem filter_eq_singleton {α β : Type} [DecidableEq β] {key : α → Option β} {item : α} {value : β}
    (hkey : key item = some value) : ∀ {items : List α}, (items.filterMap key).Nodup →
      item ∈ items → items.filter (key · == some value) = [item]
  | [], _, hitem => nomatch hitem
  | first :: rest, hnodup, hitem => by
    have hrest : (rest.filterMap key).Nodup :=
      hnodup.sublist ((List.sublist_cons_self first rest).filterMap key)
    rcases List.mem_cons.mp hitem with rfl | hitem
    · rw [List.filterMap_cons_some hkey, List.nodup_cons] at hnodup
      have hnone : rest.filter (key · == some value) = [] := by
        rw [List.filter_eq_nil_iff]
        intro other hother heq
        exact hnodup.1 (List.mem_filterMap.mpr ⟨other, hother, beq_iff_eq.mp heq⟩)
      rw [List.filter_cons, if_pos (beq_iff_eq.mpr hkey), hnone]
    · have ih := filter_eq_singleton hkey hrest hitem
      have hne : ¬(key first == some value) = true := by
        intro heq
        rw [List.filterMap_cons_some (beq_iff_eq.mp heq), List.nodup_cons] at hnodup
        exact hnodup.1 (List.mem_filterMap.mpr ⟨item, hitem, hkey⟩)
      rw [List.filter_cons, if_neg hne, ih]

namespace Xml.Element

variable {name key value : String} {attributes : List Attribute} {children : List Element}

/-! ## 1. All parts -/

theorem subtrees_eq_flatMap : ∀ children : List Element, subtrees children = children.flatMap subtree
  | [] => rfl
  | child :: rest => by
    rw [subtrees, List.flatMap_cons, subtrees_eq_flatMap rest]

theorem subtree_branch : (branch name attributes children).subtree =
    branch name attributes children :: children.flatMap subtree := by
  rw [subtree, subtrees_eq_flatMap]

theorem mem_subtree_self (root : Element) : root ∈ root.subtree := by
  cases root <;> simp [subtree]

theorem mem_subtree_of_child {part child : Element} (hchild : child ∈ children)
    (hpart : part ∈ child.subtree) : part ∈ (branch name attributes children).subtree := by
  rw [subtree_branch]
  exact List.mem_cons_of_mem _ (List.mem_flatMap.mpr ⟨child, hchild, hpart⟩)

/-! ## 2. Parts of a name -/

theorem named_branch : (branch name attributes children).named key =
    (if name == key then [branch name attributes children] else []) ++
      children.flatMap (named key) := by
  have hself : (branch name attributes children).name = name := rfl
  rw [named, subtree_branch, List.filter_cons, hself, List.filter_flatMap]
  split <;> rfl

theorem named_branch_of_ne (h : name ≠ key) :
    (branch name attributes children).named key = children.flatMap (named key) := by
  rw [named_branch, beq_eq_false_iff_ne.mpr h]
  rfl

theorem named_leaf_of_ne {text : String} (h : name ≠ key) :
    (leaf name attributes text).named key = [] := by
  have hself : (leaf name attributes text).name = name := rfl
  rw [named, subtree, List.filter_cons, hself, beq_eq_false_iff_ne.mpr h]
  rfl

/-- Where all elements have one name, all of them are found by it. -/
theorem filter_name_eq_self {elements : List Element} (h : ∀ element ∈ elements, element.name = key) :
    elements.filter (·.name == key) = elements :=
  List.filter_eq_self.mpr fun element helement => beq_iff_eq.mpr (h element helement)

/-- Where all elements have one name, none is found by another. -/
theorem filter_name_eq_nil {elements : List Element} (h : ∀ element ∈ elements, element.name = name)
    (hne : name ≠ key) : elements.filter (·.name == key) = [] := by
  rw [List.filter_eq_nil_iff]
  intro element helement heq
  exact hne ((h element helement).symm.trans (beq_iff_eq.mp heq))

/-! ## 3. Nesting -/

theorem nesting_branch_of_ne (h : name ≠ key) :
    (branch name attributes children).nesting key = nestingAll key children := by
  rw [nesting, beq_eq_false_iff_ne.mpr h]
  exact Nat.zero_add _

theorem nestingAll_append (key : String) : ∀ first second : List Element,
    nestingAll key (first ++ second) = max (nestingAll key first) (nestingAll key second)
  | [], second => (Nat.zero_max _).symm
  | element :: rest, second => by
    rw [List.cons_append, nestingAll, nestingAll, nestingAll_append key rest, Nat.max_assoc]

mutual

/-- Nothing is nested where there is no element of the name. -/
theorem nesting_eq_zero_iff : ∀ root : Element, root.nesting key = 0 ↔ root.named key = []
  | leaf name attributes text => by
    rw [nesting, named, subtree, List.filter_singleton]
    by_cases h : name == key <;> simp [Element.name, h]
  | branch name attributes children => by
    rw [nesting, named_branch, List.append_eq_nil_iff, Nat.add_eq_zero_iff,
      nestingAll_eq_zero_iff children]
    by_cases h : name == key <;> simp [h]

theorem nestingAll_eq_zero_iff : ∀ elements : List Element,
    nestingAll key elements = 0 ↔ elements.flatMap (named key) = []
  | [] => by simp [nestingAll]
  | element :: rest => by
    rw [nestingAll, List.flatMap_cons, List.append_eq_nil_iff, Nat.max_eq_zero_iff,
      nesting_eq_zero_iff element, nestingAll_eq_zero_iff rest]

end

/-! ## 4. Identifiers -/

theorem ids_branch : (branch name attributes children).ids =
    ((branch name attributes children).attribute? "id").toList ++ children.flatMap ids := by
  rw [ids, subtree_branch, List.filterMap_cons, List.filterMap_flatMap]
  cases (branch name attributes children).attribute? "id" <;> rfl

theorem ids_leaf {text : String} :
    (leaf name attributes text).ids = ((leaf name attributes text).attribute? "id").toList := by
  rw [ids, subtree, List.filterMap_cons]
  cases (leaf name attributes text).attribute? "id" <;> rfl

theorem ids_branch_id {id : String} :
    (branch name (⟨"id", id⟩ :: attributes) children).ids = id :: children.flatMap ids := by
  rw [ids_branch]
  rfl

/-- Where all identifiers are different, the part that has one is the only one. -/
theorem having_id_eq_singleton {root part : Element} {id : String} (hids : root.ids.Nodup)
    (hpart : part ∈ root.subtree) (hid : part.attribute? "id" = some id) :
    root.having "id" id = [part] :=
  filter_eq_singleton hid hids hpart

end Xml.Element
end Bindery
