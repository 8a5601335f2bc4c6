/-
# Looking things up in elements

What a reader of a document asks for: the value of an attribute, the text of an element, the elements
right below it, all elements in it, in the order in which they start, and how deep they are nested.
-/
import Bindery.Xml.Element

namespace Bindery.Xml.Element

/-! ## 1. One element -/

/-- The value of the attribute of a name. -/
def attribute? (name : String) (element : Element) : Option String :=
  (element.attributes.find? (·.name == name)).map (·.value)

/-- The text of an element; an element around other elements has none. -/
def content : Element → String
  | leaf _ _ text => text
  | branch _ _ _ => ""

/-- The elements right below an element. -/
def children : Element → List Element
  | leaf _ _ _ => []
  | branch _ _ children => children

/-- The elements of a name right below an element. -/
def childrenNamed (name : String) (element : Element) : List Element :=
  element.children.filter (·.name == name)

/-- The first element of a name right below an element. -/
def child? (name : String) (element : Element) : Option Element :=
  element.children.find? (·.name == name)

/-! ## 2. The elements in an element -/

mutual

/-- An element and all elements in it, in the order in which they start. -/
def subtree : Element → List Element
  | leaf name attributes text => [leaf name attributes text]
  | branch name attributes children => branch name attributes children :: subtrees children

/-- Some elements and all elements in them. -/
def subtrees : List Element → List Element
  | [] => []
  | element :: rest => element.subtree ++ subtrees rest

end

/-- The elements of a name in an element, itself included. -/
def named (name : String) (root : Element) : List Element :=
  root.subtree.filter (·.name == name)

mutual

/-- How deep elements of a name are nested in an element, itself included. -/
def nesting (key : String) : Element → Nat
  | leaf name _ _ => if name == key then 1 else 0
  | branch name _ children => (if name == key then 1 else 0) + nestingAll key children

/-- How deep elements of a name are nested in some elements. -/
def nestingAll (key : String) : List Element → Nat
  | [] => 0
  | element :: rest => max (element.nesting key) (nestingAll key rest)

end

/-- The elements in an element that have an attribute of some value. -/
def having (key value : String) (root : Element) : List Element :=
  root.subtree.filter (·.attribute? key == some value)

/-- All identifiers that are written in an element. -/
def ids (root : Element) : List String :=
  root.subtree.filterMap (·.attribute? "id")

end Bindery.Xml.Element
