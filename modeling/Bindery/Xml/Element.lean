/-
# Elements and their text

An element holds either a text or other elements, so its written form can be laid out on lines: two
spaces per level, but never more than sixty, and every element on lines of its own.  An element that
holds a text keeps it between its tags, even an empty one.
-/
import Bindery.Xml.Character

namespace Bindery.Xml

/-! ## 1. Elements -/

/-- An attribute with its value; namespace declarations are attributes too. -/
structure Attribute where
  name : String
  value : String
  deriving DecidableEq, Repr

/-- An element: around a text, or around other elements. -/
inductive Element where
  | leaf (name : String) (attributes : List Attribute) (text : String)
  | branch (name : String) (attributes : List Attribute) (children : List Element)
  deriving Repr, Inhabited

/-- Whether XML allows all characters of a text. -/
def isLegalText (text : String) : Bool :=
  text.toList.all isLegal

namespace Element

/-- The name of an element. -/
def name : Element → String
  | leaf name _ _ => name
  | branch name _ _ => name

/-- The attributes of an element. -/
def attributes : Element → List Attribute
  | leaf _ attributes _ => attributes
  | branch _ attributes _ => attributes

mutual

/-- Whether XML allows all characters of the texts and attribute values of an element. -/
def isLegal : Element → Bool
  | leaf _ attributes text => attributes.all (isLegalText ·.value) && isLegalText text
  | branch _ attributes children => attributes.all (isLegalText ·.value) && allLegal children

/-- Whether XML allows all characters of some elements. -/
def allLegal : List Element → Bool
  | [] => true
  | element :: rest => element.isLegal && allLegal rest

end

end Element

/-! ## 2. Escapes -/

/-- How a character of a text is written. -/
def escapeInText (c : Char) : List Char :=
  if c = '<' then "&lt;".toList
  else if c = '>' then "&gt;".toList
  else if c = '&' then "&amp;".toList
  else if c = '\r' then "&#13;".toList
  else [c]

/-- How a character of an attribute value is written. -/
def escapeInValue (c : Char) : List Char :=
  if c = '"' then "&quot;".toList
  else if c = '\n' then "&#10;".toList
  else if c = '\t' then "&#9;".toList
  else escapeInText c

/-! ## 3. Layout -/

/-- The widest margin. -/
def maxMargin : Nat := 60

/-- The margin of a level. -/
def margin (level : Nat) : List Char :=
  List.replicate (min (2 * level) maxMargin) ' '

/-- An attribute in a tag. -/
def Attribute.print (item : Attribute) : List Char :=
  ' ' :: item.name.toList ++ '=' :: '"' ::
    item.value.toList.flatMap escapeInValue ++ ['"']

/-- What stands in a start tag between its brackets. -/
def tag (name : String) (attributes : List Attribute) : List Char :=
  name.toList ++ attributes.flatMap Attribute.print

/-- An end tag with the end of its line. -/
def endTag (name : String) : List Char :=
  '<' :: '/' :: name.toList ++ ['>', '\n']

namespace Element

mutual

/-- The lines of an element at a level. -/
def print (level : Nat) : Element → List Char
  | leaf name attributes text =>
    margin level ++ '<' :: tag name attributes ++ '>' ::
      text.toList.flatMap escapeInText ++ endTag name
  | branch name attributes [] => margin level ++ '<' :: tag name attributes ++ ['/', '>', '\n']
  | branch name attributes (first :: rest) =>
    margin level ++ '<' :: tag name attributes ++ '>' :: '\n' ::
      printAll (level + 1) (first :: rest) ++ margin level ++ endTag name

/-- The lines of neighbouring elements at a level. -/
def printAll (level : Nat) : List Element → List Char
  | [] => []
  | element :: rest => print level element ++ printAll level rest

end

/-- The first line of every document. -/
def declaration : String := "<?xml version='1.0' encoding='UTF-8'?>\n"

/-- The document with an element at its root. -/
def document (root : Element) : String :=
  declaration ++ String.ofList (print 0 root)

end Element
end Bindery.Xml
