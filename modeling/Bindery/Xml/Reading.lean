/-
# Reading documents

An XML document is read back into a tree of elements and texts: references are expanded, the ends of
lines become line feeds, and a blank in an attribute value becomes a space.  `Node.read` takes
documents without comments, sections and declarations of their own, and refuses all that XML forbids
in them; `Node.withoutLayout` leaves out the blank texts that only lay the elements out on lines.
-/
import Bindery.Text.Lines
import Bindery.Xml.Element

namespace Bindery.Xml

/-! ## 1. Trees as they are read -/

/-- A text, or an element with what stands between its tags. -/
inductive Node where
  | text (characters : String)
  | element (name : String) (attributes : List Attribute) (content : List Node)
  deriving Repr, Inhabited

/-- Whether a character is a blank of XML. -/
def isBlank (c : Char) : Bool :=
  c = ' ' || c = '\t' || c = '\n' || c = '\r'

namespace Node

/-- Whether a node is an element. -/
def isElement : Node → Bool
  | text _ => false
  | element _ _ _ => true

/-- Whether a node is a text of blanks. -/
def isBlankText : Node → Bool
  | text characters => characters.toList.all isBlank
  | element _ _ _ => false

mutual

/-- The node without the blank texts that stand beside elements. -/
def withoutLayout : Node → Node
  | text characters => text characters
  | element name attributes content =>
    element name attributes (allWithoutLayout (content.any isElement) content)

/-- Some nodes without their layout; blank texts among them are left out if `besideElements`. -/
def allWithoutLayout (besideElements : Bool) : List Node → List Node
  | [] => []
  | node :: rest =>
    if besideElements && node.isBlankText then allWithoutLayout besideElements rest
    else node.withoutLayout :: allWithoutLayout besideElements rest

end

end Node

namespace Element

mutual

/-- The tree that an element stands for; an empty text is no text. -/
def toNode : Element → Node
  | leaf name attributes text =>
    .element name attributes (if text = "" then [] else [.text text])
  | branch name attributes children => .element name attributes (allToNodes children)

/-- The trees that some elements stand for. -/
def allToNodes : List Element → List Node
  | [] => []
  | element :: rest => element.toNode :: allToNodes rest

end

end Element

/-! ## 2. Characters and references -/

/-- The character of a number in digits, if XML allows it. -/
def numbered? (base : Nat) (digits : List Char) : Option Char :=
  let values := digits.map fun c =>
    if '0' ≤ c ∧ c ≤ '9' then c.toNat - '0'.toNat
    else if 'a' ≤ c ∧ c ≤ 'f' then c.toNat - 'a'.toNat + 10
    else if 'A' ≤ c ∧ c ≤ 'F' then c.toNat - 'A'.toNat + 10
    else 16
  let code := values.foldl (fun number value => base * number + value) 0
  if digits ≠ [] ∧ values.all (· < base) ∧ code.isValidChar ∧ isLegal (Char.ofNat code) then
    some (Char.ofNat code)
  else none

/-- What a reference stands for, given what is between `&` and `;`. -/
def reference? (name : List Char) : Option Char :=
  match name with
  | '#' :: 'x' :: digits => numbered? 16 digits
  | '#' :: digits => numbered? 10 digits
  | _ => [("lt", '<'), ("gt", '>'), ("amp", '&'), ("quot", '"'), ("apos", '\'')].lookup
      (String.ofList name)

/-- A text with its references expanded.  `plain` says what any other character stands for, and
`name` holds what came after an `&` that is still open, the last first. -/
def expand (plain : Char → Char) (name : Option (List Char)) : List Char → Option (List Char)
  | [] => if name.isNone then some [] else none
  | c :: rest =>
    match name with
    | none => if c = '&' then expand plain (some []) rest else (expand plain none rest).map (plain c :: ·)
    | some name =>
      if c = ';' then do
        let character ← reference? name.reverse
        return character :: (← expand plain none rest)
      else expand plain (some (c :: name)) rest

/-- What stands between tags. -/
def readText (text : List Char) : Option (List Char) :=
  expand id none text

/-- What stands between the quotes of a value; a blank is read as a space. -/
def readValue (text : List Char) : Option String :=
  (expand (fun c => if isBlank c then ' ' else c) none text).map String.ofList

/-! ## 3. Tags -/

/-- Whether a character may start a name. -/
def startsName (c : Char) : Bool :=
  ('a' ≤ c && c ≤ 'z') || ('A' ≤ c && c ≤ 'Z') || c = '_' || c = ':'

/-- Whether a text is a name. -/
def isName : List Char → Bool
  | [] => false
  | c :: rest =>
    startsName c && rest.all fun c => startsName c || ('0' ≤ c && c ≤ '9') || c = '-' || c = '.'

/-- The name of an attribute from what stands before its value: a space, the name, an equals sign. -/
def attributeName? (text : List Char) : Option String :=
  match text with
  | ' ' :: rest =>
    let name := rest.dropLast
    if rest.getLast? = some '=' ∧ isName name then some (String.ofList name) else none
  | _ => none

/-- The attributes of a tag that has been cut at its quotes; `key` stands before the first value. -/
def readAttributes (key : List Char) : List (List Char) → Option (List Attribute)
  | [] => if key = [] then some [] else none
  | [_] => none
  | value :: next :: rest => do
    let name ← attributeName? key
    let value ← readValue value
    return ⟨name, value⟩ :: (← readAttributes next rest)

/-- A tag. -/
inductive Tag where
  | opening (name : String) (attributes : List Attribute)
  | closing (name : String)
  /-- A tag that opens an element and closes it. -/
  | whole (name : String) (attributes : List Attribute)
  deriving Repr

/-- The name and the attributes in a tag; no attribute may come twice. -/
def readTagBody (body : List Char) : Option (String × List Attribute) := do
  let pieces := body.splitOn '"'
  let first := pieces.headD []
  let name := first.takeWhile (· ≠ ' ')
  if !isName name then none
  let attributes ← readAttributes (first.dropWhile (· ≠ ' ')) pieces.tail
  if (attributes.map (·.name)).Nodup then return (String.ofList name, attributes) else none

/-- Reads what stands between the brackets of a tag. -/
def Tag.read (text : List Char) : Option Tag :=
  match text with
  | '/' :: name => if isName name then some (.closing (String.ofList name)) else none
  | _ =>
    if text.getLast? = some '/' then
      (readTagBody text.dropLast).map fun (name, attributes) => .whole name attributes
    else (readTagBody text).map fun (name, attributes) => .opening name attributes

/-- A tag with the text that follows it, read from what stands up to the next `<`. -/
def readPiece (piece : List Char) : Option (Tag × List Char) := do
  let tag ← Tag.read (piece.takeWhile (· ≠ '>'))
  match piece.dropWhile (· ≠ '>') with
  | [] => none
  | _ :: rest => if rest.contains '>' then none else return (tag, ← readText rest)

/-! ## 4. Documents -/

/-- An element whose closing tag is still to come, with its content so far, the last first. -/
structure OpenElement where
  name : String
  attributes : List Attribute
  content : List Node

/-- Adds nodes to the content of the innermost open element. -/
def addContent (nodes : List Node) : List OpenElement → List OpenElement
  | [] => []
  | inner :: outer => { inner with content := nodes ++ inner.content } :: outer

/-- A text as a node; an empty text is none. -/
def textNodes (text : List Char) : List Node :=
  if text = [] then [] else [.text (String.ofList text)]

/-- Takes a tag and the text that follows it.  The last of the open elements stands for the document
itself. -/
def readStep (stack : List OpenElement) (item : Tag × List Char) : Option (List OpenElement) :=
  match item.1, stack with
  | .opening name attributes, stack => some (⟨name, attributes, textNodes item.2⟩ :: stack)
  | .whole name attributes, stack =>
    some (addContent (textNodes item.2 ++ [.element name attributes []]) stack)
  | .closing name, inner :: outer =>
    if inner.name = name ∧ outer ≠ [] then
      some (addContent
        (textNodes item.2 ++ [.element name inner.attributes inner.content.reverse]) outer)
    else none
  | .closing _, [] => none

/-- The tree of a document.  Around its root there are blanks only, and none of them as a reference. -/
def Node.read (document : String) : Option Node := do
  if !isLegalText document then none
  if !Element.declaration.toList.isPrefixOf document.toList then none
  let text := Text.plainLines (document.toList.drop Element.declaration.length)
  match text.splitOn '<' with
  | [] => none
  | before :: pieces =>
    let after := ((pieces.getLastD []).dropWhile (· ≠ '>')).drop 1
    if !before.all isBlank || !after.all isBlank then none
    let stack ← (← pieces.mapM readPiece).foldlM readStep [⟨"", [], []⟩]
    match stack with
    | [whole] =>
      match whole.content.filter (!·.isBlankText) with
      | [.element name attributes content] => return .element name attributes content
      | _ => none
    | _ => none

end Bindery.Xml
