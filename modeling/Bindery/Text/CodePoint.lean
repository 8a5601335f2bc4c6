/-
# Code points

A text is a sequence of code points, and in some places one of them can be a surrogate that stands alone.
JSON spells such a code point by its number, though no file in UTF-8 can hold it.  A text of this kind is
compared and kept as it is.  Where only characters will do, it is shown with U+FFFF for each surrogate
(`CodePoints.shown`): neither may stand in an XML document, so nothing that refuses the one takes the other.
-/
namespace Bindery.Text

/-! ## 1. Code points -/

/-- A Unicode code point: a character, or a surrogate that stands alone and so is no character. -/
inductive CodePoint where
  | char (c : Char)
  | surrogate (code : Nat)
  deriving DecidableEq, Repr

namespace CodePoint

/-- The code point of a number. -/
def ofNat (code : Nat) : CodePoint :=
  if code.isValidChar then .char (Char.ofNat code) else .surrogate code

/-- The number of a code point. -/
def toNat : CodePoint → Nat
  | .char c => c.toNat
  | .surrogate code => code

/-- The character, unless the code point is a surrogate. -/
def char? : CodePoint → Option Char
  | .char c => some c
  | .surrogate _ => none

/-- The text that code points spell; nothing if a surrogate is among them. -/
def text? (points : List CodePoint) : Option String :=
  (points.mapM char?).map String.ofList

end CodePoint

/-! ## 2. Texts -/

/-- A text that may hold surrogates. -/
structure CodePoints where
  points : List CodePoint
  deriving DecidableEq, Repr

namespace CodePoints

/-- The code points of a text of characters. -/
def ofText (text : String) : CodePoints :=
  ⟨text.toList.map .char⟩

/-- The character that shows a code point. -/
def shownPoint : CodePoint → Char
  | .char c => c
  | .surrogate _ => '\uffff'

/-- The text that shows code points. -/
def shown (text : CodePoints) : String :=
  String.ofList (text.points.map shownPoint)

instance : Coe String CodePoints := ⟨ofText⟩

/-- Only a text of characters is shown as it is. -/
instance : CoeOut CodePoints String := ⟨shown⟩

@[simp] theorem shown_ofText (text : String) : (ofText text).shown = text := by
  have hpoints : (text.toList.map CodePoint.char).map shownPoint = text.toList := by
    rw [List.map_map]
    exact List.map_id _
  rw [shown, ofText, hpoints, String.ofList_toList]

end CodePoints
end Bindery.Text
