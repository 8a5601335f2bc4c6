/-
# Quoted text

The form in which messages show a text: between single quotes, or between double quotes when the
text holds a single quote and no double quote.  The backslash and the quote in use get a backslash,
line feed, carriage return and tab their letters, and every other code point that is not printable
its number in two, four or eight lower-case hexadecimal digits, the shortest of the three that fits.
-/
import Bindery.Text.CodePoint
import Bindery.Text.Printable

namespace Bindery.Text

/-! ## 1. Escapes -/

/-- A number in lower-case hexadecimal with at least `width` digits. -/
def hex (width number : Nat) : List Char :=
  let digits := Nat.toDigits 16 number
  List.replicate (width - digits.length) '0' ++ digits

/-- The escape of a code point that is not printable. -/
def numberEscape (code : Nat) : List Char :=
  if code < 0x100 then '\\' :: 'x' :: hex 2 code
  else if code < 0x10000 then '\\' :: 'u' :: hex 4 code
  else '\\' :: 'U' :: hex 8 code

/-- How one code point is written between two `quote`s. -/
def quotedPoint (quote : Char) : CodePoint → List Char
  | .surrogate code => numberEscape code
  | .char c =>
    if c = '\\' ∨ c = quote then ['\\', c]
    else if c = '\n' then ['\\', 'n']
    else if c = '\r' then ['\\', 'r']
    else if c = '\t' then ['\\', 't']
    else if isPrintable c.toNat then [c]
    else numberEscape c.toNat

/-! ## 2. Quoting -/

/-- The quote that a text is written between. -/
def quoteFor (points : List CodePoint) : Char :=
  if .char '\'' ∈ points ∧ .char '"' ∉ points then '"' else '\''

/-- The quoted form of a sequence of code points. -/
def quotedPoints (points : List CodePoint) : String :=
  let quote := quoteFor points
  String.ofList (quote :: points.flatMap (quotedPoint quote) ++ [quote])

/-- The quoted form of a text. -/
def quoted (text : String) : String :=
  quotedPoints (text.toList.map .char)

end Bindery.Text
