/-
# Texts that can be read in full

Two faults of reading do not mean that a text is malformed: a numeral can be too long to be converted, and
values can be nested too deeply.  Neither happens to a text with short numerals and few brackets.
-/
import Bindery.Text.Scan

namespace Bindery.Scan

/-- No numeral of a text is too long to be converted.  Underscores may stand between the digits. -/
def ShortNumerals (text : List Char) : Prop :=
  ∀ block, block <:+: text → (∀ c ∈ block, isDigit c = true ∨ c = '_') →
    block.countP isDigit ≤ Text.maxNumeralLength

/-- How many brackets and braces a text opens. -/
def openings (text : List Char) : Nat :=
  text.countP fun c => c = '[' || c = '\x7b'

end Bindery.Scan
