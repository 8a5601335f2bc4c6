/-
# Case folding

Archive names and identifiers clash when they differ only in the case of ASCII letters, so they are
compared folded: `A` to `Z` are lowered, and every other character, accented letters included,
stands for itself.
-/
namespace Bindery.Text

/-- The text with its ASCII capitals lowered. -/
def foldCase (text : String) : String :=
  text.map Char.toLower

end Bindery.Text
