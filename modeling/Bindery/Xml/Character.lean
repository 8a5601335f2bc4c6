/-
# Characters of XML

The characters that may stand in an XML 1.0 document: tab, line feed, carriage return, and every
character from the space on but U+FFFE and U+FFFF.
-/
namespace Bindery.Xml

/-- Whether XML allows a character. -/
def isLegal (c : Char) : Bool :=
  c = '\t' || c = '\n' || c = '\r' || (0x20 ≤ c.toNat && c.toNat ≠ 0xfffe && c.toNat ≠ 0xffff)

/-- The first character of a text that XML does not allow. -/
def illegal? (text : String) : Option Char :=
  text.toList.find? (!isLegal ·)

end Bindery.Xml
