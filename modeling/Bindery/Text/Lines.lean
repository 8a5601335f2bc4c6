/-
# Ends of lines

A line may end in a carriage return, a line feed, or one after the other.
-/
namespace Bindery.Text

/-- A text in which every line ends in a line feed alone. -/
def plainLines : List Char → List Char
  | '\r' :: '\n' :: rest => '\n' :: plainLines rest
  | c :: rest => (if c = '\r' then '\n' else c) :: plainLines rest
  | [] => []

end Bindery.Text
