/-
# Scanning text

A scan takes characters from the front of a text and gives what they denote, or finds the text
malformed.  The scans here are shared by both formats of recipe files.
-/
import Bindery.Text.Digits
import Bindery.Value

namespace Bindery

/-- Why a text cannot be read. -/
inductive ReadFault where
  | malformed
  /-- A whole number has more digits than numerals that are converted may have. -/
  | numeralTooLong
  /-- Lists and tables are nested deeper than they are read. -/
  | nestedTooDeeply
  deriving DecidableEq, Repr

/-- Takes characters from the front of a text. -/
abbrev Scan := StateT (List Char) (Except ReadFault)

namespace Scan

/-! ## 1. Characters -/

/-- Finds the text malformed. -/
def fail {α : Type} : Scan α := fun _ => .error .malformed

/-- Goes deeper into nested values: takes `cost` from what is left of the depth. -/
def deeper (cost depth : Nat) : Scan Nat := fun text =>
  if depth < cost then .error .nestedTooDeeply else .ok (depth - cost, text)

/-- The next character, which stays. -/
def peek : Scan (Option Char) := fun text => .ok (text.head?, text)

/-- Takes the next character. -/
def skip : Scan Unit := fun text => .ok ((), text.tail)

/-- Takes characters as long as they are of a class. -/
def skipWhile (class_ : Char → Bool) : Scan Unit := fun text => .ok ((), text.dropWhile class_)

/-- Takes and gives characters as long as they are of a class. -/
def takeWhile (class_ : Char → Bool) : Scan (List Char) := fun text =>
  .ok (text.takeWhile class_, text.dropWhile class_)

/-- Takes a word if the text starts with it; says whether it does. -/
def word (word : String) : Scan Bool := fun text =>
  if word.toList.isPrefixOf text then .ok (true, text.drop word.length) else .ok (false, text)

/-- Takes a word that has to be there. -/
def expect (expected : String) : Scan Unit := do
  if !(← word expected) then fail

/-- Takes what a function finds at the front of the text; says if it finds nothing. -/
def found {α : Type} (find : List Char → Option (α × List Char)) : Scan (Option α) := fun text =>
  match find text with
  | some (a, rest) => .ok (some a, rest)
  | none => .ok (none, text)

/-- Runs a scan over a whole text. -/
def all {α : Type} (scan : Scan α) (text : List Char) : Except ReadFault α :=
  match scan text with
  | .ok (a, []) => .ok a
  | .ok (_, _ :: _) => .error .malformed
  | .error fault => .error fault

/-! ## 2. Digits -/

/-- Whether a character is an ASCII digit. -/
def isDigit (c : Char) : Bool := '0' ≤ c && c ≤ '9'

/-- The value of a digit of a base up to sixteen, in either case. -/
def baseDigit? (base : Nat) (c : Char) : Option Nat :=
  let value :=
    if isDigit c then c.toNat - '0'.toNat
    else if 'a' ≤ c ∧ c ≤ 'f' then c.toNat - 'a'.toNat + 10
    else if 'A' ≤ c ∧ c ≤ 'F' then c.toNat - 'A'.toNat + 10
    else 16
  if value < base then some value else none

/-- The number that digits of a base denote; other characters are passed over. -/
def ofDigits (base : Nat) (digits : List Char) : Nat :=
  (digits.filterMap (baseDigit? base)).foldl (fun number digit => base * number + digit) 0

/-- The number that four or eight hexadecimal digits denote, if all of them are digits. -/
def hexNumber? (digits : List Char) : Option Nat :=
  (digits.mapM (baseDigit? 16)).map (·.foldl (fun number digit => 16 * number + digit) 0)

/-- A whole number from its decimal digits, unless there are too many. -/
def wholeNumber {τ : Type} (negative : Bool) (digits : List Char) : Except ReadFault (Value τ) :=
  if Text.maxNumeralLength < digits.length then .error .numeralTooLong
  else
    let number : Int := ofDigits 10 digits
    .ok (.int (if negative then -number else number))

/-! ## 3. Numbers with a fraction or an exponent -/

/-- An exponent: its sign and its digits. -/
structure Exponent where
  negative : Bool
  digits : List Char

/-- The value of an exponent. -/
def Exponent.value (exponent : Exponent) : Int :=
  if exponent.negative then -(ofDigits 10 exponent.digits : Int) else ofDigits 10 exponent.digits

/-- A number from its parts. -/
def decimalOf {τ : Type} (negative : Bool) (whole fraction : List Char) (exponent : Option Exponent) :
    Value τ :=
  .decimal (.finite negative (ofDigits 10 (whole ++ fraction))
    ((exponent.map Exponent.value).getD 0 - fraction.length))

/-- A fraction at the front of a text: a point and digits, as `digits` finds them. -/
def fraction? (digits : List Char → List Char × List Char) :
    List Char → Option (List Char × List Char)
  | '.' :: rest =>
    match digits rest with
    | ([], _) => none
    | (found, rest) => some (found, rest)
  | _ => none

/-- An exponent at the front of a text: an E, perhaps a sign, and digits, as `digits` finds them. -/
def exponent? (digits : List Char → List Char × List Char) :
    List Char → Option (Exponent × List Char)
  | e :: rest =>
    if e = 'e' ∨ e = 'E' then
      let (negative, rest) := match rest with
        | '-' :: rest => (true, rest)
        | '+' :: rest => (false, rest)
        | rest => (false, rest)
      match digits rest with
      | ([], _) => none
      | (found, rest) => some (⟨negative, found⟩, rest)
    else none
  | [] => none

end Scan
end Bindery
