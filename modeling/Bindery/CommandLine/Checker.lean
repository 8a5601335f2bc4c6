/-
# Checkers

A checker looks at the archive that was written and reports on it.  Three checkers are known: one that
finds every archive good, one that finds none good, and one that shows what it was called with.
-/
import Bindery.Fault
import Bindery.Text.Lines
import Bindery.Text.Scan

namespace Bindery.CommandLine

/-- What a checker says. -/
structure Report where
  output : String
  exitCode : Nat
  deriving DecidableEq, Repr

namespace Checker

/-! ## 1. Showing arguments -/

/-- How arguments are shown. -/
structure Style where
  endsLine : Bool
  readsEscapes : Bool
  deriving DecidableEq, Repr

/-- The style after a letter of a switch. -/
def Style.letter? (style : Style) (c : Char) : Option Style :=
  if c = 'n' then some { style with endsLine := false }
  else if c = 'e' then some { style with readsEscapes := true }
  else if c = 'E' then some { style with readsEscapes := false }
  else none

/-- The style after an argument, if it is a switch. -/
def Style.argument? (style : Style) (argument : String) : Option Style :=
  match argument.toList with
  | '-' :: c :: rest => (c :: rest).foldlM Style.letter? style
  | _ => none

/-- Takes the switches at the front of the arguments. -/
def takeStyle (style : Style) : List String → Style × List String
  | [] => (style, [])
  | argument :: rest =>
    match style.argument? argument with
    | some style => takeStyle style rest
    | none => (style, argument :: rest)

/-- The byte that a letter stands for after a backslash. -/
def letterByte? (c : Char) : Option UInt8 :=
  [('a', 7), ('b', 8), ('e', 27), ('f', 12), ('n', 10), ('r', 13), ('t', 9), ('v', 11),
    ('\\', 92)].lookup c

/-- The digits of a base at the front of a text, `most` at most, as a byte and their number; of a
number that is too great for a byte the lowest eight bits count. -/
def numberByte (base most : Nat) (text : List Char) : UInt8 × Nat :=
  let digits := (text.take most).takeWhile fun c => (Scan.baseDigit? base c).isSome
  ((Scan.ofDigits base digits).toUInt8, digits.length)

/-- What an escape stands for and how many characters it has after its backslash: a letter, `x` and
one or two hexadecimal digits, `0` and up to three octal digits, or one to three octal digits. -/
def escape? : List Char → Option (UInt8 × Nat)
  | [] => none
  | c :: rest =>
    if c = 'x' then
      match numberByte 16 2 rest with
      | (_, 0) => none
      | (byte, count) => some (byte, count + 1)
    else if c = '0' then
      let (byte, count) := numberByte 8 3 rest
      some (byte, count + 1)
    else match numberByte 8 3 (c :: rest) with
      | (_, 0) => (letterByte? c).map (·, 1)
      | found => some found

/-- The bytes of a text. -/
def bytesOf (text : List Char) : List UInt8 :=
  (String.ofList text).toUTF8.toList

/-- The bytes of a text with its escapes read; the next `skipped` characters belong to an escape that
has been read.  `\c` ends all output, which the second part says. -/
def readEscapes : (skipped : Nat) → List Char → List UInt8 × Bool
  | _, [] => ([], false)
  | skipped + 1, _ :: rest => readEscapes skipped rest
  | 0, c :: rest =>
    if c = '\\' then
      if rest.head? = some 'c' then ([], true)
      else match escape? rest with
        | some (byte, count) =>
          let (after, ends) := readEscapes count rest
          (byte :: after, ends)
        | none =>
          let (after, ends) := readEscapes 0 rest
          (bytesOf [c] ++ after, ends)
    else
      let (after, ends) := readEscapes 0 rest
      (bytesOf [c] ++ after, ends)

/-- The bytes of the arguments shown on a line. -/
def shownBytes (arguments : List String) : List UInt8 :=
  let (style, words) := takeStyle ⟨true, false⟩ arguments
  let text := (" ".intercalate words).toList
  let (bytes, ends) := if style.readsEscapes then readEscapes 0 text else (bytesOf text, false)
  if style.endsLine && !ends then bytes ++ bytesOf ['\n'] else bytes

/-- The arguments shown on a line, if their bytes are a text. -/
def shown? (arguments : List String) : Option String :=
  (String.fromUTF8? ⟨(shownBytes arguments).toArray⟩).map fun text =>
    String.ofList (Text.plainLines text.toList)

/-! ## 2. Running a checker -/

/-- Runs a checker with some arguments. -/
def run (name : String) (arguments : List String) : Except Fault Report :=
  if (name :: arguments).any (·.toList.contains '\x00') then .error .pathWithNul
  else match name with
    | "true" => .ok ⟨"", 0⟩
    | "false" => .ok ⟨"", 1⟩
    | "echo" =>
      match shown? arguments with
      | some output => .ok ⟨output, 0⟩
      | none => .error .reportNotText
    | _ => .error (.refused ⟨.notFound, name⟩)

end Checker
end Bindery.CommandLine
