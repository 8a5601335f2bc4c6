/-
# JSON

Reads the text of a JSON document.  Beyond the standard, the names `NaN`, `Infinity` and `-Infinity`
are numbers; and where a key comes twice in a table, the last value counts.  Control characters may
not stand in strings, and nothing but blanks may follow the value.  A string can spell half of a
character alone, so strings are texts of code points.
-/
import Bindery.Text.CodePoint
import Bindery.Text.Scan

namespace Bindery.Json

open Scan Text

/-! ## 1. Strings -/

/-- Whether a character may stand between values. -/
def isBlank (c : Char) : Bool :=
  c = ' ' || c = '\t' || c = '\n' || c = '\r'

/-- The character that stands for itself or for a control character after a backslash. -/
def escaped? (c : Char) : Option Char :=
  match c with
  | '"' => some '"'
  | '\\' => some '\\'
  | '/' => some '/'
  | 'b' => some '\x08'
  | 'f' => some '\x0c'
  | 'n' => some '\n'
  | 'r' => some '\r'
  | 't' => some '\t'
  | _ => none

/-- The first half of a character that is written in two. -/
def isHighSurrogate (code : Nat) : Bool := 0xd800 ≤ code && code ≤ 0xdbff

/-- The second half of a character that is written in two. -/
def isLowSurrogate (code : Nat) : Bool := 0xdc00 ≤ code && code ≤ 0xdfff

/-- The character that two halves make. -/
def joinSurrogates (high low : Nat) : Char :=
  Char.ofNat (0x10000 + (high - 0xd800) * 0x400 + (low - 0xdc00))

/-- The second half at the front of a text, after a first half.  Digits that are none are a fault
here already. -/
def lowSurrogate? : List Char → Except ReadFault (Option Nat)
  | '\\' :: 'u' :: a :: b :: c :: d :: _ =>
    match hexNumber? [a, b, c, d] with
    | none => .error .malformed
    | some code => .ok (if isLowSurrogate code then some code else none)
  | _ => .ok none

/-- The code points of a string up to its closing quote, and the text after it.  `before` holds those
that came before, the last first, and the next `skipped` characters belong to an escape that has been
read. -/
def stringBody (before : List CodePoint) :
    (text : List Char) → (skipped : Nat) → Except ReadFault (List CodePoint × List Char)
  | [], _ => .error .malformed
  | _ :: rest, skipped + 1 => stringBody before rest skipped
  | '"' :: rest, 0 => .ok (before.reverse, rest)
  | '\\' :: rest, 0 =>
    match rest with
    | 'u' :: a :: b :: c :: d :: after =>
      match hexNumber? [a, b, c, d] with
      | none => .error .malformed
      | some code => do
        match ← if isHighSurrogate code then lowSurrogate? after else .ok none with
        | some low => stringBody (.char (joinSurrogates code low) :: before) rest 11
        | none => stringBody (.ofNat code :: before) rest 5
    | c :: _ =>
      match escaped? c with
      | some character => stringBody (.char character :: before) rest 1
      | none => .error .malformed
    | [] => .error .malformed
  | c :: rest, 0 =>
    if c.toNat < 0x20 then .error .malformed else stringBody (.char c :: before) rest 0

/-- Takes a string. -/
def string : Scan CodePoints := do
  expect "\""
  let points ← fun text => stringBody [] text 0
  return ⟨points⟩

/-! ## 2. Numbers -/

/-- The digits at the front of a text. -/
def digits (text : List Char) : List Char × List Char :=
  (text.takeWhile isDigit, text.dropWhile isDigit)

/-- The digits of a whole number: a zero alone, or digits that do not start with a zero. -/
def wholeDigits? : List Char → Option (List Char × List Char)
  | '0' :: rest => some (['0'], rest)
  | c :: rest => if isDigit c then some (digits (c :: rest)) else none
  | [] => none

/-- Takes a number: whole, unless it has a fraction or an exponent. -/
def number : Scan (Value CodePoints) := do
  let negative ← word "-"
  match ← found wholeDigits? with
  | none => fail
  | some whole =>
    let fraction ← found (fraction? digits)
    let exponent ← found (exponent? digits)
    match fraction, exponent with
    | none, none => StateT.lift (wholeNumber negative whole)
    | _, _ => return decimalOf negative whole (fraction.getD []) exponent

/-! ## 3. Values -/

/-- Takes blanks. -/
def blanks : Scan Unit := skipWhile isBlank

/-- Takes a value that is written as a word or a number. -/
def scalar : Scan (Value CodePoints) := do
  if ← word "null" then return .null
  if ← word "true" then return .bool true
  if ← word "false" then return .bool false
  if ← word "NaN" then return .decimal .notANumber
  if ← word "Infinity" then return .decimal (.infinite false)
  if ← word "-Infinity" then return .decimal (.infinite true)
  number

/-- How many lists and tables may be nested in one another.  The limit is that of the stack, less what
the callers of the reader need of it.  Only the readers of texts count it, since a short text can nest as
many brackets as it has characters; tables of contents and directories are followed however deep they are. -/
def maxDepth : Nat := 990

mutual

/-- Takes a value; `depth` is how many lists and tables may be nested in one another. -/
def value : (fuel depth : Nat) → Scan (Value CodePoints)
  | 0, _ => fail
  | fuel + 1, depth => do
    match ← peek with
    | some '"' => return .text (← string)
    | some '[' =>
      let depth ← deeper 1 depth
      skip
      blanks
      if ← word "]" then return .list []
      return .list (← items fuel depth)
    | some '\x7b' =>
      let depth ← deeper 1 depth
      skip
      blanks
      if ← word "\x7d" then return .table []
      return .table (← fields fuel depth [])
    | _ => scalar

/-- Takes the items of a list up to its closing bracket. -/
def items : (fuel depth : Nat) → Scan (List (Value CodePoints))
  | 0, _ => fail
  | fuel + 1, depth => do
    let item ← value fuel depth
    blanks
    if ← word "]" then return [item]
    expect ","
    blanks
    return item :: (← items fuel depth)

/-- Takes the fields of a table up to its closing brace; `before` holds those that came before. -/
def fields : (fuel depth : Nat) → (before : Value.Fields CodePoints) →
    Scan (Value.Fields CodePoints)
  | 0, _, _ => fail
  | fuel + 1, depth, before => do
    let key ← string
    blanks
    expect ":"
    blanks
    let after := Value.Fields.set key (← value fuel depth) before
    blanks
    if ← word "\x7d" then return after
    expect ","
    blanks
    fields fuel depth after

end

/-- The value of a JSON document.  Every character costs at most two steps. -/
def read (text : String) : Except ReadFault (Value CodePoints) :=
  Scan.all (do
    blanks
    let value ← value (2 * text.length + 2) maxDepth
    blanks
    return value) text.toList

end Bindery.Json
