/-
# TOML

Reads the text of a TOML 1.0 document.  A document is a row of lines: a table header, the header of an
item of a list of tables, or a key with its value.  A key may be dotted; the tables on its way are made
where there are none.  Marks remember which tables and lists may not be opened again.
-/
import Bindery.Text.Scan

namespace Bindery.Toml

open Scan

/-! ## 1. Classes of characters -/

/-- Whether a character may stand between the parts of a line. -/
def isBlank (c : Char) : Bool := c = ' ' || c = '\t'

/-- Whether a character may stand between lines. -/
def isBlankOrNewline (c : Char) : Bool := isBlank c || c = '\n'

/-- Whether a character may stand in a key without quotes. -/
def isBareKey (c : Char) : Bool :=
  ('a' ≤ c && c ≤ 'z') || ('A' ≤ c && c ≤ 'Z') || isDigit c || c = '-' || c = '_'

/-- Whether a character may not stand in a comment or in a string on one line. -/
def isControl (c : Char) : Bool :=
  (c.toNat < 0x20 && c ≠ '\t') || c.toNat = 0x7f

/-- Whether a character may not stand in a string on several lines. -/
def isControlInLines (c : Char) : Bool := isControl c && c ≠ '\n'

/-! ## 2. Blanks and comments -/

/-- Takes blanks. -/
def blanks : Scan Unit := skipWhile isBlank

/-- Takes a comment, if there is one, up to the end of its line. -/
def comment : Scan Unit := do
  if ← word "#" then
    let content ← takeWhile (· ≠ '\n')
    if content.any isControl then fail

/-- Takes blanks, ends of lines and comments; `fuel` bounds the number of lines. -/
def lines : (fuel : Nat) → Scan Unit
  | 0 => return
  | fuel + 1 => do
    skipWhile isBlankOrNewline
    if (← peek) = some '#' then
      comment
      lines fuel

/-! ## 3. Strings -/

/-- The character that a letter stands for after a backslash. -/
def escaped? (c : Char) : Option Char :=
  match c with
  | 'b' => some '\x08'
  | 't' => some '\t'
  | 'n' => some '\n'
  | 'f' => some '\x0c'
  | 'r' => some '\r'
  | '"' => some '"'
  | '\\' => some '\\'
  | _ => none

/-- How many characters a backslash and blanks up to the end of the line and beyond take; they join
two lines. -/
def lineJoin? (afterBackslash : List Char) : Option Nat :=
  match afterBackslash.dropWhile isBlank with
  | '\n' :: rest =>
    some (afterBackslash.length - (rest.dropWhile isBlankOrNewline).length)
  | [] => if afterBackslash = [] then none else some afterBackslash.length
  | _ => none

/-- The character of a number in hexadecimal digits, of which there must be `width`. -/
def numbered? (width : Nat) (text : List Char) : Option Char :=
  if text.length < width then none
  else (hexNumber? (text.take width)).bind fun code =>
    if code.isValidChar then some (Char.ofNat code) else none

/-- What an escape stands for and how many characters it has after its backslash. -/
def escape? (severalLines : Bool) (afterBackslash : List Char) : Option (List Char × Nat) :=
  match if severalLines then lineJoin? afterBackslash else none with
  | some count => some ([], count)
  | none =>
    match afterBackslash with
    | 'u' :: rest => (numbered? 4 rest).map fun c => ([c], 5)
    | 'U' :: rest => (numbered? 8 rest).map fun c => ([c], 9)
    | c :: _ => (escaped? c).map fun c => ([c], 1)
    | [] => none

/-- The characters of a string between double quotes, and the text after it.  `before` holds the
characters that came before, the last first, and the next `skipped` characters belong to an escape
that has been read. -/
def basicBody (severalLines : Bool) (before : List Char) :
    (text : List Char) → (skipped : Nat) → Except ReadFault (List Char × List Char)
  | [], _ => .error .malformed
  | _ :: rest, skipped + 1 => basicBody severalLines before rest skipped
  | '"' :: rest, 0 =>
    if !severalLines then .ok (before.reverse, rest)
    else match rest with
      | '"' :: '"' :: after => .ok (before.reverse, after)
      | _ => basicBody severalLines ('"' :: before) rest 0
  | '\\' :: rest, 0 =>
    match escape? severalLines rest with
    | some (characters, count) =>
      basicBody severalLines (characters.reverse ++ before) rest count
    | none => .error .malformed
  | c :: rest, 0 =>
    if (if severalLines then isControlInLines c else isControl c) then .error .malformed
    else basicBody severalLines (c :: before) rest 0

/-- The characters of a string between single quotes, and the text after it. -/
def literalBody (severalLines : Bool) (before : List Char) :
    (text : List Char) → Except ReadFault (List Char × List Char)
  | [] => .error .malformed
  | '\'' :: rest =>
    if !severalLines then .ok (before.reverse, rest)
    else match rest with
      | '\'' :: '\'' :: after => .ok (before.reverse, after)
      | _ => literalBody severalLines ('\'' :: before) rest
  | c :: rest =>
    if (if severalLines then isControlInLines c else isControl c) then .error .malformed
    else literalBody severalLines (c :: before) rest

/-- Up to two quotes that stand right after the end of a string on several lines belong to it. -/
def trailingQuotes (quote : Char) : List Char → List Char × List Char
  | a :: b :: rest =>
    if a ≠ quote then ([], a :: b :: rest)
    else if b ≠ quote then ([a], b :: rest)
    else ([a, b], rest)
  | [a] => if a = quote then ([a], []) else ([], [a])
  | [] => ([], [])

/-- Takes what follows the three quotes that open a string on several lines. -/
def stringOnLines (quote : Char)
    (body : List Char → Except ReadFault (List Char × List Char)) : Scan String := fun text => do
  let (characters, rest) ← body (match text with | '\n' :: after => after | _ => text)
  let (quotes, rest) := trailingQuotes quote rest
  return (String.ofList (characters ++ quotes), rest)

/-- Takes a string on one line, its quote taken. -/
def stringOnLine (body : List Char → Except ReadFault (List Char × List Char)) : Scan String :=
  fun text => do
    let (characters, rest) ← body text
    return (String.ofList characters, rest)

/-- Takes a string between double quotes on one line. -/
def basicString : Scan String := do
  expect "\""
  stringOnLine (basicBody false [] · 0)

/-- Takes a string between single quotes on one line. -/
def literalString : Scan String := do
  expect "'"
  stringOnLine (literalBody false [])

/-- Takes a string of any of the four forms. -/
def string : Scan String := do
  if ← word "\"\"\"" then stringOnLines '"' (basicBody true [] · 0)
  else if ← word "'''" then stringOnLines '\'' (literalBody true [])
  else if (← peek) = some '"' then basicString
  else literalString

/-! ## 4. Keys -/

/-- Takes a part of a key. -/
def keyPart : Scan String := do
  match ← peek with
  | some '"' => basicString
  | some '\'' => literalString
  | _ =>
    let name ← takeWhile isBareKey
    if name.isEmpty then fail
    return String.ofList name

/-- Takes the parts of a key that follow its first part. -/
def moreKeyParts : (fuel : Nat) → Scan (List String)
  | 0 => return []
  | fuel + 1 => do
    blanks
    if ← word "." then
      blanks
      let part ← keyPart
      return part :: (← moreKeyParts fuel)
    else return []

/-- Takes a key: its parts, of which there is at least one. -/
def key (fuel : Nat) : Scan (List String) := do
  let part ← keyPart
  return part :: (← moreKeyParts fuel)

/-! ## 5. Dates and times -/

/-- A number of exactly `width` digits between two bounds, at the front of a text. -/
def fixedNumber? (width least greatest : Nat) (text : List Char) : Option (Nat × List Char) :=
  let digits := text.take width
  let number := ofDigits 10 digits
  if digits.length = width ∧ digits.all isDigit ∧ least ≤ number ∧ number ≤ greatest then
    some (number, text.drop width)
  else none

/-- A character at the front of a text. -/
def after? (c : Char) : List Char → Option (List Char)
  | [] => none
  | d :: rest => if d = c then some rest else none

/-- A day at the front of a text; it need not be in the calendar. -/
def date? (text : List Char) : Option (Date × List Char) := do
  let (year, text) ← fixedNumber? 4 0 9999 text
  let (month, text) ← fixedNumber? 2 1 12 (← after? '-' text)
  let (day, text) ← fixedNumber? 2 1 31 (← after? '-' text)
  return (⟨year, month, day⟩, text)

/-- The digits of a fraction of a second as microseconds; further digits are dropped. -/
def microseconds (digits : List Char) : Nat :=
  ofDigits 10 ((digits ++ List.replicate 6 '0').take 6)

/-- The digits at the front of a text. -/
def plainDigits (text : List Char) : List Char × List Char :=
  (text.takeWhile isDigit, text.dropWhile isDigit)

/-- A time of day at the front of a text. -/
def time? (text : List Char) : Option (Time × List Char) := do
  let (hour, text) ← fixedNumber? 2 0 23 text
  let (minute, text) ← fixedNumber? 2 0 59 (← after? ':' text)
  let (second, text) ← fixedNumber? 2 0 59 (← after? ':' text)
  match fraction? plainDigits text with
  | some (digits, text) => return (⟨hour, minute, second, microseconds digits⟩, text)
  | none => return (⟨hour, minute, second, 0⟩, text)

/-- A distance from universal time at the front of a text, in minutes. -/
def offset? : List Char → Option (Int × List Char)
  | [] => none
  | c :: rest =>
    if c = 'Z' ∨ c = 'z' then some (0, rest)
    else if c = '+' ∨ c = '-' then do
      let (hour, rest) ← fixedNumber? 2 0 23 rest
      let (minute, rest) ← fixedNumber? 2 0 59 (← after? ':' rest)
      let distance : Int := hour * 60 + minute
      return (if c = '-' then -distance else distance, rest)
    else none

/-- A time of day after the letter or blank that separates it from a day. -/
def timeOfDay? : List Char → Option (Time × List Char)
  | c :: rest => if c = 'T' ∨ c = 't' ∨ c = ' ' then time? rest else none
  | [] => none

/-- Whether a year has a day more. -/
def isLeap (year : Nat) : Bool :=
  year % 4 = 0 && (year % 100 ≠ 0 || year % 400 = 0)

/-- The number of days of a month. -/
def daysIn (year month : Nat) : Nat :=
  if month = 2 then (if isLeap year then 29 else 28)
  else if [4, 6, 9, 11].contains month then 30 else 31

/-- Whether a day is in the calendar. -/
def isInCalendar (date : Date) : Bool :=
  1 ≤ date.year && date.day ≤ daysIn date.year date.month

/-- A day, or a day with a time, at the front of a text. -/
def dateOrDateTime? (text : List Char) : Option (Date × Value × List Char) := do
  let (date, text) ← date? text
  match timeOfDay? text with
  | none => return (date, .date date, text)
  | some (time, text) =>
    match offset? text with
    | some (distance, text) => return (date, .dateTime ⟨date, time, some distance⟩, text)
    | none => return (date, .dateTime ⟨date, time, none⟩, text)

/-! ## 6. Numbers -/

/-- Further digits of a class, after a digit; a single underscore may stand before each. -/
def moreDigits (isDigit : Char → Bool) : List Char → List Char × List Char
  | '_' :: c :: rest =>
    if isDigit c then
      let (digits, rest) := moreDigits isDigit rest
      (c :: digits, rest)
    else ([], '_' :: c :: rest)
  | c :: rest =>
    if isDigit c then
      let (digits, rest) := moreDigits isDigit rest
      (c :: digits, rest)
    else ([], c :: rest)
  | [] => ([], [])

/-- Digits of a class at the front of a text; single underscores may stand between them. -/
def digitsOf (isDigit : Char → Bool) : List Char → List Char × List Char
  | c :: rest =>
    if isDigit c then
      let (digits, rest) := moreDigits isDigit rest
      (c :: digits, rest)
    else ([], c :: rest)
  | [] => ([], [])

/-- Decimal digits at the front of a text. -/
def digits : List Char → List Char × List Char := digitsOf isDigit

/-- A whole number in a base that its second character names, at the front of a text. -/
def basedNumber? : List Char → Option (Value × List Char)
  | '0' :: letter :: rest => do
    let base ← match letter with
      | 'x' => some 16
      | 'o' => some 8
      | 'b' => some 2
      | _ => none
    match digitsOf (fun c => (baseDigit? base c).isSome) rest with
    | ([], _) => none
    | (digits, rest) => some (.int (ofDigits base digits), rest)
  | _ => none

/-- The digits of a whole number: a zero alone, or digits that do not start with a zero. -/
def wholeDigits? : List Char → Option (List Char × List Char)
  | '0' :: rest => some (['0'], rest)
  | c :: rest => if isDigit c then some (digits (c :: rest)) else none
  | [] => none

/-- A decimal number at the front of a text. -/
structure NumberParts where
  negative : Bool
  whole : List Char
  fraction : Option (List Char)
  exponent : Option Exponent

/-- The parts of a decimal number at the front of a text. -/
def numberParts? (text : List Char) : Option (NumberParts × List Char) := do
  let (negative, text) := match text with
    | '-' :: rest => (true, rest)
    | '+' :: rest => (false, rest)
    | rest => (false, rest)
  let (whole, text) ← wholeDigits? text
  let (fraction, text) := match fraction? digits text with
    | some (found, rest) => (some found, rest)
    | none => (none, text)
  let (exponent, text) := match exponent? digits text with
    | some (found, rest) => (some found, rest)
    | none => (none, text)
  return (⟨negative, whole, fraction, exponent⟩, text)

/-- The number that parts denote. -/
def NumberParts.value (parts : NumberParts) : Except ReadFault Value :=
  match parts.fraction, parts.exponent with
  | none, none => wholeNumber parts.negative parts.whole
  | fraction, exponent =>
    .ok (decimalOf parts.negative parts.whole (fraction.getD []) exponent)

/-- The numbers that are written as words. -/
def namedNumbers : List (String × Decimal) :=
  [("inf", .infinite false), ("+inf", .infinite false), ("-inf", .infinite true),
   ("nan", .notANumber), ("+nan", .notANumber), ("-nan", .notANumber)]

/-- Takes a number that is written as a word. -/
def namedNumber : List (String × Decimal) → Scan Value
  | [] => fail
  | (name, number) :: rest => do
    if ← word name then return .decimal number
    namedNumber rest

/-- Takes a truth value, a day or time, or a number. -/
def scalar : Scan Value := do
  if ← word "true" then return .bool true
  if ← word "false" then return .bool false
  match ← found fun text => (dateOrDateTime? text).map fun (d, v, rest) => ((d, v), rest) with
  | some (date, value) => if isInCalendar date then return value else fail
  | none =>
    match ← found time? with
    | some time => return .time time
    | none =>
      match ← found basedNumber? with
      | some number => return number
      | none =>
        match ← found numberParts? with
        | some parts => StateT.lift parts.value
        | none => namedNumber namedNumbers

/-! ## 7. Tables -/

/-- Changes the table that a key leads to.  Tables are made where there are none; `throughLists`
lets the last table of a list stand for the list.  Nothing if something else is in the way. -/
def changeTable (throughLists : Bool) (change : Value.Fields → Option Value.Fields) :
    (key : List String) → Value.Fields → Option Value.Fields
  | [], fields => change fields
  | part :: rest, fields =>
    match fields.get? part with
    | none => do return Value.Fields.set part (.table (← changeTable throughLists change rest [])) fields
    | some (.table below) => do
      return Value.Fields.set part (.table (← changeTable throughLists change rest below)) fields
    | some (.list items) =>
      match throughLists, items.getLast? with
      | true, some (.table below) => do
        let changed ← changeTable throughLists change rest below
        return Value.Fields.set part (.list (items.dropLast ++ [.table changed])) fields
      | _, _ => none
    | some _ => none

/-- Adds a field that is not there yet. -/
def addField (name : String) (value : Value) (fields : Value.Fields) : Option Value.Fields :=
  if (fields.get? name).isSome then none else some (Value.Fields.set name value fields)

/-- Adds an empty table to a list of tables, which is made if it is not there yet. -/
def addItem (name : String) (fields : Value.Fields) : Option Value.Fields :=
  match fields.get? name with
  | none => some (Value.Fields.set name (.list [.table []]) fields)
  | some (.list items) => some (Value.Fields.set name (.list (items ++ [.table []])) fields)
  | some _ => none

/-- A mark on a key. -/
inductive Mark where
  /-- The table has been opened and cannot be opened again. -/
  | opened
  /-- The table or list was written as a value and cannot be changed, nor can anything in it. -/
  | closed
  deriving DecidableEq, Repr

/-- The marks on keys. -/
abbrev Marks := List (List String × Mark)

/-- Whether a key has a mark; what is closed is closed with all that is below it. -/
def Marks.has (marks : Marks) (key : List String) (mark : Mark) : Bool :=
  marks.any fun (marked, found) =>
    found = mark && match mark with
      | .opened => marked == key
      | .closed => marked.isPrefixOf key

/-- The marks without those on a key and below it. -/
def Marks.without (marks : Marks) (key : List String) : Marks :=
  marks.filter fun (marked, _) => !key.isPrefixOf marked

/-- Whether a value is a table or a list. -/
def isContainer : Value → Bool
  | .table _ => true
  | .list _ => true
  | _ => false

/-! ## 8. Values -/

/-- Gives what there is, or finds the text malformed. -/
def require {α : Type} : Option α → Scan α
  | some a => return a
  | none => fail

/-- A table on one line that is being read: its fields and the marks on their keys. -/
structure InlineTable where
  fields : Value.Fields
  marks : Marks

/-- Adds a field to a table on one line. -/
def InlineTable.add (table : InlineTable) (key : List String) (value : Value) :
    Option InlineTable := do
  if table.marks.has key .closed then none
  let name ← key.getLast?
  let fields ← changeTable false (addField name value) key.dropLast table.fields
  return ⟨fields, if isContainer value then (key, .closed) :: table.marks else table.marks⟩

/-- How deep values may be nested: the limit that JSON has, less two more callers of the reader. -/
def maxDepth : Nat := 988

/-- What a list takes of the depth. -/
def listCost : Nat := 2

/-- What a table on one line takes of the depth. -/
def tableCost : Nat := 3

mutual

/-- Takes a value; `depth` is how deep values may be nested in it. -/
def value : (fuel depth : Nat) → Scan Value
  | 0, _ => fail
  | fuel + 1, depth => do
    match ← peek with
    | some '"' => return .text (← string)
    | some '\'' => return .text (← string)
    | some '[' =>
      let depth ← deeper listCost depth
      skip
      lines fuel
      return .list (← items fuel depth)
    | some '\x7b' =>
      let depth ← deeper tableCost depth
      skip
      blanks
      if ← word "\x7d" then return .table []
      return .table (← inlineFields fuel depth ⟨[], []⟩)
    | _ => scalar

/-- Takes the items of a list up to its closing bracket; a comma may follow the last one. -/
def items : (fuel depth : Nat) → Scan (List Value)
  | 0, _ => fail
  | fuel + 1, depth => do
    if ← word "]" then return []
    let item ← value fuel depth
    lines fuel
    if ← word "]" then return [item]
    expect ","
    lines fuel
    return item :: (← items fuel depth)

/-- Takes the fields of a table on one line up to its closing brace. -/
def inlineFields : (fuel depth : Nat) → InlineTable → Scan Value.Fields
  | 0, _, _ => fail
  | fuel + 1, depth, table => do
    let key ← key fuel
    expect "="
    blanks
    let table ← require (table.add key (← value fuel depth))
    blanks
    if ← word "\x7d" then return table.fields
    expect ","
    blanks
    inlineFields fuel depth table

end

/-! ## 9. Documents -/

/-- A document that is being read. -/
structure Document where
  fields : Value.Fields
  marks : Marks
  /-- The tables on the way of dotted keys, to be marked as opened at the next header. -/
  pending : List (List String)
  /-- The key of the last header. -/
  header : List String

namespace Document

/-- A document without lines. -/
def empty : Document := ⟨[], [], [], []⟩

/-- Marks the tables on the way of dotted keys as opened. -/
def settle (document : Document) : Document :=
  { document with
    marks := document.pending.map (·, .opened) ++ document.marks
    pending := [] }

/-- Opens the table of a header. -/
def openTable (document : Document) (key : List String) : Option Document :=
  if document.marks.has key .opened || document.marks.has key .closed then none
  else do
    let fields ← changeTable true some key document.fields
    return { document with fields, marks := (key, .opened) :: document.marks, header := key }

/-- Opens a new item of a list of tables; what was opened in the item before may be opened in this
one. -/
def openItem (document : Document) (key : List String) : Option Document :=
  if document.marks.has key .closed then none
  else do
    let name ← key.getLast?
    let fields ← changeTable true (addItem name) key.dropLast document.fields
    return { document with
      fields, marks := (key, .opened) :: document.marks.without key, header := key }

/-- The tables on the way of a dotted key below a header, the first the nearest to the top. -/
def onTheWay (header key : List String) : List (List String) :=
  (List.range (key.length - 1)).map fun count => header ++ key.take (count + 1)

/-- Adds a key and its value to the table that is open. -/
def add (document : Document) (key : List String) (value : Value) : Option Document := do
  let way := onTheWay document.header key
  if way.any (document.marks.has · .opened) then none
  let parent := document.header ++ key.dropLast
  if document.marks.has parent .closed then none
  let name ← key.getLast?
  let fields ← changeTable true (addField name value) parent document.fields
  return { document with
    fields
    marks :=
      if isContainer value then (document.header ++ key, .closed) :: document.marks
      else document.marks
    pending := way ++ document.pending }

/-- Takes a header. -/
def takeHeader (document : Document) (fuel : Nat) : Scan Document := do
  let document := document.settle
  if ← word "[[" then
    blanks
    let document ← require (document.openItem (← key fuel))
    expect "]]"
    return document
  else
    expect "["
    blanks
    let document ← require (document.openTable (← key fuel))
    expect "]"
    return document

/-- Takes a key and its value. -/
def takeField (document : Document) (fuel : Nat) : Scan Document := do
  let key ← key fuel
  expect "="
  blanks
  require (document.add key (← value fuel maxDepth))

/-- Takes what stands on a line before its comment. -/
def takeStatement (document : Document) (fuel : Nat) : Scan Document := do
  match ← peek with
  | some '[' => document.takeHeader fuel
  | some c => if isBareKey c || c = '"' || c = '\'' then document.takeField fuel else return document
  | none => return document

/-- Takes the lines of a document; `count` bounds their number. -/
def takeLines (fuel : Nat) : (count : Nat) → Document → Scan Document
  | 0, document => return document
  | count + 1, document => do
    blanks
    let document ← document.takeStatement fuel
    blanks
    comment
    match ← peek with
    | none => return document
    | some _ =>
      expect "\n"
      takeLines fuel count document

end Document

/-- A text with line feeds alone in place of carriage returns with line feeds. -/
def plainNewlines : List Char → List Char
  | '\r' :: '\n' :: rest => '\n' :: plainNewlines rest
  | c :: rest => c :: plainNewlines rest
  | [] => []

/-- The value of a TOML document. -/
def read (text : String) : Except ReadFault Value := do
  let characters := plainNewlines text.toList
  let fuel := 2 * characters.length + 2
  let document ← Scan.all (Document.takeLines fuel fuel .empty) characters
  return .table document.fields

end Bindery.Toml
