/-
# Switches

The arguments of a command are switches, their values, and paths.  A long switch may be cut short as
long as only one switch starts that way, its value may follow an equals sign, and after `--` nothing is
a switch any more.  A switch that is given twice counts as given last.
-/
import Bindery.Text.Digits

namespace Bindery.CommandLine

/-! ## 1. What a command takes -/

/-- What follows a switch. -/
inductive Arity where
  /-- Nothing. -/
  | flag
  /-- One value. -/
  | value
  /-- All arguments up to `--`. -/
  | rest
  deriving DecidableEq, Repr

/-- A switch. -/
structure Switch where
  key : String
  spellings : List String
  arity : Arity
  required : Bool := false
  deriving DecidableEq, Repr

/-- What a command takes. -/
structure Grammar where
  switches : List Switch
  /-- Whether it takes paths, of which there must be at least one. -/
  takesPaths : Bool

/-- The switch that asks for help. -/
def helpSwitch : Switch := ⟨"help", ["-h", "--help"], .flag, false⟩

/-- Why the arguments are not used. -/
inductive Refused where
  | usage | help
  deriving DecidableEq, Repr

namespace Grammar

/-- All spellings with their switches. -/
def spellings (grammar : Grammar) : List (String × Switch) :=
  (helpSwitch :: grammar.switches).flatMap fun switch => switch.spellings.map (·, switch)

/-- The switch of a spelling. -/
def switch? (grammar : Grammar) (spelling : String) : Option Switch :=
  grammar.spellings.lookup spelling

end Grammar

/-! ## 2. Kinds of arguments -/

/-- A switch as it was given: its spelling, and the value that is joined to it. -/
structure Given where
  switch : Switch
  spelling : String
  joined : Option String
  deriving DecidableEq, Repr

/-- An argument. -/
inductive Argument where
  | plain (text : String)
  /-- The argument `--`. -/
  | separator
  /-- An argument that looks like a switch; nothing if no switch is meant. -/
  | switch (text : String) (given : Option Given)
  deriving DecidableEq, Repr

/-- An argument as it was written. -/
def Argument.text : Argument → String
  | plain text => text
  | separator => "--"
  | switch text _ => text

/-- A text cut at its first equals sign. -/
def cutAtEquals (text : String) : String × Option String :=
  match text.toList.dropWhile (· ≠ '=') with
  | [] => (text, none)
  | _ :: after => (String.ofList (text.toList.takeWhile (· ≠ '=')), some (String.ofList after))

/-- Whether a character is a decimal digit. -/
def isDecimal (c : Char) : Bool := (Text.digitValue? c).isSome

/-- A text without the line feed at its end, if there is one. -/
def withoutLineFeed (text : List Char) : List Char :=
  if text.getLast? = some '\n' then text.dropLast else text

/-- Whether a text is a negative number: digits, or a point and digits with digits before it or
not.  A line feed may follow. -/
def isNegativeNumber (text : String) : Bool :=
  match withoutLineFeed text.toList with
  | '-' :: rest =>
    let after := rest.dropWhile isDecimal
    match after with
    | [] => rest ≠ []
    | '.' :: fraction => fraction ≠ [] && fraction.all isDecimal
    | _ => false
  | _ => false

/-- The switches that a shortened spelling, or a spelling with its value right behind it, may mean. -/
def Grammar.meanings (grammar : Grammar) (text : String) : List Given :=
  match text.toList with
  | '-' :: '-' :: _ =>
    let (start, joined) := cutAtEquals text
    (grammar.spellings.filter fun (spelling, _) => start.toList.isPrefixOf spelling.toList).map
      fun (spelling, switch) => ⟨switch, spelling, joined⟩
  | '-' :: c :: rest =>
    (grammar.spellings.filter fun (spelling, _) => spelling.toList == ['-', c]).map
      fun (spelling, switch) => ⟨switch, spelling, some (String.ofList rest)⟩
  | _ => []

/-- What an argument before `--` is. -/
def Grammar.classify (grammar : Grammar) (text : String) : Except Refused Argument :=
  if text.toList.head? ≠ some '-' then .ok (.plain text)
  else match grammar.switch? text with
    | some switch => .ok (.switch text (some ⟨switch, text, none⟩))
    | none =>
      if text = "-" then .ok (.plain text)
      else
        let (spelling, joined) := cutAtEquals text
        match joined, grammar.switch? spelling with
        | some joined, some switch => .ok (.switch text (some ⟨switch, spelling, some joined⟩))
        | _, _ =>
          match grammar.meanings text with
          | [given] => .ok (.switch text (some given))
          | _ :: _ :: _ => .error .usage
          | [] =>
            if isNegativeNumber text ∨ text.toList.contains ' ' then .ok (.plain text)
            else .ok (.switch text none)

/-- What the arguments are; after `--` all are plain. -/
def Grammar.classifyAll (grammar : Grammar) : List String → Except Refused (List Argument)
  | [] => .ok []
  | text :: rest =>
    if text = "--" then .ok (.separator :: rest.map .plain)
    else do
      let first ← grammar.classify text
      return first :: (← grammar.classifyAll rest)

/-! ## 3. Taking them in order -/

/-- What has been taken. -/
structure Taken where
  /-- The switches with what followed them, the last first. -/
  switches : List (String × List String)
  paths : Option (List String)
  /-- Whether there was an argument that has no place. -/
  surplus : Bool
  deriving Repr

namespace Taken

/-- Nothing taken yet. -/
def none : Taken := ⟨[], .none, false⟩

/-- What followed a switch. -/
def get? (taken : Taken) (key : String) : Option (List String) :=
  taken.switches.lookup key

/-- The value of a switch; nothing also for a switch that was given without a value. -/
def value? (taken : Taken) (key : String) : Option String :=
  (taken.get? key).bind (·.head?)

/-- Takes plain arguments in a row: as the paths if the command takes paths and has none yet. -/
def plain (grammar : Grammar) (arguments : List Argument) (taken : Taken) : Taken :=
  if grammar.takesPaths ∧ taken.paths.isNone ∧ arguments.any (· ≠ .separator) then
    { taken with paths := some ((arguments.filter (· ≠ .separator)).map Argument.text) }
  else { taken with surplus := taken.surplus || !arguments.isEmpty }

/-- Takes a switch with what follows it. -/
def add (key : String) (values : List String) (taken : Taken) : Taken :=
  { taken with switches := (key, values) :: taken.switches }

end Taken

/-- Whether all characters are flags that may be written together behind one dash. -/
def Grammar.areFlags (grammar : Grammar) (characters : List Char) : Bool :=
  characters.all fun c =>
    match grammar.switch? (String.ofList ['-', c]) with
    | some switch => switch.arity == .flag
    | none => false

/-- Takes a flag, which may have other flags joined to it behind one dash. -/
def takeFlag (grammar : Grammar) (given : Given) (taken : Taken) : Except Refused Taken :=
  let isAlone := match given.joined with
    | none => true
    | some joined =>
      joined ≠ "" && given.spelling.toList.take 2 ≠ ['-', '-'] && grammar.areFlags joined.toList
  if !isAlone then .error .usage
  else if given.switch = helpSwitch then .error .help
  else .ok (taken.add given.switch.key [])

/-- The values that a joined text gives a switch of one value: `--` is no value. -/
def joinedValues (joined : String) : List String :=
  if joined = "--" then [] else [joined]

/-- Takes arguments in order; `fuel` bounds their number. -/
def takeAll (grammar : Grammar) : (fuel : Nat) → List Argument → Taken → Except Refused Taken
  | 0, _, taken => .ok taken
  | _ + 1, [], taken => .ok taken
  | fuel + 1, .switch _ none :: rest, taken => takeAll grammar fuel rest { taken with surplus := true }
  | fuel + 1, .switch _ (some given) :: rest, taken =>
    match given.switch.arity, given.joined, rest with
    | .flag, _, rest => do takeAll grammar fuel rest (← takeFlag grammar given taken)
    | .value, some joined, rest =>
      takeAll grammar fuel rest (taken.add given.switch.key (joinedValues joined))
    | .rest, some joined, rest => takeAll grammar fuel rest (taken.add given.switch.key [joined])
    | .value, none, .plain text :: rest =>
      takeAll grammar fuel rest (taken.add given.switch.key [text])
    | .value, none, _ => .error .usage
    | .rest, none, rest =>
      let values := (rest.takeWhile (· ≠ .separator)).map Argument.text
      takeAll grammar fuel (rest.dropWhile (· ≠ .separator)) (taken.add given.switch.key values)
  | fuel + 1, first :: rest, taken =>
    let isPlain (argument : Argument) : Bool := match argument with
      | .switch _ _ => false
      | _ => true
    takeAll grammar fuel (rest.dropWhile isPlain)
      (taken.plain grammar (first :: rest.takeWhile isPlain))

/-- Reads the arguments of a command. -/
def Grammar.read (grammar : Grammar) (arguments : List String) : Except Refused Taken := do
  let classified ← grammar.classifyAll arguments
  let taken ← takeAll grammar classified.length classified .none
  let missing := grammar.switches.any fun switch =>
    switch.required && (taken.get? switch.key).isNone
  if missing || taken.surplus || (grammar.takesPaths && taken.paths.isNone) then .error .usage
  else return taken

end Bindery.CommandLine
