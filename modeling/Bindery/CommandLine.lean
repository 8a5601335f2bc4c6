/-
# The two commands

One command makes the book of a recipe and may have it checked; the other packs files and directories
as they are.  A command does not touch the disk: it says what it prints, what it writes where, and how
it ends.
-/
import Bindery.CommandLine.Checker
import Bindery.CommandLine.Switch
import Bindery.Packing
import Bindery.Recipe.File

namespace Bindery.CommandLine

/-! ## 1. Outcomes -/

/-- How a command ends when it does not succeed. -/
inductive Stop where
  /-- The arguments are wrong. -/
  | usage
  /-- Help was asked for. -/
  | help
  /-- The command ends with a message. -/
  | message (text : String)
  /-- The command ends by a fault that has no message. -/
  | fault (fault : Fault)
  deriving Repr

/-- What a command prints and writes, and how it ends. -/
structure Outcome where
  printed : String := ""
  /-- The archive that is written and where. -/
  written : Option (Location × List Archive.Entry) := none
  stop : Option Stop := none

/-- The end by a fault: with its message, if it has one. -/
def Stop.ofFault (fault : Fault) : Stop :=
  match fault.message? with
  | some text => .message text
  | none => .fault fault

/-- The end by refused arguments. -/
def Stop.ofRefused : Refused → Stop
  | .usage => .usage
  | .help => .help

/-! ## 2. Locations -/

/-- The location of an argument, from the top of the disk. -/
def locate (disk : Disk) (text : String) : Except Fault Location := do
  let location ← disk.expandHome (Location.ofText text)
  if Disk.hasNul location then throw .pathWithNul
  return location.absolute disk.workingDirectory

/-- The location that a switch has to give. -/
def locateGiven (disk : Disk) (taken : Taken) (key : String) : Except Fault Location :=
  match taken.value? key with
  | some text => locate disk text
  | none => .error .noLocation

/-- Refuses a location where no file can be written. -/
def checkWritable (disk : Disk) (location : Location) : Except Fault Unit :=
  let fail (refusal : Refusal) : Except Fault Unit := .error (.refused ⟨refusal, location.text⟩)
  match disk.find location with
  | .ok (.file _) => .ok ()
  | .ok (.directory _) => fail .isDirectory
  | .error .notFound =>
    match disk.find location.parent with
    | .ok (.directory _) => .ok ()
    | .ok (.file _) => fail .notDirectory
    | .error refusal => fail refusal
  | .error refusal => fail refusal

/-- The outcome of making an archive for a location and writing it there. -/
def write (disk : Disk) (output : Location) (entries : Except Fault (List Archive.Entry)) :
    Outcome :=
  match do
    let entries ← entries
    checkWritable disk output
    return entries with
  | .ok entries => { written := some (output, entries) }
  | .error fault => { stop := some (.ofFault fault) }

/-! ## 3. Packing -/

/-- What the packing command takes. -/
def packGrammar : Grammar where
  switches := [⟨"output", ["--output"], .value, true⟩]
  takesPaths := true

/-- Packs files and directories. -/
def pack (disk : Disk) (arguments : List String) : Outcome :=
  match packGrammar.read arguments with
  | .error refused => { stop := some (.ofRefused refused) }
  | .ok taken =>
    match locateGiven disk taken "output" with
    | .error fault => { stop := some (.fault fault) }
    | .ok output =>
      let reader : Reader := ⟨disk, ⟨"/", disk.workingDirectory⟩⟩
      write disk output (Packing.pack reader (taken.paths.getD []))

/-! ## 4. Making a book -/

/-- What the making command takes. -/
def makeGrammar : Grammar where
  switches := [⟨"recipe-file", ["--recipe-file"], .value, true⟩,
    ⟨"recipe", ["--recipe"], .value, true⟩, ⟨"output", ["--output"], .value, true⟩,
    ⟨"base-dir", ["--base-dir"], .value, false⟩, ⟨"verbose", ["--verbose"], .flag, false⟩,
    ⟨"epubcheck", ["--epubcheck"], .value, false⟩,
    ⟨"epubcheck-args", ["--epubcheck-args"], .rest, false⟩]
  takesPaths := false

/-- What the making command is asked to do. -/
structure Order where
  recipeFile : Location
  output : Location
  /-- Where the sources of the book are looked for. -/
  base : Location
  /-- The name of the recipe; nothing if its switch was given without a value. -/
  recipe : Option String
  checker : Option String
  checkerArguments : List String

/-- The order that arguments give; sources are looked for beside the recipe file unless a directory
is given. -/
def Order.of (disk : Disk) (taken : Taken) : Except Fault Order := do
  let recipeFile ← locateGiven disk taken "recipe-file"
  let output ← locateGiven disk taken "output"
  let base ← match (taken.value? "base-dir").filter (· ≠ "") with
    | some directory => locate disk directory
    | none => pure recipeFile.parent
  return {
    recipeFile, output, base
    recipe := taken.value? "recipe"
    checker := (taken.value? "epubcheck").filter (· ≠ "")
    checkerArguments := (taken.get? "epubcheck-args").getD [] }

/-- How messages show the name of a recipe that is not given. -/
def noName : String := "[]"

/-- The recipe that is ordered; no recipe has no name. -/
def Order.find (disk : Disk) (order : Order) : Except Fault Recipe := do
  let recipes ← Recipe.load disk order.recipeFile
  match order.recipe with
  | some name => Recipe.find recipes name order.recipeFile.text
  | none => refuse (.noSuchRecipe noName order.recipeFile.text)

/-- Adds the report of a checker to the outcome. -/
def Outcome.check (outcome : Outcome) (checker : String) (arguments : List String) : Outcome :=
  match Checker.run checker arguments with
  | .error fault => { outcome with stop := some (.fault fault) }
  | .ok report =>
    { outcome with
      printed := outcome.printed ++ report.output ++ "\n"
      stop :=
        if report.exitCode = 0 then outcome.stop
        else some (.message s!"epubcheck failed with exit code {report.exitCode}") }

/-- Makes the book of a recipe. -/
def make (environment : Environment) (disk : Disk) (arguments : List String) : Outcome :=
  match makeGrammar.read arguments with
  | .error refused => { stop := some (.ofRefused refused) }
  | .ok taken =>
    match Order.of disk taken with
    | .error fault => { stop := some (.fault fault) }
    | .ok order =>
      let outcome := write disk order.output do
        let recipe ← order.find disk
        return (← recipe.make environment ⟨disk, order.base⟩).entries
      match outcome.written, order.checker with
      | some _, some checker =>
        outcome.check checker (order.checkerArguments ++ [order.output.text])
      | _, _ => outcome

end Bindery.CommandLine
