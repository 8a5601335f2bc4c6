/-
# The program

`make` makes the book of a recipe, and `pack` packs files.  The program reads from the disk the places
that the command looks at, runs the command on them, and does what the outcome says.
-/
import Bindery.Archive
import Bindery.CommandLine.Lookup

open Bindery
open Bindery.CommandLine

/-! ## 1. Reading the disk -/

/-- Whether there is a directory at a path, a file, or nothing. -/
def isDirectory? (path : String) : IO (Option Bool) := do
  try
    return some (← (← IO.FS.realPath path).isDir)
  catch _ => return none

/-- Reads a file, or a directory with all that is below it. -/
partial def readTree (path : String) : IO FileTree := do
  if (← isDirectory? path) = some true then
    let entries ← (← IO.FS.realPath path).readDir
    return .directory (← entries.toList.mapM fun entry => do
      return (entry.fileName, ← readTree (path ++ "/" ++ entry.fileName)))
  else return .file (← IO.FS.readBinFile path)

/-- Puts a place of the real disk on a disk, as far as it exists. -/
def load (disk : Disk) (lookup : Lookup) : IO Disk := do
  let mut top := disk.top
  let steps := lookup.steps
  for names in steps do
    let path := "/" ++ "/".intercalate names
    let isWhole := lookup.isWhole && names == steps.getLast?.getD []
    match ← isDirectory? path with
    | some isDirectory =>
      if isWhole then top := FileTree.insert (← readTree path) names top
      else if (top.get? names).isNone then
        top := FileTree.insert (if isDirectory then .empty else .file .empty) names top
    | none => pure ()
  return { disk with top }

/-- The home directories in a table of users: a line for each, with the name in its first field of
seven and the directory in its sixth. -/
def homesIn (table : String) : List (String × String) :=
  (table.splitOn "\n").filterMap fun line =>
    match line.splitOn ":" with
    | [user, _, _, _, _, home, _] => some (user, home)
    | _ => none

/-- An empty disk with the working directory and the home directories of the user and of others. -/
def emptyDisk : IO Disk := do
  let directory := Location.ofText (← IO.currentDir).toString
  let home := (← IO.getEnv "HOME").getD "/"
  let homes ← try pure (homesIn (← IO.FS.readFile "/etc/passwd")) catch _ => pure []
  return {
    top := FileTree.insert .empty directory.names .empty
    workingDirectory := directory.names
    home
    homes := fun user => homes.lookup user }

/-! ## 2. The environment -/

/-- A random identifier. -/
def randomIdentifier : IO String := do
  let bytes := (← IO.getRandomBytes 16).toList.map (·.toNat)
  let marked := bytes.zipIdx.map fun (byte, index) =>
    if index = 6 then 64 + byte % 16 else if index = 8 then 128 + byte % 64 else byte
  let digits := marked.flatMap (Text.hex 2)
  let groups := [(0, 8), (8, 4), (12, 4), (16, 4), (20, 12)].map fun (start, length) =>
    String.ofList ((digits.drop start).take length)
  return "-".intercalate groups

/-- The language that the user has set. -/
def userLanguage : IO (Option String) := do
  for name in ["LC_ALL", "LC_CTYPE", "LANG"] do
    match ← IO.getEnv name with
    | some setting =>
      if setting ≠ "" then
        return some (String.ofList (setting.toList.takeWhile (· ≠ '.')))
    | none => pure ()
  return none

/-! ## 3. The commands -/

/-- Does what an outcome says; the number is that of the exit. -/
def finish (outcome : Outcome) : IO UInt32 := do
  if let some (location, entries) := outcome.written then
    IO.FS.writeBinFile location.text (Archive.bytes entries)
  IO.print outcome.printed
  match outcome.stop with
  | none | some .help => return 0
  | some .usage =>
    IO.eprintln "the arguments are wrong"
    return 2
  | some (.message text) =>
    IO.eprintln text
    return 1
  | some (.fault _) =>
    IO.eprintln "the command cannot be carried out"
    return 1

/-- Makes a book or packs files. -/
def main (arguments : List String) : IO UInt32 := do
  let disk ← emptyDisk
  match arguments with
  | "make" :: arguments =>
    let disk ← (makeLookups disk arguments).foldlM load disk
    let disk ← (makeLookups disk arguments).foldlM load disk
    finish (make ⟨← randomIdentifier, ← userLanguage⟩ disk arguments)
  | "pack" :: arguments =>
    let disk ← (packLookups disk arguments).foldlM load disk
    finish (pack disk arguments)
  | _ =>
    IO.eprintln "usage: bindery make ARGUMENTS | bindery pack ARGUMENTS"
    return 2
