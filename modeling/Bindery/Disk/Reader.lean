/-
# Reading files and directories

A reader reads paths relative to a base directory.  `walk` gives a file, or all files below a directory
with the archive paths that they get; a directory's entries come in the order of their names.  The
location of an entry is read relative to the base directory again.
-/
import Bindery.Disk
import Bindery.EntryPath

namespace Bindery

/-- Reads a disk from a base directory. -/
structure Reader where
  disk : Disk
  base : Location

namespace Reader

/-- The location of a path. -/
def resolve (reader : Reader) (path : String) : Except Fault Location :=
  (reader.disk.expandHome (Location.ofText path)).map reader.base.under

/-- Whether there is a directory at a path. -/
def isDirectory (reader : Reader) (path : String) : Except Fault Bool := do
  let location ← reader.resolve path
  if Disk.hasNul location then return false
  match reader.disk.find location with
  | .ok (.directory _) => return true
  | .ok (.file _) => return false
  | .error .nameTooLong => throw (.refused ⟨.nameTooLong, location.text⟩)
  | .error _ => return false

/-- The bytes of the file at a path. -/
def read (reader : Reader) (path : String) : Except Fault ByteArray := do
  let location ← reader.resolve path
  if Disk.hasNul location then throw .pathWithNul
  let fail (refusal : Refusal) : Except Fault ByteArray :=
    throw (.file (.read ⟨refusal, location.text⟩))
  match reader.disk.find location with
  | .ok (.file data) => return data
  | .ok (.directory _) => fail .isDirectory
  | .error refusal => fail refusal

/-- The names of the entries of the directory at a path, in order, with their locations. -/
def list (reader : Reader) (path : String) : Except Fault (List (String × String)) := do
  let location ← reader.resolve path
  if Disk.hasNul location then throw .pathWithNul
  let fail (refusal : Refusal) : Except Fault (List (String × String)) :=
    throw (.file (.list ⟨refusal, location.text⟩))
  match reader.disk.find location with
  | .ok (.directory entries) =>
    let names := (entries.map (·.1)).mergeSort fun left right => decide (left ≤ right)
    return names.map fun name => (name, (location.child name).text)
  | .ok (.file _) => fail .notDirectory
  | .error refusal => fail refusal

/-- `walk` through at most `levels` levels of directories. -/
def walkLevels (reader : Reader) :
    (levels : Nat) → (path inside : String) → Except Fault (List (String × ByteArray))
  | 0, _, _ => .ok []
  | levels + 1, path, inside => do
    if ← reader.isDirectory path then
      let entries ← (← reader.list path).mapM fun (name, location) =>
        walkLevels reader levels location (EntryPath.join inside name)
      return entries.flatten
    else return [(inside, ← reader.read path)]

/-- The files at a path with the archive paths that they get: the file itself at `inside`, or all
files below the directory, below `inside`.  Every level of the walk adds a name to the location, so
two levels more than the disk has are enough. -/
def walk (reader : Reader) (path inside : String) : Except Fault (List (String × ByteArray)) :=
  reader.walkLevels (reader.disk.top.height + 2) path inside

end Reader
end Bindery
