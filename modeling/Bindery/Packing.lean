/-
# Packing files

Files and directories are packed as they are, each under its own name at the top of the archive.
-/
import Bindery.Archive
import Bindery.Disk.Reader
import Bindery.Validation

namespace Bindery.Packing

/-- The name under which a path is packed. -/
def topName (path : String) : Except Fault String :=
  match (Location.ofText path).lastName? with
  | some name => .ok name
  | none => .error (.path (.noFinalName path))

/-- The files at a path with the archive paths that they get. -/
def files (reader : Reader) (path : String) : Except Fault (List (String × ByteArray)) := do
  reader.walk path (EntryPath.normalize (← topName path))

/-- The archive of some files and directories. -/
def pack (reader : Reader) (paths : List String) : Except Fault (List Archive.Entry) := do
  let files := (← paths.mapM (files reader)).flatten
  let names := files.map (·.1)
  names.forM fun name => (EntryPath.check name).mapError .path
  (Collision.checkPaths (Archive.mediaTypeName :: names)).mapError .collision
  return Archive.pack files

end Bindery.Packing
