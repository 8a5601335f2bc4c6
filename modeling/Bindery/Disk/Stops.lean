/-
# Where a walk stops

A walk comes to one path after the other: a directory first, then all that is below each of its entries, in
the order of their names.  What stops it at a path depends on that path alone.  Most refusals of the file
system are reported as files that cannot be read.  A path that the disk does not take is not: the question
whether a directory is there already fails.
-/
import Bindery.Disk.Reader

namespace Bindery

/-- Whether a computation gives its value or fails as one that cannot read or write a file. -/
def IsReported {α : Type} : Except Fault α → Prop
  | .ok _ | .error (.file _) => True
  | .error _ => False

namespace Reader

/-- The paths of the entries of a directory; none where there is no directory. -/
def below (reader : Reader) (path : String) : List String :=
  match reader.isDirectory path, reader.list path with
  | .ok true, .ok listed => listed.map (·.2)
  | _, _ => []

/-- The paths that a walk through at most `levels` levels of directories comes to, in order. -/
def descentLevels (reader : Reader) : (levels : Nat) → (path : String) → List String
  | 0, _ => []
  | levels + 1, path => path :: (reader.below path).flatMap (descentLevels reader levels)

/-- The paths that a walk comes to, in order. -/
def descent (reader : Reader) (path : String) : List String :=
  reader.descentLevels (reader.disk.top.height + 2) path

/-- Why a walk stops at a path, if it does. -/
def stop? (reader : Reader) (path : String) : Option Fault :=
  match reader.resolve path with
  | .error fault => some fault
  | .ok location =>
    if Disk.hasNul location then some .pathWithNul
    else match reader.disk.find location with
      | .ok _ => none
      | .error .nameTooLong => some (.refused ⟨.nameTooLong, location.text⟩)
      | .error refusal => some (.file (.read ⟨refusal, location.text⟩))

/-- A walk from a path stops at one of the paths that it comes to, and at none before. -/
def StopsAt (reader : Reader) (path stopped : String) (fault : Fault) : Prop :=
  ∃ before after, reader.descent path = before ++ stopped :: after ∧
    (∀ earlier ∈ before, reader.stop? earlier = none) ∧ reader.stop? stopped = some fault

/-- The disk takes a path, be there a file or not: nobody unknown is asked for, and no name is too long or
holds U+0000. -/
def Takes (reader : Reader) (path : String) : Prop :=
  ∃ location, reader.resolve path = .ok location ∧ Disk.hasNul location = false ∧
    reader.disk.find location ≠ .error .nameTooLong

end Reader
end Bindery
