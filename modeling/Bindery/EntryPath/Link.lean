/-
# Links between archive paths

A document refers to another entry by a path relative to its own directory.  `relative` writes such a
path and `follow` resolves one; the second undoes the first.
-/
import Bindery.EntryPath.Check

namespace Bindery.EntryPath

/-- How many components two paths share at their start. -/
def sharedLength : List String → List String → Nat
  | left :: lefts, right :: rights => if left = right then sharedLength lefts rights + 1 else 0
  | _, _ => 0

/-- The path that climbs `levels` directories up. -/
def climb (levels : Nat) : String :=
  String.join (List.replicate levels "../")

/-- The path that leads from a file in directory `source` to the file `name` in directory
`directory`. -/
def relativeFrom (source directory : List String) (name : String) : String :=
  if directory = source then name
  -- The referring document lies below the directory of the target.
  else if directory ≠ [] ∧ source.take directory.length = directory then
    climb (source.length - directory.length) ++ name
  else
    let shared := sharedLength source directory
    -- Up to the deepest common directory and down again, or by way of the top of the archive.
    if shared ≠ 0 then
      climb (source.length - shared) ++ ofSegments ((directory ++ [name]).drop shared)
    else climb source.length ++ ofSegments (directory ++ [name])

/-- The link that a document at `source` writes to reach the entry `target`. -/
def relative (source target : String) : Except PathFault String :=
  match (components target).getLast? with
  | none => .error (.noTarget target)
  | some name =>
    .ok (relativeFrom (components source).dropLast (components target).dropLast name)

/-- The entry that `link` leads to from the document at `source`. -/
def follow (source link : String) : String :=
  join (parent source) link

end Bindery.EntryPath
