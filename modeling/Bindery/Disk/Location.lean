/-
# Locations on disk

A location is written as names between slashes.  Empty names and `.` mean nothing and are dropped;
`..` stays, since only the disk can say where it leads.  A location starts at the top of the disk if
it starts with a slash, and else at the working directory.
-/
namespace Bindery

/-- A place on disk. -/
structure Location where
  /-- The slashes it starts with: none, one, or exactly two. -/
  root : String
  names : List String
  deriving DecidableEq, Repr

namespace Location

/-- The slashes that a location keeps at its start: two stay two, any other number becomes one. -/
def rootOf (text : String) : String :=
  match (text.toList.takeWhile (· = '/')).length with
  | 0 => ""
  | 2 => "//"
  | _ => "/"

/-- Reads a location. -/
def ofText (text : String) : Location where
  root := rootOf text
  names := ((text.toList.splitOn '/').map String.ofList).filter fun name => name ≠ "" ∧ name ≠ "."

/-- Whether a location starts at the top of the disk. -/
def isAbsolute (location : Location) : Bool :=
  location.root ≠ ""

/-- How a location is written; the working directory is a dot. -/
def text (location : Location) : String :=
  if location.root = "" ∧ location.names = [] then "."
  else location.root ++ "/".intercalate location.names

/-- A location seen from a directory; one that starts at the top stays itself. -/
def under (directory location : Location) : Location :=
  if location.isAbsolute then location
  else ⟨directory.root, directory.names ++ location.names⟩

/-- A name in a directory. -/
def child (directory : Location) (name : String) : Location :=
  ⟨directory.root, directory.names ++ [name]⟩

/-- The last name; nothing for the top and for the working directory. -/
def lastName? (location : Location) : Option String :=
  location.names.getLast?

/-- The location without its last name. -/
def parent (location : Location) : Location :=
  ⟨location.root, location.names.dropLast⟩

/-- Takes `..` back on the names alone; at the top it means nothing. -/
def resolveNames (names : List String) : List String :=
  (names.foldl (fun walked name => if name = ".." then walked.drop 1 else name :: walked) []).reverse

/-- The location from the top of the disk, given the working directory. -/
def absolute (workingDirectory : List String) (location : Location) : Location :=
  ⟨"/", resolveNames
    (if location.isAbsolute then location.names else workingDirectory ++ location.names)⟩

/-- The name after the last dot of the last name; nothing if that name has no dot but at its start
or its end. -/
def extension? (location : Location) : Option String :=
  location.lastName?.bind fun name =>
    let afterDot := name.toList.reverse.takeWhile (· ≠ '.')
    let stem := (name.toList.reverse.dropWhile (· ≠ '.')).drop 1
    if afterDot ≠ [] ∧ stem ≠ [] then some (String.ofList afterDot.reverse) else none

end Location
end Bindery
