/-
# Disks

A disk is a tree of directories and files, with a working directory and the home directories of its
user and of others.  Looking a location up follows its names one by one; `..` leads to the directory
above, and only where there is a directory to come from.  A tilde at the start of a location stands for
a home directory: alone for the user's own, and before a name for that user's.
-/
import Bindery.Disk.Location
import Bindery.Fault

namespace Bindery

/-! ## 1. Trees -/

/-- A file with its bytes, or a directory with its entries. -/
inductive FileTree where
  | file (data : ByteArray)
  | directory (entries : List (String × FileTree))

namespace FileTree

mutual

/-- The number of levels of a tree. -/
def height : FileTree → Nat
  | file _ => 0
  | directory entries => heightAll entries + 1

/-- The number of levels of the highest of some trees. -/
def heightAll : List (String × FileTree) → Nat
  | [] => 0
  | (_, tree) :: rest => max tree.height (heightAll rest)

end

/-- An empty directory. -/
def empty : FileTree := directory []

/-- Replaces the tree of a name, or adds it at the end. -/
def setEntry (name : String) (tree : FileTree) : List (String × FileTree) →
    List (String × FileTree)
  | [] => [(name, tree)]
  | (other, old) :: rest =>
    if other = name then (name, tree) :: rest else (other, old) :: setEntry name tree rest

/-- Puts a tree at a row of names, making directories on the way where there are none. -/
def insert (tree : FileTree) : List String → FileTree → FileTree
  | [], _ => tree
  | name :: names, directory entries =>
    directory (setEntry name (insert tree names ((entries.lookup name).getD empty)) entries)
  | name :: names, file _ => directory [(name, insert tree names empty)]

/-- The tree at a row of names. -/
def get? : List String → FileTree → Option FileTree
  | [], tree => some tree
  | name :: names, directory entries => (entries.lookup name).bind (get? names)
  | _ :: _, file _ => none

end FileTree

/-! ## 2. Looking up -/

/-- A place in a tree: the file or directory, and the directories above it, the nearest first. -/
structure Spot where
  here : FileTree
  above : List FileTree

/-- The longest name of a file or directory, in bytes. -/
def maxNameBytes : Nat := 255

/-- The number of bytes that a location must stay below. -/
def maxLocationBytes : Nat := 4096

/-- Follows a name. -/
def Spot.enter (spot : Spot) (name : String) : Except Refusal Spot :=
  match spot.here with
  | .file _ => .error .notDirectory
  | .directory entries =>
    if name = ".." then
      match spot.above with
      | [] => .ok spot
      | up :: rest => .ok ⟨up, rest⟩
    else if maxNameBytes < name.utf8ByteSize then .error .nameTooLong
    else match entries.lookup name with
      | some tree => .ok ⟨tree, spot.here :: spot.above⟩
      | none => .error .notFound

/-- Follows names. -/
def Spot.follow (spot : Spot) (names : List String) : Except Refusal Spot :=
  names.foldlM Spot.enter spot

/-- A disk as its user sees it. -/
structure Disk where
  top : FileTree
  /-- The names from the top to the working directory. -/
  workingDirectory : List String
  /-- The user's home directory. -/
  home : String
  /-- The home directories of the users that are known by name. -/
  homes : String → Option String := fun _ => none

namespace Disk

/-- What is at a location. -/
def find (disk : Disk) (location : Location) : Except Refusal FileTree := do
  if maxLocationBytes ≤ location.text.utf8ByteSize then throw .nameTooLong
  let top : Spot := ⟨disk.top, []⟩
  let start ← if location.isAbsolute then pure top else top.follow disk.workingDirectory
  return (← start.follow location.names).here

/-- Whether a location holds the character U+0000, which no name on disk does. -/
def hasNul (location : Location) : Bool :=
  location.names.any (·.toList.contains '\x00')

/-! ## 3. Home directories -/

/-- The home directory of a user; without a name it is that of the user who sees the disk. -/
def homeOf? (disk : Disk) (user : String) : Option String :=
  if user = "" then some disk.home else disk.homes user

/-- What a tilde is replaced by: a home directory without slashes at its end, or the top if that is
all there is of it. -/
def homeText (home : String) : String :=
  match home.toList.reverse.dropWhile (· = '/') with
  | [] => "/"
  | kept => String.ofList kept.reverse

/-- The location of the home directory of a user.  A home that has a tilde at its start is none. -/
def homeLocation (disk : Disk) (user : String) : Except Fault Location :=
  if user.toList.contains '\x00' then .error .pathWithNul
  else match disk.homeOf? user with
    | none => .error .unknownUser
    | some home =>
      if (homeText home).toList.head? = some '~' then .error .unknownUser
      else .ok (Location.ofText (homeText home))

/-- A location with a home directory in place of a tilde at its start. -/
def expandHome (disk : Disk) (location : Location) : Except Fault Location :=
  match location.isAbsolute, location.names with
  | false, first :: rest =>
    match first.toList with
    | '~' :: user => (disk.homeLocation (String.ofList user)).map (·.under ⟨"", rest⟩)
    | _ => .ok location
  | _, _ => .ok location

end Disk
end Bindery
