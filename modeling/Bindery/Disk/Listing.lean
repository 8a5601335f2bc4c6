/-
# What a tree of files holds

The files of a tree, each with the names that lead to it.  The order in which an archive takes them is
that of their names, compared one after the other.
-/
import Bindery.Disk
import Bindery.EntryPath

namespace Bindery.FileTree

mutual

/-- All files of a tree with the names that lead to them. -/
def files : FileTree → List (List String × ByteArray)
  | file data => [([], data)]
  | directory entries => filesAll entries

/-- All files of the trees in a directory. -/
def filesAll : List (String × FileTree) → List (List String × ByteArray)
  | [] => []
  | (name, tree) :: rest =>
    tree.files.map (fun (names, data) => (name :: names, data)) ++ filesAll rest

end

/-- Some entries of an archive are a tree below a path: one entry for each file of the tree, in the order of
the names that lead to the file, with its bytes.  A file alone is at the path itself. -/
def OpensTo (tree : FileTree) (inside : String) (entries : List (String × ByteArray)) : Prop :=
  ∃ files : List (List String × ByteArray), files.Perm tree.files ∧
    files.Pairwise (fun first second => first.1 < second.1) ∧
    entries = files.map fun file => (EntryPath.ofSegments (inside :: file.1), file.2)

/-- Whether a text can be the name of an entry of a directory. -/
def isProperName (name : String) : Bool :=
  name ≠ "" && name ≠ "." && name ≠ ".." && name.utf8ByteSize ≤ maxNameBytes &&
    !name.toList.contains '/' && !name.toList.contains '\x00'

mutual

/-- Whether no directory of a tree has a name twice, and every name is one that a disk can have. -/
def isProper : FileTree → Bool
  | file _ => true
  | directory entries =>
    (entries.map (·.1)).Nodup && (entries.map (·.1)).all isProperName && allProper entries

/-- Whether the trees in a directory are proper. -/
def allProper : List (String × FileTree) → Bool
  | [] => true
  | (_, tree) :: rest => tree.isProper && allProper rest

end

end Bindery.FileTree
