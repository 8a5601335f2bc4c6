/-
# Which paths may name an archive entry

A path is accepted when it is relative, none of its segments is empty, holds a forbidden character or
ends in a dot, its file name has at most 255 bytes and it has at most 65535 bytes in all.  `check`
names the first rule that a path breaks.
-/
import Bindery.EntryPath
import Bindery.Text.Quoted

namespace Bindery

/-! ## 1. What can be wrong with a path -/

/-- Why a path cannot be used. -/
inductive PathFault where
  /-- A surrogate stands alone, so the path has no bytes. -/
  | notText (points : List Text.CodePoint)
  | absolute (path : String)
  | noFileName (path : String)
  | fileNameTooLong (fileName : String)
  | tooLong (path : String)
  | emptyComponent (path : String)
  | forbiddenCharacter (path : String) (character : Char)
  | trailingDot (path component : String)
  /-- A link leads to a path without components. -/
  | noTarget (path : String)
  /-- A file to be packed has no last name. -/
  | noFinalName (path : String)
  deriving DecidableEq, Repr

namespace EntryPath

/-- The longest file name, in bytes. -/
def maxFileNameBytes : Nat := 255

/-- The longest path, in bytes. -/
def maxPathBytes : Nat := 65535

/-- The characters that no segment may hold, in the order in which they are reported. -/
def forbidden : List Char := ['/', '"', '*', ':', '<', '>', '?', '\\']

end EntryPath

namespace PathFault

open Text in
/-- The message that reports a fault. -/
def message : PathFault → String
  | notText points => s!"Invalid non-UTF-8 path: {quotedPoints points}"
  | absolute path => s!"Invalid absolute path {quoted path}; archive paths are relative."
  | noFileName path => s!"Invalid path without a file name: {quoted path}"
  | fileNameTooLong fileName =>
    s!"Invalid filename of length >{EntryPath.maxFileNameBytes} bytes: {fileName}"
  | tooLong path => s!"Invalid path of length >{EntryPath.maxPathBytes} bytes: {path}"
  | emptyComponent path => s!"Path {quoted path} contains an empty component."
  | forbiddenCharacter path character =>
    s!"Path {quoted path} contains invalid character '{character}'."
  | trailingDot path component =>
    s!"Path {quoted path} has component {quoted component} ending with '.'."
  | noTarget path => s!"Cannot reference a path without a file name: {quoted path}"
  | noFinalName path => s!"Ill-formed path without a final name: {quoted path}"

end PathFault

/-! ## 2. The check -/

namespace EntryPath

/-- The last segment. -/
def fileName (path : String) : String :=
  (segments path).getLast?.getD ""

/-- The first rule that one segment of `path` breaks. -/
def componentFault? (path component : String) : Option PathFault :=
  if component = "" then some (.emptyComponent path)
  else match forbidden.find? (component.toList.contains ·) with
    | some character => some (.forbiddenCharacter path character)
    | none =>
      if component.toList.getLast? = some '.' then some (.trailingDot path component) else none

/-- The first rule that a path breaks; nothing if it may name an entry. -/
def fault? (path : String) : Option PathFault :=
  if path.toList.head? = some '/' then some (.absolute path)
  else if fileName path = "" ∨ fileName path = ".." then some (.noFileName path)
  else if maxFileNameBytes < (fileName path).utf8ByteSize then
    some (.fileNameTooLong (fileName path))
  else if maxPathBytes < path.utf8ByteSize then some (.tooLong path)
  else (segments path).findSome? (componentFault? path)

/-- Refuses a path that may not name an archive entry. -/
def check (path : String) : Except PathFault Unit :=
  match fault? path with
  | some fault => .error fault
  | none => .ok ()

/-- The check of a path given by its code points. -/
def checkPoints (points : List Text.CodePoint) : Except PathFault Unit :=
  match Text.CodePoint.text? points with
  | some path => check path
  | none => .error (.notText points)

end EntryPath
end Bindery
