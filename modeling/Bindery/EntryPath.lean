/-
# Paths inside an archive

An archive path is a text of segments joined by `/`.  `normalize` resolves `.` and `..` on the text
alone, `join` puts a path below a directory, and `parent` gives the directory of a path.  Backslashes
are ordinary characters here; `EntryPath.check` refuses them.
-/
namespace Bindery.EntryPath

/-! ## 1. Segments -/

/-- The texts between the slashes of a path, empty ones included. -/
def segments (path : String) : List String :=
  (path.toList.splitOn '/').map String.ofList

/-- Segments written as a path. -/
def ofSegments (segments : List String) : String :=
  "/".intercalate segments

/-! ## 2. Normalization -/

/-- The leading slashes that normalization keeps: two stay two, any other number becomes one. -/
def root (path : String) : String :=
  match (path.toList.takeWhile (· = '/')).length with
  | 0 => ""
  | 2 => "//"
  | _ => "/"

/-- Walks one segment further.  The segments walked so far stand last first; `..` takes one back,
stays at the start of a relative path and is lost at the root. -/
def walk (rooted : Bool) (walked : List String) (segment : String) : List String :=
  if segment = "" ∨ segment = "." then walked
  else if segment = ".." then
    match walked with
    | [] => if rooted then [] else [".."]
    | last :: before => if last = ".." then ".." :: walked else before
  else segment :: walked

/-- The segments that are left once `.` and `..` are resolved. -/
def resolved (rooted : Bool) (segments : List String) : List String :=
  (segments.foldl (walk rooted) []).reverse

/-- The path with `.`, `..`, repeated and trailing slashes resolved; the empty text if it names the
directory it starts from. -/
def normalize (path : String) : String :=
  root path ++ ofSegments (resolved (root path != "") (segments path))

/-- The path `path` below `directory`; an empty directory stands for the top of the archive. -/
def join (directory path : String) : String :=
  if directory = "" then normalize path else normalize (directory ++ "/" ++ path)

/-! ## 3. Parts of a path -/

/-- A text without the slashes at its end, unless it is made of slashes only. -/
def trimSlashes (path : List Char) : List Char :=
  if path.all (· = '/') then path else (path.reverse.dropWhile (· = '/')).reverse

/-- The directory of the normalized path: all before its last slash. -/
def parent (path : String) : String :=
  let upToSlash := ((normalize path).toList.reverse.dropWhile (· ≠ '/')).reverse
  String.ofList (trimSlashes upToSlash)

/-- The segments of the normalized path, a backslash counting as a slash. -/
def components (path : String) : List String :=
  (segments (normalize (path.map fun c => if c = '\\' then '/' else c))).filter (· ≠ "")

end Bindery.EntryPath
