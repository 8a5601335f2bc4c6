/-
# Where everything goes

The layout of a book's archive, settled before anything is written: the path of the package document,
the path and identifier of the navigation document, and the path of every manifest item.  A manifest
path is relative to the directory of the package document.
-/
import Bindery.Archive.MediaType
import Bindery.Book
import Bindery.EntryPath.Link
import Bindery.Fault

namespace Bindery

/-! ## 1. Fixed names -/

/-- The media type of a package document. -/
def packageMediaType : String := "application/oebps-package+xml"

/-- The media type of a navigation document. -/
def navigationMediaType : String := "application/x-dtbncx+xml"

/-- The entry that lists the package documents. -/
def containerPath : String := "META-INF/container.xml"

/-- Where the package document goes when the recipe does not say so. -/
def defaultPackagePath : String := "OEBPS/content.opf"

/-- The identifier of the navigation document when the recipe does not give one. -/
def defaultNavigationId : String := "ncx"

/-- The path of the navigation document when the recipe does not give one. -/
def defaultNavigationPath : String := "toc.ncx"

/-! ## 2. The layout -/

/-- Where the documents and items of a book go. -/
structure Layout where
  packagePath : String
  navigationId : String
  navigationPath : String
  /-- Whether the container has to list the package document of its own accord. -/
  listsDefaultPackage : Bool
  /-- The path of each manifest identifier; each identifier once, at its first place and with its
  last path. -/
  itemPaths : List (String × String)
  deriving DecidableEq, Repr

namespace Layout

/-- The directory of the package document. -/
def directory (layout : Layout) : String :=
  EntryPath.parent layout.packagePath

/-- Gives an identifier a path: in its old place if it has one, else at the end. -/
def setPath (id path : String) : List (String × String) → List (String × String)
  | [] => [(id, path)]
  | (name, old) :: rest =>
    if name = id then (name, path) :: rest else (name, old) :: setPath id path rest

/-- A text that is given and not empty, or else the default. -/
def orDefault (default : String) : Option String → String
  | some text => if text = "" then default else text
  | none => default

/-- The first package document that the recipe lists. -/
def packageRootfile? (book : Book) : Option Rootfile :=
  (book.rootfiles.getD []).find? (·.mediaType == packageMediaType)

/-- The path of the package document. -/
def packagePathOf (book : Book) : String :=
  match packageRootfile? book with
  | some rootfile => EntryPath.normalize rootfile.path
  | none => defaultPackagePath

/-- The paths of the manifest items, given the directory of the package document. -/
def itemPathsOf (directory : String) (manifest : List ManifestItem) : List (String × String) :=
  manifest.foldl (fun paths item => setPath item.id (EntryPath.join directory item.path) paths) []

/-- The layout of a book. -/
def of (book : Book) : Layout :=
  let packagePath := packagePathOf book
  let directory := EntryPath.parent packagePath
  let navigation := book.navigationFile.getD {}
  { packagePath
    navigationId := orDefault defaultNavigationId navigation.id
    navigationPath :=
      EntryPath.join directory (orDefault defaultNavigationPath navigation.path)
    listsDefaultPackage := (packageRootfile? book).isNone
    itemPaths := itemPathsOf directory book.manifest }

/-! ## 3. Paths and links -/

/-- The path of a manifest item that `referrer` refers to. -/
def itemPath (layout : Layout) (idref : String) (referrer : Referrer) : Except Fault String :=
  match layout.itemPaths.lookup idref with
  | some path => .ok path
  | none => .error (.missingItem (.reference idref referrer))

/-- The link between two entries of the archive. -/
def link (source target : String) : Except Fault String :=
  (EntryPath.relative source target).mapError .path

/-- The link that the document at `source` writes to reach a fragment of a manifest item. -/
def itemLink (layout : Layout) (source idref : String) (fragment : Option String)
    (referrer : Referrer) : Except Fault String := do
  let href ← link source (← layout.itemPath idref referrer)
  match fragment with
  | none => return href
  | some name => return if name = "" then href else href ++ "#" ++ name

/-- The files that are copied: where each is read from and where it goes. -/
def copied (layout : Layout) (book : Book) : List (String × String) :=
  book.manifest.map (fun item => (item.source, EntryPath.join layout.directory item.path)) ++
    book.extraFiles.map fun file => (file.source, EntryPath.normalize file.path)

/-- The entries that are written and not copied. -/
def generated (layout : Layout) : List String :=
  [Archive.mediaTypeName, containerPath, layout.packagePath, layout.navigationPath]

/-- The identifiers of the package document that the recipe fixes. -/
def identifiers (layout : Layout) (book : Book) : List String :=
  book.manifest.map (·.id) ++ [layout.navigationId] ++
    (book.metadata.getD []).filterMap fun
      | .core statement => statement.id.filter (· ≠ "")
      | .custom _ _ => none

end Layout
end Bindery
