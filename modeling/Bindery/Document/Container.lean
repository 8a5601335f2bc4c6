/-
# The container document

It lists the package documents of the archive: those of the recipe, in order, and the one at the
default path if the recipe lists none.
-/
import Bindery.Layout
import Bindery.Xml.Element

namespace Bindery.Document.Container

open Xml

/-- The namespace of the container document. -/
def xmlNamespace : String := "urn:oasis:names:tc:opendocument:xmlns:container"

/-- The package documents to list. -/
def rootfiles (book : Book) (listsDefaultPackage : Bool) : List Rootfile :=
  (book.rootfiles.getD []).map (fun rootfile =>
      { rootfile with path := EntryPath.normalize rootfile.path }) ++
    if listsDefaultPackage then [⟨defaultPackagePath, packageMediaType⟩] else []

/-- The element that lists a package document. -/
def rootfileElement (rootfile : Rootfile) : Element :=
  .branch "rootfile" [⟨"full-path", rootfile.path⟩, ⟨"media-type", rootfile.mediaType⟩] []

/-- The root of the container document. -/
def element (book : Book) (listsDefaultPackage : Bool) : Element :=
  .branch "container" [⟨"xmlns", xmlNamespace⟩, ⟨"version", "1.0"⟩]
    [.branch "rootfiles" [] ((rootfiles book listsDefaultPackage).map rootfileElement)]

/-- The text of the container document. -/
def text (book : Book) (listsDefaultPackage : Bool) : String :=
  (element book listsDefaultPackage).document

end Bindery.Document.Container
