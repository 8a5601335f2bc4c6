/-
# Editions

An edition is a book made: the entries of its archive, the texts of its three documents, and the
warnings.  Everything is checked before anything is read, and the paths once more when directories
have been opened out.
-/
import Bindery.Archive
import Bindery.Disk.Reader
import Bindery.Document.Container
import Bindery.Document.Navigation
import Bindery.Document.Package
import Bindery.FreshName
import Bindery.Validation

namespace Bindery

/-- A book made. -/
structure Edition where
  entries : List Archive.Entry
  container : String
  package : String
  navigation : String
  warnings : List Warning

namespace Edition

/-- The id that the unique identifier gets if the recipe gives it none. -/
def identifierId : String := "BookId"

/-- The metadata of a book in its layout. -/
def metadata (environment : Environment) (layout : Layout) (book : Book) : Metadata :=
  Metadata.resolve environment (FreshName.fresh identifierId (layout.identifiers book))
    book.metadata

/-- The files that are copied, with their archive paths; directories are opened out. -/
def copiedFiles (reader : Reader) (layout : Layout) (book : Book) :
    Except Fault (List (String × ByteArray)) := do
  let files := (← (layout.copied book).mapM fun (source, path) => reader.walk source path).flatten
  Validation.checkPaths (files.map (·.1) ++ layout.generated)
  return files

/-- Makes a book. -/
def make (environment : Environment) (reader : Reader) (book : Book) : Except Fault Edition := do
  let layout := Layout.of book
  Validation.validate layout book
  let metadata := metadata environment layout book
  let firstLinear ← Spine.firstLinear book
  let files ← copiedFiles reader layout book
  let container := Document.Container.text book layout.listsDefaultPackage
  let package ← Document.Package.text layout book metadata
  let navigation ← Document.Navigation.text layout book metadata firstLinear
  let documents := [(containerPath, container.toUTF8), (layout.packagePath, package.toUTF8),
    (layout.navigationPath, navigation.toUTF8)]
  return {
    entries := Archive.pack (files ++ documents)
    container, package, navigation
    warnings := Document.Package.warnings metadata }

end Edition
end Bindery
