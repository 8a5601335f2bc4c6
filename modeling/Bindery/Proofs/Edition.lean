/-
# What making a book does

A book that is made was accepted, its files were found, and its documents could be written
(`make_eq_ok_iff`).  The files that are found are checked once more when directories have been opened
out (`copiedFiles_eq_ok_iff`).
-/
import Bindery.Edition
import Bindery.Proofs.Disk.Walk
import Bindery.Proofs.Layout

namespace Bindery.Edition

open Text

variable {environment : Environment} {reader : Reader} {layout : Layout} {book : Book}

/-- The files are those of each walk in turn, with paths that are valid and do not clash. -/
theorem copiedFiles_eq_ok_iff {files : List (String × ByteArray)} :
    copiedFiles reader layout book = .ok files ↔
      ∃ found, ((layout.copied book).mapM fun file => reader.walk file.1 file.2) = .ok found ∧
        files = found.flatten ∧
        (∀ path ∈ files.map (·.1) ++ layout.generated, EntryPath.IsValid path) ∧
        ((files.map (·.1) ++ layout.generated).map foldCase).Nodup := by
  simp only [copiedFiles, bind_eq_ok_iff, pure_eq_ok_iff]
  constructor
  · rintro ⟨found, hfound, ⟨⟩, hpaths, rfl⟩
    exact ⟨found, hfound, rfl, Validation.checkPaths_eq_ok_iff.mp hpaths⟩
  · rintro ⟨found, hfound, rfl, hpaths⟩
    exact ⟨found, hfound, (), Validation.checkPaths_eq_ok_iff.mpr hpaths, rfl⟩

/-- The documents of a book as entries of its archive. -/
def documents (layout : Layout) (book : Book) (package navigation : String) :
    List (String × ByteArray) :=
  [(containerPath, (Document.Container.text book layout.listsDefaultPackage).toUTF8),
    (layout.packagePath, package.toUTF8), (layout.navigationPath, navigation.toUTF8)]

/-- **A book is made** if it is accepted, its files are found and its documents can be written. -/
theorem make_eq_ok_iff {edition : Edition} :
    make environment reader book = .ok edition ↔
      Validation.Accepts (Layout.of book) book ∧
      ∃ firstLinear files package navigation,
        Spine.firstLinear book = .ok firstLinear ∧
        copiedFiles reader (Layout.of book) book = .ok files ∧
        Document.Package.text (Layout.of book) book
          (metadata environment (Layout.of book) book) = .ok package ∧
        Document.Navigation.text (Layout.of book) book
          (metadata environment (Layout.of book) book) firstLinear = .ok navigation ∧
        edition = {
          entries := Archive.pack (files ++ documents (Layout.of book) book package navigation)
          container := Document.Container.text book (Layout.of book).listsDefaultPackage
          package, navigation
          warnings := Document.Package.warnings (metadata environment (Layout.of book) book) } := by
  simp only [make, bind_eq_ok_iff, pure_eq_ok_iff]
  constructor
  · rintro ⟨⟨⟩, hvalidate, firstLinear, hlinear, files, hfiles, package, hpackage, navigation,
      hnavigation, rfl⟩
    exact ⟨Validation.validate_eq_ok_iff.mp hvalidate, firstLinear, files, package, navigation,
      hlinear, hfiles, hpackage, hnavigation, rfl⟩
  · rintro ⟨haccepts, firstLinear, files, package, navigation, hlinear, hfiles, hpackage,
      hnavigation, rfl⟩
    exact ⟨(), Validation.validate_eq_ok_iff.mpr haccepts, firstLinear, hlinear, files, hfiles,
      package, hpackage, navigation, hnavigation, rfl⟩

end Bindery.Edition
