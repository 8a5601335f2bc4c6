/-
# Books made from a base directory

Reading from a base directory should be reading its tree alone.  It is not: the location of an entry of a
directory begins with the base, and where the base is given from the working directory it is read below the
base once more (`book_not_relocated`).  The law holds where no such location is read: for recipes that name
no directories, and for a base that is given from the top of the disk.  And nothing outside the base is ever
read, be the locations right or wrong (`base_relocates`).
-/
import Bindery.Proofs.Disk.Moved
import Bindery.Proofs.Edition.Copied

namespace Bindery.Edition

open Validation (pageBook)

variable {environment : Environment} {reader other : Reader} {book : Book}

/-! ## 1. What a book reads -/

/-- A book depends on the disk by the files that it copies. -/
theorem make_eq_of_walk_eq (h : ∀ file ∈ (Layout.of book).copied book,
      reader.walk file.1 file.2 = other.walk file.1 file.2) :
    make environment reader book = make environment other book := by
  have hwalks : ((Layout.of book).copied book).mapM (fun file => reader.walk file.1 file.2) =
      ((Layout.of book).copied book).mapM (fun file => other.walk file.1 file.2) :=
    mapM_congr_left h
  have hcopied : copiedFiles reader (Layout.of book) book =
      copiedFiles other (Layout.of book) book := by
    rw [copiedFiles, copiedFiles, hwalks]
  simp only [make, hcopied]

/-- If the walks over the files of a book find the same, the same edition is made. -/
theorem make_eq_ok_congr {edition : Edition} (h : ∀ file ∈ (Layout.of book).copied book, ∀ found,
      reader.walk file.1 file.2 = .ok found ↔ other.walk file.1 file.2 = .ok found) :
    make environment reader book = .ok edition ↔ make environment other book = .ok edition := by
  have hcopied : ∀ files, copiedFiles reader (Layout.of book) book = .ok files ↔
      copiedFiles other (Layout.of book) book = .ok files := by
    intro files
    rw [copiedFiles_eq_ok_iff, copiedFiles_eq_ok_iff]
    refine exists_congr fun found => and_congr_left' ?_
    exact mapM_eq_ok_congr h
  simp only [make_eq_ok_iff, hcopied]

/-! ## 2. The base directory -/

/-- **A base directory only relocates, unless the locations of entries are read below it again.**  With
sources that lead down, the edition that is made from a base directory is the one that is made from its tree
alone, if no source is a directory, or if the base is given from the top of the disk.  Whatever the sources
are, what is made, or why nothing is, depends on the tree at the base alone: no file outside it is read. -/
theorem base_relocates (environment : Environment) (disk : Disk) (base : String)
    (subtree : FileTree) (book : Book) (htop : disk.top.isProper = true)
    (hfind : disk.find (Location.ofText base) = .ok subtree)
    (hdown : ∀ file ∈ (Layout.of book).copied book, (Location.ofText file.1).LeadsDown) :
    (subtree.FitsUnder (Location.ofText base) →
      (∀ file ∈ (Layout.of book).copied book,
        Reader.isDirectory ⟨disk, Location.ofText base⟩ file.1 ≠ .ok true ∨
          (Location.ofText base).isAbsolute = true ∧ (Location.ofText file.1).text ≠ ".") →
      ∀ edition, make environment ⟨disk, Location.ofText base⟩ book = .ok edition ↔
        make environment (readerOf (disk.moved subtree)) book = .ok edition) ∧
    ((Location.ofText base).StaysBelow →
      (∀ file ∈ (Layout.of book).copied book,
        ((Location.ofText base).under (Location.ofText file.1)).Untilded) →
      ∀ other : Disk, other.find (Location.ofText base) = .ok subtree →
        make environment ⟨other, Location.ofText base⟩ book =
          make environment ⟨disk, Location.ofText base⟩ book) := by
  have hproper := Disk.isProper_of_find htop hfind
  have hnormal := Location.isNormal_ofText base
  constructor
  · intro hfits hplain edition
    refine make_eq_ok_congr fun file hfile found => ?_
    exact Reader.walk_moved htop hfind hfits (hdown file hfile) hnormal (hplain file hfile)
  · intro hbase huntilded other hother
    refine make_eq_of_walk_eq fun file hfile => ?_
    exact Reader.walk_eq_of_find_eq hproper hbase hother hfind
      (Reader.stands_of_leadsDown (hdown file hfile) hnormal (huntilded file hfile))
      (Reader.stands_of_leadsDown (hdown file hfile) hnormal (huntilded file hfile))

/-- A disk with a directory that holds a page and a directory of one image. -/
def shelfDisk : Disk where
  top := .directory [("book", pageReader.disk.top)]
  workingDirectory := []
  home := "/home"

theorem leadsDown_pageBook : ∀ file ∈ (Layout.of pageBook).copied pageBook,
    (Location.ofText file.1).LeadsDown := by
  intro file hfile
  obtain ⟨hrelative, -, htilde⟩ := isPlain_pageBook file hfile
  refine ⟨hrelative, ?_, htilde⟩
  revert file
  decide +kernel

/-- The page and the image, read from a directory that is given from the top of the disk. -/
theorem pageBook_relocated :
    (∀ edition, make plainEnvironment ⟨shelfDisk, Location.ofText "/book"⟩ pageBook = .ok edition ↔
      make plainEnvironment (readerOf (shelfDisk.moved pageReader.disk.top)) pageBook =
        .ok edition) ∧
      ∀ other : Disk, other.find (Location.ofText "/book") = .ok pageReader.disk.top →
        make plainEnvironment ⟨other, Location.ofText "/book"⟩ pageBook =
          make plainEnvironment ⟨shelfDisk, Location.ofText "/book"⟩ pageBook := by
  obtain ⟨hmoved, hsame⟩ := base_relocates plainEnvironment shelfDisk "/book" pageReader.disk.top
    pageBook (by decide +kernel) rfl leadsDown_pageBook
  have hfits : pageReader.disk.top.FitsUnder (Location.ofText "/book") :=
    FileTree.fitsUnder_of_height (by decide +kernel) (by decide +kernel)
  constructor
  · refine hmoved hfits fun file hfile => .inr ⟨rfl, ?_⟩
    exact (isPlain_pageBook file hfile).not_dot
  · refine hsame (.inl rfl) fun file hfile => ?_
    rw [Location.under_of_relative (leadsDown_pageBook file hfile).relative]
    exact .inl rfl

theorem list_shelf_images : Reader.list ⟨shelfDisk, Location.ofText "book"⟩ "images" =
    .ok [("cover.png", "book/images/cover.png")] := by
  have hlist : Reader.list ⟨shelfDisk, Location.ofText "book"⟩ "images" =
      .ok ((["cover.png"].mergeSort fun left right => decide (left ≤ right)).map fun name =>
        (name, ((Location.ofText "book/images").child name).text)) := rfl
  rw [hlist, List.mergeSort_singleton]
  rfl

theorem walk_shelf_images : Reader.walk ⟨shelfDisk, Location.ofText "book"⟩ "images" "images" =
    .error (.file (.read ⟨.notFound, "book/book/images/cover.png"⟩)) := by
  have hdirectory : Reader.isDirectory ⟨shelfDisk, Location.ofText "book"⟩ "images" = .ok true := rfl
  rw [Reader.walk, Reader.walkLevels, hdirectory, list_shelf_images]
  rfl

/-- **The image is looked for below a second copy of the base**, where it is not. -/
theorem book_not_relocated :
    shelfDisk.find (Location.ofText "book") = .ok pageReader.disk.top ∧
    (∀ file ∈ (Layout.of pageBook).copied pageBook, (Location.ofText file.1).LeadsDown) ∧
    (∃ edition, make plainEnvironment (readerOf (shelfDisk.moved pageReader.disk.top)) pageBook =
      .ok edition) ∧
    make plainEnvironment ⟨shelfDisk, Location.ofText "book"⟩ pageBook =
      .error (.file (.read ⟨.notFound, "book/book/images/cover.png"⟩)) := by
  refine ⟨rfl, leadsDown_pageBook, exists_make_pageBook, ?_⟩
  have hvalidate := Validation.validate_eq_ok_iff.mpr Validation.pageBook_accepted
  obtain ⟨firstLinear, hlinear⟩ := Validation.pageBook_accepted.has_linear
  have hcopied : (Layout.of pageBook).copied pageBook =
      [("page.xhtml", "OEBPS/page.xhtml"), ("images", "images")] := by decide +kernel
  have hpage : Reader.walk ⟨shelfDisk, Location.ofText "book"⟩ "page.xhtml" "OEBPS/page.xhtml" =
      .ok [("OEBPS/page.xhtml", .empty)] := rfl
  have hfiles : copiedFiles ⟨shelfDisk, Location.ofText "book"⟩ (Layout.of pageBook) pageBook =
      .error (.file (.read ⟨.notFound, "book/book/images/cover.png"⟩)) := by
    rw [copiedFiles, hcopied, List.mapM_cons, List.mapM_cons]
    dsimp only
    rw [hpage, walk_shelf_images]
    rfl
  rw [make, hvalidate, hlinear, hfiles]
  rfl

end Bindery.Edition
