/-
# When an archive is a file tree

An archive is unpacked to a tree of directories, and then no entry can be where another one needs a
directory.  That paths do not clash is checked, and no more: a recipe may plan a file above another file, and
a directory on a disk may hold names that differ by case alone.  Nothing else brings one entry above another
(`entries_nest_by_plan`).  Both do happen (`not_isFileTree`).
-/
import Bindery.Proofs.Archive.SafelyNamed
import Bindery.Proofs.Disk.Twins

namespace Bindery.Edition

open EntryPath Text

variable {environment : Environment} {reader : Reader} {layout : Layout} {book : Book}
  {edition : Edition} {path other upper lower name : String}

/-- The names of the entries of an edition. -/
def names (edition : Edition) : List String := edition.entries.map (·.name)

/-! ## 1. Planned paths -/

/-- The paths that a recipe settles before anything is read. -/
def plannedPaths (layout : Layout) (book : Book) : List String :=
  (layout.copied book).map (·.2) ++ layout.generated

/-- A planned path gives an entry its name: that of a document as it is, that of a file or directory
which is copied by what is found there. -/
inductive Gives (reader : Reader) (layout : Layout) (book : Book) : (path name : String) → Prop
  | document {path : String} (h : path ∈ layout.generated) : Gives reader layout book path path
  | copied {source path name : String} {found : List (String × ByteArray)}
      (h : (source, path) ∈ layout.copied book) (hwalk : reader.walk source path = .ok found)
      (hname : name ∈ found.map (·.1)) : Gives reader layout book path name

theorem Gives.mem_plannedPaths (h : Gives reader layout book path name) :
    path ∈ plannedPaths layout book := by
  cases h with
  | document h => exact List.mem_append_right _ h
  | copied h => exact List.mem_append_left _ (List.mem_map_of_mem h)

/-- The names in an archive are those of the files that are found and of the documents. -/
theorem exists_perm_names (hbook : book.LegalParts)
    (hmake : make environment reader book = .ok edition) :
    ∃ found, walks reader ((Layout.of book).copied book) = .ok found ∧
      (found.flatten.map (·.1) ++ (Layout.of book).generated).Perm edition.names := by
  obtain ⟨files, hfiles, hsafe⟩ := safelyNamed_make hbook hmake
  obtain ⟨found, hfound, rfl, -⟩ := copiedFiles_eq_ok_iff.mp hfiles
  have hwhole : edition.names = Archive.mediaTypeName :: planned (Layout.of book) found.flatten :=
    hsafe.whole
  exact ⟨found, hfound, hwhole ▸ planned_perm _ _⟩

/-- The names in an archive are those that the planned paths give. -/
theorem mem_names_iff (hbook : book.LegalParts) (hmake : make environment reader book = .ok edition) :
    name ∈ edition.names ↔ ∃ path, Gives reader (Layout.of book) book path name := by
  obtain ⟨found, hfound, hperm⟩ := exists_perm_names hbook hmake
  rw [← hperm.mem_iff, List.mem_append]
  constructor
  · rintro (hname | hdocument)
    · obtain ⟨file, hfile, rfl⟩ := List.mem_map.mp hname
      obtain ⟨part, hpart, hfile⟩ := List.mem_flatten.mp hfile
      obtain ⟨⟨source, path⟩, hcopied, hwalk⟩ := exists_of_mem_mapM hfound hpart
      exact ⟨path, .copied hcopied hwalk (List.mem_map_of_mem hfile)⟩
    · exact ⟨name, .document hdocument⟩
  · rintro ⟨path, hdocument | ⟨hcopied, hwalk, hname⟩⟩
    · exact .inr hdocument
    · obtain ⟨part, hpart, hwalk'⟩ := exists_walk hfound hcopied
      obtain rfl := Except.ok.inj (hwalk.symm.trans hwalk')
      obtain ⟨file, hfile, rfl⟩ := List.mem_map.mp hname
      exact .inl (List.mem_map_of_mem (List.mem_flatten.mpr ⟨_, hpart, hfile⟩))

theorem not_isFileTree_of_gives (hbook : book.LegalParts)
    (hmake : make environment reader book = .ok edition)
    (hupper : Gives reader (Layout.of book) book path upper)
    (hlower : Gives reader (Layout.of book) book other lower) (habove : IsAbove upper lower) :
    upper ∈ edition.names ∧ lower ∈ edition.names ∧ ¬ IsFileTree edition.names := by
  have hupper := (mem_names_iff hbook hmake).mpr ⟨path, hupper⟩
  have hlower := (mem_names_iff hbook hmake).mpr ⟨other, hlower⟩
  exact ⟨hupper, hlower, fun htree => htree upper hupper lower hlower habove⟩

/-! ## 2. Where entries of two names come from -/

/-- One name comes to be above another: because a planned path is, be it the same way or the other way
round, or because both come from one directory, below which they part at names that differ by case alone. -/
def ComesAbove (reader : Reader) (layout : Layout) (book : Book) (upper lower : String) : Prop :=
  ∃ path other, Gives reader layout book path upper ∧ Gives reader layout book other lower ∧
    (IsAbove path other ∨ IsAbove other path ∨
      path = other ∧ ∃ source, (source, path) ∈ layout.copied book ∧
        reader.PartAtTwins (reader.descent source) upper lower)

section

variable (haccepts : Validation.Accepts layout book)
include haccepts

theorem isName_of_planned (hpath : path ∈ plannedPaths layout book) :
    ∀ segment ∈ segments path, IsName segment :=
  (haccepts.paths_valid path hpath).isName

/-- An entry lies at its planned path or below it. -/
theorem Gives.prefix_segments (htop : reader.disk.top.isProper = true)
    (h : Gives reader layout book path name) : segments path <+: segments name := by
  have hinside := isName_of_planned haccepts h.mem_plannedPaths
  cases h with
  | document => exact List.prefix_rfl
  | copied hcopied hwalk hname =>
    obtain ⟨file, hfile, rfl⟩ := List.mem_map.mp hname
    exact Reader.prefix_of_walkLevels htop hinside hwalk file hfile

/-- Planned paths do not clash, so a path that gives two entries is that of one directory. -/
theorem Gives.partAtTwins (htop : reader.disk.top.isProper = true)
    (hupper : Gives reader layout book path upper) (hlower : Gives reader layout book other lower)
    (hfold : foldCase path = foldCase other) (habove : IsAbove upper lower) :
    path = other ∧ ∃ source, (source, path) ∈ layout.copied book ∧
      reader.PartAtTwins (reader.descent source) upper lower := by
  have hinside := isName_of_planned haccepts hupper.mem_plannedPaths
  obtain rfl : path = other := List.inj_on_of_nodup_map haccepts.paths_distinct
    hupper.mem_plannedPaths hlower.mem_plannedPaths hfold
  refine ⟨rfl, ?_⟩
  obtain ⟨hcopied, -, hdisjoint⟩ := List.nodup_append.mp haccepts.paths_distinct.of_map
  cases hupper with
  | document hdocument =>
    cases hlower with
    | document => exact absurd habove (IsAbove.irrefl _)
    | copied h => exact absurd rfl (hdisjoint _ (List.mem_map_of_mem h) _ hdocument)
  | @copied source _ _ found h hwalk hname =>
    cases hlower with
    | document hdocument => exact absurd rfl (hdisjoint _ (List.mem_map_of_mem h) _ hdocument)
    | copied h' hwalk' hname' =>
      have hsame := List.inj_on_of_nodup_map hcopied h h' rfl
      cases hsame
      obtain rfl := Except.ok.inj (hwalk.symm.trans hwalk')
      obtain ⟨upperFile, hupperFile, rfl⟩ := List.mem_map.mp hname
      obtain ⟨lowerFile, hlowerFile, rfl⟩ := List.mem_map.mp hname'
      exact ⟨source, h, Reader.partAtTwins_of_walkLevels htop hinside hwalk upperFile hupperFile
        lowerFile hlowerFile habove⟩

/-- **What brings one entry above another.** -/
theorem Gives.comesAbove (htop : reader.disk.top.isProper = true)
    (hupper : Gives reader layout book path upper) (hlower : Gives reader layout book other lower)
    (habove : IsAbove upper lower) : ComesAbove reader layout book upper lower := by
  refine ⟨path, other, hupper, hlower, ?_⟩
  rcases habove.of_starts (hupper.prefix_segments haccepts htop)
    (hlower.prefix_segments haccepts htop) with hpath | hother | hfold
  · exact .inl hpath
  · exact .inr (.inl hother)
  · exact .inr (.inr (hupper.partAtTwins haccepts htop hlower hfold habove))

end

/-! ## 3. The archive -/

/-- All names in the directories that a walk comes to differ by more than case. -/
def HasNoTwins (reader : Reader) (source : String) : Prop :=
  ∀ directory ∈ reader.descent source, ∀ listed, reader.list directory = .ok listed →
    ∀ left ∈ listed.map (·.1), ∀ right ∈ listed.map (·.1),
      foldCase left = foldCase right → left = right

/-- One entry of an archive comes to be above another by the plan of the recipe, or by names on the disk
that differ by case alone. -/
structure NestsByPlan (reader : Reader) (book : Book) (edition : Edition) : Prop where
  above : ∀ upper ∈ edition.names, ∀ lower ∈ edition.names, IsAbove upper lower →
    ComesAbove reader (Layout.of book) book upper lower
  fileTree : IsFileTree (plannedPaths (Layout.of book) book) →
    (∀ file ∈ (Layout.of book).copied book, HasNoTwins reader file.1) → IsFileTree edition.names
  /-- Where no directory is opened out, the plan decides. -/
  fileTree_iff : (∀ file ∈ (Layout.of book).copied book, reader.isDirectory file.1 ≠ .ok true) →
    (IsFileTree edition.names ↔ IsFileTree (plannedPaths (Layout.of book) book))

/-- Without directories the planned paths are the names. -/
theorem mem_names_iff_of_files (hbook : book.LegalParts)
    (hmake : make environment reader book = .ok edition)
    (hfiles : ∀ file ∈ (Layout.of book).copied book, reader.isDirectory file.1 ≠ .ok true) :
    name ∈ edition.names ↔ name ∈ plannedPaths (Layout.of book) book := by
  obtain ⟨found, hfound, hperm⟩ := exists_perm_names hbook hmake
  rw [← hperm.mem_iff, names_of_walks hfound hfiles, plannedPaths]

/-- **One entry is above another only by the plan of the recipe or by the case of names on the disk.** -/
theorem entries_nest_by_plan {body : Value} (htop : reader.disk.top.isProper = true)
    (hread : Book.ofValue body = .ok book) (hmake : make environment reader book = .ok edition) :
    NestsByPlan reader book edition := by
  have hbook := (Book.wellFormed_of_ofValue hread).legalParts
  obtain ⟨haccepts, -⟩ := make_eq_ok_iff.mp hmake
  have habove : ∀ upper ∈ edition.names, ∀ lower ∈ edition.names, IsAbove upper lower →
      ComesAbove reader (Layout.of book) book upper lower := by
    intro upper hupper lower hlower h
    obtain ⟨path, hpath⟩ := (mem_names_iff hbook hmake).mp hupper
    obtain ⟨other, hother⟩ := (mem_names_iff hbook hmake).mp hlower
    exact hpath.comesAbove haccepts htop hother h
  refine ⟨habove, fun hplan htwins upper hupper lower hlower h => ?_, fun hfiles => ?_⟩
  · obtain ⟨path, other, hpath, hother, hcases⟩ := habove upper hupper lower hlower h
    rcases hcases with h | h | ⟨-, source, hsource, hpart⟩
    · exact hplan _ hpath.mem_plannedPaths _ hother.mem_plannedPaths h
    · exact hplan _ hother.mem_plannedPaths _ hpath.mem_plannedPaths h
    · obtain ⟨directory, hdirectory, listed, hlist, left, hleft, right, hright, hne, hfold, -⟩ := hpart
      exact hne (htwins _ hsource directory hdirectory listed hlist left hleft right hright hfold)
  · simp only [IsFileTree, mem_names_iff_of_files hbook hmake hfiles]

/-- Without directories the paths have been checked before the files are read. -/
theorem copiedFiles_of_files (haccepts : Validation.Accepts layout book)
    {found : List (List (String × ByteArray))} (hwalks : walks reader (layout.copied book) = .ok found)
    (hfiles : ∀ file ∈ layout.copied book, reader.isDirectory file.1 ≠ .ok true) :
    copiedFiles reader layout book = .ok found.flatten := by
  have hnames := names_of_walks hwalks hfiles
  refine copiedFiles_eq_ok_iff.mpr ⟨found, hwalks, rfl, ?_, ?_⟩
  · rw [hnames]
    exact haccepts.paths_valid
  · rw [hnames]
    exact haccepts.paths_distinct

/-! ## 4. Entries above entries -/

open Validation (pageBook)

/-- A book with a page in the place of the directory of another page. -/
def nestedBook : Book where
  manifest := [
    { source := "page.xhtml", path := "part", mediaType := "application/xhtml+xml", id := "part" },
    { source := "page.xhtml", path := "part/page.xhtml", mediaType := "application/xhtml+xml",
      id := "page" }]

theorem nestedBook_accepted : Validation.Accepts (Layout.of nestedBook) nestedBook := by
  refine Validation.accepts_of_document rfl (by decide) rfl
    (Validation.checkPaths_eq_ok_iff.mpr (by decide +kernel))
    (Validation.checkIdentifiers_eq_ok_iff.mpr (by decide +kernel)) rfl rfl ?_
  intro item hitem
  obtain rfl := List.mem_singleton.mp hitem
  exact ⟨true, Spine.eligible_of_document (by decide)⟩

theorem copied_nestedBook : (Layout.of nestedBook).copied nestedBook =
    [("page.xhtml", "OEBPS/part"), ("page.xhtml", "OEBPS/part/page.xhtml")] := by decide +kernel

theorem isDirectory_nestedBook : ∀ file ∈ (Layout.of nestedBook).copied nestedBook,
    pageReader.isDirectory file.1 ≠ .ok true := by
  rw [copied_nestedBook]
  decide +kernel

theorem exists_make_nestedBook : ∃ edition,
    make plainEnvironment pageReader nestedBook = .ok edition := by
  have hread : Book.ofValue nestedBook.toValue = .ok nestedBook := rfl
  have hpage (inside : String) : pageReader.walk "page.xhtml" inside = .ok [(inside, .empty)] :=
    (Reader.walk_file rfl).mpr ⟨.empty, rfl, rfl⟩
  have hwalks : walks pageReader ((Layout.of nestedBook).copied nestedBook) =
      .ok [[("OEBPS/part", .empty)], [("OEBPS/part/page.xhtml", .empty)]] := by
    rw [copied_nestedBook]
    exact mapM_eq_ok_iff.mpr (.cons (hpage _) (.cons (hpage _) .nil))
  exact exists_make nestedBook_accepted (Book.wellFormed_of_ofValue hread).legalParts
    legal_plainEnvironment (by simp [nestedBook])
    (copiedFiles_of_files nestedBook_accepted hwalks isDirectory_nestedBook)

theorem isAbove_part : IsAbove "OEBPS/part" "OEBPS/part/page.xhtml" := by
  refine ⟨"page.xhtml", ?_⟩
  rw [← String.toList_inj]
  simp [foldCase]

/-- The plan of the book is at fault for its archive. -/
theorem nestedBook_nests_by_plan : pageReader.disk.top.isProper = true ∧
    Book.ofValue nestedBook.toValue = .ok nestedBook ∧
    ∃ edition, make plainEnvironment pageReader nestedBook = .ok edition ∧
      NestsByPlan pageReader nestedBook edition ∧ ¬ IsFileTree edition.names := by
  have htop : pageReader.disk.top.isProper = true := by decide +kernel
  have hread : Book.ofValue nestedBook.toValue = .ok nestedBook := rfl
  obtain ⟨edition, hmake⟩ := exists_make_nestedBook
  have hnests := entries_nest_by_plan htop hread hmake
  refine ⟨htop, hread, edition, hmake, hnests, fun htree => ?_⟩
  have hupper : "OEBPS/part" ∈ plannedPaths (Layout.of nestedBook) nestedBook := by decide +kernel
  have hlower : "OEBPS/part/page.xhtml" ∈ plannedPaths (Layout.of nestedBook) nestedBook := by
    decide +kernel
  exact (hnests.fileTree_iff isDirectory_nestedBook).mp htree _ hupper _ hlower isAbove_part

/-- A disk with a page, and with images of which a file and a directory have one name but for its case. -/
def twinsReader : Reader where
  disk := {
    top := .directory [("page.xhtml", .file .empty),
      ("images", .directory [("Cover", .file .empty),
        ("cover", .directory [("front.png", .file .empty)])])]
    workingDirectory := []
    home := "/home" }
  base := .ofText "."

theorem walk_twins : twinsReader.walk "images" "images" =
    .ok [("images/Cover", .empty), ("images/cover/front.png", .empty)] := by
  have hordered : FileTree.orderedNames [("Cover", .file .empty),
      ("cover", .directory [("front.png", .file .empty)])] = ["Cover", "cover"] :=
    List.mergeSort_of_pairwise (by decide)
  have hresolve : twinsReader.resolve "images" = .ok (.ofText "images") := rfl
  have himages : twinsReader.list "images" =
      .ok [("Cover", "images/Cover"), ("cover", "images/cover")] := by
    refine (Reader.list_eq_ok_iff hresolve).mpr ⟨rfl, _, rfl, ?_⟩
    rw [hordered]
    rfl
  have hresolveCover : twinsReader.resolve "images/cover" = .ok (.ofText "images/cover") := rfl
  have hcover : twinsReader.list "images/cover" = .ok [("front.png", "images/cover/front.png")] := by
    refine (Reader.list_eq_ok_iff hresolveCover).mpr ⟨rfl, _, rfl, ?_⟩
    rw [FileTree.orderedNames, List.map_singleton, List.mergeSort_singleton]
    rfl
  have hfile : twinsReader.walkLevels 4 "images/Cover" (join "images" "Cover") =
      .ok [("images/Cover", .empty)] :=
    Reader.walkLevels_eq_ok_iff.mpr (.inl ⟨rfl, .empty, rfl, by decide +kernel⟩)
  have hfront : twinsReader.walkLevels 3 "images/cover/front.png"
      (join (join "images" "cover") "front.png") = .ok [("images/cover/front.png", .empty)] :=
    Reader.walkLevels_eq_ok_iff.mpr (.inl ⟨rfl, .empty, rfl, by decide +kernel⟩)
  have hdirectory : twinsReader.walkLevels 4 "images/cover" (join "images" "cover") =
      .ok [("images/cover/front.png", .empty)] :=
    Reader.walkLevels_eq_ok_iff.mpr
      (.inr ⟨rfl, _, hcover, _, mapM_eq_ok_iff.mpr (.cons hfront .nil), rfl⟩)
  exact Reader.walkLevels_eq_ok_iff.mpr
    (.inr ⟨rfl, _, himages, _, mapM_eq_ok_iff.mpr (.cons hfile (.cons hdirectory .nil)), rfl⟩)

theorem copiedFiles_twins : copiedFiles twinsReader (Layout.of pageBook) pageBook =
    .ok [("OEBPS/page.xhtml", .empty), ("images/Cover", .empty), ("images/cover/front.png", .empty)] := by
  have hcopied : (Layout.of pageBook).copied pageBook =
      [("page.xhtml", "OEBPS/page.xhtml"), ("images", "images")] := by decide +kernel
  have hpage : twinsReader.walk "page.xhtml" "OEBPS/page.xhtml" =
      .ok [("OEBPS/page.xhtml", .empty)] :=
    (Reader.walk_file rfl).mpr ⟨.empty, rfl, rfl⟩
  have hwalks : walks twinsReader ((Layout.of pageBook).copied pageBook) =
      .ok [[("OEBPS/page.xhtml", .empty)],
        [("images/Cover", .empty), ("images/cover/front.png", .empty)]] := by
    rw [hcopied]
    exact mapM_eq_ok_iff.mpr (.cons hpage (.cons walk_twins .nil))
  exact copiedFiles_eq_ok_iff.mpr ⟨_, hwalks, rfl, by decide +kernel, by decide +kernel⟩

theorem exists_make_twins : ∃ edition, make plainEnvironment twinsReader pageBook = .ok edition :=
  have hread : Book.ofValue pageBook.toValue = .ok pageBook := rfl
  exists_make Validation.pageBook_accepted (Book.wellFormed_of_ofValue hread).legalParts
    legal_plainEnvironment (by simp [pageBook]) copiedFiles_twins

/-- An archive need not be a file tree, be it for the plan of its book or for the names on the disk. -/
theorem not_isFileTree :
    (∃ body book edition, Book.ofValue body = .ok book ∧
      make plainEnvironment pageReader book = .ok edition ∧
      "OEBPS/part" ∈ edition.names ∧ "OEBPS/part/page.xhtml" ∈ edition.names ∧
      ¬ IsFileTree edition.names) ∧
    ∃ body book edition, Book.ofValue body = .ok book ∧
      make plainEnvironment twinsReader book = .ok edition ∧
      "images/Cover" ∈ edition.names ∧
      "images/cover/front.png" ∈ edition.names ∧ ¬ IsFileTree edition.names := by
  constructor
  · have hread : Book.ofValue nestedBook.toValue = .ok nestedBook := rfl
    have hbook := (Book.wellFormed_of_ofValue hread).legalParts
    obtain ⟨edition, hmake⟩ := exists_make_nestedBook
    have hgives : ∀ inside, ("page.xhtml", inside) ∈ (Layout.of nestedBook).copied nestedBook →
        Gives pageReader (Layout.of nestedBook) nestedBook inside inside := fun inside hcopied =>
      .copied hcopied ((Reader.walk_file rfl).mpr ⟨.empty, rfl, rfl⟩) (by simp)
    have hupper := hgives "OEBPS/part" (by simp [copied_nestedBook])
    have hlower := hgives "OEBPS/part/page.xhtml" (by simp [copied_nestedBook])
    exact ⟨nestedBook.toValue, nestedBook, edition, hread, hmake,
      not_isFileTree_of_gives hbook hmake hupper hlower isAbove_part⟩
  · have hread : Book.ofValue pageBook.toValue = .ok pageBook := rfl
    have hbook := (Book.wellFormed_of_ofValue hread).legalParts
    obtain ⟨edition, hmake⟩ := exists_make_twins
    have hcopied : ("images", "images") ∈ (Layout.of pageBook).copied pageBook := by decide +kernel
    have hupper : Gives twinsReader (Layout.of pageBook) pageBook "images" "images/Cover" :=
      .copied hcopied walk_twins (by simp)
    have hlower : Gives twinsReader (Layout.of pageBook) pageBook "images" "images/cover/front.png" :=
      .copied hcopied walk_twins (by simp)
    have habove : IsAbove "images/Cover" "images/cover/front.png" := by
      refine ⟨"front.png", ?_⟩
      rw [← String.toList_inj]
      simp [foldCase]
    exact ⟨pageBook.toValue, pageBook, edition, hread, hmake,
      not_isFileTree_of_gives hbook hmake hupper hlower habove⟩

end Bindery.Edition
