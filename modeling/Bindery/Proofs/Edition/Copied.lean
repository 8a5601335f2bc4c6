/-
# What a book copies

Between its first entry and its three documents the archive of a book holds exactly the files that the
recipe names: one entry for a file, and for a directory one entry for each file below it
(`copies_exactly`).  The walk over a directory follows locations that it wrote itself, so the proof needs
that these are read back as they were written, level by level.
-/
import Bindery.Proofs.Archive.SafelyNamed
import Bindery.Proofs.Disk.Opened

namespace Bindery.Edition

open Validation (pageBook)

/-! ## 1. Entries -/

/-- A file as an entry under its whole name. -/
def entryOf (file : String × ByteArray) : Archive.Entry :=
  ⟨file.1, .for file.2, file.2⟩

/-- The entries of an archive are the media type, some files, and the documents of an edition. -/
def HoldsFiles (layout : Layout) (edition : Edition) (files : List (String × ByteArray)) : Prop :=
  edition.entries = Archive.mediaTypeEntry :: (files ++
    [(containerPath, edition.container.toUTF8), (layout.packagePath, edition.package.toUTF8),
      (layout.navigationPath, edition.navigation.toUTF8)]).map entryOf

/-- No name is cut when a book is packed. -/
theorem entries_of_make {environment : Environment} {reader : Reader} {book : Book}
    {edition : Edition} (hbook : book.LegalParts)
    (h : make environment reader book = .ok edition) :
    ∃ found, walks reader ((Layout.of book).copied book) = .ok found ∧
      HoldsFiles (Layout.of book) edition found.flatten := by
  obtain ⟨files, hfiles, hsafe⟩ := safelyNamed_make hbook h
  obtain ⟨found, hfound, rfl, -⟩ := copiedFiles_eq_ok_iff.mp hfiles
  obtain ⟨-, firstLinear, files, package, navigation, -, hmade, -, -, rfl⟩ := make_eq_ok_iff.mp h
  rw [hfiles, Except.ok.injEq] at hmade
  subst hmade
  refine ⟨found, hfound, ?_⟩
  rw [planned_eq (Layout.of book) book found.flatten package navigation] at hsafe
  refine congrArg (Archive.mediaTypeEntry :: ·) (List.map_congr_left fun file hfile => ?_)
  rw [Archive.Entry.ofFile, hsafe.recordedName_eq file hfile, entryOf]

/-! ## 2. Files -/

/-- A reader that starts at the working directory. -/
def readerOf (disk : Disk) : Reader := ⟨disk, Location.ofText "."⟩

section

variable {disk : Disk} {source inside : String}

theorem resolve_plain (hplain : (Location.ofText source).IsPlain) :
    (readerOf disk).resolve source = .ok (Location.ofText source) := by
  have huntilded := hplain.untilded (Location.isNormal_ofText source)
  rw [Reader.resolve_eq huntilded]
  exact congrArg _ (Location.under_nil _)

variable (htop : disk.top.isProper = true) (hplain : (Location.ofText source).IsPlain)
include htop hplain

/-- A walk that starts below the working directory ends, whatever it finds. -/
theorem endsWithin_plain : (readerOf disk).EndsWithin (disk.top.height + 2) source := by
  have hnormal := Location.isNormal_ofText source
  have huntilded := hplain.untilded hnormal
  refine Reader.endsWithin_of_height htop (resolve_plain hplain) hnormal huntilded (.inr rfl) ?_
  intro tree htree
  exact Nat.le_succ_of_le (Disk.height_of_find htree)

/-- A walk that starts below the working directory opens out what it finds there. -/
theorem opensTo_plain {part : List (String × ByteArray)} (hinside : EntryPath.IsValid inside)
    (hwalk : (readerOf disk).walk source inside = .ok part) :
    ∃ tree, disk.find (Location.ofText source) = .ok tree ∧ tree.OpensTo inside part := by
  have hnormal := Location.isNormal_ofText source
  have hresolve : (readerOf disk).resolve source = .ok (Location.ofText source) :=
    resolve_plain hplain
  obtain ⟨tree, htree⟩ := Reader.exists_find_of_walkLevels hresolve hwalk
  refine ⟨tree, htree, ?_⟩
  refine Reader.opensTo_of_walkLevels htop hresolve hnormal (hplain.untilded hnormal) (.inr rfl)
    hinside.isName htree ?_ hwalk
  exact Nat.lt_of_le_of_lt (Disk.height_of_find htree) (Nat.lt_add_of_pos_right (by decide))

end

/-! ## 3. The archive -/

/-- Some files are those that a recipe names: what is at each source, opened out to its archive path, one
source after the other. -/
def Copies (disk : Disk) (sources : List (String × String)) (files : List (String × ByteArray)) :
    Prop :=
  ∃ parts : List (List (String × ByteArray)), files = parts.flatten ∧
    List.Forall₂ (fun source part => ∃ tree, disk.find (Location.ofText source.1) = .ok tree ∧
      tree.OpensTo source.2 part) sources parts

/-- **A book copies exactly the files that its recipe names.**  The walks over them end on every tree, within
the levels that `walk` has, so that more levels change nothing.  And if the book is made, then its archive
holds the media type, what is at each source in the order of the recipe, and the three documents, each under
a name of its own. -/
theorem copies_exactly (environment : Environment) (disk : Disk) (body : Value) (book : Book)
    (htop : disk.top.isProper = true) (hread : Book.ofValue body = .ok book)
    (hplain : ∀ file ∈ (Layout.of book).copied book, (Location.ofText file.1).IsPlain) :
    (∀ file ∈ (Layout.of book).copied book,
      (readerOf disk).EndsWithin (disk.top.height + 2) file.1 ∧
        ∀ levels ≥ disk.top.height + 2, ∀ inside,
          (readerOf disk).walkLevels levels file.1 inside = (readerOf disk).walk file.1 inside) ∧
    ∀ edition, make environment (readerOf disk) book = .ok edition →
      ∃ files, Copies disk ((Layout.of book).copied book) files ∧
        HoldsFiles (Layout.of book) edition files ∧ (edition.entries.map (·.name)).Nodup := by
  constructor
  · intro file hfile
    have hends := endsWithin_plain htop (hplain file hfile)
    exact ⟨hends, fun levels hlevels inside => hends.walkLevels_eq hlevels⟩
  · intro edition hmake
    have hbook := (Book.wellFormed_of_ofValue hread).legalParts
    obtain ⟨haccepts, -⟩ := make_eq_ok_iff.mp hmake
    obtain ⟨found, hfound, hentries⟩ := entries_of_make hbook hmake
    obtain ⟨files, -, hsafe⟩ := safelyNamed_make hbook hmake
    refine ⟨found.flatten, ⟨found, rfl, ?_⟩, hentries, hsafe.names_nodup⟩
    have hopens : ∀ file ∈ (Layout.of book).copied book, ∀ part,
        (readerOf disk).walk file.1 file.2 = .ok part →
          ∃ tree, disk.find (Location.ofText file.1) = .ok tree ∧ tree.OpensTo file.2 part := by
      intro file hfile part hwalk
      have hvalid := haccepts.paths_valid file.2
        (List.mem_append_left _ (List.mem_map_of_mem hfile))
      exact opensTo_plain htop (hplain file hfile) hvalid hwalk
    have hall := (List.forall₂_and_left _ _).mpr ⟨hopens, mapM_eq_ok_iff.mp hfound⟩
    exact hall.imp fun file part ⟨hpart, hwalk⟩ => hpart part hwalk

theorem isPlain_pageBook : ∀ file ∈ (Layout.of pageBook).copied pageBook,
    (Location.ofText file.1).IsPlain := by
  have hcopied : (Layout.of pageBook).copied pageBook =
      [("page.xhtml", "OEBPS/page.xhtml"), ("images", "images")] := by decide +kernel
  intro file hfile
  rw [hcopied, List.mem_cons, List.mem_singleton] at hfile
  rcases hfile with rfl | rfl
  · exact ⟨by decide +kernel, by decide +kernel, by decide +kernel⟩
  · exact ⟨by decide +kernel, by decide +kernel, by decide +kernel⟩

/-- A page and a directory of one image. -/
theorem pageBook_copied : ∃ edition files,
    make plainEnvironment (readerOf pageReader.disk) pageBook = .ok edition ∧
      Copies pageReader.disk ((Layout.of pageBook).copied pageBook) files ∧
      HoldsFiles (Layout.of pageBook) edition files ∧ (edition.entries.map (·.name)).Nodup := by
  obtain ⟨edition, hmake⟩ := exists_make_pageBook
  have hread : Book.ofValue pageBook.toValue = .ok pageBook := rfl
  obtain ⟨-, hcopies⟩ := copies_exactly plainEnvironment pageReader.disk _ _ (by decide +kernel)
    hread isPlain_pageBook
  obtain ⟨files, hfiles⟩ := hcopies edition hmake
  exact ⟨edition, files, hmake, hfiles⟩

end Bindery.Edition
