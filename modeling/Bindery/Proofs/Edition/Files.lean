/-
# The files of a book

A file that is copied gives one entry at its planned path, a directory one for each file below it.  So
where there are no directories the entries are exactly the planned ones, and a path that is not planned
appears only by opening out a directory (`Expanded`).  The second check of the paths can find
nothing but such paths at fault (`isExpansionFault_of_checkPaths`).
-/
import Bindery.Proofs.Edition

namespace Bindery.Edition

open Text

variable {reader : Reader} {layout : Layout} {book : Book}

/-! ## 1. One file after the other -/

/-- The walks over some files, each to its archive path. -/
def walks (reader : Reader) (files : List (String × String)) :
    Except Fault (List (List (String × ByteArray))) :=
  files.mapM fun file => reader.walk file.1 file.2

theorem isDiskFault_of_walks {files : List (String × String)} {fault : Fault}
    (h : walks reader files = .error fault) : Reader.IsDiskFault fault := by
  obtain ⟨file, -, hwalk⟩ := exists_of_mapM_eq_error h
  exact Reader.isDiskFault_of_walkLevels hwalk

theorem exists_walk {files : List (String × String)} {found : List (List (String × ByteArray))}
    (h : walks reader files = .ok found) {source inside : String}
    (hfile : (source, inside) ∈ files) :
    ∃ below ∈ found, reader.walk source inside = .ok below := by
  obtain ⟨below, hbelow, hwalk⟩ := exists_of_mapM_mem h hfile
  exact ⟨below, hbelow, hwalk⟩

/-- A walk that succeeds knew whether it began at a directory. -/
theorem isDirectory_of_walk {path inside : String} {found : List (String × ByteArray)}
    (h : reader.walk path inside = .ok found) :
    reader.isDirectory path = .ok true ∨
      reader.isDirectory path = .ok false ∧ ∃ data, found = [(inside, data)] := by
  rcases Reader.walkLevels_eq_ok_iff.mp h with ⟨hfile, data, -, rfl⟩ | ⟨hdirectory, -⟩
  · exact .inr ⟨hfile, data, rfl⟩
  · exact .inl hdirectory

/-- What is found beside directories is planned. -/
theorem filter_walks_sublist {keep : String → Bool} : ∀ {files : List (String × String)}
    {found : List (List (String × ByteArray))}, walks reader files = .ok found →
    (∀ file ∈ files, reader.isDirectory file.1 = .ok true → ∀ below,
      reader.walk file.1 file.2 = .ok below → ∀ entry ∈ below, keep entry.1 = false) →
    ((found.flatten.map (·.1)).filter keep).Sublist (files.map (·.2))
  | [], _, h, _ => by
    cases h
    simp
  | file :: rest, found, h, hkeep => by
    obtain ⟨below, restFound, hwalk, hrest, rfl⟩ :=
      List.forall₂_cons_left_iff.mp (mapM_eq_ok_iff.mp h)
    have ih := filter_walks_sublist (mapM_eq_ok_iff.mpr hrest)
      fun other hother => hkeep other (List.mem_cons_of_mem _ hother)
    rw [List.flatten_cons, List.map_append, List.filter_append, List.map_cons]
    rcases isDirectory_of_walk hwalk with hdirectory | ⟨-, data, rfl⟩
    · have hnone : (below.map (·.1)).filter keep = [] := by
        refine List.filter_eq_nil_iff.mpr fun name hname => ?_
        obtain ⟨entry, hentry, rfl⟩ := List.mem_map.mp hname
        rw [hkeep file List.mem_cons_self hdirectory below hwalk entry hentry]
        decide
      rw [hnone, List.nil_append]
      exact ih.cons _
    · have hone : (([(file.2, data)].map (·.1)).filter keep).Sublist [file.2] :=
        List.filter_sublist
      exact hone.append ih

/-- Where no file is a directory, exactly the planned paths are found. -/
theorem names_of_walks : ∀ {files : List (String × String)}
    {found : List (List (String × ByteArray))}, walks reader files = .ok found →
    (∀ file ∈ files, reader.isDirectory file.1 ≠ .ok true) →
    found.flatten.map (·.1) = files.map (·.2)
  | [], _, h, _ => by
    cases h
    rfl
  | file :: rest, found, h, hfiles => by
    obtain ⟨below, restFound, hwalk, hrest, rfl⟩ :=
      List.forall₂_cons_left_iff.mp (mapM_eq_ok_iff.mp h)
    have ih := names_of_walks (mapM_eq_ok_iff.mpr hrest)
      fun other hother => hfiles other (List.mem_cons_of_mem _ hother)
    rcases isDirectory_of_walk hwalk with hdirectory | ⟨-, data, rfl⟩
    · exact absurd hdirectory (hfiles file List.mem_cons_self)
    · rw [List.flatten_cons, List.map_append, ih]
      rfl

/-! ## 2. Opened directories -/

/-- A path that appears by opening out a directory. -/
def Expanded (reader : Reader) (files : List (String × String)) (path : String) : Prop :=
  ∃ file ∈ files, reader.isDirectory file.1 = .ok true ∧
    ∃ below, reader.walk file.1 file.2 = .ok below ∧ path ∈ below.map (·.1)

/-- A fault of a path, or of two paths, for which an opened directory is to blame. -/
inductive IsExpansionFault (reader : Reader) (files : List (String × String)) : Fault → Prop
  | path {path : String} {fault : PathFault} (h : Expanded reader files path)
      (hfault : EntryPath.check path = .error fault) : IsExpansionFault reader files (.path fault)
  | collision {left right : String} (h : Expanded reader files left ∨ Expanded reader files right)
      (hfold : foldCase left = foldCase right) :
      IsExpansionFault reader files (.collision (.paths left right))

theorem mem_or_expanded {files : List (String × String)}
    {found : List (List (String × ByteArray))} (h : walks reader files = .ok found) {path : String}
    (hpath : path ∈ found.flatten.map (·.1)) :
    path ∈ files.map (·.2) ∨ Expanded reader files path := by
  obtain ⟨entry, hentry, rfl⟩ := List.mem_map.mp hpath
  obtain ⟨below, hbelow, hentry⟩ := List.mem_flatten.mp hentry
  obtain ⟨file, hfile, hwalk⟩ := exists_of_mem_mapM h hbelow
  rcases isDirectory_of_walk hwalk with hdirectory | ⟨-, data, rfl⟩
  · exact .inr ⟨file, hfile, hdirectory, below, hwalk, List.mem_map_of_mem hentry⟩
  · rw [List.mem_singleton.mp hentry]
    exact .inl (List.mem_map_of_mem hfile)

/-- **Only opened directories make the second check fail** if the first one passed. -/
theorem isExpansionFault_of_checkPaths {files : List (String × String)} {more : List String}
    {found : List (List (String × ByteArray))} {fault : Fault}
    (hplanned : Validation.checkPaths (files.map (·.2) ++ more) = .ok ())
    (h : walks reader files = .ok found)
    (hfault : Validation.checkPaths (found.flatten.map (·.1) ++ more) = .error fault) :
    IsExpansionFault reader files fault := by
  obtain ⟨hvalid, hdistinct⟩ := Validation.checkPaths_eq_ok_iff.mp hplanned
  rcases bind_eq_error_iff.mp hfault with hpaths | ⟨_, -, hcollision⟩
  · obtain ⟨path, hpath, hcheck⟩ := exists_of_forM_eq_error hpaths
    obtain ⟨cause, hcause, rfl⟩ := mapError_eq_error_iff.mp hcheck
    have hinvalid : path ∉ files.map (·.2) ++ more := by
      intro hmem
      rw [EntryPath.check_eq_ok_iff.mpr (hvalid path hmem)] at hcause
      cases hcause
    rw [List.mem_append, not_or] at hinvalid
    have hfound := (List.mem_append.mp hpath).resolve_right hinvalid.2
    exact .path ((mem_or_expanded h hfound).resolve_left hinvalid.1) hcause
  · obtain ⟨cause, hcause, rfl⟩ := mapError_eq_error_iff.mp hcollision
    obtain ⟨left, right, rfl, hfold, hsubperm⟩ := Collision.of_checkPaths_eq_error hcause
    refine .collision ?_ hfold
    by_contra hnone
    rw [not_or] at hnone
    -- Neither path comes from a directory, so both stand among the planned paths, which differ.
    classical
    let keep (path : String) : Bool := !decide (Expanded reader files path)
    have hkept : [left, right].filter keep = [left, right] := by
      simp [keep, hnone.1, hnone.2]
    have hfiltered := hsubperm.filter keep
    rw [hkept, List.filter_append] at hfiltered
    have hsublist : ((found.flatten.map (·.1)).filter keep).Sublist (files.map (·.2)) := by
      refine filter_walks_sublist h fun file hfile hdirectory below hwalk entry hentry => ?_
      have hexpanded : Expanded reader files entry.1 :=
        ⟨file, hfile, hdirectory, below, hwalk, List.mem_map_of_mem hentry⟩
      simp [keep, hexpanded]
    obtain ⟨pair, hperm, hpair⟩ := hfiltered.trans (hsublist.append List.filter_sublist).subperm
    have hpairNodup := (hperm.map foldCase).nodup_iff.mp (hdistinct.sublist (hpair.map foldCase))
    simp [hfold] at hpairNodup

/-! ## 3. The files of one book -/

open Validation (pageBook)

/-- A disk with a page and a directory of one image. -/
def pageReader : Reader where
  disk := {
    top := .directory [("page.xhtml", .file .empty),
      ("images", .directory [("cover.png", .file .empty)])]
    workingDirectory := []
    home := "/home" }
  base := .ofText "."

theorem list_images : pageReader.list "images" = .ok [("cover.png", "images/cover.png")] := by
  have hlist : pageReader.list "images" =
      .ok ((["cover.png"].mergeSort fun left right => decide (left ≤ right)).map fun name =>
        (name, ((Location.ofText "images").child name).text)) := rfl
  rw [hlist, List.mergeSort_singleton]
  rfl

theorem walk_images {inside : String}
    (hinside : EntryPath.join inside "cover.png" = inside ++ "/cover.png") :
    pageReader.walk "images" inside = .ok [(inside ++ "/cover.png", .empty)] := by
  have hcover : pageReader.walkLevels 3 "images/cover.png" (EntryPath.join inside "cover.png") =
      .ok [(inside ++ "/cover.png", .empty)] :=
    Reader.walkLevels_eq_ok_iff.mpr (.inl ⟨rfl, .empty, rfl, by rw [hinside]⟩)
  exact Reader.walkLevels_eq_ok_iff.mpr (.inr ⟨rfl, _, list_images,
    [[(inside ++ "/cover.png", .empty)]], mapM_eq_ok_iff.mpr (.cons hcover .nil), rfl⟩)

theorem copiedFiles_pageBook : copiedFiles pageReader (Layout.of pageBook) pageBook =
    .ok [("OEBPS/page.xhtml", .empty), ("images/cover.png", .empty)] := by
  have hcopied : (Layout.of pageBook).copied pageBook =
      [("page.xhtml", "OEBPS/page.xhtml"), ("images", "images")] := by decide +kernel
  have hpage : pageReader.walk "page.xhtml" "OEBPS/page.xhtml" =
      .ok [("OEBPS/page.xhtml", .empty)] :=
    (Reader.walk_file rfl).mpr ⟨.empty, rfl, rfl⟩
  have hwalks : walks pageReader ((Layout.of pageBook).copied pageBook) =
      .ok [[("OEBPS/page.xhtml", .empty)], [("images/cover.png", .empty)]] := by
    rw [hcopied]
    exact mapM_eq_ok_iff.mpr (.cons hpage (.cons (walk_images (by decide +kernel)) .nil))
  exact copiedFiles_eq_ok_iff.mpr ⟨_, hwalks, rfl, by decide +kernel, by decide +kernel⟩

end Bindery.Edition
