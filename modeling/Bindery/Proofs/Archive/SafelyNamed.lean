/-
# The names in an archive are safe

Names come from recipes, from the files that directories turn out to hold, and from the paths on a
command line.  Whatever they are, the archive that is made holds its media type first and then exactly
the planned names, and unpacking it writes nothing outside the directory it is unpacked to
(`entries_safelyNamed`).

That no name is cut at a U+0000 is not checked anywhere.  It holds because XML does not allow that
character in the texts of a recipe, and because no disk gives anything at a path with it.
-/
import Mathlib.Data.List.TakeWhile
import Bindery.Packing
import Bindery.Proofs.Edition.Buildable

namespace Bindery

open Text

/-! ## 1. Safe names -/

namespace Archive

/-- The media type stands first, then come the planned names, whole, in order, all of them paths that
stay where they are unpacked, and no two of them alike after case folding. -/
structure SafelyNamed (planned : List String) (entries : List Entry) : Prop where
  head : entries.head? = some ⟨"mimetype", .stored, "application/epub+zip".toUTF8⟩
  whole : entries.map (·.name) = "mimetype" :: planned
  checked : ∀ entry ∈ entries, EntryPath.check entry.name = .ok ()
  relative : ∀ entry ∈ entries, entry.name.toList.head? ≠ some '/'
  segments : ∀ entry ∈ entries, ∀ segment ∈ EntryPath.segments entry.name,
    segment ≠ "" ∧ segment ≠ "." ∧ segment ≠ ".."
  no_backslash : ∀ entry ∈ entries, '\\' ∉ entry.name.toList
  /-- Unpacked to a directory, an entry lands below it. -/
  below : ∀ entry ∈ entries, ∀ directory, EntryPath.IsValid directory →
    EntryPath.segments (EntryPath.join directory entry.name) =
      EntryPath.segments directory ++ EntryPath.segments entry.name
  distinct : (entries.map fun entry => foldCase entry.name).Nodup

/-- Names that differ after case folding differ. -/
theorem SafelyNamed.names_nodup {planned : List String} {entries : List Entry}
    (h : SafelyNamed planned entries) : (entries.map (·.name)).Nodup := by
  refine List.Nodup.of_map foldCase ?_
  rw [List.map_map]
  exact h.distinct

/-- A name is recorded whole if it has no U+0000, and only then. -/
theorem recordedName_eq_iff {name : String} :
    Entry.recordedName name = name ↔ '\x00' ∉ name.toList := by
  have hall : Entry.recordedName name = name ↔ name.toList.takeWhile (· ≠ '\x00') = name.toList := by
    rw [Entry.recordedName, String.ext_iff, String.toList_ofList]
  rw [hall, List.takeWhile_eq_self_iff]
  constructor
  · intro h hmem
    simpa using h _ hmem
  · rintro h c hc
    rw [decide_eq_true_eq]
    rintro rfl
    exact h hc

theorem recordedName_eq {name : String} (h : '\x00' ∉ name.toList) :
    Entry.recordedName name = name :=
  recordedName_eq_iff.mpr h

/-- Files whose own names are the safe ones are recorded under them. -/
theorem SafelyNamed.recordedName_eq {files : List (String × ByteArray)}
    (h : SafelyNamed (files.map (·.1)) (pack files)) :
    ∀ file ∈ files, Entry.recordedName file.1 = file.1 := by
  have hnames := h.whole
  rw [pack, List.map_cons, List.cons.injEq, List.map_map] at hnames
  exact List.map_inj_left.mp hnames.2

/-- Files at valid paths that do not clash, none of them with U+0000, make an archive with safe
names. -/
theorem safelyNamed_pack {files : List (String × ByteArray)}
    (hvalid : ∀ path ∈ files.map (·.1), EntryPath.IsValid path)
    (hdistinct : ((mediaTypeName :: files.map (·.1)).map foldCase).Nodup)
    (hnul : ∀ path ∈ files.map (·.1), '\x00' ∉ path.toList) :
    SafelyNamed (files.map (·.1)) (pack files) := by
  have hwhole : (pack files).map (·.name) = mediaTypeName :: files.map (·.1) := by
    rw [pack, List.map_cons, List.map_map]
    refine congrArg (mediaTypeName :: ·) (List.map_congr_left fun file hfile => ?_)
    exact recordedName_eq (hnul _ (List.mem_map_of_mem hfile))
  have hnames : ∀ entry ∈ pack files, EntryPath.IsValid entry.name := by
    intro entry hentry
    have hmem : entry.name ∈ mediaTypeName :: files.map (·.1) :=
      hwhole ▸ List.mem_map_of_mem hentry
    rcases List.mem_cons.mp hmem with hname | hname
    · rw [hname]
      decide
    · exact hvalid _ hname
  exact {
    head := rfl
    whole := hwhole
    checked := fun entry hentry => EntryPath.check_eq_ok_iff.mpr (hnames entry hentry)
    relative := fun entry hentry => (hnames entry hentry).relative
    segments := fun entry hentry segment hsegment =>
      have hname := (hnames entry hentry).isName segment hsegment
      ⟨hname.ne_empty, hname.ne_dot, hname.ne_dots⟩
    no_backslash := fun entry hentry => (hnames entry hentry).not_backslash_mem
    below := fun entry hentry directory hdirectory =>
      hdirectory.segments_join (hnames entry hentry)
    distinct := by
      rw [← hwhole, List.map_map] at hdistinct
      exact hdistinct }

end Archive

theorem not_nul_of_legal {text : String} (h : Xml.isLegalText text = true) :
    '\x00' ∉ text.toList := by
  intro hmem
  have hlegal := Xml.isLegalText_iff.mp h _ hmem
  revert hlegal
  decide

/-! ## 2. Books -/

namespace Edition

/-- The paths that are planned for the archive of a book whose files are found at some paths. -/
def planned (layout : Layout) (files : List (String × ByteArray)) : List String :=
  files.map (·.1) ++ [containerPath, layout.packagePath, layout.navigationPath]

/-- The planned paths are those of the files that are copied and of the documents. -/
theorem planned_eq (layout : Layout) (book : Book) (files : List (String × ByteArray))
    (package navigation : String) :
    planned layout files = (files ++ documents layout book package navigation).map (·.1) := by
  simp only [documents, planned, List.map_append, List.map_cons, List.map_nil]

/-- The second check of the paths is over the names in the archive. -/
theorem planned_perm (layout : Layout) (files : List (String × ByteArray)) :
    (files.map (·.1) ++ layout.generated).Perm (Archive.mediaTypeName :: planned layout files) := by
  rw [Layout.generated, planned]
  exact List.perm_middle

/-- Neither a recipe nor a disk gives a file a path with U+0000. -/
theorem copiedFiles_no_nul {reader : Reader} {book : Book} {files : List (String × ByteArray)}
    (hbook : book.LegalParts) (h : copiedFiles reader (Layout.of book) book = .ok files) :
    ∀ file ∈ files, '\x00' ∉ file.1.toList := by
  obtain ⟨found, hfound, rfl, -⟩ := copiedFiles_eq_ok_iff.mp h
  intro file hfile
  obtain ⟨below, hbelow, hfile⟩ := List.mem_flatten.mp hfile
  obtain ⟨⟨source, path⟩, hcopied, hwalk⟩ := exists_of_mem_mapM hfound hbelow
  have hpath := not_nul_of_legal (Layout.legal_copied hbook hcopied)
  exact Reader.walk_no_nul (fun hmem => absurd hmem hpath) hwalk file hfile

theorem safelyNamed_make {environment : Environment} {reader : Reader} {book : Book}
    {edition : Edition} (hbook : book.LegalParts)
    (h : make environment reader book = .ok edition) :
    ∃ files, copiedFiles reader (Layout.of book) book = .ok files ∧
      Archive.SafelyNamed (planned (Layout.of book) files) edition.entries := by
  obtain ⟨-, firstLinear, files, package, navigation, -, hfiles, -, -, rfl⟩ := make_eq_ok_iff.mp h
  refine ⟨files, hfiles, ?_⟩
  obtain ⟨found, hfound, hflat, hvalid, hdistinct⟩ := copiedFiles_eq_ok_iff.mp hfiles
  have hpaths := (planned_eq (Layout.of book) book files package navigation).symm
  have hperm := planned_perm (Layout.of book) files
  rw [← hpaths]
  apply Archive.safelyNamed_pack
  · rw [hpaths]
    intro path hpath
    exact hvalid path (hperm.mem_iff.mpr (List.mem_cons_of_mem _ hpath))
  · rw [hpaths]
    exact (hperm.map foldCase).nodup_iff.mp hdistinct
  · rw [hpaths]
    intro path hpath
    rcases List.mem_append.mp hpath with hpath | hpath
    · obtain ⟨file, hfile, rfl⟩ := List.mem_map.mp hpath
      exact copiedFiles_no_nul hbook hfiles file hfile
    · simp only [List.mem_cons, List.not_mem_nil, or_false] at hpath
      rcases hpath with hpath | hpath | hpath
      · rw [hpath]
        decide
      · rw [hpath]
        exact not_nul_of_legal (Layout.legal_packagePath hbook)
      · rw [hpath]
        exact not_nul_of_legal (Layout.legal_navigationPath hbook)

end Edition

/-! ## 3. Files -/

namespace Packing

/-- The name that a path gets at the top of the archive has U+0000 only if the path has it, and then
nothing is found. -/
theorem files_no_nul {reader : Reader} {path : String} {found : List (String × ByteArray)}
    (h : files reader path = .ok found) : ∀ file ∈ found, '\x00' ∉ file.1.toList := by
  obtain ⟨name, hname, hwalk⟩ := bind_eq_ok_iff.mp h
  refine Reader.walk_no_nul (fun hmem => ?_) hwalk
  unfold topName at hname
  split at hname
  · rename_i last hlast
    cases hname
    rcases EntryPath.mem_of_mem_normalize hmem with hslash | hmem
    · exact absurd hslash (by decide)
    · exact Location.mem_of_mem_names (List.mem_of_getLast? hlast) hmem
  · cases hname

/-- Files are packed if they are found, at valid paths that do not clash with each other or with the
media type. -/
theorem pack_eq_ok_iff {reader : Reader} {paths : List String} {entries : List Archive.Entry} :
    pack reader paths = .ok entries ↔ ∃ found, paths.mapM (files reader) = .ok found ∧
      (∀ path ∈ found.flatten.map (·.1), EntryPath.IsValid path) ∧
      ((Archive.mediaTypeName :: found.flatten.map (·.1)).map foldCase).Nodup ∧
      entries = Archive.pack found.flatten := by
  simp only [pack, bind_eq_ok_iff, pure_eq_ok_iff]
  constructor
  · rintro ⟨found, hfound, ⟨⟩, hvalid, ⟨⟩, hdistinct, rfl⟩
    refine ⟨found, hfound, fun path hpath => ?_, ?_, rfl⟩
    · exact EntryPath.check_eq_ok_iff.mp
        (mapError_eq_ok_iff.mp (forM_eq_ok_iff.mp hvalid path hpath))
    · exact Collision.checkPaths_eq_ok_iff.mp (mapError_eq_ok_iff.mp hdistinct)
  · rintro ⟨found, hfound, hvalid, hdistinct, rfl⟩
    refine ⟨found, hfound, (), forM_eq_ok_iff.mpr fun path hpath => ?_, (), ?_, rfl⟩
    · exact mapError_eq_ok_iff.mpr (EntryPath.check_eq_ok_iff.mpr (hvalid path hpath))
    · exact mapError_eq_ok_iff.mpr (Collision.checkPaths_eq_ok_iff.mpr hdistinct)

theorem safelyNamed_pack {reader : Reader} {paths : List String} {entries : List Archive.Entry}
    (h : pack reader paths = .ok entries) :
    ∃ found, paths.mapM (files reader) = .ok found ∧
      Archive.SafelyNamed (found.flatten.map (·.1)) entries := by
  obtain ⟨found, hfound, hvalid, hdistinct, rfl⟩ := pack_eq_ok_iff.mp h
  refine ⟨found, hfound, Archive.safelyNamed_pack hvalid hdistinct fun path hpath => ?_⟩
  obtain ⟨file, hfile, rfl⟩ := List.mem_map.mp hpath
  obtain ⟨below, hbelow, hfile⟩ := List.mem_flatten.mp hfile
  obtain ⟨path, -, hfiles⟩ := exists_of_mem_mapM hfound hbelow
  exact files_no_nul hfiles file hfile

end Packing

/-! ## 4. Every archive -/

/-- **Every archive that is made has safe names**: that of a book, and that of files packed as they
are. -/
theorem entries_safelyNamed :
    (∀ (environment : Environment) (reader : Reader) (body : Value) (book : Book)
        (edition : Edition), Book.ofValue body = .ok book →
        Edition.make environment reader book = .ok edition →
        ∃ files, Edition.copiedFiles reader (Layout.of book) book = .ok files ∧
          Archive.SafelyNamed (Edition.planned (Layout.of book) files) edition.entries) ∧
      ∀ (reader : Reader) (paths : List String) (entries : List Archive.Entry),
        Packing.pack reader paths = .ok entries →
        ∃ found, paths.mapM (Packing.files reader) = .ok found ∧
          Archive.SafelyNamed (found.flatten.map (·.1)) entries := by
  constructor
  · intro environment reader body book edition hbook hmake
    exact Edition.safelyNamed_make (Book.wellFormed_of_ofValue hbook).legalParts hmake
  · intro reader paths entries hpack
    exact Packing.safelyNamed_pack hpack

/-- The archive of a book with a directory of images, and that of the directory alone. -/
theorem pageBook_safelyNamed :
    (∃ edition files,
      Edition.make Edition.plainEnvironment Edition.pageReader Validation.pageBook = .ok edition ∧
      Edition.copiedFiles Edition.pageReader (Layout.of Validation.pageBook) Validation.pageBook =
        .ok files ∧
      Archive.SafelyNamed (Edition.planned (Layout.of Validation.pageBook) files)
        edition.entries) ∧
    ∃ entries found, Packing.pack Edition.pageReader ["images"] = .ok entries ∧
      ["images"].mapM (Packing.files Edition.pageReader) = .ok found ∧
      Archive.SafelyNamed (found.flatten.map (·.1)) entries := by
  constructor
  · obtain ⟨edition, hmake⟩ := Edition.exists_make_pageBook
    obtain ⟨files, hfiles, hsafe⟩ := entries_safelyNamed.1 Edition.plainEnvironment
      Edition.pageReader Validation.pageBook.toValue Validation.pageBook edition rfl hmake
    exact ⟨edition, files, hmake, hfiles, hsafe⟩
  · have hwalk : Edition.pageReader.walk "images" (EntryPath.normalize "images") =
        .ok [("images/cover.png", .empty)] := Edition.walk_images (by decide +kernel)
    have himages : ["images"].mapM (Packing.files Edition.pageReader) =
        .ok [[("images/cover.png", .empty)]] :=
      mapM_eq_ok_iff.mpr (.cons (bind_eq_ok_iff.mpr ⟨"images", rfl, hwalk⟩) .nil)
    have hpack : Packing.pack Edition.pageReader ["images"] =
        .ok (Archive.pack [("images/cover.png", .empty)]) :=
      Packing.pack_eq_ok_iff.mpr ⟨_, himages, by decide +kernel, by decide +kernel, rfl⟩
    obtain ⟨found, hfound, hsafe⟩ := entries_safelyNamed.2 Edition.pageReader ["images"] _ hpack
    exact ⟨_, found, hpack, hfound, hsafe⟩

end Bindery
