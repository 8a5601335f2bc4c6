/-
# The manifest and the archive agree

The manifest is made from the recipe and the archive from the disk.  Where the recipe names a file, the
link of the manifest leads to one entry and no more (`manifest_names_entries`).  Where it names a
directory, the archive holds the files below it and nothing need stand at the path itself, so the link of
the item may lead to no entry at all (`not_manifest_names_entries`).
-/
import Bindery.Proofs.Archive.SafelyNamed

namespace Bindery.Edition

open Document Text Xml

variable {environment : Environment} {reader : Reader} {book : Book} {edition : Edition}

/-! ## 1. Entries of a name -/

/-- The link of an element of the manifest. -/
def href? (element : Element) : Option String :=
  (element.attributes.find? (·.name == "href")).map (·.value)

/-- How many entries of an archive have a name. -/
def entriesNamed (edition : Edition) (name : String) : Nat :=
  edition.entries.countP (·.name == name)

/-- An element of the manifest has a link that leads to one entry and no more. -/
def NamesOneEntry (layout : Layout) (edition : Edition) (element : Element) : Prop :=
  ∃ href, href? element = some href ∧
    edition.entriesNamed (EntryPath.follow layout.packagePath href) = 1

theorem entriesNamed_eq_count (edition : Edition) (name : String) :
    edition.entriesNamed name = (edition.entries.map (·.name)).count name := by
  rw [List.count_eq_countP, List.countP_map]
  rfl

theorem entriesNamed_eq_one {planned : List String} {name : String}
    (h : Archive.SafelyNamed planned edition.entries) (hname : name ∈ planned) :
    edition.entriesNamed name = 1 := by
  have hmem : name ∈ edition.entries.map (·.name) := by
    rw [h.whole]
    exact List.mem_cons_of_mem _ hname
  rw [entriesNamed_eq_count]
  exact List.count_eq_one_of_mem h.names_nodup hmem

/-! ## 2. Links of the manifest -/

/-- The link that is written to an entry at a valid path leads to it. -/
theorem follow_link {source target href : String} (hsource : EntryPath.IsValid source)
    (htarget : EntryPath.IsValid target) (h : Layout.link source target = .ok href) :
    EntryPath.follow source href = target :=
  EntryPath.follow_relative hsource htarget (mapError_eq_ok_iff.mp h)

theorem href?_navigationItem (haccepts : Validation.Accepts (Layout.of book) book)
    {element : Element} (h : Package.navigationItem (Layout.of book) = .ok element) :
    ∃ href, href? element = some href ∧
      EntryPath.follow (Layout.of book).packagePath href = (Layout.of book).navigationPath := by
  obtain ⟨href, hlink, hok⟩ := bind_eq_ok_iff.mp h
  cases hok
  exact ⟨href, rfl,
    follow_link haccepts.packagePath_valid haccepts.navigationPath_valid hlink⟩

theorem href?_itemElement (haccepts : Validation.Accepts (Layout.of book) book)
    {item : ManifestItem} (hitem : item ∈ book.manifest) {element : Element}
    (h : Package.itemElement (Layout.of book) item = .ok element) :
    ∃ href, href? element = some href ∧
      EntryPath.follow (Layout.of book).packagePath href =
        EntryPath.join (Layout.of book).directory item.path := by
  obtain ⟨path, hpath, h⟩ := bind_eq_ok_iff.mp h
  obtain ⟨href, hlink, hok⟩ := bind_eq_ok_iff.mp h
  cases hok
  have hown := haccepts.itemPath_eq hitem .manifest
  rw [hpath, Except.ok.injEq] at hown
  rw [← hown]
  exact ⟨href, rfl,
    follow_link haccepts.packagePath_valid (haccepts.itemPath_valid hpath) hlink⟩

/-! ## 3. The manifest of a book that is made -/

/-- What an item of the recipe stands for in the archive, given its element of the manifest: one entry
if it is a file, and in any case all that is found where it is read from. -/
structure ItemPacked (reader : Reader) (layout : Layout) (edition : Edition) (item : ManifestItem)
    (element : Element) : Prop where
  file : reader.isDirectory item.source ≠ .ok true → NamesOneEntry layout edition element
  found : ∃ href, href? element = some href ∧
    ∃ files, reader.walk item.source (EntryPath.follow layout.packagePath href) = .ok files ∧
      ∀ file ∈ files, edition.entriesNamed file.1 = 1

theorem itemPacked_of_make (haccepts : Validation.Accepts (Layout.of book) book)
    (hbook : book.LegalParts) (hmake : make environment reader book = .ok edition)
    {item : ManifestItem} (hitem : item ∈ book.manifest) {element : Element}
    (h : Package.itemElement (Layout.of book) item = .ok element) :
    ItemPacked reader (Layout.of book) edition item element := by
  obtain ⟨href, hhref, hfollow⟩ := href?_itemElement haccepts hitem h
  have hcopied : (item.source, EntryPath.join (Layout.of book).directory item.path) ∈
      (Layout.of book).copied book := Layout.copied_of_item hitem
  generalize EntryPath.join (Layout.of book).directory item.path = path at hfollow hcopied
  obtain ⟨files, hfiles, hsafe⟩ := safelyNamed_make hbook hmake
  obtain ⟨found, hfound, rfl, -⟩ := copiedFiles_eq_ok_iff.mp hfiles
  obtain ⟨below, hbelow, hwalk⟩ := exists_walk hfound hcopied
  have hnamed : ∀ file ∈ below, edition.entriesNamed file.1 = 1 := by
    intro file hfile
    refine entriesNamed_eq_one hsafe (List.mem_append_left _ (List.mem_map_of_mem ?_))
    exact List.mem_flatten.mpr ⟨below, hbelow, hfile⟩
  constructor
  · intro hsource
    rcases isDirectory_of_walk hwalk with hdirectory | ⟨-, data, rfl⟩
    · exact absurd hdirectory hsource
    · refine ⟨href, hhref, ?_⟩
      rw [hfollow]
      exact hnamed (_, data) (List.mem_singleton_self _)
  · refine ⟨href, hhref, below, ?_, hnamed⟩
    rw [hfollow]
    exact hwalk

/-- **Every link of the manifest leads to one entry**, if it is that of the navigation document or of an
item that is read from a file.  What is found where an item is read from is in the archive in any
case. -/
theorem manifest_names_entries {body : Value} (hread : Book.ofValue body = .ok book)
    (hmake : make environment reader book = .ok edition) :
    ∃ attributes head navigation items rest,
      Package.element (Layout.of book) book (metadata environment (Layout.of book) book) =
        .ok (.branch "package" attributes
          (head :: .branch "manifest" [] (navigation :: items) :: rest)) ∧
      edition.package = (Element.branch "package" attributes
        (head :: .branch "manifest" [] (navigation :: items) :: rest)).document ∧
      NamesOneEntry (Layout.of book) edition navigation ∧
      List.Forall₂ (ItemPacked reader (Layout.of book) edition) book.manifest items := by
  have hbook := (Book.wellFormed_of_ofValue hread).legalParts
  obtain ⟨haccepts, firstLinear, files, package, navigation, -, hfiles, hpackage, -, hedition⟩ :=
    make_eq_ok_iff.mp hmake
  obtain ⟨root, hroot, hdocument⟩ := map_eq_ok_iff.mp hpackage
  obtain ⟨manifest, spine, guide, hmanifest, -, -, rfl⟩ := Package.of_element_eq_ok hroot
  obtain ⟨navigationItem, hnavigation, h⟩ := bind_eq_ok_iff.mp hmanifest
  obtain ⟨items, hitems, h⟩ := bind_eq_ok_iff.mp h
  cases h
  refine ⟨_, _, navigationItem, items, _, hroot, ?_, ?_, ?_⟩
  · rw [hedition, hdocument]
  · obtain ⟨href, hhref, hfollow⟩ := href?_navigationItem haccepts hnavigation
    obtain ⟨files, -, hsafe⟩ := safelyNamed_make hbook hmake
    refine ⟨href, hhref, ?_⟩
    rw [hfollow]
    exact entriesNamed_eq_one hsafe (by simp [planned])
  · have hall := (List.forall₂_and_left _ _).mpr
      ⟨fun item (hitem : item ∈ book.manifest) => hitem, mapM_eq_ok_iff.mp hitems⟩
    exact hall.imp fun item element h => itemPacked_of_make haccepts hbook hmake h.1 h.2

open Validation (pageBook)

theorem manifest_pageBook : ∃ edition attributes head navigation items rest,
    make plainEnvironment pageReader pageBook = .ok edition ∧
      Package.element (Layout.of pageBook) pageBook
        (metadata plainEnvironment (Layout.of pageBook) pageBook) =
          .ok (.branch "package" attributes
            (head :: .branch "manifest" [] (navigation :: items) :: rest)) ∧
      NamesOneEntry (Layout.of pageBook) edition navigation ∧
      List.Forall₂ (ItemPacked pageReader (Layout.of pageBook) edition) pageBook.manifest items := by
  obtain ⟨edition, hmake⟩ := exists_make_pageBook
  obtain ⟨attributes, head, navigation, items, rest, hpackage, -, hnavigation, hitems⟩ :=
    manifest_names_entries (show Book.ofValue pageBook.toValue = .ok pageBook from rfl) hmake
  exact ⟨edition, attributes, head, navigation, items, rest, hmake, hpackage, hnavigation, hitems⟩

/-- A book whose one item is read from a directory. -/
def directoryBook : Book where
  manifest := [
    { source := "images", path := "images", mediaType := "application/xhtml+xml", id := "images" }]

theorem directoryBook_accepted : Validation.Accepts (Layout.of directoryBook) directoryBook :=
  Validation.accepts_of_document rfl (by decide) rfl
    (Validation.checkPaths_eq_ok_iff.mpr (by decide +kernel))
    (Validation.checkIdentifiers_eq_ok_iff.mpr (by decide +kernel)) rfl rfl (by simp)

theorem copiedFiles_directoryBook :
    copiedFiles pageReader (Layout.of directoryBook) directoryBook =
      .ok [("OEBPS/images/cover.png", .empty)] := by
  have hcopied : (Layout.of directoryBook).copied directoryBook =
      [("images", "OEBPS/images")] := by decide +kernel
  have hwalks : walks pageReader ((Layout.of directoryBook).copied directoryBook) =
      .ok [[("OEBPS/images/cover.png", .empty)]] := by
    rw [hcopied]
    exact mapM_eq_ok_iff.mpr (.cons (walk_images (by decide +kernel)) .nil)
  exact copiedFiles_eq_ok_iff.mpr ⟨_, hwalks, rfl, by decide +kernel, by decide +kernel⟩

/-- An item that is read from a directory, here from one below the base directory `.`, has a link that
leads to no entry: the archive holds what is in the directory. -/
theorem not_manifest_names_entries : ∃ body book edition,
    Book.ofValue body = .ok book ∧ make plainEnvironment pageReader book = .ok edition ∧
      ∃ item ∈ book.manifest, ∃ element, Package.itemElement (Layout.of book) item = .ok element ∧
        ¬ NamesOneEntry (Layout.of book) edition element := by
  have hread : Book.ofValue directoryBook.toValue = .ok directoryBook := rfl
  have hbook := (Book.wellFormed_of_ofValue hread).legalParts
  obtain ⟨edition, hmake⟩ := exists_make directoryBook_accepted hbook legal_plainEnvironment
    (by simp [directoryBook]) copiedFiles_directoryBook
  obtain ⟨element, helement, -⟩ := Package.exists_itemElement directoryBook_accepted hbook
    (List.mem_singleton_self _)
  refine ⟨directoryBook.toValue, directoryBook, edition, hread, hmake, _,
    List.mem_singleton_self _, element, helement, ?_⟩
  rintro ⟨href, hhref, hone⟩
  obtain ⟨href', hhref', hfollow⟩ :=
    href?_itemElement directoryBook_accepted (List.mem_singleton_self _) helement
  obtain rfl : href = href' := Option.some.inj (hhref.symm.trans hhref')
  obtain ⟨files, hfiles, hsafe⟩ := safelyNamed_make hbook hmake
  rw [copiedFiles_directoryBook, Except.ok.injEq] at hfiles
  rw [hfollow, entriesNamed_eq_count, hsafe.whole, ← hfiles] at hone
  revert hone
  decide +kernel

end Bindery.Edition
