/-
# What validation settles

Everything that can be wrong with a book is found before anything is read: the documents of an accepted
book can be written, and what is read can only be at fault by what the disk holds
(`buildable_of_validate`).  One thing is left out of validation, a page number of too many digits, and
that stops the navigation document.
-/
import Bindery.Proofs.Document.Navigation
import Bindery.Proofs.Document.Package
import Bindery.Proofs.Edition.Files

namespace Bindery.Edition

open Document Validation

variable {environment : Environment} {reader : Reader} {book : Book}

/-! ## 1. The metadata -/

theorem freshId_ne_empty (taken : List String) : FreshName.fresh identifierId taken ≠ "" :=
  FreshName.fresh_ne_empty (by decide) taken

theorem legal_freshId (taken : List String) :
    Xml.isLegalText (FreshName.fresh identifierId taken) = true :=
  FreshName.legal_fresh (by decide) taken

/-! ## 2. The documents -/

section Documents

variable (haccepts : Accepts (Layout.of book) book) (hbook : book.LegalParts)
  (henvironment : environment.Legal)

include haccepts hbook henvironment

theorem exists_package : ∃ root, Package.element (Layout.of book) book
    (metadata environment (Layout.of book) book) = .ok root ∧ root.isLegal = true :=
  Package.exists_element haccepts hbook
    (Metadata.legal_resolve henvironment (legal_freshId _) hbook.metadata)
    (Metadata.legal_unique henvironment (legal_freshId _) (freshId_ne_empty _) hbook.metadata).1

theorem navigation_cases {firstLinear : String} (hlinear : Spine.firstLinear book = .ok firstLinear) :
    ((∃ page ∈ book.pages.getD [], Navigation.HasLongNumeral page) ∧
        Navigation.element (Layout.of book) book (metadata environment (Layout.of book) book)
          firstLinear = .error .numeralTooLong) ∨
      ((∀ page ∈ book.pages.getD [], ¬ Navigation.HasLongNumeral page) ∧
        ∃ root, Navigation.element (Layout.of book) book
          (metadata environment (Layout.of book) book) firstLinear = .ok root ∧
            root.isLegal = true) := by
  obtain ⟨idref, hidref, hpath⟩ := haccepts.exists_firstLinear
  obtain rfl : firstLinear = idref := Except.ok.inj (hlinear.symm.trans hidref)
  exact Navigation.element_cases haccepts hbook
    (Metadata.legal_title hbook.metadata)
    (Metadata.legal_unique henvironment (legal_freshId _) (freshId_ne_empty _) hbook.metadata).2
    hpath

/-- An accepted book is made once its files are found, unless a page number is too long. -/
theorem exists_make (hpages : ∀ page ∈ book.pages.getD [], ¬ Navigation.HasLongNumeral page)
    {files : List (String × ByteArray)}
    (hfiles : copiedFiles reader (Layout.of book) book = .ok files) :
    ∃ edition, make environment reader book = .ok edition := by
  obtain ⟨firstLinear, hlinear⟩ := haccepts.has_linear
  obtain ⟨package, hpackage, -⟩ := exists_package haccepts hbook henvironment
  rcases navigation_cases haccepts hbook henvironment hlinear with
    ⟨⟨page, hpage, hlong⟩, -⟩ | ⟨-, navigation, hnavigation, -⟩
  · exact absurd hlong (hpages page hpage)
  · exact ⟨_, make_eq_ok_iff.mpr ⟨haccepts, firstLinear, files, _, _, hlinear, hfiles,
      map_eq_ok_iff.mpr ⟨package, hpackage, rfl⟩, map_eq_ok_iff.mpr ⟨navigation, hnavigation, rfl⟩,
      rfl⟩⟩

end Documents

/-! ## 3. What can still go wrong -/

/-- The faults that are left for an accepted book: those of the disk, a page number that is too long,
and the paths that appear when a directory is opened out. -/
def IsLateFault (reader : Reader) (book : Book) (fault : Fault) : Prop :=
  Reader.IsDiskFault fault ∨
    (fault = .numeralTooLong ∧ ∃ page ∈ book.pages.getD [], Navigation.HasLongNumeral page) ∨
    IsExpansionFault reader ((Layout.of book).copied book) fault

theorem checkPaths_copied {layout : Layout} (haccepts : Accepts layout book) :
    checkPaths ((layout.copied book).map (·.2) ++ layout.generated) = .ok () :=
  checkPaths_eq_ok_iff.mpr ⟨haccepts.paths_valid, haccepts.paths_distinct⟩

theorem isLateFault_of_copiedFiles (haccepts : Accepts (Layout.of book) book) {fault : Fault}
    (h : copiedFiles reader (Layout.of book) book = .error fault) :
    IsLateFault reader book fault := by
  rcases bind_eq_error_iff.mp h with h | ⟨found, hfound, h⟩
  · exact .inl (isDiskFault_of_walks h)
  · rcases bind_eq_error_iff.mp h with h | ⟨_, -, h⟩
    · exact .inr (.inr (isExpansionFault_of_checkPaths (checkPaths_copied haccepts) hfound h))
    · cases h

theorem isLateFault_of_make (haccepts : Accepts (Layout.of book) book) (hbook : book.LegalParts)
    (henvironment : environment.Legal) {fault : Fault}
    (h : make environment reader book = .error fault) : IsLateFault reader book fault := by
  obtain ⟨firstLinear, hlinear⟩ := haccepts.has_linear
  obtain ⟨package, hpackage, -⟩ := exists_package haccepts hbook henvironment
  have htext : Package.text (Layout.of book) book (metadata environment (Layout.of book) book) =
      .ok package.document := map_eq_ok_iff.mpr ⟨package, hpackage, rfl⟩
  have hvalidate := validate_eq_ok_iff.mpr haccepts
  rcases bind_eq_error_iff.mp h with h | ⟨_, -, h⟩
  · rw [hvalidate] at h
    cases h
  rcases bind_eq_error_iff.mp h with h | ⟨firstLinear', hlinear', h⟩
  · rw [hlinear] at h
    cases h
  obtain rfl : firstLinear = firstLinear' := Except.ok.inj (hlinear.symm.trans hlinear')
  rcases bind_eq_error_iff.mp h with h | ⟨files, -, h⟩
  · exact isLateFault_of_copiedFiles haccepts h
  rcases bind_eq_error_iff.mp h with h | ⟨_, -, h⟩
  · rw [htext] at h
    cases h
  rcases bind_eq_error_iff.mp h with h | ⟨_, -, h⟩
  · rcases navigation_cases haccepts hbook henvironment hlinear with
      ⟨hlong, herror⟩ | ⟨-, navigation, hnavigation, -⟩
    · rw [Navigation.text, herror] at h
      exact .inr (.inl ⟨(Except.error.inj h).symm, hlong⟩)
    · rw [Navigation.text, hnavigation] at h
      cases h
  · cases h

/-! ## 4. The gate -/

/-- All that is left to do for a book can be done, as far as the book is concerned. -/
structure Buildable (environment : Environment) (book : Book) : Prop where
  title : ∃ title,
    Metadata.first? .title (metadata environment (Layout.of book) book).items = some title ∧
      (metadata environment (Layout.of book) book).title = title.content
  unique : ∃ identifier, (metadata environment (Layout.of book) book).items.findSome?
      Metadata.identified? = some identifier ∧
    identifier.id = some (metadata environment (Layout.of book) book).uniqueId ∧
    (metadata environment (Layout.of book) book).identifier = identifier.content
  /-- The container document is always written, and holds only legal texts. -/
  container : (Container.element book (Layout.of book).listsDefaultPackage).isLegal = true
  package : ∃ root, Package.element (Layout.of book) book
      (metadata environment (Layout.of book) book) = .ok root ∧ root.isLegal = true ∧
    Package.text (Layout.of book) book (metadata environment (Layout.of book) book) =
      .ok root.document
  /-- The navigation document is written exactly if no page number is too long. -/
  navigation : ∃ firstLinear, Spine.firstLinear book = .ok firstLinear ∧
    ((∃ text, Navigation.text (Layout.of book) book
        (metadata environment (Layout.of book) book) firstLinear = .ok text) ↔
      ¬ ∃ page ∈ book.pages.getD [], Navigation.HasLongNumeral page) ∧
    ((∃ page ∈ book.pages.getD [], Navigation.HasLongNumeral page) →
      Navigation.text (Layout.of book) book
        (metadata environment (Layout.of book) book) firstLinear = .error .numeralTooLong) ∧
    ∀ root, Navigation.element (Layout.of book) book
      (metadata environment (Layout.of book) book) firstLinear = .ok root → root.isLegal = true
  /-- The second check of the paths passes where no file that is copied is a directory. -/
  files : ∀ (reader : Reader) (found : List (List (String × ByteArray))),
    (∀ file ∈ (Layout.of book).copied book, reader.isDirectory file.1 ≠ .ok true) →
    walks reader ((Layout.of book).copied book) = .ok found →
    checkPaths (found.flatten.map (·.1) ++ (Layout.of book).generated) = .ok ()
  /-- Nothing else stops the book. -/
  faults : ∀ (reader : Reader) (fault : Fault),
    make environment reader book = .error fault → IsLateFault reader book fault

/-- **Validation is a complete gate**: whatever it accepts can be built. -/
theorem buildable_of_validate {body : Value} (hread : Book.ofValue body = .ok book)
    (hvalidate : validate (Layout.of book) book = .ok ()) (henvironment : environment.Legal) :
    Buildable environment book := by
  have haccepts := validate_eq_ok_iff.mp hvalidate
  have hbook := (Book.wellFormed_of_ofValue hread).legalParts
  obtain ⟨package, hpackage, hlegal⟩ := exists_package haccepts hbook henvironment
  obtain ⟨firstLinear, hlinear⟩ := haccepts.has_linear
  constructor
  · exact Metadata.exists_title_resolve
  · exact Metadata.exists_unique_resolve (freshId_ne_empty _)
  · exact Container.legal_element hbook
  · exact ⟨package, hpackage, hlegal, map_eq_ok_iff.mpr ⟨package, hpackage, rfl⟩⟩
  · refine ⟨firstLinear, hlinear, ?_⟩
    rcases navigation_cases haccepts hbook henvironment hlinear with
      ⟨hlong, herror⟩ | ⟨hshort, navigation, hnavigation, hlegal⟩
    · have htext : Navigation.text (Layout.of book) book
          (metadata environment (Layout.of book) book) firstLinear = .error .numeralTooLong := by
        rw [Navigation.text, herror]
        rfl
      refine ⟨⟨?_, fun hshort => absurd hlong hshort⟩, fun _ => htext, ?_⟩
      · rintro ⟨text, hok⟩
        rw [htext] at hok
        cases hok
      · intro root hroot
        rw [herror] at hroot
        cases hroot
    · have hnone : ¬ ∃ page ∈ book.pages.getD [], Navigation.HasLongNumeral page := by
        rintro ⟨page, hpage, hlong⟩
        exact hshort page hpage hlong
      refine ⟨⟨fun _ => hnone, fun _ => ?_⟩, fun hlong => absurd hlong hnone, ?_⟩
      · exact ⟨_, map_eq_ok_iff.mpr ⟨navigation, hnavigation, rfl⟩⟩
      · intro root hroot
        obtain rfl : navigation = root := Except.ok.inj (hnavigation.symm.trans hroot)
        exact hlegal
  · intro reader found hfiles hfound
    rw [names_of_walks hfound hfiles]
    exact checkPaths_copied haccepts
  · intro reader fault hmake
    exact isLateFault_of_make haccepts hbook henvironment hmake

/-- A machine on which no language is set. -/
def plainEnvironment : Environment := ⟨"00000000-0000-4000-8000-000000000000", none⟩

theorem legal_plainEnvironment : plainEnvironment.Legal := ⟨by decide, by simp [plainEnvironment]⟩

theorem buildable_pageBook : Book.ofValue pageBook.toValue = .ok pageBook ∧
    validate (Layout.of pageBook) pageBook = .ok () ∧ plainEnvironment.Legal ∧
      Buildable plainEnvironment pageBook := by
  have hvalidate := validate_eq_ok_iff.mpr pageBook_accepted
  exact ⟨rfl, hvalidate, legal_plainEnvironment,
    buildable_of_validate (show Book.ofValue pageBook.toValue = .ok pageBook from rfl) hvalidate
      legal_plainEnvironment⟩

theorem exists_make_pageBook : ∃ edition,
    make plainEnvironment pageReader pageBook = .ok edition :=
  have hread : Book.ofValue pageBook.toValue = .ok pageBook := rfl
  exists_make pageBook_accepted (Book.wellFormed_of_ofValue hread).legalParts
    legal_plainEnvironment (by simp [pageBook]) copiedFiles_pageBook

end Bindery.Edition
