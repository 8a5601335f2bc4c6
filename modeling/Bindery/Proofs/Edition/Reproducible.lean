/-
# Editions are reproducible

What a book takes from the machine it is made on is an identifier, if it states none, and a language, if it
states none.  Neither decides whether it can be made, nor anything in its archive but the package and the
navigation document, and of these only what the book leaves out (`reproducible`).
-/
import Bindery.Proofs.Edition.Copied
import Bindery.Proofs.Metadata.Machine

namespace Bindery.Edition

open Document Metadata
open Validation (pageBook)

variable {here there environment : Environment} {reader : Reader} {book : Book}

/-! ## 1. Faults -/

/-- A book that is refused is refused on every machine. -/
theorem make_of_validate_eq_error {fault : Fault} (environment : Environment) (reader : Reader)
    (h : Validation.validate (Layout.of book) book = .error fault) :
    make environment reader book = .error fault := by
  rw [make, h]
  rfl

section

variable (haccepts : Validation.Accepts (Layout.of book) book)
include haccepts

/-- An accepted book is stopped by files that cannot be copied. -/
theorem make_of_copiedFiles_eq_error {fault : Fault} (environment : Environment)
    (h : copiedFiles reader (Layout.of book) book = .error fault) :
    make environment reader book = .error fault := by
  obtain ⟨firstLinear, hlinear⟩ := haccepts.has_linear
  rw [make, Validation.validate_eq_ok_iff.mpr haccepts, hlinear, h]
  rfl

variable (hbook : book.LegalParts) (henvironment : environment.Legal)
include hbook henvironment

/-- An accepted book whose files can be copied is stopped by a page number that is too long. -/
theorem make_of_hasLongNumeral {files : List (String × ByteArray)}
    (hfiles : copiedFiles reader (Layout.of book) book = .ok files)
    (hlong : ∃ page ∈ book.pages.getD [], Navigation.HasLongNumeral page) :
    make environment reader book = .error .numeralTooLong := by
  obtain ⟨firstLinear, hlinear⟩ := haccepts.has_linear
  obtain ⟨package, hpackage, -⟩ := exists_package haccepts hbook henvironment
  have htext : Package.text (Layout.of book) book (metadata environment (Layout.of book) book) =
      .ok package.document := map_eq_ok_iff.mpr ⟨package, hpackage, rfl⟩
  have hnavigation : Navigation.text (Layout.of book) book
      (metadata environment (Layout.of book) book) firstLinear = .error .numeralTooLong := by
    rcases navigation_cases haccepts hbook henvironment hlinear with ⟨-, herror⟩ | ⟨hshort, -⟩
    · rw [Navigation.text, herror]
      rfl
    · obtain ⟨page, hpage, hnumeral⟩ := hlong
      exact absurd hnumeral (hshort page hpage)
  rw [make, Validation.validate_eq_ok_iff.mpr haccepts, hlinear, hfiles]
  show (Package.text _ _ _ >>= _) = _
  rw [htext]
  show (Navigation.text _ _ _ _ >>= _) = _
  rw [hnavigation]
  rfl

/-- Nothing else stops an accepted book. -/
theorem make_eq_error_iff {fault : Fault} :
    make environment reader book = .error fault ↔
      copiedFiles reader (Layout.of book) book = .error fault ∨
        ((∃ files, copiedFiles reader (Layout.of book) book = .ok files) ∧
          (∃ page ∈ book.pages.getD [], Navigation.HasLongNumeral page) ∧
          fault = .numeralTooLong) := by
  cases hfiles : copiedFiles reader (Layout.of book) book with
  | error stopped =>
    rw [make_of_copiedFiles_eq_error haccepts environment hfiles]
    simp
  | ok files =>
    by_cases hlong : ∃ page ∈ book.pages.getD [], Navigation.HasLongNumeral page
    · rw [make_of_hasLongNumeral haccepts hbook henvironment hfiles hlong]
      simp [hlong, eq_comm]
    · have hshort : ∀ page ∈ book.pages.getD [], ¬ Navigation.HasLongNumeral page :=
        fun page hpage hnumeral => hlong ⟨page, hpage, hnumeral⟩
      obtain ⟨edition, hmake⟩ := exists_make haccepts hbook henvironment hshort hfiles
      rw [hmake]
      simp [hlong]

end

/-- **A book fails on one machine as it fails on every other.** -/
theorem make_eq_error_congr (hbook : book.LegalParts) (hhere : here.Legal) (hthere : there.Legal)
    {fault : Fault} : make here reader book = .error fault ↔ make there reader book = .error fault := by
  cases hvalidate : Validation.validate (Layout.of book) book with
  | error refused =>
    rw [make_of_validate_eq_error here reader hvalidate,
      make_of_validate_eq_error there reader hvalidate]
  | ok =>
    have haccepts := Validation.validate_eq_ok_iff.mp hvalidate
    rw [make_eq_error_iff haccepts hbook hhere, make_eq_error_iff haccepts hbook hthere]

/-! ## 2. Documents -/

/-- The recipe of a book makes a statement by an element. -/
def RecipeStates (book : Book) (element : DublinCore) : Prop :=
  Metadata.States element (book.metadata.getD [])

/-- A machine gives a book its identifier, and another machine would give it another one. -/
def TakesIdentifier (here there : Environment) (book : Book) : Prop :=
  ¬ RecipeStates book .identifier ∧ here.uuid ≠ there.uuid

/-- A machine gives a book its language, and another machine would give it another one. -/
def TakesLanguage (here there : Environment) (book : Book) : Prop :=
  ¬ RecipeStates book .language ∧ here.languageTag ≠ there.languageTag

theorem identifier_or_of_not_takes (h : ¬ TakesIdentifier here there book) :
    RecipeStates book .identifier ∨ here.uuid = there.uuid := by
  rw [TakesIdentifier, not_and_or, not_not, not_not] at h
  exact h

/-- The navigation document shows of the metadata only the unique identifier and the title. -/
theorem navigation_congr (h : ¬ TakesIdentifier here there book) (firstLinear : String) :
    Navigation.text (Layout.of book) book (metadata here (Layout.of book) book) firstLinear =
      Navigation.text (Layout.of book) book (metadata there (Layout.of book) book) firstLinear := by
  have hidentifier : (metadata here (Layout.of book) book).identifier =
      (metadata there (Layout.of book) book).identifier :=
    identifier_resolve_congr (freshId_ne_empty _) (identifier_or_of_not_takes h)
  have htitle : (metadata here (Layout.of book) book).title =
      (metadata there (Layout.of book) book).title :=
    title_resolve_congr here there _ book.metadata
  rw [Navigation.text, Navigation.text, Navigation.element, Navigation.element, hidentifier, htitle]

theorem metadata_congr (hidentifier : ¬ TakesIdentifier here there book)
    (hlanguage : ¬ TakesLanguage here there book) :
    metadata here (Layout.of book) book = metadata there (Layout.of book) book := by
  rw [TakesLanguage, not_and_or, not_not, not_not] at hlanguage
  exact resolve_congr (freshId_ne_empty _) (identifier_or_of_not_takes hidentifier) hlanguage

/-- A book depends on the machine by its metadata. -/
theorem make_eq_of_metadata_eq
    (h : metadata here (Layout.of book) book = metadata there (Layout.of book) book) :
    make here reader book = make there reader book := by
  rw [make, make, h]

/-! ## 3. Two machines -/

/-- Two editions of a book that were made on two machines. -/
structure Agree (here there : Environment) (book : Book) (first second : Edition) : Prop where
  /-- All entries but those of the package and of the navigation document are the same. -/
  entries : ∃ files, HoldsFiles (Layout.of book) first files ∧
    HoldsFiles (Layout.of book) second files
  container : first.container = second.container
  navigation : first.navigation ≠ second.navigation → TakesIdentifier here there book
  package : first.package ≠ second.package →
    TakesIdentifier here there book ∨ TakesLanguage here there book

theorem agree_of_make (hbook : book.LegalParts) {first second : Edition}
    (hfirst : make here reader book = .ok first) (hsecond : make there reader book = .ok second) :
    Agree here there book first second := by
  obtain ⟨found, hfound, hentries⟩ := entries_of_make hbook hfirst
  obtain ⟨other, hother, hsecondEntries⟩ := entries_of_make hbook hsecond
  obtain rfl : found = other := Except.ok.inj (hfound.symm.trans hother)
  refine ⟨⟨found.flatten, hentries, hsecondEntries⟩, ?_, ?_, ?_⟩
  · obtain ⟨-, _, _, _, _, -, -, -, -, rfl⟩ := make_eq_ok_iff.mp hfirst
    obtain ⟨-, _, _, _, _, -, -, -, -, rfl⟩ := make_eq_ok_iff.mp hsecond
    rfl
  · intro hne
    by_contra htakes
    obtain ⟨-, linear, _, _, navigation, hlinear, -, -, hnavigation, rfl⟩ := make_eq_ok_iff.mp hfirst
    obtain ⟨-, otherLinear, _, _, otherNavigation, hotherLinear, -, -, hotherNavigation, rfl⟩ :=
      make_eq_ok_iff.mp hsecond
    obtain rfl : linear = otherLinear := Except.ok.inj (hlinear.symm.trans hotherLinear)
    have hsame := navigation_congr htakes linear
    exact hne (Except.ok.inj ((hnavigation.symm.trans hsame).trans hotherNavigation))
  · intro hne
    by_contra htakes
    rw [not_or] at htakes
    have hsame : make here reader book = make there reader book :=
      make_eq_of_metadata_eq (metadata_congr htakes.1 htakes.2)
    rw [hfirst, hsecond, Except.ok.injEq] at hsame
    exact hne (congrArg Edition.package hsame)

/-- **Editions are reproducible.**  On two machines a book is made or fails alike, and what is made differs
only where the machine has to give what the book leaves out.  A book that states an identifier and a
language is the same on every machine. -/
theorem reproducible (reader : Reader) (body : Value) (book : Book)
    (hread : Book.ofValue body = .ok book) :
    (∀ here there : Environment, here.Legal → there.Legal →
      (∀ fault, make here reader book = .error fault ↔ make there reader book = .error fault) ∧
      ∀ first second, make here reader book = .ok first → make there reader book = .ok second →
        Agree here there book first second) ∧
    (RecipeStates book .identifier → RecipeStates book .language →
      ∀ here there : Environment, make here reader book = make there reader book) := by
  have hbook := (Book.wellFormed_of_ofValue hread).legalParts
  constructor
  · intro here there hhere hthere
    constructor
    · intro fault
      exact make_eq_error_congr hbook hhere hthere
    · intro first second hfirst hsecond
      exact agree_of_make hbook hfirst hsecond
  · intro hidentifier hlanguage here there
    have hnoIdentifier : ¬ TakesIdentifier here there book := fun h => h.1 hidentifier
    have hnoLanguage : ¬ TakesLanguage here there book := fun h => h.1 hlanguage
    exact make_eq_of_metadata_eq (metadata_congr hnoIdentifier hnoLanguage)

/-- A machine on which German is set. -/
def germanEnvironment : Environment := ⟨"11111111-1111-4111-8111-111111111111", some "de_DE"⟩

theorem legal_germanEnvironment : germanEnvironment.Legal :=
  ⟨by decide, by simp [germanEnvironment]; decide⟩

/-- A book of one page that states an identifier, without an id, and a language. -/
def statedBook : Book :=
  { pageBook with
    metadata := some [.core { element := .identifier, content := "urn:isbn:0" },
      .core { element := .language, content := "la" }] }

theorem exists_make_statedBook : ∃ edition,
    make plainEnvironment pageReader statedBook = .ok edition := by
  have hread : Book.ofValue statedBook.toValue = .ok statedBook := rfl
  have haccepts : Validation.Accepts (Layout.of statedBook) statedBook :=
    Validation.accepts_of_document rfl (by decide) rfl
      (Validation.checkPaths_eq_ok_iff.mpr (by decide +kernel))
      (Validation.checkIdentifiers_eq_ok_iff.mpr (by decide +kernel)) rfl rfl (by simp)
  have hcopied : copiedFiles pageReader (Layout.of statedBook) statedBook =
      .ok [("OEBPS/page.xhtml", .empty), ("images/cover.png", .empty)] := copiedFiles_pageBook
  exact exists_make haccepts (Book.wellFormed_of_ofValue hread).legalParts legal_plainEnvironment
    (by simp [statedBook, pageBook]) hcopied

/-- A book that states neither identifier nor language, and one that states both. -/
theorem pageBook_reproducible :
    (∃ first second, make plainEnvironment pageReader pageBook = .ok first ∧
      make germanEnvironment pageReader pageBook = .ok second ∧
      Agree plainEnvironment germanEnvironment pageBook first second) ∧
    ∃ edition, make plainEnvironment pageReader statedBook = .ok edition ∧
      make germanEnvironment pageReader statedBook = .ok edition := by
  have hread : Book.ofValue pageBook.toValue = .ok pageBook := rfl
  have hstated : Book.ofValue statedBook.toValue = .ok statedBook := rfl
  constructor
  · obtain ⟨first, hfirst⟩ := exists_make_pageBook
    obtain ⟨second, hsecond⟩ : ∃ edition, make germanEnvironment pageReader pageBook = .ok edition :=
      exists_make Validation.pageBook_accepted (Book.wellFormed_of_ofValue hread).legalParts
        legal_germanEnvironment (by simp [pageBook]) copiedFiles_pageBook
    obtain ⟨-, hagree⟩ := (reproducible pageReader _ _ hread).1 _ _ legal_plainEnvironment
      legal_germanEnvironment
    exact ⟨first, second, hfirst, hsecond, hagree first second hfirst hsecond⟩
  · obtain ⟨edition, hmake⟩ := exists_make_statedBook
    have hsame := (reproducible pageReader _ _ hstated).2 rfl rfl plainEnvironment germanEnvironment
    exact ⟨edition, hmake, hsame ▸ hmake⟩

end Bindery.Edition
