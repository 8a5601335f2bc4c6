/-
# The documents of a book are faithful

Whatever the texts of a recipe hold, quotes and brackets and ends of lines, a reader gets back the
elements that were built from them and nothing else (`documents_readBack`).  The recipe has only to be
one that can be read, and a document one that is written: what a book takes from elsewhere, its
identifier and its language, is checked when it is written.
-/
import Bindery.Proofs.Document.ReadBack
import Bindery.Proofs.Edition.Buildable

namespace Bindery.Edition

open Document Xml

variable {environment : Environment} {reader : Reader} {book : Book} {edition : Edition}

/-- **Every document that is written is read back**: for a recipe that can be read, each document is read
as the elements that were built for it, and holds nothing else. -/
theorem documents_readBack {body : Value} (hread : Book.ofValue body = .ok book)
    (environment : Environment) (freshId firstLinear : String) (listsDefaultPackage : Bool) :
    ReadsBack (Container.text book listsDefaultPackage)
        (Container.element book listsDefaultPackage) ∧
      (∀ text, Package.text (Layout.of book) book
          (Metadata.resolve environment freshId book.metadata) = .ok text →
        ∃ root, Package.element (Layout.of book) book
          (Metadata.resolve environment freshId book.metadata) = .ok root ∧ ReadsBack text root) ∧
      ∀ text, Navigation.text (Layout.of book) book
          (Metadata.resolve environment freshId book.metadata) firstLinear = .ok text →
        ∃ root, Navigation.element (Layout.of book) book
          (Metadata.resolve environment freshId book.metadata) firstLinear = .ok root ∧
            ReadsBack text root := by
  have hbook := (Book.wellFormed_of_ofValue hread).legalParts
  refine ⟨Container.readsBack_text hbook _, fun text htext => ?_, fun text htext => ?_⟩
  · exact Package.readsBack_text hbook htext
  · exact Navigation.readsBack_text hbook (Metadata.legal_title hbook.metadata) htext

/-- A book whose title could be taken for markup. -/
def markupBook : Book :=
  { Validation.pageBook with
    metadata := some [.core { element := .title, content := "<b>\"&amp;\"</b>\r\n\t]]>" }] }

theorem markupBook_accepted : Validation.Accepts (Layout.of markupBook) markupBook :=
  Validation.accepts_of_document rfl (by decide) rfl
    (Validation.checkPaths_eq_ok_iff.mpr (by decide +kernel))
    (Validation.checkIdentifiers_eq_ok_iff.mpr (by decide +kernel)) rfl rfl (by simp)

theorem markupBook_readBack : Book.ofValue markupBook.toValue = .ok markupBook ∧
    ∃ firstLinear package navigation packageRoot navigationRoot,
      Package.text (Layout.of markupBook) markupBook
        (metadata plainEnvironment (Layout.of markupBook) markupBook) = .ok package ∧
      Navigation.text (Layout.of markupBook) markupBook
        (metadata plainEnvironment (Layout.of markupBook) markupBook) firstLinear = .ok navigation ∧
      ReadsBack package packageRoot ∧ ReadsBack navigation navigationRoot := by
  have hread : Book.ofValue markupBook.toValue = .ok markupBook := rfl
  have hbook := (Book.wellFormed_of_ofValue hread).legalParts
  obtain ⟨firstLinear, hlinear⟩ := markupBook_accepted.has_linear
  obtain ⟨package, hpackage, -⟩ := exists_package markupBook_accepted hbook legal_plainEnvironment
  rcases navigation_cases markupBook_accepted hbook legal_plainEnvironment hlinear with
    ⟨⟨page, hpage, -⟩, -⟩ | ⟨-, navigation, hnavigation, -⟩
  · exact absurd hpage List.not_mem_nil
  have hpackageText : Package.text (Layout.of markupBook) markupBook
      (metadata plainEnvironment (Layout.of markupBook) markupBook) = .ok package.document :=
    map_eq_ok_iff.mpr ⟨package, hpackage, rfl⟩
  have hnavigationText : Navigation.text (Layout.of markupBook) markupBook
      (metadata plainEnvironment (Layout.of markupBook) markupBook) firstLinear =
        .ok navigation.document :=
    map_eq_ok_iff.mpr ⟨navigation, hnavigation, rfl⟩
  obtain ⟨-, hpackages, hnavigations⟩ := documents_readBack hread plainEnvironment
    (FreshName.fresh identifierId ((Layout.of markupBook).identifiers markupBook)) firstLinear true
  obtain ⟨packageRoot, -, hpackageRead⟩ := hpackages _ hpackageText
  obtain ⟨navigationRoot, -, hnavigationRead⟩ := hnavigations _ hnavigationText
  exact ⟨hread, firstLinear, _, _, packageRoot, navigationRoot, hpackageText, hnavigationText,
    hpackageRead, hnavigationRead⟩

end Bindery.Edition
