/-
# The identifiers of a book

No two identifiers of the package document clash, and its unique identifier leads to one identifier of
the book, the same that the navigation document gives (`package_ids_distinct`).  It may be one of the
recipe, one of the recipe that was given an id, or one made for the book; the id that is made up for the
last two clashes with none of the others (`nodup_package_ids`).
-/
import Bindery.Proofs.Document.Identified
import Bindery.Proofs.Document.Parts
import Bindery.Proofs.Edition.Buildable

namespace Bindery.Edition

open Document Text Xml

variable {environment : Environment} {book : Book} {root : Element}

/-! ## 1. The unique identifier -/

/-- No two ids of the package document of an accepted book clash. -/
theorem nodup_package_ids (haccepts : Validation.Accepts (Layout.of book) book)
    (h : Package.element (Layout.of book) book
      (metadata environment (Layout.of book) book) = .ok root) : (root.ids.map foldCase).Nodup :=
  Package.element_ids_nodup haccepts (freshId_ne_empty _) (FreshName.fresh_not_taken _ _) h

/-- The unique identifier of the package is not empty, and it is the id of an identifier of the book. -/
theorem exists_unique_element (h : Package.element (Layout.of book) book
      (metadata environment (Layout.of book) book) = .ok root) :
    (metadata environment (Layout.of book) book).uniqueId ≠ "" ∧
      ∃ identifier ∈ root.subtree,
        identifier.attribute? "id" =
          some (metadata environment (Layout.of book) book).uniqueId ∧
        identifier.name = "dc:identifier" ∧
        identifier.content = (metadata environment (Layout.of book) book).identifier := by
  obtain ⟨statement, hfound, hid, hcontent⟩ :=
    @Metadata.exists_unique_resolve environment _ book.metadata
      (freshId_ne_empty ((Layout.of book).identifiers book))
  obtain ⟨item, hitem, hidentified⟩ := List.exists_of_findSome?_eq_some hfound
  obtain ⟨rfl, helement, id, hsome, hne⟩ := Metadata.identified?_eq_some_iff.mp hidentified
  have hunique : id = (metadata environment (Layout.of book) book).uniqueId :=
    Option.some.inj (hsome.symm.trans hid)
  have hwritten : Metadata.writtenId? (.core statement) = some id := by
    simp [Metadata.writtenId?, hsome, hne]
  rw [← hunique]
  refine ⟨hne, Package.metadatumElement (.core statement), ?_, ?_, ?_, hcontent.symm⟩
  · obtain ⟨manifest, spine, guide, -, -, -, rfl⟩ := Package.of_element_eq_ok h
    refine Element.mem_subtree_of_child List.mem_cons_self ?_
    exact Element.mem_subtree_of_child (List.mem_map_of_mem hitem) (Element.mem_subtree_self _)
  · rw [Package.attribute?_metadatumElement, hwritten]
  · show "dc:" ++ statement.element.name = "dc:identifier"
    rw [helement]
    decide

/-! ## 2. Both documents -/

/-- **No two identifiers of the package document clash**, and its unique identifier is the id of one
element only, an identifier of the book, which is the one that the navigation document gives. -/
theorem package_ids_distinct {body : Value} (hread : Book.ofValue body = .ok book)
    (hvalidate : Validation.validate (Layout.of book) book = .ok ()) (environment : Environment) :
    (environment.Legal → ∃ root, Package.element (Layout.of book) book
      (metadata environment (Layout.of book) book) = .ok root) ∧
    ∀ root, Package.element (Layout.of book) book
        (metadata environment (Layout.of book) book) = .ok root →
      (root.ids.map foldCase).Nodup ∧
      ∃ unique identifier, root.attribute? "unique-identifier" = some unique ∧ unique ≠ "" ∧
        root.having "id" unique = [identifier] ∧ identifier.name = "dc:identifier" ∧
        ∀ firstLinear navigation, Navigation.element (Layout.of book) book
            (metadata environment (Layout.of book) book) firstLinear = .ok navigation →
          ∃ uid, (navigation.named "meta").filter (·.attribute? "name" == some "dtb:uid") = [uid] ∧
            uid.attribute? "content" = some identifier.content := by
  have haccepts := Validation.validate_eq_ok_iff.mp hvalidate
  refine ⟨fun henvironment => ?_, fun root hroot => ?_⟩
  · obtain ⟨root, hroot, -⟩ := exists_package haccepts
      (Book.wellFormed_of_ofValue hread).legalParts henvironment
    exact ⟨root, hroot⟩
  · have hdistinct := nodup_package_ids haccepts hroot
    obtain ⟨hne, identifier, hpart, hid, hname, hcontent⟩ := exists_unique_element hroot
    refine ⟨hdistinct, _, identifier, ?_, hne,
      Element.having_id_eq_singleton (hdistinct.of_map _) hpart hid, hname, ?_⟩
    · obtain ⟨manifest, spine, guide, -, -, -, rfl⟩ := Package.of_element_eq_ok hroot
      rfl
    · intro firstLinear navigation hnavigation
      refine ⟨_, Navigation.uid_element hnavigation, ?_⟩
      rw [hcontent]
      rfl

/-- A book whose identifier has no id, and which has used up the first ids that would be made for it. -/
def clashingBook : Book where
  manifest := [
    { source := "page.xhtml", path := "page.xhtml", mediaType := "application/xhtml+xml",
      id := "bookid" }]
  metadata := some [
    .core { element := .identifier, content := "urn:isbn:0", id := some "" },
    .core { element := .creator, content := "Anonymous", id := some "BookId_1" }]

theorem clashingBook_accepted : Validation.Accepts (Layout.of clashingBook) clashingBook :=
  Validation.accepts_of_document rfl (by decide) rfl
    (Validation.checkPaths_eq_ok_iff.mpr (by decide +kernel))
    (Validation.checkIdentifiers_eq_ok_iff.mpr (by decide +kernel)) rfl rfl (by simp)

theorem clashingBook_ids_distinct : ∃ root unique identifier,
    Package.element (Layout.of clashingBook) clashingBook
        (metadata plainEnvironment (Layout.of clashingBook) clashingBook) = .ok root ∧
      (root.ids.map foldCase).Nodup ∧ root.attribute? "unique-identifier" = some unique ∧
      root.having "id" unique = [identifier] ∧ identifier.name = "dc:identifier" := by
  have hread : Book.ofValue clashingBook.toValue = .ok clashingBook := rfl
  obtain ⟨hexists, hall⟩ := package_ids_distinct hread
    (Validation.validate_eq_ok_iff.mpr clashingBook_accepted) plainEnvironment
  obtain ⟨root, hroot⟩ := hexists legal_plainEnvironment
  obtain ⟨hdistinct, unique, identifier, hunique, -, hhaving, hname, -⟩ := hall root hroot
  exact ⟨root, unique, identifier, hroot, hdistinct, hunique, hhaving, hname⟩

end Bindery.Edition
