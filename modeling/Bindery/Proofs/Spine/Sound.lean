/-
# What validation says about fallbacks

Every fallback ought to lead to an item, and no chain of fallbacks ought to come back to itself
(`FallbacksSound`).  Validation makes sure of both as far as the search for a document goes, which
ends at the first one.  So in an accepted book only a document of the reading order can have a fallback
without an item, and every circle goes through one (`fallbacks_sound_iff`).
-/
import Bindery.Book.Reading
import Bindery.Book.Writing
import Bindery.Proofs.Spine.Fallback
import Bindery.Proofs.Validation

namespace Bindery.Spine

/-- Every fallback leads to an item, and following fallbacks never comes back. -/
structure FallbacksSound (book : Book) : Prop where
  resolve : ∀ item ∈ book.manifest, Resolves book item
  acyclic : ∀ item ∈ book.manifest, ¬ OnCircle book item

/-- **In an accepted book every chain of fallbacks is in order up to its first document**, and all
fallbacks are sound exactly if those of the documents are. -/
theorem fallbacks_sound_iff {book : Book}
    (h : Validation.validate (Layout.of book) book = .ok ()) :
    (∀ item ∈ book.manifest, ∃ b, Settles book item b) ∧
      (∀ item ∈ book.manifest, ¬ IsDocument item → Resolves book item) ∧
      (∀ item ∈ book.manifest, ¬ Relation.TransGen (Passes book) item item) ∧
      (FallbacksSound book ↔
        ∀ item ∈ book.manifest, IsDocument item → Resolves book item ∧ ¬ OnCircle book item) := by
  have haccepts := Validation.validate_eq_ok_iff.mp h
  have hsettles : ∀ item ∈ book.manifest, ∃ b, Settles book item b := by
    intro item hitem
    obtain ⟨b, hb⟩ := haccepts.fallbacks_settle item hitem
    exact ⟨b, settles_of_reaches hb⟩
  have hresolves : ∀ item ∈ book.manifest, ¬ IsDocument item → Resolves book item := by
    intro item hitem hother
    obtain ⟨b, hb⟩ := hsettles item hitem
    exact hb.resolved hother
  refine ⟨hsettles, hresolves, ?_, ?_, ?_⟩
  · intro item hitem
    obtain ⟨b, hb⟩ := hsettles item hitem
    exact hb.acyclic
  · intro hsound item hitem _
    exact ⟨hsound.resolve item hitem, hsound.acyclic item hitem⟩
  · intro hdocuments
    constructor
    · intro item hitem
      by_cases hdocument : IsDocument item
      · exact (hdocuments item hitem hdocument).1
      · exact hresolves item hitem hdocument
    · intro item hitem hcircle
      obtain ⟨document, hmem, hdocument, hcircle⟩ :=
        exists_document_of_circle (hsettles item hitem) hitem hcircle
      exact (hdocuments document hmem hdocument).2 hcircle

/-- A drawing that falls back to a page. -/
def drawingBook : Book where
  manifest := [
    { source := "page.xhtml", path := "page.xhtml", mediaType := "application/xhtml+xml",
      id := "page" },
    { source := "drawing.svg", path := "drawing.svg", mediaType := "image/svg+xml",
      id := "drawing", fallback := some "page" }]

theorem drawingBook_accepted :
    Validation.validate (Layout.of drawingBook) drawingBook = .ok () := by
  refine Validation.validate_eq_ok_iff.mpr (Validation.accepts_of_document rfl (by decide) rfl
    (Validation.checkPaths_eq_ok_iff.mpr (by decide +kernel))
    (Validation.checkIdentifiers_eq_ok_iff.mpr (by decide +kernel)) rfl rfl ?_)
  intro item hitem
  obtain rfl := List.mem_singleton.mp hitem
  refine ⟨true, ?_⟩
  rw [eligible, reaches_of_passes ⟨by decide, "page", rfl, rfl⟩ (by decide)]
  exact reaches_of_document (by decide)

theorem drawingBook_fallbacks_sound :
    Validation.validate (Layout.of drawingBook) drawingBook = .ok () ∧
      FallbacksSound drawingBook := by
  refine ⟨drawingBook_accepted, (fallbacks_sound_iff drawingBook_accepted).2.2.2.mpr ?_⟩
  intro item hitem hdocument
  have hlast : item.fallback = none := by
    revert hdocument
    revert item
    decide
  refine ⟨fun idref hidref => ?_, fun hcircle => ?_⟩
  · rw [hlast] at hidref
    cases hidref
  · obtain ⟨_, ⟨idref, hidref, -⟩, -⟩ := Relation.TransGen.head'_iff.mp hcircle
    rw [hlast] at hidref
    cases hidref

/-- A page with a fallback that does not exist, and a page that is its own fallback. -/
def pagesBook : Book where
  manifest := [
    { source := "one.xhtml", path := "one.xhtml", mediaType := "application/xhtml+xml",
      id := "one", fallback := some "missing" },
    { source := "two.xhtml", path := "two.xhtml", mediaType := "application/xhtml+xml",
      id := "two", fallback := some "two" }]

theorem pagesBook_accepted : Validation.validate (Layout.of pagesBook) pagesBook = .ok () := by
  refine Validation.validate_eq_ok_iff.mpr (Validation.accepts_of_document rfl (by decide) rfl
    (Validation.checkPaths_eq_ok_iff.mpr (by decide +kernel))
    (Validation.checkIdentifiers_eq_ok_iff.mpr (by decide +kernel)) rfl rfl ?_)
  intro item hitem
  obtain rfl := List.mem_singleton.mp hitem
  exact ⟨true, eligible_of_document (by decide)⟩

/-- Validation accepts a book in which a document falls back to nothing, and one to itself: the search
ends at the documents and does not look at their fallbacks. -/
theorem not_fallbacks_sound : ∃ body book, Book.ofValue body = .ok book ∧
    Validation.validate (Layout.of book) book = .ok () ∧
      (∃ item ∈ book.manifest, ¬ Resolves book item) ∧
        ∃ item ∈ book.manifest, OnCircle book item := by
  refine ⟨pagesBook.toValue, pagesBook, rfl, pagesBook_accepted, ?_, ?_⟩
  · refine ⟨_, List.mem_cons_self, fun hresolves => ?_⟩
    obtain ⟨next, hnext⟩ := hresolves "missing" rfl
    cases hnext
  · exact ⟨_, List.mem_cons_of_mem _ List.mem_cons_self, .single ⟨"two", rfl, rfl⟩⟩

end Bindery.Spine
