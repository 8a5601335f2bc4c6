/-
# The books that recipes describe

Reading gives well-formed flat books only, and it gives every one of them, from the body that the book is
written as (`FlatBook.reads_exactly_wellFormed`).  For the table of contents this is the correspondence of
forests and tables in pre-order; for all other parts of a book it is that they are read as they were
written.
-/
import Bindery.Proofs.Book.Written
import Bindery.Proofs.Document.Played
import Bindery.Proofs.Outline.Preorder

namespace Bindery

/-! ## 1. From books to flat books -/

/-- The texts of a book are those of its table of contents and those of the other parts. -/
theorem Book.mem_texts_withContents (parts : Book) (contents : List NavTree) {text : String}
    (hparts : parts.contents = []) :
    text ∈ { parts with contents }.texts ↔ text ∈ parts.texts ∨ text ∈ NavTree.textsAll contents := by
  simp only [Book.texts, hparts, List.mem_append, NavTree.textsAll, NavTree.pointsAll,
    List.flatMap_nil, List.not_mem_nil]
  tauto

/-- The texts of the table of a forest are the texts of the forest. -/
theorem Outline.texts_ofForest (forest : List NavTree) :
    (ofForest forest).texts = NavTree.textsAll forest := by
  rw [texts, NavTree.textsAll, ofForest, ← points_entriesOfAll 0 forest, List.flatMap_map]

theorem eq_ofForest_of_mem_outlineOf {forest : List NavTree} {outline : Outline}
    (h : outline ∈ outlineOf forest) : forest ≠ [] ∧ outline = Outline.ofForest forest := by
  cases forest with
  | nil => cases h
  | cons tree rest => exact ⟨List.cons_ne_nil _ _, (Option.mem_some.mp h).symm⟩

/-- A forest with trees has entries. -/
theorem Outline.entries_ofForest_ne_nil {forest : List NavTree} (h : forest ≠ []) :
    (ofForest forest).entries ≠ [] := by
  cases forest with
  | nil => exact absurd rfl h
  | cons tree rest =>
    obtain ⟨point, children⟩ := tree
    rw [ofForest, entriesOfAll, entriesOf]
    exact List.cons_ne_nil _ _

/-- The flat form of a well-formed book is well-formed. -/
theorem Book.WellFormed.flat {book : Book} (h : book.WellFormed) : book.flat.WellFormed where
  parts := by
    refine ⟨fun text htext => h.texts_legal text ?_, h.paths_name_files⟩
    exact (mem_texts_withContents book.flat.parts book.contents rfl).mpr (.inl htext)
  nonempty := by
    intro outline houtline
    obtain ⟨hne, rfl⟩ := eq_ofForest_of_mem_outlineOf houtline
    exact Outline.entries_ofForest_ne_nil hne
  preorder := by
    intro outline houtline
    obtain ⟨-, rfl⟩ := eq_ofForest_of_mem_outlineOf houtline
    exact Outline.inPreorder_ofForest _
  outline_legal := by
    intro outline houtline text htext
    obtain ⟨-, rfl⟩ := eq_ofForest_of_mem_outlineOf houtline
    rw [Outline.texts_ofForest] at htext
    exact h.texts_legal text
      ((mem_texts_withContents book.flat.parts book.contents rfl).mpr (.inr htext))

/-! ## 2. From flat books to books -/

namespace FlatBook

/-- The table of a well-formed flat book is the table of a forest. -/
theorem WellFormed.exists_contents {flat : FlatBook} (h : flat.WellFormed) :
    ∃ contents, flat.contents? = some contents ∧ outlineOf contents = flat.outline := by
  cases houtline : flat.outline with
  | none => exact ⟨[], by rw [contents?, houtline], rfl⟩
  | some outline =>
    obtain ⟨forest, hforest, htable⟩ := Outline.forest?_of_inPreorder (h.preorder outline houtline)
    refine ⟨forest, by rw [contents?, houtline]; exact hforest, ?_⟩
    cases forest with
    | nil => exact absurd (congrArg Outline.entries htable).symm (h.nonempty outline houtline)
    | cons tree rest => rw [outlineOf, htable]

/-- A well-formed flat book is the flat form of a well-formed book. -/
theorem WellFormed.exists_book {flat : FlatBook} (h : flat.WellFormed) :
    ∃ book : Book, book.WellFormed ∧ book.flat = flat ∧ flat.toValue? = some book.toValue := by
  obtain ⟨contents, hcontents, houtline⟩ := h.exists_contents
  refine ⟨{ flat.parts with contents }, ⟨fun text htext => ?_, h.parts.paths_name_files⟩, ?_, ?_⟩
  · rcases (Book.mem_texts_withContents _ _ flat.no_contents).mp htext with htext | htext
    · exact h.parts.texts_legal text htext
    · cases contents with
      | nil => cases htext
      | cons tree rest =>
        refine h.outline_legal _ houtline.symm text ?_
        rwa [Outline.texts_ofForest]
  · obtain ⟨parts, outline, hnone⟩ := flat
    rw [Book.flat, houtline]
    congr
    exact hnone.symm
  · rw [toValue?, hcontents, Option.map_some]

/-! ## 3. What reading gives -/

/-- **Reading gives exactly the well-formed flat books**: nothing else, and each of them from the body that
it is written as. -/
theorem reads_exactly_wellFormed :
    (∀ body flat, ofValue body = .ok flat → flat.WellFormed) ∧
      ∀ flat : FlatBook, flat.WellFormed →
        ∃ body, flat.toValue? = some body ∧ ofValue body = .ok flat := by
  constructor
  · intro body flat hread
    obtain ⟨book, hbook, rfl⟩ := map_eq_ok_iff.mp hread
    exact (Book.wellFormed_of_ofValue hbook).flat
  · intro flat h
    obtain ⟨book, hbook, rfl, hwritten⟩ := h.exists_book
    refine ⟨book.toValue, hwritten, ?_⟩
    rw [ofValue, Book.ofValue_toValue hbook]
    rfl

open Document.Navigation (repeatingBook)

theorem repeatingBook_flat_read : repeatingBook.flat.WellFormed ∧
    ∃ body, repeatingBook.flat.toValue? = some body ∧ ofValue body = .ok repeatingBook.flat := by
  have hread : ofValue repeatingBook.toValue = .ok repeatingBook.flat := rfl
  have hflat := reads_exactly_wellFormed.1 _ _ hread
  exact ⟨hflat, reads_exactly_wellFormed.2 _ hflat⟩

end FlatBook
end Bindery
