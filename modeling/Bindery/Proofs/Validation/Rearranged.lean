/-
# Validation does not look at the order of lists

A book and its rearrangement have the same paths, the same identifiers and the same references, each in
another order, and whether paths or identifiers clash does not hang on their order.  What hangs on it
is which of two items with one identifier is found first; but such a book is refused for the clash, and
where no two items share an identifier, every chain of fallbacks is the same in both books
(`Rearranged.eligible_eq`).  So both are accepted or none (`Rearranged.accepts`), and every item is
at the same path in both (`validate_rearranged`).
-/
import Bindery.Proofs.Book.Rearranged
import Bindery.Proofs.Book.Written
import Bindery.Proofs.Layout
import Bindery.Proofs.Spine.Sound

namespace Bindery

open Validation

namespace Book.Rearranged

variable {book other : Book}

theorem symm (h : book.Rearranged other) : other.Rearranged book where
  manifest := h.manifest.symm
  extraFiles := h.extraFiles.symm
  metadata := symm_of_rel h.metadata
  spine := symm_of_rel h.spine
  guide := symm_of_rel h.guide
  pages := symm_of_rel h.pages
  navLists := symm_of_rel h.navLists
  rootfiles := h.rootfiles.symm
  navigationFile := h.navigationFile.symm
  contents := h.contents.symm

/-! ## 1. The layout -/

theorem packagePath_eq (h : book.Rearranged other) :
    (Layout.of book).packagePath = (Layout.of other).packagePath := by
  show Layout.packagePathOf book = Layout.packagePathOf other
  rw [Layout.packagePathOf, Layout.packagePathOf, Layout.packageRootfile?, Layout.packageRootfile?,
    h.rootfiles]

theorem directory_eq (h : book.Rearranged other) :
    (Layout.of book).directory = (Layout.of other).directory := by
  rw [Layout.directory, Layout.directory, h.packagePath_eq]

theorem navigationId_eq (h : book.Rearranged other) :
    (Layout.of book).navigationId = (Layout.of other).navigationId := by
  show Layout.orDefault defaultNavigationId (book.navigationFile.getD {}).id = _
  rw [h.navigationFile]
  rfl

theorem navigationPath_eq (h : book.Rearranged other) :
    (Layout.of book).navigationPath = (Layout.of other).navigationPath := by
  have hdirectory := h.directory_eq
  simp only [Layout.of, Layout.directory] at hdirectory ⊢
  rw [h.navigationFile, hdirectory]

theorem generated_eq (h : book.Rearranged other) :
    (Layout.of book).generated = (Layout.of other).generated := by
  rw [Layout.generated, Layout.generated, h.packagePath_eq, h.navigationPath_eq]

theorem copied_perm (h : book.Rearranged other) :
    ((Layout.of book).copied book).Perm ((Layout.of other).copied other) := by
  rw [Layout.copied, Layout.copied, h.directory_eq]
  exact (h.manifest.map _).append (h.extraFiles.map _)

theorem identifiers_perm (h : book.Rearranged other) :
    ((Layout.of book).identifiers book).Perm ((Layout.of other).identifiers other) := by
  rw [Layout.identifiers, Layout.identifiers, h.navigationId_eq]
  exact ((h.manifest.map _).append_right _).append ((getD_perm_of_rel h.metadata).filterMap _)

theorem references_perm (h : book.Rearranged other) : (references book).Perm (references other) := by
  rw [references, references, h.contents]
  refine List.Perm.append (List.Perm.append (List.Perm.append_right _ (List.Perm.append ?_ ?_)) ?_) ?_
  · exact (getD_perm_of_rel h.spine).map _
  · exact (getD_perm_of_rel h.guide).map _
  · exact (getD_perm_of_rel h.pages).map _
  · exact (getD_perm_of_rel h.navLists).flatMap_right _

/-! ## 2. The reading order -/

/-- Where no two items share an identifier, both books find the same item. -/
theorem item?_eq (h : book.Rearranged other) (hids : (book.manifest.map (·.id)).Nodup) (id : String) :
    book.item? id = other.item? id := by
  ext item
  rw [Book.item?_eq_some_iff hids, Book.item?_eq_some_iff ((h.manifest.map _).nodup_iff.mp hids),
    h.manifest.mem_iff]

/-- Where no two items share an identifier, the chains of fallbacks are the same in both books. -/
theorem eligible_eq (h : book.Rearranged other) (hids : (book.manifest.map (·.id)).Nodup)
    (item : ManifestItem) : Spine.eligible book item = Spine.eligible other item :=
  Spine.eligible_congr (h.item?_eq hids) item

theorem exists_firstEligible (h : book.Rearranged other)
    (haccepts : Accepts (Layout.of book) book) : ∃ item, Spine.firstEligible other = .ok item := by
  have heligible := h.eligible_eq haccepts.manifest_ids_nodup
  have hsettles : ∀ item ∈ other.manifest, ∃ b, Spine.eligible other item = .ok b := by
    intro item hitem
    rw [← heligible]
    exact haccepts.fallbacks_settle item (h.manifest.mem_iff.mpr hitem)
  obtain ⟨item, hitem, htrue⟩ :=
    (Spine.exists_firstEligibleOf_iff haccepts.fallbacks_settle).mp haccepts.has_eligible
  exact (Spine.exists_firstEligibleOf_iff hsettles).mpr
    ⟨item, h.manifest.mem_iff.mp hitem, heligible item ▸ htrue⟩

theorem exists_firstLinear (h : book.Rearranged other)
    (haccepts : Accepts (Layout.of book) book) : ∃ idref, Spine.firstLinear other = .ok idref := by
  have hspine := h.spine
  generalize hitems : book.spine = items, hothers : other.spine = others at hspine
  cases hspine with
  | none =>
    obtain ⟨item, hitem⟩ := h.exists_firstEligible haccepts
    exact ⟨item.id, (Spine.firstLinear_eq_ok_iff hothers).mpr ⟨item, hitem, rfl⟩⟩
  | some hperm =>
    obtain ⟨item, hitem, hlinear⟩ := (Spine.exists_firstLinear_iff hitems).mp haccepts.has_linear
    exact (Spine.exists_firstLinear_iff hothers).mpr ⟨item, hperm.mem_iff.mp hitem, hlinear⟩

/-! ## 3. Both books -/

/-- **If a book is accepted, so is its rearrangement.** -/
theorem accepts (h : book.Rearranged other) (haccepts : Accepts (Layout.of book) book) :
    Accepts (Layout.of other) other := by
  have hpaths : (((Layout.of book).copied book).map (·.2) ++ (Layout.of book).generated).Perm
      (((Layout.of other).copied other).map (·.2) ++ (Layout.of other).generated) := by
    rw [h.generated_eq]
    exact (h.copied_perm.map _).append_right _
  exact {
    paths_valid := fun path hpath => haccepts.paths_valid path (hpaths.mem_iff.mpr hpath)
    paths_distinct := (hpaths.map _).nodup_iff.mp haccepts.paths_distinct
    identifiers_distinct := (h.identifiers_perm.map _).nodup_iff.mp haccepts.identifiers_distinct
    pages_distinct :=
      (((getD_perm_of_rel h.pages).map _).map _).nodup_iff.mp haccepts.pages_distinct
    references_resolve := by
      intro reference hreference
      obtain ⟨path, hpath⟩ :=
        haccepts.references_resolve reference (h.references_perm.mem_iff.mpr hreference)
      obtain ⟨item, hitem, hid, -⟩ := Layout.of_itemPath_eq_ok hpath
      rw [← hid]
      exact Layout.exists_itemPath_of_mem (h.manifest.mem_iff.mp hitem) reference.2
    fallbacks_settle := by
      intro item hitem
      rw [← h.eligible_eq haccepts.manifest_ids_nodup]
      exact haccepts.fallbacks_settle item (h.manifest.mem_iff.mpr hitem)
    has_eligible := h.exists_firstEligible haccepts
    has_linear := h.exists_firstLinear haccepts }

/-- Every item of an accepted book is at the same path in the rearrangement. -/
theorem itemPath_eq (h : book.Rearranged other) (haccepts : Accepts (Layout.of book) book)
    {item : ManifestItem} (hitem : item ∈ book.manifest) (referrer : Referrer) :
    (Layout.of book).itemPath item.id referrer = (Layout.of other).itemPath item.id referrer := by
  rw [haccepts.itemPath_eq hitem, (h.accepts haccepts).itemPath_eq (h.manifest.mem_iff.mp hitem),
    h.directory_eq]

end Book.Rearranged

namespace Validation

/-- **Validation does not look at the order of lists.**  A rearranged recipe is read as a rearranged book;
a rearranged book is accepted exactly if the book is, and then every item is at the same path in both. -/
theorem validate_rearranged {body : Value} {book : Book} (hbook : Book.ofValue body = .ok book) :
    (∀ other, body.Rearranged other →
      ∃ book', Book.ofValue other = .ok book' ∧ book.Rearranged book') ∧
    ∀ other, book.Rearranged other →
      (validate (Layout.of other) other = .ok () ↔ validate (Layout.of book) book = .ok ()) ∧
      (validate (Layout.of book) book = .ok () → ∀ item ∈ book.manifest, ∀ referrer, ∃ path,
        (Layout.of book).itemPath item.id referrer = .ok path ∧
          (Layout.of other).itemPath item.id referrer = .ok path) := by
  refine ⟨fun other hother => Book.exists_ofValue_of_rearranged hother hbook, ?_⟩
  intro other hother
  rw [validate_eq_ok_iff, validate_eq_ok_iff]
  refine ⟨⟨hother.symm.accepts, hother.accepts⟩, ?_⟩
  intro haccepts item hitem referrer
  refine ⟨_, haccepts.itemPath_eq hitem referrer, ?_⟩
  rw [← hother.itemPath_eq haccepts hitem, haccepts.itemPath_eq hitem]

open Spine (drawingBook drawingBook_accepted)

/-- The drawing and the page it falls back to, the drawing first. -/
def drawingFirstBook : Book := { drawingBook with manifest := drawingBook.manifest.reverse }

theorem drawingBook_rearranged : drawingBook.toValue.Rearranged drawingFirstBook.toValue := by
  refine .table fun key => ?_
  by_cases h : key = "manifest"
  · subst h
    exact .inr ⟨by decide, .some (.list (.swap _ _ _))⟩
  · exact .inl (by simp [h, drawingFirstBook])

/-- A fallback may come after the item that names it or before. -/
theorem drawingFirstBook_accepted : Book.ofValue drawingBook.toValue = .ok drawingBook ∧
    ∃ book, Book.ofValue drawingFirstBook.toValue = .ok book ∧
      validate (Layout.of book) book = .ok () ∧
      ∃ path, (Layout.of drawingBook).itemPath "drawing" .manifest = .ok path ∧
        (Layout.of book).itemPath "drawing" .manifest = .ok path := by
  have hread : Book.ofValue drawingBook.toValue = .ok drawingBook := rfl
  obtain ⟨hbodies, hbooks⟩ := validate_rearranged hread
  obtain ⟨book, hbook, hrearranged⟩ := hbodies _ drawingBook_rearranged
  obtain ⟨haccepted, hpaths⟩ := hbooks book hrearranged
  exact ⟨rfl, book, hbook, haccepted.mpr drawingBook_accepted,
    hpaths drawingBook_accepted _ (List.mem_cons_of_mem _ List.mem_cons_self) .manifest⟩

end Validation

end Bindery
