/-
# What validation says about a book

`validate` is a row of checks; `Accepts` is what they say together, each as a property of the book and
its layout (`validate_eq_ok_iff`).  Everything that is proved of accepted books is proved from
`Accepts`.
-/
import Bindery.Proofs.Collision
import Bindery.Proofs.EntryPath.Valid
import Bindery.Proofs.Spine.Fallback
import Bindery.Proofs.Success
import Bindery.Validation

namespace Bindery.Validation

open Text

/-! ## 1. Paths, identifiers and references -/

/-- Paths pass if each may name an entry and no two clash. -/
theorem checkPaths_eq_ok_iff {paths : List String} : checkPaths paths = .ok () ↔
    (∀ path ∈ paths, EntryPath.IsValid path) ∧ (paths.map foldCase).Nodup := by
  simp only [checkPaths, check_bind_eq_ok_iff, forM_eq_ok_iff, mapError_eq_ok_iff,
    EntryPath.check_eq_ok_iff, Collision.checkPaths_eq_ok_iff]

theorem checkIdentifiers_eq_ok_iff {owner : String} {identifiers : List String} :
    checkIdentifiers owner identifiers = .ok () ↔ (identifiers.map foldCase).Nodup := by
  simp only [checkIdentifiers, mapError_eq_ok_iff, Collision.checkIdentifiers_eq_ok_iff]

/-- Who refers to what: the reading order, the guide, the table of contents, the pages and the other
lists. -/
theorem mem_references {book : Book} {idref : String} {referrer : Referrer} :
    (idref, referrer) ∈ references book ↔
      (∃ item ∈ book.spine.getD [], (item.idref, Referrer.spine) = (idref, referrer)) ∨
      (∃ reference ∈ book.guide.getD [], (reference.idref, Referrer.guide) = (idref, referrer)) ∨
      (∃ point ∈ NavTree.pointsAll book.contents,
        (point.idref, Referrer.contents) = (idref, referrer)) ∨
      (∃ page ∈ book.pages.getD [], (page.idref, Referrer.page page.id) = (idref, referrer)) ∨
      ∃ navList ∈ book.navLists.getD [], ∃ target ∈ navList.targets,
        (target.idref, Referrer.navLists) = (idref, referrer) := by
  simp only [references, List.mem_append, List.mem_map, List.mem_flatMap, or_assoc]

theorem checkReferences_eq_ok_iff {layout : Layout} {book : Book} :
    checkReferences layout book = .ok () ↔
      (∀ reference ∈ references book, ∃ path, layout.itemPath reference.1 reference.2 = .ok path) ∧
        ∀ item ∈ book.manifest, ∃ b, Spine.eligible book item = .ok b := by
  simp only [checkReferences, check_bind_eq_ok_iff, forM_eq_ok_iff, discard_eq_ok_iff]

/-! ## 2. The whole book -/

/-- What is true of a book that passes validation. -/
structure Accepts (layout : Layout) (book : Book) : Prop where
  paths_valid : ∀ path ∈ (layout.copied book).map (·.2) ++ layout.generated, EntryPath.IsValid path
  paths_distinct : (((layout.copied book).map (·.2) ++ layout.generated).map foldCase).Nodup
  identifiers_distinct : ((layout.identifiers book).map foldCase).Nodup
  pages_distinct : (((book.pages.getD []).map (·.id)).map foldCase).Nodup
  references_resolve : ∀ reference ∈ references book,
    ∃ path, layout.itemPath reference.1 reference.2 = .ok path
  fallbacks_settle : ∀ item ∈ book.manifest, ∃ b, Spine.eligible book item = .ok b
  has_eligible : ∃ item, Spine.firstEligible book = .ok item
  has_linear : ∃ idref, Spine.firstLinear book = .ok idref

/-- **Validation accepts the books with these properties and no others.** -/
theorem validate_eq_ok_iff {layout : Layout} {book : Book} :
    validate layout book = .ok () ↔ Accepts layout book := by
  simp only [validate, check_bind_eq_ok_iff, checkPaths_eq_ok_iff, checkIdentifiers_eq_ok_iff,
    checkReferences_eq_ok_iff, discard_eq_ok_iff]
  constructor
  · rintro ⟨⟨hvalid, hdistinct⟩, hidentifiers, hpages, ⟨hreferences, hfallbacks⟩, heligible,
      hlinear⟩
    exact ⟨hvalid, hdistinct, hidentifiers, hpages, hreferences, hfallbacks, heligible, hlinear⟩
  · intro h
    exact ⟨⟨h.paths_valid, h.paths_distinct⟩, h.identifiers_distinct, h.pages_distinct,
      ⟨h.references_resolve, h.fallbacks_settle⟩, h.has_eligible, h.has_linear⟩

/-! ## 3. Books of documents -/

theorem firstEligible_of_document {book : Book} {first : ManifestItem} {rest : List ManifestItem}
    (hmanifest : book.manifest = first :: rest) (hfirst : Spine.IsDocument first) :
    Spine.firstEligible book = .ok first := by
  rw [Spine.firstEligible, hmanifest, Spine.firstEligibleOf, Spine.eligible_of_document hfirst]
  rfl

/-- References resolve if each is to an identifier that has a path. -/
theorem resolve_of_lookup {layout : Layout} {book : Book}
    (h : ∀ reference ∈ references book, (layout.itemPaths.lookup reference.1).isSome = true) :
    ∀ reference ∈ references book, ∃ path, layout.itemPath reference.1 reference.2 = .ok path := by
  intro reference hreference
  obtain ⟨path, hpath⟩ := Option.isSome_iff_exists.mp (h reference hreference)
  refine ⟨path, ?_⟩
  rw [Layout.itemPath, hpath]

/-- A book that begins with a document is accepted if its paths and identifiers are, its references
resolve, the fallbacks of its items settle, and something in its reading order is linear. -/
theorem accepts_of_linear {layout : Layout} {book : Book} {first : ManifestItem}
    {rest : List ManifestItem} (hmanifest : book.manifest = first :: rest)
    (hfirst : Spine.IsDocument first)
    (hlinear : ∃ idref, Spine.firstLinear book = .ok idref)
    (hpaths : checkPaths ((layout.copied book).map (·.2) ++ layout.generated) = .ok ())
    (hidentifiers : checkIdentifiers "OPF" (layout.identifiers book) = .ok ())
    (hpages : (((book.pages.getD []).map (·.id)).map foldCase).Nodup)
    (hreferences : ∀ reference ∈ references book,
      ∃ path, layout.itemPath reference.1 reference.2 = .ok path)
    (hfallbacks : ∀ item ∈ rest, ∃ b, Spine.eligible book item = .ok b) : Accepts layout book := by
  obtain ⟨hvalid, hdistinct⟩ := checkPaths_eq_ok_iff.mp hpaths
  exact {
    paths_valid := hvalid
    paths_distinct := hdistinct
    identifiers_distinct := checkIdentifiers_eq_ok_iff.mp hidentifiers
    pages_distinct := hpages
    references_resolve := hreferences
    fallbacks_settle := by
      rw [hmanifest]
      exact List.forall_mem_cons.mpr ⟨⟨true, Spine.eligible_of_document hfirst⟩, hfallbacks⟩
    has_eligible := ⟨first, firstEligible_of_document hmanifest hfirst⟩
    has_linear := hlinear }

/-- The same for a book without a reading order. -/
theorem accepts_of_first {layout : Layout} {book : Book} {first : ManifestItem}
    {rest : List ManifestItem} (hmanifest : book.manifest = first :: rest)
    (hfirst : Spine.IsDocument first) (hspine : book.spine = none)
    (hpaths : checkPaths ((layout.copied book).map (·.2) ++ layout.generated) = .ok ())
    (hidentifiers : checkIdentifiers "OPF" (layout.identifiers book) = .ok ())
    (hpages : (((book.pages.getD []).map (·.id)).map foldCase).Nodup)
    (hreferences : ∀ reference ∈ references book,
      ∃ path, layout.itemPath reference.1 reference.2 = .ok path)
    (hfallbacks : ∀ item ∈ rest, ∃ b, Spine.eligible book item = .ok b) : Accepts layout book := by
  have hlinear : Spine.firstLinear book = .ok first.id := by
    simp [Spine.firstLinear, Spine.entries, hspine, firstEligible_of_document hmanifest hfirst]
    rfl
  exact accepts_of_linear hmanifest hfirst ⟨first.id, hlinear⟩ hpaths hidentifiers hpages
    hreferences hfallbacks

/-- The same for a book without pages and references. -/
theorem accepts_of_document {layout : Layout} {book : Book} {first : ManifestItem}
    {rest : List ManifestItem} (hmanifest : book.manifest = first :: rest)
    (hfirst : Spine.IsDocument first) (hspine : book.spine = none)
    (hpaths : checkPaths ((layout.copied book).map (·.2) ++ layout.generated) = .ok ())
    (hidentifiers : checkIdentifiers "OPF" (layout.identifiers book) = .ok ())
    (hpages : book.pages = none) (hreferences : references book = [])
    (hfallbacks : ∀ item ∈ rest, ∃ b, Spine.eligible book item = .ok b) : Accepts layout book :=
  accepts_of_first hmanifest hfirst hspine hpaths hidentifiers (by simp [hpages])
    (by simp [hreferences]) hfallbacks

/-- A book of one page, packed together with a directory of images. -/
def pageBook : Book where
  manifest := [
    { source := "page.xhtml", path := "page.xhtml", mediaType := "application/xhtml+xml",
      id := "page" }]
  extraFiles := [{ source := "images", path := "images" }]

theorem pageBook_accepted : Accepts (Layout.of pageBook) pageBook :=
  accepts_of_document rfl (by decide) rfl (checkPaths_eq_ok_iff.mpr (by decide +kernel))
    (checkIdentifiers_eq_ok_iff.mpr (by decide +kernel)) rfl rfl (by simp)

end Bindery.Validation
