/-
# The container and the package document can be written

Each part of a package document is an element with fixed names that is filled in from the recipe once
its lookups have succeeded (`Package.element_eq_ok_iff`, and one such lemma for each part).  What it
takes over from a book is legal, and its head is checked before it is written, so all that is written
is legal (`Package.legal_of_element`).  Nothing is left that could stop the package document of an
accepted book: every path that it looks up is there, and every link can be written
(`Package.exists_element`).  The container document has no lookups and only needs legal texts.
-/
import Bindery.Document.Container
import Bindery.Document.Package
import Bindery.Proofs.Layout.Legal
import Bindery.Proofs.Metadata

namespace Bindery.Document

open Xml

variable {book : Book}

/-! ## 1. The container document -/

theorem Container.legal_element (hbook : book.LegalParts) {listsDefaultPackage : Bool} :
    (Container.element book listsDefaultPackage).isLegal = true := by
  have hrootfiles : ∀ rootfile ∈ rootfiles book listsDefaultPackage,
      isLegalText rootfile.path = true ∧ isLegalText rootfile.mediaType = true := by
    intro rootfile hrootfile
    rcases List.mem_append.mp hrootfile with hmem | hmem
    · obtain ⟨listed, hlisted, rfl⟩ := List.mem_map.mp hmem
      obtain ⟨hpath, htype⟩ := allLegal_cons.mp (hbook.rootfiles listed hlisted)
      exact ⟨EntryPath.legal_normalize hpath, by simpa using htype⟩
    · split at hmem
      · rw [List.mem_singleton.mp hmem]
        exact ⟨by decide, by decide⟩
      · cases hmem
  have helements : ∀ element ∈ (rootfiles book listsDefaultPackage).map rootfileElement,
      element.isLegal = true := by
    intro element helement
    obtain ⟨rootfile, hrootfile, rfl⟩ := List.mem_map.mp helement
    simpa [rootfileElement, Element.isLegal_branch] using hrootfiles rootfile hrootfile
  have hnamespace : isLegalText xmlNamespace = true := by decide
  have hversion : isLegalText "1.0" = true := by decide
  rw [element, Element.isLegal_branch]
  refine ⟨by simp [hnamespace, hversion], ?_⟩
  intro child hchild
  rw [List.mem_singleton.mp hchild, Element.isLegal_branch]
  exact ⟨by simp, helements⟩

namespace Package

/-! ## 2. What is written -/

section Written

variable {layout : Layout}

/-- The item of the navigation document, with a link to it. -/
def navigationItemTo (layout : Layout) (href : String) : Element :=
  .branch "item"
    [⟨"id", layout.navigationId⟩, ⟨"href", href⟩, ⟨"media-type", navigationMediaType⟩] []

/-- An item of the manifest, with a link to it. -/
def itemTo (item : ManifestItem) (href : String) : Element :=
  .branch "item"
    ([⟨"id", item.id⟩, ⟨"href", href⟩, ⟨"media-type", item.mediaType⟩] ++
      optionalAttribute "fallback" item.fallback ++
      optionalAttribute "fallback-style" item.fallbackStyle ++
      optionalAttribute "required-namespace" item.requiredNamespace ++
      optionalAttribute "required-modules" item.requiredModules) []

/-- An item of the reading order as it is written. -/
def itemref (entry : Spine.Entry) : Element :=
  .branch "itemref"
    (⟨"idref", entry.idref⟩ :: if entry.linear = some false then [⟨"linear", "no"⟩] else []) []

/-- A reference of the guide, with its link. -/
def referenceTo (reference : GuideReference) (href : String) : Element :=
  .branch "reference"
    (⟨"type", reference.type⟩ :: optionalAttribute "title" reference.title ++ [⟨"href", href⟩]) []

theorem navigationItem_eq_ok_iff {element : Element} : navigationItem layout = .ok element ↔
    ∃ href, Layout.link layout.packagePath layout.navigationPath = .ok href ∧
      element = navigationItemTo layout href := by
  rw [navigationItem, bind_eq_ok_iff]
  refine exists_congr fun href => and_congr_right fun _ => ?_
  rw [pure_eq_ok_iff, eq_comm, navigationItemTo]

theorem itemElement_eq_ok_iff {item : ManifestItem} {element : Element} :
    itemElement layout item = .ok element ↔
      ∃ path, layout.itemPath item.id .manifest = .ok path ∧
        ∃ href, Layout.link layout.packagePath path = .ok href ∧ element = itemTo item href := by
  rw [itemElement, bind_eq_ok_iff]
  refine exists_congr fun path => and_congr_right fun _ => ?_
  rw [bind_eq_ok_iff]
  refine exists_congr fun href => and_congr_right fun _ => ?_
  rw [pure_eq_ok_iff, eq_comm, itemTo]

theorem manifestElement_eq_ok_iff {element : Element} : manifestElement layout book = .ok element ↔
    ∃ navigation items, navigationItem layout = .ok navigation ∧
      book.manifest.mapM (itemElement layout) = .ok items ∧
      element = .branch "manifest" [] (navigation :: items) := by
  simp only [manifestElement, bind_eq_ok_iff, pure_eq_ok_iff]
  constructor
  · rintro ⟨navigation, hnavigation, items, hitems, rfl⟩
    exact ⟨navigation, items, hnavigation, hitems, rfl⟩
  · rintro ⟨navigation, items, hnavigation, hitems, rfl⟩
    exact ⟨navigation, hnavigation, items, hitems, rfl⟩

theorem itemrefElement_eq_ok_iff {entry : Spine.Entry} {element : Element} :
    itemrefElement layout entry = .ok element ↔
      (∃ path, layout.itemPath entry.idref .spine = .ok path) ∧ element = itemref entry := by
  rw [itemrefElement, bind_eq_ok_iff]
  constructor
  · rintro ⟨path, hpath, h⟩
    exact ⟨⟨path, hpath⟩, (pure_eq_ok_iff.mp h).symm⟩
  · rintro ⟨⟨path, hpath⟩, rfl⟩
    exact ⟨path, hpath, rfl⟩

/-- The reading order is written if it can be worked out and its items are there. -/
theorem spineElement_eq_ok_iff {element : Element} : spineElement layout book = .ok element ↔
    ∃ entries, Spine.entries book = .ok entries ∧
      (∀ entry ∈ entries, ∃ path, layout.itemPath entry.idref .spine = .ok path) ∧
      element = .branch "spine" [⟨"toc", layout.navigationId⟩] (entries.map itemref) := by
  rw [spineElement, bind_eq_ok_iff]
  refine exists_congr fun entries => and_congr_right fun _ => ?_
  simp only [bind_eq_ok_iff, pure_eq_ok_iff]
  constructor
  · rintro ⟨itemrefs, hitemrefs, rfl⟩
    refine ⟨fun entry hentry => ?_, ?_⟩
    · obtain ⟨element, -, hok⟩ := exists_of_mapM_mem hitemrefs hentry
      exact (itemrefElement_eq_ok_iff.mp hok).1
    · have hall : List.Forall₂ (fun entry element => itemref entry = element) entries itemrefs :=
        (mapM_eq_ok_iff.mp hitemrefs).imp fun _ _ h => (itemrefElement_eq_ok_iff.mp h).2.symm
      rw [← List.forall₂_map_left_iff, List.forall₂_eq_eq_eq] at hall
      rw [hall]
  · rintro ⟨hpaths, rfl⟩
    refine ⟨_, mapM_eq_ok_iff.mpr ?_, rfl⟩
    rw [List.forall₂_map_right_iff, List.forall₂_same]
    exact fun entry hentry => itemrefElement_eq_ok_iff.mpr ⟨hpaths entry hentry, rfl⟩

theorem referenceElement_eq_ok_iff {reference : GuideReference} {element : Element} :
    referenceElement layout reference = .ok element ↔
      ∃ href, layout.itemLink layout.packagePath reference.idref reference.fragment .guide =
        .ok href ∧ element = referenceTo reference href := by
  rw [referenceElement, bind_eq_ok_iff]
  refine exists_congr fun href => and_congr_right fun _ => ?_
  rw [pure_eq_ok_iff, eq_comm, referenceTo]

/-- What a guide that is written holds. -/
theorem of_guideElement_eq_ok {elements : List Element} (h : guideElement layout book = .ok elements) :
    elements = [] ∨ ∃ references, (book.guide.getD []).mapM (referenceElement layout) = .ok references ∧
      elements = [.branch "guide" [] references] := by
  unfold guideElement at h
  split at h
  · exact .inl (Except.ok.inj h).symm
  · rename_i references hguide
    obtain ⟨children, hchildren, h⟩ := bind_eq_ok_iff.mp h
    rw [hguide]
    exact .inr ⟨children, hchildren, (pure_eq_ok_iff.mp h).symm⟩

end Written

/-! ## 3. Metadata -/

theorem legal_optionalAttribute {name : String} {value : Option String}
    (h : AllLegal value.toList) :
    ∀ item ∈ optionalAttribute name value, isLegalText item.value = true := by
  cases value with
  | none => simp [optionalAttribute]
  | some text => simpa [optionalAttribute] using h

theorem legal_metadatumElement {item : Metadatum} (h : AllLegal item.texts) :
    (metadatumElement item).isLegal = true := by
  cases item with
  | custom name content =>
    simpa [metadatumElement, Element.isLegal_branch, Metadatum.texts] using h
  | core statement =>
    have hqualifiers : ∀ qualifier ∈ qualifiers statement, AllLegal qualifier.value.toList := by
      intro qualifier hqualifier value hvalue
      refine h value ?_
      simp only [qualifiers, List.mem_cons, List.not_mem_nil, or_false] at hqualifier
      rcases hqualifier with rfl | rfl | rfl | rfl | rfl
      all_goals simp only [Option.mem_toList] at hvalue
      all_goals simp [Metadatum.texts, hvalue]
    rw [metadatumElement, Element.isLegal_leaf]
    refine ⟨fun attr hattr => ?_, h _ (by simp [Metadatum.texts])⟩
    rcases List.mem_append.mp hattr with hattr | hattr
    · simp only [idAttribute, Option.mem_toList, Option.map_eq_some_iff,
        Option.filter_eq_some_iff] at hattr
      obtain ⟨id, ⟨hid, -⟩, rfl⟩ := hattr
      exact h _ (by simp [Metadatum.texts, hid])
    · obtain ⟨qualifier, hqualifier, hsome⟩ := List.mem_filterMap.mp hattr
      unfold Qualifier.attribute? at hsome
      split at hsome
      · obtain ⟨value, hvalue, rfl⟩ := Option.map_eq_some_iff.mp hsome
        exact hqualifiers qualifier hqualifier value (by simp [hvalue])
      · cases hsome

theorem legal_metadataElement {metadata : Metadata}
    (h : ∀ item ∈ metadata.items, AllLegal item.texts) :
    (metadataElement metadata).isLegal = true := by
  have hcore : isLegalText coreNamespace = true := by decide
  have hpackage : isLegalText xmlNamespace = true := by decide
  rw [metadataElement, Element.isLegal_branch]
  refine ⟨by simp [hcore, hpackage], ?_⟩
  intro child hchild
  obtain ⟨item, hitem, rfl⟩ := List.mem_map.mp hchild
  exact legal_metadatumElement (h item hitem)

/-! ## 4. What is written is legal -/

section Legal

variable (hbook : book.LegalParts)

include hbook

theorem legal_navigationItem {element : Element}
    (h : navigationItem (Layout.of book) = .ok element) : element.isLegal = true := by
  obtain ⟨href, hlink, rfl⟩ := navigationItem_eq_ok_iff.mp h
  have hid := Layout.legal_navigationId hbook
  have hhref := Layout.legal_link (Layout.legal_navigationPath hbook) hlink
  have htype : isLegalText navigationMediaType = true := by decide
  simp [navigationItemTo, Element.isLegal_branch, hid, hhref, htype]

theorem legal_itemElement {item : ManifestItem} (hitem : item ∈ book.manifest) {element : Element}
    (h : itemElement (Layout.of book) item = .ok element) : element.isLegal = true := by
  obtain ⟨path, hpath, href, hlink, rfl⟩ := itemElement_eq_ok_iff.mp h
  have hhref := Layout.legal_link (Layout.legal_itemPath hbook hpath) hlink
  have htexts := hbook.items item hitem
  simp only [ManifestItem.texts, allLegal_append, allLegal_cons, given_cons] at htexts
  obtain ⟨⟨-, -, htype, hid, -⟩, hfallback, hstyle, hnamespace, hmodules, -⟩ := htexts
  rw [itemTo, Element.isLegal_branch]
  simp only [List.forall_mem_append, List.forall_mem_cons, List.not_mem_nil, false_implies,
    implies_true, and_true]
  exact ⟨⟨⟨⟨⟨hid, hhref, htype⟩, legal_optionalAttribute hfallback⟩,
    legal_optionalAttribute hstyle⟩, legal_optionalAttribute hnamespace⟩,
    legal_optionalAttribute hmodules⟩

theorem legal_manifestElement {element : Element}
    (h : manifestElement (Layout.of book) book = .ok element) : element.isLegal = true := by
  obtain ⟨navigation, items, hnavigation, hitems, rfl⟩ := manifestElement_eq_ok_iff.mp h
  rw [Element.isLegal_branch, List.forall_mem_cons]
  refine ⟨by simp, legal_navigationItem hbook hnavigation, fun element helement => ?_⟩
  obtain ⟨item, hitem, hok⟩ := exists_of_mem_mapM hitems helement
  exact legal_itemElement hbook hitem hok

/-- Only items of the manifest can stand in the reading order, so their identifiers are legal. -/
theorem legal_itemref {entry : Spine.Entry} {path : String}
    (hpath : (Layout.of book).itemPath entry.idref .spine = .ok path) :
    (itemref entry).isLegal = true := by
  obtain ⟨item, hitem, hid, -⟩ := Layout.of_itemPath_eq_ok hpath
  have hidref : isLegalText entry.idref = true :=
    hid ▸ hbook.items item hitem _ (by simp [ManifestItem.texts])
  have hno : isLegalText "no" = true := by decide
  rw [itemref, Element.isLegal_branch]
  refine ⟨List.forall_mem_cons.mpr ⟨hidref, ?_⟩, by simp⟩
  split
  · simpa using hno
  · simp

theorem legal_spineElement {element : Element}
    (h : spineElement (Layout.of book) book = .ok element) : element.isLegal = true := by
  obtain ⟨entries, -, hpaths, rfl⟩ := spineElement_eq_ok_iff.mp h
  rw [Element.isLegal_branch]
  refine ⟨by simpa using Layout.legal_navigationId hbook, List.forall_mem_map.mpr ?_⟩
  intro entry hentry
  obtain ⟨path, hpath⟩ := hpaths entry hentry
  exact legal_itemref hbook hpath

theorem legal_referenceElement {reference : GuideReference}
    (hreference : reference ∈ book.guide.getD []) {element : Element}
    (h : referenceElement (Layout.of book) reference = .ok element) : element.isLegal = true := by
  obtain ⟨href, hlink, rfl⟩ := referenceElement_eq_ok_iff.mp h
  have htexts := hbook.guide reference hreference
  simp only [GuideReference.texts, allLegal_append, allLegal_cons, given_cons] at htexts
  obtain ⟨⟨htype, -, -⟩, htitle, hfragment, -⟩ := htexts
  have hhref := Layout.legal_itemLink hbook hlink hfragment
  rw [referenceTo, Element.isLegal_branch]
  simp only [List.forall_mem_append, List.forall_mem_cons, List.cons_append, List.not_mem_nil,
    false_implies, implies_true, and_true]
  exact ⟨htype, legal_optionalAttribute htitle, hhref⟩

/-- The guide takes over types, titles and fragments, and links to items. -/
theorem legal_guideElement {elements : List Element}
    (h : guideElement (Layout.of book) book = .ok elements) :
    ∀ element ∈ elements, element.isLegal = true := by
  rcases of_guideElement_eq_ok h with rfl | ⟨references, hreferences, rfl⟩
  · simp
  · rw [List.forall_mem_singleton, Element.isLegal_branch]
    refine ⟨by simp, fun child hchild => ?_⟩
    obtain ⟨reference, hreference, hok⟩ := exists_of_mem_mapM hreferences hchild
    exact legal_referenceElement hbook hreference hok

end Legal

/-! ## 5. Manifest, reading order and guide can be written -/

section Accepted

variable (haccepts : Validation.Accepts (Layout.of book) book)

include haccepts

/-- The navigation document has a valid path, so there is a link to it. -/
theorem exists_navigationItem : ∃ element, navigationItem (Layout.of book) = .ok element := by
  obtain ⟨href, hlink⟩ := Layout.exists_link (Layout.of book).packagePath
    haccepts.navigationPath_valid
  exact ⟨_, navigationItem_eq_ok_iff.mpr ⟨href, hlink, rfl⟩⟩

theorem exists_itemElement (hbook : book.LegalParts) {item : ManifestItem}
    (hitem : item ∈ book.manifest) :
    ∃ element, itemElement (Layout.of book) item = .ok element ∧ element.isLegal = true := by
  have hpath := haccepts.itemPath_eq hitem .manifest
  obtain ⟨href, hlink⟩ := Layout.exists_link (Layout.of book).packagePath
    (haccepts.itemPath_valid hpath)
  obtain ⟨element, hok⟩ : ∃ element, itemElement (Layout.of book) item = .ok element :=
    ⟨_, itemElement_eq_ok_iff.mpr ⟨_, hpath, href, hlink, rfl⟩⟩
  exact ⟨element, hok, legal_itemElement hbook hitem hok⟩

theorem exists_manifestElement (hbook : book.LegalParts) :
    ∃ element, manifestElement (Layout.of book) book = .ok element := by
  obtain ⟨navigation, hnavigation⟩ := exists_navigationItem haccepts
  obtain ⟨items, hitems⟩ := exists_mapM_eq_ok fun item (hitem : item ∈ book.manifest) =>
    (exists_itemElement haccepts hbook hitem).imp fun _ h => h.1
  exact ⟨_, manifestElement_eq_ok_iff.mpr ⟨navigation, items, hnavigation, hitems, rfl⟩⟩

theorem exists_spineElement : ∃ element, spineElement (Layout.of book) book = .ok element := by
  obtain ⟨entries, hentries, hpaths⟩ := haccepts.exists_entries
  exact ⟨_, spineElement_eq_ok_iff.mpr
    ⟨entries, hentries, fun entry hentry => hpaths entry hentry .spine, rfl⟩⟩

theorem exists_guideElement : ∃ elements, guideElement (Layout.of book) book = .ok elements := by
  unfold guideElement
  cases hguide : book.guide with
  | none => exact ⟨[], rfl⟩
  | some references =>
    have hreferences : ∀ reference ∈ references, ∃ element,
        referenceElement (Layout.of book) reference = .ok element := by
      intro reference hreference
      have hmem : (reference.idref, Referrer.guide) ∈ Validation.references book :=
        Validation.mem_references.mpr
          (.inr (.inl ⟨reference, by simpa [hguide] using hreference, rfl⟩))
      obtain ⟨href, hlink⟩ := Layout.exists_itemLink haccepts (Layout.of book).packagePath
        reference.fragment (haccepts.exists_itemPath hmem .guide)
      exact ⟨_, referenceElement_eq_ok_iff.mpr ⟨href, hlink, rfl⟩⟩
    obtain ⟨elements, hmapM⟩ := exists_mapM_eq_ok hreferences
    exact ⟨_, bind_eq_ok_iff.mpr ⟨elements, hmapM, rfl⟩⟩

end Accepted

/-! ## 6. The document -/

/-- **A package document is written** if its head is legal and its parts can be written; then they
stand in it. -/
theorem element_eq_ok_iff {layout : Layout} {metadata : Metadata} {root : Element} :
    element layout book metadata = .ok root ↔
      (isLegalText metadata.uniqueId = true ∧ (metadataElement metadata).isLegal = true) ∧
      ∃ manifest spine guide,
        manifestElement layout book = .ok manifest ∧ spineElement layout book = .ok spine ∧
        guideElement layout book = .ok guide ∧
        root = .branch "package" [⟨"xmlns", xmlNamespace⟩, ⟨"version", "2.0"⟩,
          ⟨"unique-identifier", metadata.uniqueId⟩]
          (metadataElement metadata :: manifest :: spine :: guide) := by
  have hhead : (!isLegalText metadata.uniqueId || !(metadataElement metadata).isLegal) = false ↔
      isLegalText metadata.uniqueId = true ∧ (metadataElement metadata).isLegal = true := by
    simp
  unfold element
  constructor
  · intro h
    by_cases hillegal :
        (!isLegalText metadata.uniqueId || !(metadataElement metadata).isLegal) = true
    · rw [if_pos hillegal] at h
      cases h
    · rw [if_neg hillegal] at h
      obtain ⟨manifest, hmanifest, h⟩ := bind_eq_ok_iff.mp h
      obtain ⟨spine, hspine, h⟩ := bind_eq_ok_iff.mp h
      obtain ⟨guide, hguide, h⟩ := bind_eq_ok_iff.mp h
      exact ⟨hhead.mp (eq_false_of_ne_true hillegal), manifest, spine, guide, hmanifest, hspine,
        hguide, (pure_eq_ok_iff.mp h).symm⟩
  · rintro ⟨hlegal, manifest, spine, guide, hmanifest, hspine, hguide, rfl⟩
    rw [if_neg (ne_true_of_eq_false (hhead.mpr hlegal))]
    exact bind_eq_ok_iff.mpr ⟨manifest, hmanifest, bind_eq_ok_iff.mpr ⟨spine, hspine,
      bind_eq_ok_iff.mpr ⟨guide, hguide, rfl⟩⟩⟩

/-- What stands in a package document that is written. -/
theorem of_element_eq_ok {layout : Layout} {metadata : Metadata} {root : Element}
    (h : element layout book metadata = .ok root) : ∃ manifest spine guide,
      manifestElement layout book = .ok manifest ∧ spineElement layout book = .ok spine ∧
        guideElement layout book = .ok guide ∧
        root = .branch "package" [⟨"xmlns", xmlNamespace⟩, ⟨"version", "2.0"⟩,
          ⟨"unique-identifier", metadata.uniqueId⟩]
          (metadataElement metadata :: manifest :: spine :: guide) :=
  (element_eq_ok_iff.mp h).2

/-- **A package document that is written is legal**, whatever the metadata are. -/
theorem legal_of_element (hbook : book.LegalParts) {metadata : Metadata} {root : Element}
    (h : element (Layout.of book) book metadata = .ok root) : root.isLegal = true := by
  obtain ⟨⟨hunique, hhead⟩, manifest, spine, guide, hmanifest, hspine, hguide, rfl⟩ :=
    element_eq_ok_iff.mp h
  have hnamespace : isLegalText xmlNamespace = true := by decide
  have hversion : isLegalText "2.0" = true := by decide
  rw [Element.isLegal_branch]
  refine ⟨by simp [hnamespace, hversion, hunique], ?_⟩
  simp only [List.forall_mem_cons]
  exact ⟨hhead, legal_manifestElement hbook hmanifest, legal_spineElement hbook hspine,
    legal_guideElement hbook hguide⟩

/-- **The package document of an accepted book can be written**, and all its texts are legal. -/
theorem exists_element (haccepts : Validation.Accepts (Layout.of book) book)
    (hbook : book.LegalParts) {metadata : Metadata}
    (hmetadata : ∀ item ∈ metadata.items, AllLegal item.texts)
    (hunique : isLegalText metadata.uniqueId = true) :
    ∃ root, element (Layout.of book) book metadata = .ok root ∧ root.isLegal = true := by
  obtain ⟨manifest, hmanifest⟩ := exists_manifestElement haccepts hbook
  obtain ⟨spine, hspine⟩ := exists_spineElement haccepts
  obtain ⟨guide, hguide⟩ := exists_guideElement haccepts
  have hok := element_eq_ok_iff.mpr ⟨⟨hunique, legal_metadataElement hmetadata⟩, manifest, spine,
    guide, hmanifest, hspine, hguide, rfl⟩
  exact ⟨_, hok, legal_of_element hbook hok⟩

end Package
end Bindery.Document
