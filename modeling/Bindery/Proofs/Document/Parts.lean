/-
# What stands in the documents

The elements of a name in a document: the facts of the navigation document all stand in its head, the
entries all in its table of contents, and the items of the reading order all in the spine of the package
document.
-/
import Bindery.Proofs.Document.Navigation
import Bindery.Proofs.Document.Package
import Bindery.Proofs.Xml.Query

namespace Bindery.Document

open Xml

/-! ## 1. The container document -/

namespace Container

/-- The rootfiles of a container document are those that it lists. -/
theorem named_element (book : Book) (listsDefaultPackage : Bool) :
    (element book listsDefaultPackage).named "rootfile" =
      (rootfiles book listsDefaultPackage).map rootfileElement := by
  have hfiles : ∀ files : List Rootfile,
      (files.map rootfileElement).flatMap (Element.named "rootfile") =
        files.map rootfileElement := by
    intro files
    rw [List.flatMap_map, List.map_eq_flatMap]
    rfl
  rw [element, Element.named_branch_of_ne (by decide), List.flatMap_singleton,
    Element.named_branch_of_ne (by decide), hfiles]

/-- The first package document that is listed is the one of the layout. -/
theorem find?_rootfiles (book : Book) :
    (rootfiles book (Layout.of book).listsDefaultPackage).find? (·.mediaType == packageMediaType) =
      some ⟨(Layout.of book).packagePath, packageMediaType⟩ := by
  have hlists : (Layout.of book).listsDefaultPackage = (Layout.packageRootfile? book).isNone := rfl
  have hpath : (Layout.of book).packagePath = Layout.packagePathOf book := rfl
  have hmap : ((book.rootfiles.getD []).map fun rootfile =>
      { rootfile with path := EntryPath.normalize rootfile.path }).find?
        (·.mediaType == packageMediaType) =
      (Layout.packageRootfile? book).map fun rootfile =>
        { rootfile with path := EntryPath.normalize rootfile.path } := by
    rw [List.find?_map]
    rfl
  rw [rootfiles, List.find?_append, hmap, hlists, hpath, Layout.packagePathOf]
  cases hfound : Layout.packageRootfile? book with
  | none => rfl
  | some rootfile =>
    have htype := List.find?_some hfound
    rw [Option.map_some, Option.some_or, ← beq_iff_eq.mp htype]

end Container

/-! ## 2. The package document -/

namespace Package

variable {book : Book} {layout : Layout} {metadata : Metadata} {key : String}

/-- Metadata hold statements and custom items only. -/
theorem named_metadataElement (hkey : key ∉ "opf:metadata" :: "opf:meta" ::
    DublinCore.all.map fun element => "dc:" ++ element.name) :
    (metadataElement metadata).named key = [] := by
  simp only [List.mem_cons, not_or] at hkey
  obtain ⟨hmetadata, hmeta, hcore⟩ := hkey
  rw [metadataElement, Element.named_branch_of_ne (Ne.symm hmetadata), List.flatMap_map,
    List.flatMap_eq_nil_iff]
  intro item _
  cases item with
  | custom name content => exact Element.named_branch_of_ne (Ne.symm hmeta)
  | core statement =>
    refine Element.named_leaf_of_ne fun heq => hcore (List.mem_map.mpr ⟨statement.element, ?_, heq⟩)
    cases statement.element <;> decide

/-- A manifest holds items only. -/
theorem named_manifestElement (hkey : key ∉ ["manifest", "item"]) {element : Element}
    (h : manifestElement layout book = .ok element) : element.named key = [] := by
  simp only [List.mem_cons, List.not_mem_nil, or_false, not_or] at hkey
  obtain ⟨hmanifest, hitem⟩ := hkey
  obtain ⟨navigation, items, hnavigation, hitems, rfl⟩ := manifestElement_eq_ok_iff.mp h
  rw [Element.named_branch_of_ne (Ne.symm hmanifest), List.flatMap_eq_nil_iff]
  refine List.forall_mem_cons.mpr ⟨?_, fun child hchild => ?_⟩
  · obtain ⟨href, -, rfl⟩ := navigationItem_eq_ok_iff.mp hnavigation
    exact Element.named_branch_of_ne (Ne.symm hitem)
  · obtain ⟨item, -, hok⟩ := exists_of_mem_mapM hitems hchild
    obtain ⟨path, -, href, -, rfl⟩ := itemElement_eq_ok_iff.mp hok
    exact Element.named_branch_of_ne (Ne.symm hitem)

/-- A guide holds references only. -/
theorem named_guideElement (hkey : key ∉ ["guide", "reference"]) {elements : List Element}
    (h : guideElement layout book = .ok elements) :
    elements.flatMap (Element.named key) = [] := by
  simp only [List.mem_cons, List.not_mem_nil, or_false, not_or] at hkey
  obtain ⟨hguide, hreference⟩ := hkey
  rcases of_guideElement_eq_ok h with rfl | ⟨references, hreferences, rfl⟩
  · rfl
  · rw [List.flatMap_singleton, Element.named_branch_of_ne (Ne.symm hguide),
      List.flatMap_eq_nil_iff]
    intro child hchild
    obtain ⟨reference, -, hok⟩ := exists_of_mem_mapM hreferences hchild
    obtain ⟨href, -, rfl⟩ := referenceElement_eq_ok_iff.mp hok
    exact Element.named_branch_of_ne (Ne.symm hreference)

/-- A reading order holds its items only. -/
theorem named_itemrefs (key : String) (entries : List Spine.Entry) :
    (entries.map itemref).flatMap (Element.named key) =
      if key = "itemref" then entries.map itemref else [] := by
  rw [List.flatMap_map]
  split
  · rename_i heq
    subst heq
    rw [List.map_eq_flatMap]
    rfl
  · rename_i hne
    rw [List.flatMap_eq_nil_iff]
    exact fun entry _ => Element.named_branch_of_ne (Ne.symm hne)

/-- **The reading order of a package document** is in its spine, which names the navigation document. -/
theorem spine_of_element {root : Element} (h : element layout book metadata = .ok root) :
    ∃ entries, Spine.entries book = .ok entries ∧
      (∀ entry ∈ entries, ∃ path, layout.itemPath entry.idref .spine = .ok path) ∧
      root.named "spine" =
        [.branch "spine" [⟨"toc", layout.navigationId⟩] (entries.map itemref)] ∧
      root.named "itemref" = entries.map itemref := by
  obtain ⟨manifest, spine, guide, hmanifest, hspine, hguide, rfl⟩ := of_element_eq_ok h
  obtain ⟨entries, hentries, hpaths, rfl⟩ := spineElement_eq_ok_iff.mp hspine
  have hnamed : ∀ key ∈ ["spine", "itemref"],
      (Element.branch "package" [⟨"xmlns", xmlNamespace⟩, ⟨"version", "2.0"⟩,
        ⟨"unique-identifier", metadata.uniqueId⟩] (metadataElement metadata :: manifest ::
          .branch "spine" [⟨"toc", layout.navigationId⟩] (entries.map itemref) :: guide)).named key =
        (Element.branch "spine" [⟨"toc", layout.navigationId⟩] (entries.map itemref)).named key := by
    intro key hkey
    have hmetadata := (by decide : ∀ key ∈ ["spine", "itemref"], key ∉ "opf:metadata" ::
      "opf:meta" :: DublinCore.all.map fun element => "dc:" ++ element.name) key hkey
    have hothers := (by decide : ∀ key ∈ ["spine", "itemref"], "package" ≠ key ∧
      key ∉ ["manifest", "item"] ∧ key ∉ ["guide", "reference"]) key hkey
    rw [Element.named_branch_of_ne hothers.1, List.flatMap_cons, List.flatMap_cons,
      List.flatMap_cons, named_metadataElement hmetadata,
      named_manifestElement hothers.2.1 hmanifest, named_guideElement hothers.2.2 hguide,
      List.nil_append, List.nil_append, List.append_nil]
  refine ⟨entries, hentries, hpaths, ?_, ?_⟩
  · rw [hnamed _ (by decide), Element.named_branch, named_itemrefs, if_pos BEq.rfl,
      if_neg (by decide), List.append_nil]
  · rw [hnamed _ (by decide), Element.named_branch_of_ne (by decide), named_itemrefs, if_pos rfl]

end Package

/-! ## 3. The navigation document -/

namespace Navigation

variable {key : String}

/-- The names of the elements in a target: its labels and its link. -/
def labelNames : List String := ["navLabel", "text", "content"]

/-- The names of all elements below the table of contents, the page list and the other lists, but for the
entries. -/
def targetNames : List String :=
  ["pageList", "pageTarget", "navList", "navTarget", "navLabel", "text", "content"]

theorem name_ne {names : List String} (hkey : key ∉ names) {name : String} (h : name ∈ names) :
    name ≠ key := by
  rintro rfl
  exact hkey h

section Labels

variable (hkey : key ∉ labelNames)

include hkey

theorem named_labelElement (label : NavLabel) : (labelElement label).named key = [] := by
  rw [labelElement, Element.named_branch_of_ne (name_ne hkey (by decide)), List.flatMap_singleton,
    Element.named_leaf_of_ne (name_ne hkey (by decide))]

theorem named_labels (labels : List NavLabel) :
    (labels.map labelElement).flatMap (Element.named key) = [] := by
  rw [List.flatMap_map, List.flatMap_eq_nil_iff]
  exact fun label _ => named_labelElement hkey label

/-- Labels and links hold nothing but texts. -/
theorem named_targetChildren (target : Target) :
    (targetChildren target).flatMap (Element.named key) = [] := by
  rw [targetChildren, List.flatMap_append, named_labels hkey, List.flatMap_singleton,
    Element.named_branch_of_ne (name_ne hkey (by decide))]
  rfl

end Labels

theorem named_listElement (hkey : key ∉ "navList" :: "navTarget" :: labelNames)
    (targetList : TargetList) : (listElement targetList).named key = [] := by
  have hlabels : key ∉ labelNames :=
    List.not_mem_of_not_mem_cons (List.not_mem_of_not_mem_cons hkey)
  have htargets : (targetList.targets.map listTargetElement).flatMap (Element.named key) = [] := by
    rw [List.flatMap_map, List.flatMap_eq_nil_iff]
    intro target _
    rw [listTargetElement, Element.named_branch_of_ne (name_ne hkey (by decide)),
      named_targetChildren hlabels]
  rw [listElement, Element.named_branch_of_ne (name_ne hkey (by decide)), List.flatMap_append,
    named_labels hlabels, htargets]
  rfl

theorem named_lists (hkey : key ∉ "navList" :: "navTarget" :: labelNames)
    (lists : List TargetList) : (lists.map listElement).flatMap (Element.named key) = [] := by
  rw [List.flatMap_map, List.flatMap_eq_nil_iff]
  exact fun targetList _ => named_listElement hkey targetList

section Targets

variable (hkey : key ∉ targetNames)

include hkey

theorem named_pageListElement (pages : Option (List Page)) :
    (pageListElement pages).flatMap (Element.named key) = [] := by
  have hlabels : key ∉ labelNames := fun h =>
    hkey ((by decide : ∀ name ∈ labelNames, name ∈ targetNames) key h)
  cases pages with
  | none => rfl
  | some pages =>
    have hpages : (pages.map pageElement).flatMap (Element.named key) = [] := by
      rw [List.flatMap_map, List.flatMap_eq_nil_iff]
      intro page _
      rw [pageElement, Element.named_branch_of_ne (name_ne hkey (by decide)),
        named_targetChildren hlabels]
    rw [pageListElement, Option.map_some, Option.toList_some, List.flatMap_singleton,
      Element.named_branch_of_ne (name_ne hkey (by decide)), hpages]

/-- Elements of another name stand in the head or in the table of contents. -/
theorem named_rootOf {head : Element} {title : String} {targets : Targets}
    (hroot : key ∉ ["ncx", "docTitle", "navMap"]) :
    (rootOf head title targets).named key =
      head.named key ++ (entryElements targets.contents).flatMap (Element.named key) := by
  have hlists := named_lists (fun h => hkey ((by decide : ∀ name ∈ "navList" :: "navTarget" ::
    labelNames, name ∈ targetNames) key h)) targets.lists
  simp only [List.mem_cons, List.not_mem_nil, or_false, not_or] at hroot
  obtain ⟨hncx, htitle, hmap⟩ := hroot
  rw [rootOf, Element.named_branch_of_ne (Ne.symm hncx), List.flatMap_append, List.flatMap_append,
    named_pageListElement hkey, hlists, List.append_nil, List.append_nil, List.flatMap_cons,
    List.flatMap_cons, List.flatMap_singleton, Element.named_branch_of_ne (Ne.symm htitle),
    List.flatMap_singleton, Element.named_leaf_of_ne (name_ne hkey (by decide)),
    Element.named_branch_of_ne (Ne.symm hmap), List.nil_append]

end Targets

mutual

/-- Below an entry stand entries, labels and links. -/
theorem named_entryElement (hkey : key ∉ labelNames) (hentry : "navPoint" ≠ key) :
    ∀ entry : Entry, (entryElement entry).named key = []
  | .node target children => by
    rw [entryElement, Element.named_branch_of_ne hentry, List.flatMap_append,
      named_targetChildren hkey, named_entryElements hkey hentry children]
    rfl

theorem named_entryElements (hkey : key ∉ labelNames) (hentry : "navPoint" ≠ key) :
    ∀ entries : List Entry, (entryElements entries).flatMap (Element.named key) = []
  | [] => by
    rw [entryElements, List.flatMap_nil]
  | entry :: rest => by
    rw [entryElements, List.flatMap_cons, named_entryElement hkey hentry entry,
      named_entryElements hkey hentry rest]
    rfl

end

/-- A table of contents of one entry has one element of that name, its own. -/
theorem named_entryElements_singleton (made : Target) :
    (entryElements [.node made []]).flatMap (Element.named "navPoint") =
      [entryElement (.node made [])] := by
  have hbelow : (targetChildren made ++ entryElements []).flatMap (Element.named "navPoint") = [] := by
    rw [entryElements, List.append_nil, named_targetChildren (by decide)]
  rw [entryElements, entryElements, List.flatMap_singleton, entryElement, Element.named_branch,
    if_pos BEq.rfl, hbelow, List.append_nil]

/-- How a table of contents of one entry is numbered. -/
theorem of_numberForest_singleton {layout : Layout} {point : NavPoint} {entries : List Entry}
    {before after : Numbering}
    (h : numberForest layout [.node point []] before = .ok (entries, after)) :
    ∃ made, entries = [.node made []] ∧ made.labels = point.label.labels ∧
      linkTo layout point.idref point.fragment .contents = .ok made.link := by
  simp only [numberForest, numberTree, counting_bind_eq_ok_iff, counting_pure_eq_ok_iff] at h
  obtain ⟨entry, numbered, ⟨made, between, hmade, below, stop, ⟨rfl, -⟩, rfl, -⟩, rest, last, ⟨rfl, -⟩,
    rfl, -⟩ := h
  obtain ⟨hlabels, hlink, -⟩ := of_target_eq_ok hmade
  exact ⟨made, rfl, hlabels, hlink⟩

theorem named_headElement (identifier : String) (depth pageCount maxPage : Nat) :
    (headElement identifier depth pageCount maxPage).named "meta" =
      [metaElement "dtb:uid" identifier, metaElement "dtb:depth" (toString depth),
        metaElement "dtb:totalPageCount" (toString pageCount),
        metaElement "dtb:maxPageNumber" (toString maxPage)] := rfl

/-- One fact of a navigation document is its identifier. -/
theorem uid_element {book : Book} {layout : Layout} {metadata : Metadata} {firstLinear : String}
    {root : Element} (h : element layout book metadata firstLinear = .ok root) :
    (root.named "meta").filter (·.attribute? "name" == some "dtb:uid") =
      [metaElement "dtb:uid" metadata.identifier] := by
  obtain ⟨maxPage, targets, -, -, -, rfl⟩ := element_eq_ok_iff.mp h
  rw [named_rootOf (by decide) (by decide), named_entryElements (by decide) (by decide), headOf,
    named_headElement]
  rfl

end Navigation
end Bindery.Document
