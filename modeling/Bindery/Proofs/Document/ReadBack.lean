/-
# The documents are read back

The names in the three documents are fixed, and what a recipe fills in stands in values and texts only.
So every element of a document has names for its names (`wellNamed_element` of each document), and a
document that is written is read as the tree that was built for it, whatever the texts of the recipe are
(`readsBack_text`).
-/
import Bindery.Proofs.Document.Navigation
import Bindery.Proofs.Document.Package
import Bindery.Proofs.Xml.RoundTrip

namespace Bindery.Document

open Xml

variable {book : Book} {layout : Layout} {metadata : Metadata}

/-! ## 1. The container document -/

namespace Container

theorem wellNamed_rootfileElement (rootfile : Rootfile) : (rootfileElement rootfile).WellNamed :=
  .branch (.of_sublist ["full-path", "media-type"] (by decide) (by decide) (.refl _))
    fun _ h => nomatch h

theorem wellNamed_element (book : Book) (listsDefaultPackage : Bool) :
    (element book listsDefaultPackage).WellNamed := by
  refine .branch (.of_sublist ["xmlns", "version"] (by decide) (by decide) (.refl _)) ?_
  rw [List.forall_mem_singleton]
  refine .branch (.of_sublist [] (by decide) (by decide) (.refl _)) ?_
  exact List.forall_mem_map.mpr fun rootfile _ => wellNamed_rootfileElement rootfile

theorem readsBack_text (hbook : book.LegalParts) (listsDefaultPackage : Bool) :
    ReadsBack (text book listsDefaultPackage) (element book listsDefaultPackage) :=
  readsBack_document (wellNamed_element book listsDefaultPackage) (legal_element hbook)

end Container

/-! ## 2. The package document -/

namespace Package

theorem keys_optionalAttribute (name : String) (value : Option String) :
    ((optionalAttribute name value).map (·.name)).Sublist [name] := by
  cases value with
  | none => exact List.nil_sublist _
  | some value => exact .refl _

theorem keys_idAttribute (id : Option String) :
    ((idAttribute id).map (·.name)).Sublist ["id"] := by
  unfold idAttribute
  cases id.filter (· ≠ "") with
  | none => exact List.nil_sublist _
  | some value => exact .refl _

/-- The attributes that qualifiers give have their names, in their order. -/
theorem keys_filterMap_attribute? : ∀ qualifiers : List Qualifier,
    ((qualifiers.filterMap Qualifier.attribute?).map (·.name)).Sublist (qualifiers.map (·.name))
  | [] => .refl _
  | qualifier :: rest => by
    have ih := keys_filterMap_attribute? rest
    rw [List.filterMap_cons]
    split
    · exact ih.cons _
    · rename_i item hitem
      unfold Qualifier.attribute? at hitem
      split at hitem
      · obtain ⟨value, -, rfl⟩ := Option.map_eq_some_iff.mp hitem
        exact ih.cons_cons _
      · cases hitem

/-- A recipe chooses among the attributes of a statement, but not their names. -/
theorem wellNamed_metadatumElement (item : Metadatum) : (metadatumElement item).WellNamed := by
  cases item with
  | custom name content =>
    exact .branch (.of_sublist ["name", "content"] (by decide) (by decide) (.refl _))
      fun _ h => nomatch h
  | core statement =>
    refine .leaf (.of_sublist
      ["id", "opf:scheme", "opf:file-as", "opf:role", "opf:event", "xml:lang"] ?_ (by decide) ?_)
    · cases statement.element <;> decide
    · rw [List.map_append]
      exact (keys_idAttribute statement.id).append (keys_filterMap_attribute? (qualifiers statement))

theorem wellNamed_metadataElement (metadata : Metadata) :
    (metadataElement metadata).WellNamed :=
  .branch (.of_sublist ["xmlns:dc", "xmlns:opf"] (by decide) (by decide) (.refl _))
    (List.forall_mem_map.mpr fun item _ => wellNamed_metadatumElement item)

theorem wellNamed_navigationItemTo (layout : Layout) (href : String) :
    (navigationItemTo layout href).WellNamed :=
  .branch (.of_sublist ["id", "href", "media-type"] (by decide) (by decide) (.refl _))
    fun _ h => nomatch h

/-- An item leaves out the attributes that it has no values for, and keeps the order of the others. -/
theorem wellNamed_itemTo (item : ManifestItem) (href : String) : (itemTo item href).WellNamed := by
  refine .branch (.of_sublist ["id", "href", "media-type", "fallback", "fallback-style",
    "required-namespace", "required-modules"] (by decide) (by decide) ?_) fun _ h => nomatch h
  simp only [List.map_append]
  have hfallback := keys_optionalAttribute "fallback" item.fallback
  have hstyle := keys_optionalAttribute "fallback-style" item.fallbackStyle
  have hnamespace := keys_optionalAttribute "required-namespace" item.requiredNamespace
  have hmodules := keys_optionalAttribute "required-modules" item.requiredModules
  exact ((((List.Sublist.refl ["id", "href", "media-type"]).append hfallback).append hstyle).append
    hnamespace).append hmodules

theorem wellNamed_manifestElement {element : Element} (h : manifestElement layout book = .ok element) :
    element.WellNamed := by
  obtain ⟨navigation, items, hnavigation, hitems, rfl⟩ := manifestElement_eq_ok_iff.mp h
  obtain ⟨href, -, rfl⟩ := navigationItem_eq_ok_iff.mp hnavigation
  refine .branch (.of_sublist [] (by decide) (by decide) (.refl _)) ?_
  refine List.forall_mem_cons.mpr ⟨wellNamed_navigationItemTo layout href, fun child hchild => ?_⟩
  obtain ⟨item, -, hok⟩ := exists_of_mem_mapM hitems hchild
  obtain ⟨path, -, link, -, rfl⟩ := itemElement_eq_ok_iff.mp hok
  exact wellNamed_itemTo item link

theorem wellNamed_itemref (entry : Spine.Entry) : (itemref entry).WellNamed := by
  refine .branch (.of_sublist ["idref", "linear"] (by decide) (by decide) ?_) fun _ h => nomatch h
  split
  · exact .refl _
  · exact List.prefix_append ["idref"] ["linear"] |>.sublist

theorem wellNamed_spineElement {element : Element} (h : spineElement layout book = .ok element) :
    element.WellNamed := by
  obtain ⟨entries, -, -, rfl⟩ := spineElement_eq_ok_iff.mp h
  exact .branch (.of_sublist ["toc"] (by decide) (by decide) (.refl _))
    (List.forall_mem_map.mpr fun entry _ => wellNamed_itemref entry)

theorem wellNamed_referenceTo (reference : GuideReference) (href : String) :
    (referenceTo reference href).WellNamed := by
  refine .branch (.of_sublist ["type", "title", "href"] (by decide) (by decide) ?_)
    fun _ h => nomatch h
  have htitle := keys_optionalAttribute "title" reference.title
  simp only [List.map_append, List.map_cons]
  exact ((List.Sublist.refl ["type"]).append htitle).append (.refl ["href"])

theorem wellNamed_guideElement {elements : List Element}
    (h : guideElement layout book = .ok elements) : ∀ element ∈ elements, element.WellNamed := by
  rcases of_guideElement_eq_ok h with rfl | ⟨references, hreferences, rfl⟩
  · exact fun _ h => nomatch h
  · rw [List.forall_mem_singleton]
    refine .branch (.of_sublist [] (by decide) (by decide) (.refl _)) fun child hchild => ?_
    obtain ⟨reference, -, hok⟩ := exists_of_mem_mapM hreferences hchild
    obtain ⟨href, -, rfl⟩ := referenceElement_eq_ok_iff.mp hok
    exact wellNamed_referenceTo reference href

theorem wellNamed_element {root : Element} (h : element layout book metadata = .ok root) :
    root.WellNamed := by
  obtain ⟨manifest, spine, guide, hmanifest, hspine, hguide, rfl⟩ := of_element_eq_ok h
  refine .branch (.of_sublist ["xmlns", "version", "unique-identifier"] (by decide) (by decide)
    (.refl _)) ?_
  simp only [List.forall_mem_cons]
  exact ⟨wellNamed_metadataElement metadata, wellNamed_manifestElement hmanifest,
    wellNamed_spineElement hspine, wellNamed_guideElement hguide⟩

theorem readsBack_text (hbook : book.LegalParts) {text : String}
    (h : Package.text (Layout.of book) book metadata = .ok text) :
    ∃ root, element (Layout.of book) book metadata = .ok root ∧ ReadsBack text root := by
  obtain ⟨root, hroot, rfl⟩ := map_eq_ok_iff.mp h
  exact ⟨root, hroot, readsBack_document (wellNamed_element hroot) (legal_of_element hbook hroot)⟩

end Package

/-! ## 3. The navigation document -/

namespace Navigation

theorem wellNamed_labelElement (label : NavLabel) : (labelElement label).WellNamed := by
  refine .branch (.of_sublist ["xml:lang"] (by decide) (by decide) ?_) ?_
  · cases label.lang with
    | none => exact List.nil_sublist _
    | some lang => exact .refl _
  · rw [List.forall_mem_singleton]
    exact .leaf (.of_sublist [] (by decide) (by decide) (.refl _))

theorem wellNamed_targetChildren (target : Target) :
    ∀ child ∈ targetChildren target, child.WellNamed := by
  rw [targetChildren, List.forall_mem_append, List.forall_mem_singleton]
  refine ⟨List.forall_mem_map.mpr fun label _ => wellNamed_labelElement label, ?_⟩
  exact .branch (.of_sublist ["src"] (by decide) (by decide) (.refl _)) fun _ h => nomatch h

mutual

theorem wellNamed_entryElement : ∀ entry : Entry, (entryElement entry).WellNamed
  | .node target children => by
    rw [entryElement]
    refine .branch (.of_sublist ["id", "playOrder"] (by decide) (by decide) (.refl _)) ?_
    exact List.forall_mem_append.mpr ⟨wellNamed_targetChildren target, wellNamed_entryElements children⟩

theorem wellNamed_entryElements : ∀ entries : List Entry,
    ∀ element ∈ entryElements entries, element.WellNamed
  | [] => by
    rw [entryElements]
    exact fun _ h => nomatch h
  | entry :: rest => by
    rw [entryElements, List.forall_mem_cons]
    exact ⟨wellNamed_entryElement entry, wellNamed_entryElements rest⟩

end

theorem wellNamed_pageElement (page : Page) : (pageElement page).WellNamed := by
  refine .branch (.of_sublist ["id", "type", "value", "playOrder"] (by decide) (by decide) ?_)
    (wellNamed_targetChildren page.target)
  simp only [List.map_append]
  have hvalue : (((page.value.map (Attribute.mk "value")).toList).map (·.name)).Sublist ["value"] := by
    cases page.value with
    | none => exact List.nil_sublist _
    | some value => exact .refl _
  exact ((List.Sublist.refl ["id", "type"]).append hvalue).append (.refl ["playOrder"])

theorem wellNamed_listElement (targetList : TargetList) : (listElement targetList).WellNamed := by
  refine .branch (.of_sublist [] (by decide) (by decide) (.refl _)) ?_
  refine List.forall_mem_append.mpr ⟨?_, ?_⟩
  · exact List.forall_mem_map.mpr fun label _ => wellNamed_labelElement label
  · refine List.forall_mem_map.mpr fun target _ => ?_
    exact .branch (.of_sublist ["id", "playOrder"] (by decide) (by decide) (.refl _))
      (wellNamed_targetChildren target)

theorem wellNamed_pageListElement (pages : Option (List Page)) :
    ∀ element ∈ pageListElement pages, element.WellNamed := by
  cases pages with
  | none => exact fun _ h => nomatch h
  | some pages =>
    rw [pageListElement, Option.map_some, Option.toList_some, List.forall_mem_singleton]
    exact .branch (.of_sublist [] (by decide) (by decide) (.refl _))
      (List.forall_mem_map.mpr fun page _ => wellNamed_pageElement page)

theorem wellNamed_metaElement (name content : String) : (metaElement name content).WellNamed :=
  .branch (.of_sublist ["name", "content"] (by decide) (by decide) (.refl _)) fun _ h => nomatch h

theorem wellNamed_headElement (identifier : String) (depth pageCount maxPage : Nat) :
    (headElement identifier depth pageCount maxPage).WellNamed := by
  refine .branch (.of_sublist [] (by decide) (by decide) (.refl _)) ?_
  simp only [List.forall_mem_cons]
  exact ⟨wellNamed_metaElement _ _, wellNamed_metaElement _ _, wellNamed_metaElement _ _,
    wellNamed_metaElement _ _, fun _ h => nomatch h⟩

/-- A navigation document has names for its names if its head has. -/
theorem wellNamed_rootOf {head : Element} (hhead : head.WellNamed) (title : String)
    (targets : Targets) : (rootOf head title targets).WellNamed := by
  refine .branch (.of_sublist ["xmlns", "version"] (by decide) (by decide) (.refl _)) ?_
  simp only [List.forall_mem_append, List.forall_mem_cons]
  refine ⟨⟨⟨hhead, ?_, ?_, fun _ h => nomatch h⟩, wellNamed_pageListElement targets.pages⟩, ?_⟩
  · refine .branch (.of_sublist [] (by decide) (by decide) (.refl _)) ?_
    rw [List.forall_mem_singleton]
    exact .leaf (.of_sublist [] (by decide) (by decide) (.refl _))
  · exact .branch (.of_sublist [] (by decide) (by decide) (.refl _))
      (wellNamed_entryElements targets.contents)
  · exact List.forall_mem_map.mpr fun targetList _ => wellNamed_listElement targetList

theorem wellNamed_element {firstLinear : String} {root : Element}
    (h : element layout book metadata firstLinear = .ok root) : root.WellNamed := by
  obtain ⟨maxPage, targets, -, -, -, rfl⟩ := element_eq_ok_iff.mp h
  exact wellNamed_rootOf (wellNamed_headElement _ _ _ _) _ _

theorem readsBack_text (hbook : book.LegalParts) (htitle : isLegalText metadata.title = true)
    {firstLinear text : String}
    (h : Navigation.text (Layout.of book) book metadata firstLinear = .ok text) :
    ∃ root, element (Layout.of book) book metadata firstLinear = .ok root ∧ ReadsBack text root := by
  obtain ⟨root, hroot, rfl⟩ := map_eq_ok_iff.mp h
  exact ⟨root, hroot,
    readsBack_document (wellNamed_element hroot) (legal_of_element hbook htitle hroot)⟩

end Navigation

end Bindery.Document
