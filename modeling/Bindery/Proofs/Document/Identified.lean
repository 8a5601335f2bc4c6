/-
# The identifiers of the package document

The package document writes the ids of its metadata, that of the navigation document and those of the
items, and no others (`ids_element`).  Validation sees all of them but the one that complete metadata may
have in addition, and that one is made to clash with none of them (`element_ids_nodup`).
-/
import Bindery.Proofs.Document.ReadBack
import Bindery.Proofs.FreshName
import Bindery.Proofs.Xml.Query

namespace Bindery.Document.Package

open Text Xml

variable {book : Book} {layout : Layout} {metadata : Metadata}

/-! ## 1. Identifiers in the elements -/

/-- None of the attributes that qualify a statement is an id. -/
theorem attribute?_qualifiers (statement : Statement) :
    ((qualifiers statement).filterMap Qualifier.attribute?).find? (·.name == "id") = none := by
  rw [List.find?_eq_none]
  intro item hitem heq
  have hkey := (keys_filterMap_attribute? (qualifiers statement)).subset (List.mem_map_of_mem hitem)
  rw [beq_iff_eq.mp heq] at hkey
  revert hkey
  exact (by decide : "id" ∉ ["opf:scheme", "opf:file-as", "opf:role", "opf:event", "xml:lang"])

/-- A statement is written with its id, unless that is empty. -/
theorem attribute?_metadatumElement (statement : Statement) :
    (metadatumElement (.core statement)).attribute? "id" =
      Metadata.writtenId? (.core statement) := by
  have hattributes : (metadatumElement (.core statement)).attributes =
      idAttribute statement.id ++ (qualifiers statement).filterMap Qualifier.attribute? := rfl
  rw [Element.attribute?, hattributes, List.find?_append, attribute?_qualifiers, Option.or_none,
    idAttribute, Metadata.writtenId?]
  cases statement.id.filter (· ≠ "") <;> rfl

theorem ids_metadatumElement (item : Metadatum) :
    (metadatumElement item).ids = (Metadata.writtenId? item).toList := by
  cases item with
  | custom name content => rfl
  | core statement =>
    rw [← attribute?_metadatumElement]
    exact Element.ids_leaf

theorem ids_metadataElement (metadata : Metadata) :
    (metadataElement metadata).ids = metadata.items.filterMap Metadata.writtenId? := by
  rw [metadataElement, Element.ids_branch, List.flatMap_map, List.filterMap_eq_flatMap_toList]
  simp only [ids_metadatumElement]
  rfl

theorem ids_itemElement {item : ManifestItem} {element : Element}
    (h : itemElement layout item = .ok element) : element.ids = [item.id] := by
  obtain ⟨path, -, href, -, rfl⟩ := itemElement_eq_ok_iff.mp h
  exact Element.ids_branch_id

/-- The ids of the items are written in their order. -/
theorem ids_itemElements : ∀ {items : List ManifestItem} {elements : List Element},
    List.Forall₂ (fun item element => itemElement layout item = .ok element) items elements →
      elements.flatMap Element.ids = items.map (·.id)
  | [], _, .nil => rfl
  | item :: items, element :: elements, .cons hitem hrest => by
    rw [List.flatMap_cons, List.map_cons, ids_itemElement hitem, ids_itemElements hrest]
    rfl

theorem ids_manifestElement {element : Element} (h : manifestElement layout book = .ok element) :
    element.ids = layout.navigationId :: book.manifest.map (·.id) := by
  obtain ⟨navigation, items, hnavigation, hitems, rfl⟩ := manifestElement_eq_ok_iff.mp h
  obtain ⟨href, -, rfl⟩ := navigationItem_eq_ok_iff.mp hnavigation
  rw [Element.ids_branch, List.flatMap_cons, ids_itemElements (mapM_eq_ok_iff.mp hitems),
    navigationItemTo, Element.ids_branch_id]
  rfl

theorem ids_spineElement {element : Element} (h : spineElement layout book = .ok element) :
    element.ids = [] := by
  obtain ⟨entries, -, -, rfl⟩ := spineElement_eq_ok_iff.mp h
  have hids : (entries.map itemref).flatMap Element.ids = [] := by
    rw [List.flatMap_map, List.flatMap_eq_nil_iff]
    intro entry _
    rw [itemref, Element.ids_branch, Element.attribute?, Element.attributes]
    split <;> rfl
  rw [Element.ids_branch, hids]
  rfl

theorem ids_guideElement {elements : List Element} (h : guideElement layout book = .ok elements) :
    elements.flatMap Element.ids = [] := by
  rcases of_guideElement_eq_ok h with rfl | ⟨references, hreferences, rfl⟩
  · rfl
  · have hids : references.flatMap Element.ids = [] := by
      rw [List.flatMap_eq_nil_iff]
      intro child hchild
      obtain ⟨reference, -, hok⟩ := exists_of_mem_mapM hreferences hchild
      obtain ⟨href, -, rfl⟩ := referenceElement_eq_ok_iff.mp hok
      rw [referenceTo, Element.ids_branch, Element.attribute?, Element.attributes, optionalAttribute]
      cases reference.title <;> rfl
    rw [List.flatMap_singleton, Element.ids_branch, hids]
    rfl

/-- The identifiers in a package document: those of the metadata, of the navigation document and of the
items. -/
theorem ids_element {root : Element} (h : element layout book metadata = .ok root) :
    root.ids = metadata.items.filterMap Metadata.writtenId? ++
      layout.navigationId :: book.manifest.map (·.id) := by
  obtain ⟨manifest, spine, guide, hmanifest, hspine, hguide, rfl⟩ := of_element_eq_ok h
  rw [Element.ids_branch, List.flatMap_cons, List.flatMap_cons, List.flatMap_cons,
    ids_metadataElement, ids_manifestElement hmanifest, ids_spineElement hspine,
    ids_guideElement hguide, List.append_nil, List.append_nil]
  rfl

/-! ## 2. No two of them clash -/

/-- The ids that validation looks at. -/
theorem identifiers_eq (layout : Layout) (book : Book) : layout.identifiers book =
    book.manifest.map (·.id) ++ [layout.navigationId] ++
      (book.metadata.getD []).filterMap Metadata.writtenId? := by
  rw [Layout.identifiers]
  congr 2

/-- **No two ids of a package document clash**, if the id that may be made up clashes with none that
validation sees. -/
theorem element_ids_nodup {freshId : String} (haccepts : Validation.Accepts layout book)
    (hfresh : freshId ≠ "") (hnew : foldCase freshId ∉ (layout.identifiers book).map foldCase)
    {environment : Environment} {root : Element}
    (h : element layout book (Metadata.resolve environment freshId book.metadata) = .ok root) :
    (root.ids.map foldCase).Nodup := by
  have hdistinct := haccepts.identifiers_distinct
  have hperm : ((book.metadata.getD []).filterMap Metadata.writtenId? ++
      layout.navigationId :: book.manifest.map (·.id)).Perm (layout.identifiers book) := by
    rw [identifiers_eq]
    exact List.perm_append_comm.trans
      ((List.perm_append_singleton _ _).symm.append_right _)
  rw [ids_element h]
  rcases @Metadata.writtenIds_resolve environment freshId book.metadata hfresh
    with hsame | hmore
  · exact (((hsame.append_right _).trans hperm).map foldCase).nodup_iff.mpr hdistinct
  · -- The one id that validation has not seen is the one made up.
    refine ((((hmore.append_right _).trans (hperm.cons freshId))).map foldCase).nodup_iff.mpr ?_
    rw [List.map_cons, List.nodup_cons]
    exact ⟨hnew, hdistinct⟩

end Bindery.Document.Package
