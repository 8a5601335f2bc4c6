/-
# The identifiers of the navigation document

The identifiers that the targets get are those that one run of the supply gives out, in the order of the
targets, and nothing else that is counted touches the supply (`Makes`).  The pages have identifiers of
their own, and those are taken from the start.  So no two identifiers of the document clash
(`navigation_ids_distinct`).
-/
import Bindery.Proofs.Document.Navigation
import Bindery.Proofs.Numbering
import Bindery.Proofs.Xml.Query

namespace Bindery.Document.Navigation

open Text Xml

variable {book : Book} {layout : Layout} {α β : Type}

/-! ## 1. Identifiers in the elements -/

theorem ids_labelElement (label : NavLabel) : (labelElement label).ids = [] := by
  rw [labelElement, Element.ids_branch, List.flatMap_singleton, Element.ids_leaf]
  cases label.lang <;> rfl

theorem ids_labels (labels : List NavLabel) : (labels.map labelElement).flatMap Element.ids = [] := by
  rw [List.flatMap_map, List.flatMap_eq_nil_iff]
  exact fun label _ => ids_labelElement label

/-- Labels and links have no identifiers. -/
theorem ids_targetChildren (target : Target) :
    (targetChildren target).flatMap Element.ids = [] := by
  rw [targetChildren, List.flatMap_append, ids_labels]
  rfl

/-- An entry has its own identifier, followed by those of the entries below it. -/
theorem ids_entryElement (target : Target) (children : List Entry) :
    (entryElement (.node target children)).ids =
      target.id :: (entryElements children).flatMap Element.ids := by
  rw [entryElement, Element.ids_branch_id, List.flatMap_append, ids_targetChildren, List.nil_append]

theorem ids_pageElement (page : Page) : (pageElement page).ids = [page.target.id] := by
  rw [pageElement, List.cons_append, List.cons_append, Element.ids_branch_id, ids_targetChildren]

theorem ids_listElement (targetList : TargetList) :
    (listElement targetList).ids = targetList.targets.flatMap fun target => [target.id] := by
  have htargets : ∀ target : Target, (listTargetElement target).ids = [target.id] := by
    intro target
    rw [listTargetElement, Element.ids_branch_id, ids_targetChildren]
  rw [listElement, Element.ids_branch, List.flatMap_append, ids_labels, List.flatMap_map]
  simp only [htargets]
  rfl

theorem ids_pageListElement (pages : Option (List Page)) :
    (pageListElement pages).flatMap Element.ids = (pages.getD []).map (·.target.id) := by
  cases pages with
  | none => rfl
  | some pages =>
    rw [pageListElement, Option.map_some, Option.toList_some, List.flatMap_singleton,
      Element.ids_branch, List.flatMap_map]
    simp only [ids_pageElement, ← List.map_eq_flatMap]
    rfl

/-- The identifiers in the document: those of the entries, of the pages and of the lists. -/
theorem ids_rootOf {head : Element} (hhead : head.ids = []) (title : String) (targets : Targets) :
    (rootOf head title targets).ids = (entryElements targets.contents).flatMap Element.ids ++
      (targets.pages.getD []).map (·.target.id) ++
      targets.lists.flatMap fun targetList => (listElement targetList).ids := by
  have hcontents : (Element.branch "navMap" [] (entryElements targets.contents)).ids =
      (entryElements targets.contents).flatMap Element.ids := by
    rw [Element.ids_branch]
    rfl
  rw [rootOf, Element.ids_branch, List.flatMap_append, List.flatMap_append, List.flatMap_map,
    ids_pageListElement, List.flatMap_cons, List.flatMap_cons, List.flatMap_singleton, hhead, hcontents]
  rfl

theorem ids_headElement (identifier : String) (depth pageCount maxPage : Nat) :
    (headElement identifier depth pageCount maxPage).ids = [] := by
  have hmeta : ∀ name content : String, (metaElement name content).ids = [] := fun _ _ => rfl
  rw [headElement, Element.ids_branch]
  simp only [List.flatMap_cons, hmeta]
  rfl

/-! ## 2. What numbering does to the supply -/

/-- From one numbering to another the supply has given out some identifiers and no others. -/
def Makes (before after : Numbering) (ids : List String) : Prop :=
  ∃ stems, before.ids.run stems = (ids, after.ids)

theorem Makes.refl (numbering : Numbering) : Makes numbering numbering [] :=
  ⟨[], rfl⟩

theorem Makes.append {before between after : Numbering} {ids more : List String}
    (h : Makes before between ids) (hmore : Makes between after more) :
    Makes before after (ids ++ more) := by
  obtain ⟨stems, hrun⟩ := h
  obtain ⟨others, hothers⟩ := hmore
  refine ⟨stems ++ others, ?_⟩
  rw [IdSupply.run_append, hrun, hothers]

/-- A new identifier is a run of one. -/
theorem makes_newId {stem id : String} {before after : Numbering}
    (h : newId stem before = .ok (id, after)) : Makes before after [id] := by
  rw [newId, counting_modifyGet_eq_ok_iff] at h
  cases h
  exact ⟨[stem], rfl⟩

/-- The play order has nothing to do with the supply. -/
theorem ids_playNumber {link : String} {order : Nat} {before after : Numbering}
    (h : before.playNumber link = (order, after)) : after.ids = before.ids := by
  cases h
  rfl

theorem makes_target {id : Counting String} {label : Label} {link : Except Fault String}
    {made : Target} {before after : Numbering} {ids : List String}
    (hid : ∀ between, id before = .ok (made.id, between) → Makes before between ids)
    (h : target id label link before = .ok (made, after)) : Makes before after ids := by
  obtain ⟨-, -, between, hname, horder⟩ := of_target_eq_ok h
  obtain ⟨stems, hrun⟩ := hid between hname
  refine ⟨stems, ?_⟩
  rw [hrun, ids_playNumber horder]

/-- A walk over a list makes what its steps make, one after the other. -/
theorem makes_mapM {f : α → Counting β} {ids : β → List String}
    (hf : ∀ item before value after, f item before = .ok (value, after) →
      Makes before after (ids value)) :
    ∀ {items : List α} {values : List β} {before after : Numbering},
      items.mapM f before = .ok (values, after) → Makes before after (values.flatMap ids)
  | [], values, before, after, h => by
    rw [List.mapM_nil, counting_pure_eq_ok_iff] at h
    obtain ⟨rfl, rfl⟩ := h
    exact .refl before
  | item :: rest, values, before, after, h => by
    simp only [List.mapM_cons, counting_bind_eq_ok_iff, counting_pure_eq_ok_iff] at h
    obtain ⟨value, between, hvalue, others, last, hothers, rfl, rfl⟩ := h
    exact (hf item before value between hvalue).append (makes_mapM hf hothers)

mutual

theorem makes_numberTree : ∀ {tree : NavTree} {entry : Entry} {before after : Numbering},
    numberTree layout tree before = .ok (entry, after) →
      Makes before after (entryElement entry).ids
  | .node point children, entry, before, after, h => by
    simp only [numberTree, counting_bind_eq_ok_iff, counting_pure_eq_ok_iff] at h
    obtain ⟨made, between, hmade, below, stop, hbelow, rfl, rfl⟩ := h
    rw [ids_entryElement]
    exact (makes_target (fun _ => makes_newId) hmade).append (makes_numberForest hbelow)

theorem makes_numberForest : ∀ {forest : List NavTree} {entries : List Entry}
    {before after : Numbering}, numberForest layout forest before = .ok (entries, after) →
      Makes before after ((entryElements entries).flatMap Element.ids)
  | [], entries, before, after, h => by
    rw [numberForest, counting_pure_eq_ok_iff] at h
    obtain ⟨rfl, rfl⟩ := h
    exact .refl before
  | tree :: rest, entries, before, after, h => by
    simp only [numberForest, counting_bind_eq_ok_iff, counting_pure_eq_ok_iff] at h
    obtain ⟨entry, between, hentry, others, stop, hothers, rfl, rfl⟩ := h
    rw [entryElements, List.flatMap_cons]
    exact (makes_numberTree hentry).append (makes_numberForest hothers)

end

/-- Numbering a list makes the identifiers that are written in it. -/
theorem makes_numberList {navList : NavList} {made : TargetList} {before after : Numbering}
    (h : numberList layout navList before = .ok (made, after)) :
    Makes before after (listElement made).ids := by
  simp only [numberList, counting_bind_eq_ok_iff, counting_pure_eq_ok_iff] at h
  obtain ⟨targets, between, htargets, rfl, rfl⟩ := h
  rw [ids_listElement]
  exact makes_mapM (fun _ _ _ _ => makes_target fun _ => makes_newId) htargets

/-- A page keeps its own identifier. -/
theorem id_of_numberPage {page : PageTarget} {made : Page} {before after : Numbering}
    (h : numberPage layout page before = .ok (made, after)) :
    made.target.id = page.id ∧ Makes before after [] := by
  simp only [numberPage, counting_bind_eq_ok_iff, counting_pure_eq_ok_iff] at h
  obtain ⟨target, between, htarget, rfl, rfl⟩ := h
  obtain ⟨-, -, start, hid, -⟩ := of_target_eq_ok htarget
  refine ⟨(counting_pure_eq_ok_iff.mp hid).1.symm, makes_target (fun between hpure => ?_) htarget⟩
  rw [(counting_pure_eq_ok_iff.mp hpure).2]
  exact .refl between

/-- The pages are written with their own identifiers, and the supply is left alone. -/
theorem ids_of_numberPages {pages : Option (List PageTarget)} {made : Option (List Page)}
    {before after : Numbering}
    (h : pages.mapM (·.mapM (numberPage layout)) before = .ok (made, after)) :
    (made.getD []).map (·.target.id) = (pages.getD []).map (·.id) ∧ Makes before after [] := by
  rcases of_mapM_pages h with ⟨rfl, rfl, rfl⟩ | ⟨items, values, rfl, rfl, hrun⟩
  · exact ⟨rfl, .refl before⟩
  · constructor
    · have hall := (forall₂_of_counting_mapM hrun).imp
        fun item value ⟨start, stop, hpage⟩ => (id_of_numberPage hpage).1.symm
      rw [Option.getD_some, Option.getD_some, eq_comm, ← List.forall₂_eq_eq_eq,
        List.forall₂_map_left_iff, List.forall₂_map_right_iff]
      exact hall
    · have hmakes : Makes before after (values.flatMap fun _ => []) := makes_mapM
        (fun _ _ _ _ hpage => (id_of_numberPage hpage).2) hrun
      rwa [List.flatMap_eq_nil_iff.mpr fun _ _ => rfl] at hmakes

/-! ## 3. The document -/

/-- The identifiers in a document that is written: those of the pages, and those of one run of a supply
beside them. -/
theorem exists_run_of_element {metadata : Metadata} {firstLinear : String} {root : Element}
    (h : element layout book metadata firstLinear = .ok root) :
    ∃ stems, root.ids.Perm ((book.pages.getD []).map (·.id) ++
      ((IdSupply.beside ((book.pages.getD []).map (·.id))).run stems).1) := by
  obtain ⟨maxPage, targets, -, -, htargets, rfl⟩ := element_eq_ok_iff.mp h
  obtain ⟨entered, paged, after, hentries, hpages, hlists⟩ := of_targets_eq_ok htargets
  obtain ⟨hpageIds, hpagesMake⟩ := ids_of_numberPages hpages
  obtain ⟨stems, hrun⟩ := ((makes_numberForest hentries).append hpagesMake).append
    (makes_mapM (fun _ _ _ _ => makes_numberList) hlists)
  have hsupply : (Numbering.beside ((book.pages.getD []).map (·.id))).ids =
      IdSupply.beside ((book.pages.getD []).map (·.id)) := rfl
  refine ⟨stems, ?_⟩
  rw [hsupply] at hrun
  rw [headOf, ids_rootOf (ids_headElement _ _ _ _), hpageIds, hrun, List.append_nil, ← List.append_assoc]
  exact List.perm_append_comm.append_right _

/-- **No two identifiers of the navigation document clash.**  A supply gives out as many identifiers as
it is asked for, and none of them clashes with one that was taken or given out before; so however the
targets of an accepted book imitate them, all identifiers that are written are different. -/
theorem navigation_ids_distinct :
    (∀ taken stems : List String,
      ((IdSupply.beside taken).run stems).1.length = stems.length ∧
      (∀ id ∈ ((IdSupply.beside taken).run stems).1, foldCase id ∉ taken.map foldCase) ∧
      (((IdSupply.beside taken).run stems).1.map foldCase).Nodup) ∧
    ∀ (body : Value) (book : Book), Book.ofValue body = .ok book →
      Validation.validate (Layout.of book) book = .ok () →
      ∀ (metadata : Metadata) (firstLinear : String) (root : Element),
        element (Layout.of book) book metadata firstLinear = .ok root →
        (root.ids.map foldCase).Nodup := by
  refine ⟨fun taken stems => ⟨IdSupply.length_run, IdSupply.run_new, IdSupply.run_distinct⟩, ?_⟩
  intro body book _ hvalidate metadata firstLinear root hroot
  obtain ⟨stems, hperm⟩ := exists_run_of_element hroot
  have hpages := (Validation.validate_eq_ok_iff.mp hvalidate).pages_distinct
  rw [(hperm.map foldCase).nodup_iff, List.map_append, List.nodup_append]
  -- The identifiers of the pages are those taken at the start.
  refine ⟨hpages, IdSupply.run_distinct, ?_⟩
  rintro folded hpage other hmade rfl
  obtain ⟨id, hid, rfl⟩ := List.mem_map.mp hmade
  exact IdSupply.run_new id hid hpage

/-- A book whose pages have the identifiers that its other targets would get. -/
def imitatingBook : Book :=
  { Validation.pageBook with
    contents := [.node { label := .simple "One", idref := "page" }
      [.node { label := .simple "Two", idref := "page" } []]]
    pages := some [
      { label := .simple "i", id := "NAVPOINT-1", kind := .front, idref := "page" },
      { label := .simple "ii", id := "navPoint-1_1", kind := .front, idref := "page" }] }

theorem imitatingBook_accepted : Validation.Accepts (Layout.of imitatingBook) imitatingBook :=
  Validation.accepts_of_first rfl (by decide) rfl
    (Validation.checkPaths_eq_ok_iff.mpr (by decide +kernel))
    (Validation.checkIdentifiers_eq_ok_iff.mpr (by decide +kernel)) (by decide +kernel)
    (Validation.resolve_of_lookup (by decide +kernel)) (by simp)

theorem imitatingBook_ids_distinct : ∃ root,
    element (Layout.of imitatingBook) imitatingBook ⟨[], "", "", ""⟩ "page" = .ok root ∧
      (root.ids.map foldCase).Nodup := by
  have hread : Book.ofValue imitatingBook.toValue = .ok imitatingBook := rfl
  have hbook := (Book.wellFormed_of_ofValue hread).legalParts
  have htitle : isLegalText (Metadata.mk [] "" "" "").title = true := rfl
  have hlinear : ∀ referrer, ∃ path,
      (Layout.of imitatingBook).itemPath "page" referrer = .ok path := fun _ => ⟨_, rfl⟩
  obtain ⟨root, hroot⟩ : ∃ root, element (Layout.of imitatingBook) imitatingBook
      ⟨[], "", "", ""⟩ "page" = .ok root := by
    rcases element_cases imitatingBook_accepted hbook htitle rfl hlinear with
      ⟨⟨page, hpage, text, digits, hvalue, -⟩, -⟩ | ⟨-, root, hroot, -⟩
    · have hnone : ∀ page ∈ imitatingBook.pages.getD [], page.value = none := by decide
      rw [hnone page hpage] at hvalue
      cases hvalue
    · exact ⟨root, hroot⟩
  exact ⟨root, hroot, navigation_ids_distinct.2 _ _ hread
    (Validation.validate_eq_ok_iff.mpr imitatingBook_accepted) _ _ root hroot⟩

end Bindery.Document.Navigation
