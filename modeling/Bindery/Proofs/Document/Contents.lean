/-
# The table of contents is written as it is nested

A recipe nests the tables of its table of contents, the library keeps them as a forest or in one table,
and the navigation document nests elements.  All of these are the same forest: what is kept is what the
recipe nests (`Outline.keeps_ofForest`), and what is written shows what is kept, each entry with its
labels and its link above the entries below it (`shows_of_numberTree`).  So the table of contents survives
the whole way (`contents_preserved`).
-/
import Bindery.Proofs.Document.Played
import Bindery.Proofs.Outline.Slots

namespace Bindery

/-- The table of contents of a book is read from the list that the recipe gives, or from no items if it
gives none. -/
theorem Book.exists_contentsItems {fields : Value.Fields} {book : Book}
    (h : Book.ofValue (.table fields) = .ok book) :
    ∃ items, fields.optionalList "navmap" = .ok items ∧
      NavTree.readForest (.top "navmap") 0 (items.getD []) = .ok book.contents := by
  unfold Book.ofValue at h
  simp only [bind_eq_ok_iff] at h
  obtain ⟨read, hread, h⟩ := h
  obtain rfl : fields = read := Except.ok.inj hread
  split at h
  · cases h
  · simp only [bind_eq_ok_iff, pure_eq_ok_iff] at h
    obtain ⟨_, -, _, -, _, -, _, -, _, -, _, -, _, -, items, hlist, _, -, _, -, _, -, _, -, _, -,
      _, -, _, -, contents, hcontents, _, -, _, -, _, -, rfl⟩ := h
    exact ⟨items, hlist, hcontents⟩

theorem Book.contents_of_ofValue {fields : Value.Fields} {items : List Value} {book : Book}
    (hitems : fields.get? "navmap" = some (.list items))
    (h : Book.ofValue (.table fields) = .ok book) :
    NavTree.readForest (.top "navmap") 0 items = .ok book.contents := by
  have hpresent : fields.optionalList "navmap" = .ok (some items) := by
    rw [Value.Fields.optionalList, Value.Fields.present?, hitems]
    rfl
  obtain ⟨read, hlist, hcontents⟩ := Book.exists_contentsItems h
  obtain rfl : some items = read := Except.ok.inj (hpresent.symm.trans hlist)
  exact hcontents

namespace Document.Navigation

open Xml

variable {layout : Layout}

/-! ## 1. What a reader sees -/

/-- The label that an element shows. -/
def shownLabel (element : Element) : NavLabel :=
  ⟨((element.child? "text").map Element.content).getD "", element.attribute? "xml:lang"⟩

mutual

/-- An element shows a tree: the labels and the link of its entry, and below it what shows the entries
below. -/
def Shows (layout : Layout) : NavTree → Element → Prop
  | .node point children, element =>
    element.name = "navPoint" ∧
    (element.childrenNamed "navLabel").map shownLabel = point.label.labels ∧
    (∃ href, pointLink layout point = .ok href ∧
      (element.childrenNamed "content").map (·.attribute? "src") = [some href]) ∧
    ShowsAll layout children (element.childrenNamed "navPoint")

/-- Neighbouring elements show neighbouring trees. -/
def ShowsAll (layout : Layout) : List NavTree → List Element → Prop
  | [], elements => elements = []
  | tree :: rest, elements => ∃ element others, elements = element :: others ∧
      Shows layout tree element ∧ ShowsAll layout rest others

end

/-! ## 2. What is written -/

theorem shownLabel_labelElement (label : NavLabel) : shownLabel (labelElement label) = label := by
  obtain ⟨text, lang⟩ := label
  cases lang <;> rfl

theorem name_of_mem_entryElements {entries : List Entry} :
    ∀ element ∈ entryElements entries, element.name = "navPoint" := by
  induction entries with
  | nil =>
    rw [entryElements]
    exact List.forall_mem_nil _
  | cons entry rest ih =>
    obtain ⟨target, children⟩ := entry
    rw [entryElements, List.forall_mem_cons]
    exact ⟨by rw [entryElement]; rfl, ih⟩

/-- What stands in an entry: its labels, its link, and the entries below it. -/
theorem childrenNamed_entryElement (target : Target) (below : List Entry) :
    (entryElement (.node target below)).childrenNamed "navLabel" = target.labels.map labelElement ∧
      (entryElement (.node target below)).childrenNamed "content" =
        [.branch "content" [⟨"src", target.link⟩] []] ∧
      (entryElement (.node target below)).childrenNamed "navPoint" = entryElements below := by
  have hchildren : (entryElement (.node target below)).children = target.labels.map labelElement ++
      ([.branch "content" [⟨"src", target.link⟩] []] ++ entryElements below) := by
    rw [entryElement, Element.children, targetChildren, List.append_assoc]
  have hlabels : ∀ element ∈ target.labels.map labelElement, element.name = "navLabel" :=
    List.forall_mem_map.mpr fun label _ => rfl
  have hentries : ∀ element ∈ entryElements below, element.name = "navPoint" :=
    name_of_mem_entryElements
  simp only [Element.childrenNamed, hchildren, List.filter_append]
  refine ⟨?_, ?_, ?_⟩
  · rw [Element.filter_name_eq_self hlabels, Element.filter_name_eq_nil hentries (by decide)]
    exact List.append_nil _
  · rw [Element.filter_name_eq_nil hlabels (by decide),
      Element.filter_name_eq_nil hentries (by decide)]
    rfl
  · rw [Element.filter_name_eq_nil hlabels (by decide), Element.filter_name_eq_self hentries]
    rfl

mutual

theorem shows_of_numberTree : ∀ {tree : NavTree} {entry : Entry} {before after : Numbering},
    numberTree layout tree before = .ok (entry, after) → Shows layout tree (entryElement entry)
  | .node point children, entry, before, after, h => by
    simp only [numberTree, counting_bind_eq_ok_iff, counting_pure_eq_ok_iff] at h
    obtain ⟨made, between, hmade, below, stop, hbelow, rfl, -⟩ := h
    obtain ⟨hlabels, hlink, -⟩ := of_target_eq_ok hmade
    obtain ⟨hlabel, hcontent, hchildren⟩ := childrenNamed_entryElement made below
    rw [Shows, hlabel, hcontent, hchildren]
    refine ⟨by rw [entryElement]; rfl, ?_, ⟨made.link, hlink, rfl⟩, shows_of_numberForest hbelow⟩
    rw [List.map_map, hlabels]
    exact List.map_id'' shownLabel_labelElement _

theorem shows_of_numberForest : ∀ {forest : List NavTree} {entries : List Entry}
    {before after : Numbering}, numberForest layout forest before = .ok (entries, after) →
      ShowsAll layout forest (entryElements entries)
  | [], entries, before, after, h => by
    rw [numberForest, counting_pure_eq_ok_iff] at h
    rw [← h.1, ShowsAll, entryElements]
  | tree :: rest, entries, before, after, h => by
    simp only [numberForest, counting_bind_eq_ok_iff, counting_pure_eq_ok_iff] at h
    obtain ⟨entry, between, hentry, others, stop, hothers, rfl, -⟩ := h
    rw [ShowsAll, entryElements]
    exact ⟨_, _, rfl, shows_of_numberTree hentry, shows_of_numberForest hothers⟩

end

/-! ## 3. The document -/

/-- The table of contents of a document. -/
theorem childrenNamed_rootOf {head : Element} (hhead : head.name = "head") (title : String)
    (targets : Targets) : (rootOf head title targets).childrenNamed "navMap" =
      [.branch "navMap" [] (entryElements targets.contents)] := by
  have hpages : ∀ element ∈ pageListElement targets.pages, element.name = "pageList" := by
    intro element helement
    rw [pageListElement, Option.mem_toList, Option.map_eq_some_iff] at helement
    obtain ⟨pages, -, rfl⟩ := helement
    rfl
  have hlists : ∀ element ∈ targets.lists.map listElement, element.name = "navList" :=
    List.forall_mem_map.mpr fun targetList _ => rfl
  rw [Element.childrenNamed, rootOf, Element.children, List.filter_append, List.filter_append,
    Element.filter_name_eq_nil hpages (by decide), Element.filter_name_eq_nil hlists (by decide),
    List.filter_cons, hhead]
  rfl

/-- Every navigation document that is written shows the table of contents. -/
theorem showsAll_of_element {book : Book} {metadata : Metadata} {firstLinear : String}
    {root : Element} (h : element layout book metadata firstLinear = .ok root) :
    ∃ navMap, root.childrenNamed "navMap" = [navMap] ∧
      ShowsAll layout (contentsOf book metadata.title firstLinear) navMap.children := by
  obtain ⟨maxPage, targets, -, -, htargets, rfl⟩ := element_eq_ok_iff.mp h
  obtain ⟨entered, paged, after, hentries, -, -⟩ := of_targets_eq_ok htargets
  exact ⟨_, childrenNamed_rootOf rfl _ _, shows_of_numberForest hentries⟩

theorem contentsOf_of_ne_nil {book : Book} (h : book.contents ≠ []) (title firstLinear : String) :
    contentsOf book title firstLinear = book.contents := by
  unfold contentsOf
  split
  · contradiction
  · rfl

/-- **The table of contents survives the whole way.**  Whatever list of nested tables is accepted, the
table that is built from it has one entry for each of them, in order, names every position once and each
child after its parent, and describes the forest that the tables nest.  Where a recipe gives such a list,
that is the forest of the book, and every navigation document that is written shows it: each entry with
its labels, their languages and its link, above the entries below it, in order. -/
theorem contents_preserved :
    (∀ (items : List Value) (outline : Outline), Outline.ofValues items = .ok outline →
      ∃ forest, outline.Keeps items forest) ∧
    ∀ (fields : Value.Fields) (items : List Value) (book : Book),
      fields.get? "navmap" = some (.list items) → items ≠ [] →
      Book.ofValue (.table fields) = .ok book →
      (∃ outline, Outline.ofValues items = .ok outline ∧ outline.Keeps items book.contents) ∧
        ∀ (environment : Environment) (freshId firstLinear text : String),
          Navigation.text (Layout.of book) book
            (Metadata.resolve environment freshId book.metadata) firstLinear = .ok text →
          ∃ root navMap, ReadsBack text root ∧ root.childrenNamed "navMap" = [navMap] ∧
            ShowsAll (Layout.of book) book.contents navMap.children := by
  constructor
  · intro items outline h
    rw [Outline.ofValues_eq] at h
    obtain ⟨forest, hforest, rfl⟩ := map_eq_ok_iff.mp h
    exact ⟨forest, Outline.keeps_ofForest hforest⟩
  · intro fields items book hitems hne hread
    have hforest := Book.contents_of_ofValue hitems hread
    have hkeeps := Outline.keeps_ofForest hforest
    refine ⟨⟨Outline.ofForest book.contents, ?_, hkeeps⟩, ?_⟩
    · rw [Outline.ofValues_eq, hforest]
      rfl
    · intro environment freshId firstLinear text htext
      have hbook := (Book.wellFormed_of_ofValue hread).legalParts
      obtain ⟨root, hroot, hreads⟩ :=
        Navigation.readsBack_text hbook (Metadata.legal_title hbook.metadata) htext
      obtain ⟨navMap, hnavMap, hshows⟩ := showsAll_of_element hroot
      -- A list with items is not read as an empty forest, so no entry is made up for the book.
      have hcontents : book.contents ≠ [] := by
        intro hempty
        have hnested := hkeeps.nested
        rw [hempty, Value.DescribesAll] at hnested
        exact hne hnested
      rw [contentsOf_of_ne_nil hcontents] at hshows
      exact ⟨root, navMap, hreads, hnavMap, hshows⟩

theorem repeatingBook_contents_preserved : ∃ items outline text root navMap,
    items ≠ [] ∧ Outline.ofValues items = .ok outline ∧ outline.Keeps items repeatingBook.contents ∧
      Navigation.text (Layout.of repeatingBook) repeatingBook
        (Metadata.resolve ⟨"", none⟩ "BookId" repeatingBook.metadata) "page" = .ok text ∧
      ReadsBack text root ∧ root.childrenNamed "navMap" = [navMap] ∧
      ShowsAll (Layout.of repeatingBook) repeatingBook.contents navMap.children := by
  have hread : Book.ofValue repeatingBook.toValue = .ok repeatingBook := rfl
  obtain ⟨text, htext⟩ := repeatingBook_text
  obtain ⟨⟨outline, houtline, hkeeps⟩, hrendered⟩ :=
    contents_preserved.2 _ _ _ rfl (List.cons_ne_nil _ _) hread
  obtain ⟨root, navMap, hreads, hnavMap, hshows⟩ := hrendered _ _ _ _ htext
  exact ⟨_, outline, text, root, navMap, List.cons_ne_nil _ _, houtline, hkeeps, htext, hreads,
    hnavMap, hshows⟩

end Document.Navigation
end Bindery
