/-
# The head of the navigation document agrees with its body

The head states facts about the body: how deep the table of contents is nested, how many pages there are,
and the greatest page number.  The depth is counted on the table of the table of contents with a stack,
before anything is written, and the entries are written by a recursion over the forest; both see the same
levels (`nesting_of_numberForest`, `LevelCount.run_ofForest`).  So a reader who counts finds what the head
says (`head_agrees_with_body`).
-/
import Bindery.Proofs.Document.Contents
import Bindery.Proofs.Document.PageNumbers
import Bindery.Proofs.Document.Parts
import Bindery.Proofs.Outline.Levels

namespace Bindery.Document.Navigation

open Xml Outline

variable {book : Book} {layout : Layout}

/-! ## 1. The table of contents -/

/-- The table of the one entry that stands for a table of contents if there is none: the title, at the
start of the reading order. -/
def defaultTable (title firstLinear : String) : Outline :=
  ⟨[⟨{ label := .simple title, idref := firstLinear }, []⟩], [0]⟩

theorem run_defaultTable (title firstLinear : String) :
    LevelCount.run (defaultTable title firstLinear).entries
      (defaultTable title firstLinear).entries.length (.start (defaultTable title firstLinear)) =
        some ⟨[], 1⟩ := rfl

/-- The table of contents that is written for the body of a recipe. -/
inductive TableOf (title firstLinear : String) : Value → Outline → Prop where
  /-- The body lists entries, and the table is built from the list. -/
  | listed {fields : Value.Fields} {items : List Value} {table : Outline}
      (hitems : fields.get? "navmap" = some (.list items)) (hne : items ≠ [])
      (htable : Outline.ofValues items = .ok table) : TableOf title firstLinear (.table fields) table
  /-- The body lists no entries. -/
  | default {fields : Value.Fields}
      (hnone : ∀ items, fields.get? "navmap" = some (.list items) → items = []) :
      TableOf title firstLinear (.table fields) (defaultTable title firstLinear)

theorem ne_nil_of_readForest {place : Place} {index : Nat} {items : List Value}
    {forest : List NavTree} (hne : items ≠ [])
    (h : NavTree.readForest place index items = .ok forest) : forest ≠ [] := by
  cases items with
  | nil => contradiction
  | cons value rest =>
    simp only [NavTree.readForest, bind_eq_ok_iff, pure_eq_ok_iff] at h
    obtain ⟨tree, -, trees, -, rfl⟩ := h
    simp

theorem contentsOf_of_nil (h : book.contents = []) (title firstLinear : String) :
    contentsOf book title firstLinear = [.node { label := .simple title, idref := firstLinear } []] := by
  rw [contentsOf, h]

/-- The forest that is written for a book is that of the table of its body. -/
theorem tableOf_ofForest {body : Value} (h : Book.ofValue body = .ok book)
    (title firstLinear : String) :
    TableOf title firstLinear body (ofForest (contentsOf book title firstLinear)) := by
  obtain ⟨fields, rfl⟩ : ∃ fields, body = .table fields := by
    have hread := h
    unfold Book.ofValue at hread
    obtain ⟨fields, hfields, -⟩ := bind_eq_ok_iff.mp hread
    exact ⟨fields, of_asTable hfields⟩
  by_cases hlisted : ∃ items, Value.Fields.get? fields "navmap" = some (.list items) ∧ items ≠ []
  · obtain ⟨items, hitems, hne⟩ := hlisted
    have hforest := Book.contents_of_ofValue hitems h
    rw [contentsOf_of_ne_nil (ne_nil_of_readForest hne hforest)]
    refine .listed hitems hne ?_
    rw [Outline.ofValues_eq, hforest]
    rfl
  · have hnone : ∀ items, Value.Fields.get? fields "navmap" = some (.list items) → items = [] := by
      intro items hitems
      by_contra hne
      exact hlisted ⟨items, hitems, hne⟩
    obtain ⟨given, hgiven, hforest⟩ := Book.exists_contentsItems h
    have hempty : given.getD [] = [] := by
      cases given with
      | none => rfl
      | some items => exact hnone items (of_optionalList hgiven)
    rw [hempty, NavTree.readForest] at hforest
    rw [contentsOf_of_nil (Except.ok.inj hforest).symm]
    exact .default hnone

/-! ## 2. Nesting -/

mutual

/-- The element of an entry nests elements as deep as the tree of the entry. -/
theorem nesting_of_numberTree : ∀ {tree : NavTree} {entry : Entry} {before after : Numbering},
    numberTree layout tree before = .ok (entry, after) →
      (entryElement entry).nesting "navPoint" = tree.depth
  | .node point children, entry, before, after, h => by
    simp only [numberTree, counting_bind_eq_ok_iff, counting_pure_eq_ok_iff] at h
    obtain ⟨made, between, -, below, stop, hbelow, rfl, -⟩ := h
    have hlabels : Element.nestingAll "navPoint" (targetChildren made) = 0 :=
      (Element.nestingAll_eq_zero_iff _).mpr (named_targetChildren (by decide) made)
    rw [entryElement, Element.nesting, Element.nestingAll_append, hlabels,
      nesting_of_numberForest hbelow, NavTree.depth, Nat.zero_max, Nat.add_comm]
    rfl

/-- Neighbouring entries nest elements as deep as their trees. -/
theorem nesting_of_numberForest : ∀ {forest : List NavTree} {entries : List Entry}
    {before after : Numbering}, numberForest layout forest before = .ok (entries, after) →
      Element.nestingAll "navPoint" (entryElements entries) = NavTree.depthAll forest
  | [], entries, before, after, h => by
    rw [numberForest, counting_pure_eq_ok_iff] at h
    rw [← h.1, entryElements]
    rfl
  | tree :: rest, entries, before, after, h => by
    simp only [numberForest, counting_bind_eq_ok_iff, counting_pure_eq_ok_iff] at h
    obtain ⟨entry, between, hentry, others, stop, hothers, rfl, -⟩ := h
    rw [entryElements, Element.nestingAll, nesting_of_numberTree hentry,
      nesting_of_numberForest hothers, NavTree.depthAll]

end

/-! ## 3. Pages -/

/-- The pages of a document stand in its page list. -/
theorem named_pageTarget_rootOf {head : Element} (hhead : head.named "pageTarget" = [])
    (title : String) (targets : Targets) :
    (rootOf head title targets).named "pageTarget" =
      (targets.pages.getD []).map pageElement := by
  have hcontents : (Element.branch "navMap" [] (entryElements targets.contents)).named "pageTarget" =
      [] := by
    rw [Element.named_branch_of_ne (by decide), named_entryElements (by decide) (by decide)]
  have hpages : (pageListElement targets.pages).flatMap (Element.named "pageTarget") =
      (targets.pages.getD []).map pageElement := by
    cases targets.pages with
    | none => rfl
    | some pages =>
      have hpage : ∀ page ∈ pages, (pageElement page).named "pageTarget" = [pageElement page] := by
        intro page _
        rw [pageElement, Element.named_branch, named_targetChildren (by decide)]
        rfl
      rw [pageListElement, Option.map_some, Option.toList_some, List.flatMap_singleton,
        Element.named_branch_of_ne (by decide), List.flatMap_map, List.flatMap_congr hpage,
        Option.getD_some, List.map_eq_flatMap]
  have htitle : (Element.branch "docTitle" [] [.leaf "text" [] title]).named "pageTarget" = [] := rfl
  rw [rootOf, Element.named_branch_of_ne (by decide), List.flatMap_append, List.flatMap_append,
    named_lists (by decide), hpages, List.flatMap_cons, List.flatMap_cons, List.flatMap_singleton,
    hhead, htitle, hcontents]
  simp

theorem value_pageElement (page : Page) : (pageElement page).attribute? "value" = page.value := by
  rw [pageElement]
  cases page.value <;> rfl

/-- Numbering keeps the pages and their values. -/
theorem values_of_numberPages {pages : Option (List PageTarget)} {made : Option (List Page)}
    {before after : Numbering}
    (h : pages.mapM (·.mapM (numberPage layout)) before = .ok (made, after)) :
    (made.getD []).map (·.value) = (pages.getD []).map (·.value) := by
  rcases of_mapM_pages h with ⟨rfl, rfl, -⟩ | ⟨items, values, rfl, rfl, hrun⟩
  · rfl
  · have hall := forall₂_of_counting_mapM hrun
    rw [Option.getD_some, Option.getD_some, ← List.forall₂_eq_eq_eq, List.forall₂_map_left_iff,
      List.forall₂_map_right_iff]
    refine hall.flip.imp ?_
    rintro value item ⟨start, stop, hmade⟩
    simp only [numberPage, counting_bind_eq_ok_iff, counting_pure_eq_ok_iff] at hmade
    obtain ⟨target, between, -, rfl, -⟩ := hmade
    rfl

/-! ## 4. The head -/

/-- What the facts of a name in a document say. -/
def facts (name : String) (root : Element) : List (Option String) :=
  ((root.named "meta").filter (·.attribute? "name" == some name)).map (·.attribute? "content")

/-- The values that the pages of a document show. -/
def pageValues (root : Element) : List String :=
  (root.named "pageTarget").filterMap (·.attribute? "value")

/-- The head of a document states, once each, what its body shows. -/
structure HeadAgrees (root : Element) (levels : Nat) : Prop where
  /-- The entries of the table of contents are nested this deep. -/
  nested : ∃ navMap, root.childrenNamed "navMap" = [navMap] ∧ navMap.nesting "navPoint" = levels
  depth : facts "dtb:depth" root = [some (toString levels)]
  pageCount : facts "dtb:totalPageCount" root =
    [some (toString (root.named "pageTarget").length)]
  maxPage : ∃ number, IsGreatestDenoted (pageValues root) number ∧
    facts "dtb:maxPageNumber" root = [some (toString number)]

/-- The facts of a document stand in its head. -/
theorem facts_rootOf (name : String) (head : Element) (title : String) (targets : Targets) :
    facts name (rootOf head title targets) = facts name head := by
  rw [facts, named_rootOf (by decide) (by decide), named_entryElements (by decide) (by decide),
    List.append_nil, facts]

/-- Every navigation document that is written states what it shows. -/
theorem headAgrees_of_element {metadata : Metadata} {firstLinear : String} {root : Element}
    (h : element layout book metadata firstLinear = .ok root) :
    HeadAgrees root (NavTree.depthAll (contentsOf book metadata.title firstLinear)) := by
  obtain ⟨maxPage, targets, hmax, -, htargets, rfl⟩ := element_eq_ok_iff.mp h
  obtain ⟨entered, paged, after, hentries, hpages, -⟩ := of_targets_eq_ok htargets
  have hhead : (headOf book metadata firstLinear maxPage).named "pageTarget" = [] := rfl
  have hshown := named_pageTarget_rootOf hhead metadata.title targets
  have hvalues := values_of_numberPages hpages
  constructor
  · refine ⟨_, childrenNamed_rootOf rfl _ _, ?_⟩
    rw [Element.nesting_branch_of_ne (by decide), nesting_of_numberForest hentries]
  · rw [facts_rootOf]
    rfl
  · have hlength := congrArg List.length hvalues
    rw [List.length_map, List.length_map] at hlength
    rw [facts_rootOf, hshown, List.length_map, hlength]
    rfl
  · refine ⟨maxPage, ?_, ?_⟩
    · have hfound : pageValues (rootOf (headOf book metadata firstLinear maxPage) metadata.title
          targets) = (book.pages.getD []).filterMap (·.value) := by
        have hkept := congrArg (List.filterMap id) hvalues
        simp only [List.filterMap_map] at hkept
        rw [pageValues, hshown, List.filterMap_map]
        simpa only [Function.comp_def, value_pageElement, id_eq] using hkept
      rw [hfound]
      exact isGreatestDenoted_maxPageNumber hmax
    · rw [facts_rootOf]
      rfl

/-- **The head agrees with the body.**  Whenever the navigation document of a recipe is written, the count
of the levels of its table of contents ends after one visit to each entry, with the number of levels that
a recursion over the table sees; for the table that stands in for a missing one this is one.  The head
states this number as the depth, and a reader finds the entries nested as deep.  The head states the
number of the pages that a reader finds, and the greatest number that their values denote, or zero if they
denote none. -/
theorem head_agrees_with_body {body : Value} (hread : Book.ofValue body = .ok book)
    (environment : Environment) (freshId firstLinear : String) {text : String}
    (htext : Navigation.text (Layout.of book) book
      (Metadata.resolve environment freshId book.metadata) firstLinear = .ok text) :
    ∃ table levels root,
      TableOf (Metadata.resolve environment freshId book.metadata).title firstLinear body table ∧
      LevelCount.run table.entries table.entries.length (.start table) = some ⟨[], levels⟩ ∧
      table.forest?.map NavTree.depthAll = some levels ∧
      (table = defaultTable (Metadata.resolve environment freshId book.metadata).title firstLinear →
        levels = 1) ∧
      ReadsBack text root ∧ HeadAgrees root levels := by
  have hbook := (Book.wellFormed_of_ofValue hread).legalParts
  obtain ⟨root, hroot, hreads⟩ :=
    Navigation.readsBack_text hbook (Metadata.legal_title hbook.metadata) htext
  have hcount := LevelCount.run_ofForest (contentsOf book
    (Metadata.resolve environment freshId book.metadata).title firstLinear)
  refine ⟨_, _, root, tableOf_ofForest hread _ _, hcount, ?_, ?_, hreads,
    headAgrees_of_element hroot⟩
  · rw [forest?_ofForest, Option.map_some]
  · intro hdefault
    rw [hdefault, run_defaultTable] at hcount
    exact (LevelCount.mk.inj (Option.some.inj hcount)).2.symm

/-- A book with three levels of contents and with pages whose values are numerals of two scripts, a
numeral of another kind, and nothing. -/
def numberedBook : Book :=
  { repeatingBook with
    pages := some [
      { label := .simple "vi", id := "p1", kind := .front, idref := "page", value := some "vi" },
      { label := .simple "42", id := "p2", kind := .normal, idref := "page",
        value := some "٠4٢" },
      { label := .simple "7", id := "p3", kind := .normal, idref := "page", value := some "007" },
      { label := .simple "map", id := "p4", kind := .special, idref := "page" }] }

theorem numberedBook_accepted : Validation.Accepts (Layout.of numberedBook) numberedBook :=
  Validation.accepts_of_first rfl (by decide) rfl
    (Validation.checkPaths_eq_ok_iff.mpr (by decide +kernel))
    (Validation.checkIdentifiers_eq_ok_iff.mpr (by decide +kernel)) (by decide +kernel)
    (Validation.resolve_of_lookup (by decide +kernel)) (by simp)

theorem numberedBook_text : ∃ text, Navigation.text (Layout.of numberedBook) numberedBook
    (Metadata.resolve ⟨"", none⟩ "BookId" numberedBook.metadata) "page" = .ok text := by
  have hread : Book.ofValue numberedBook.toValue = .ok numberedBook := rfl
  have hbook := (Book.wellFormed_of_ofValue hread).legalParts
  have hlinear : ∀ referrer, ∃ path,
      (Layout.of numberedBook).itemPath "page" referrer = .ok path := fun _ => ⟨_, rfl⟩
  have hnumber : maxPageNumber (numberedBook.pages.getD []) = .ok 42 := by decide +kernel
  exact exists_text numberedBook_accepted hbook (Metadata.legal_title hbook.metadata) rfl hlinear
    hnumber

theorem numberedBook_head_agrees :
    Book.ofValue numberedBook.toValue = .ok numberedBook ∧ ∃ text table levels root,
      Navigation.text (Layout.of numberedBook) numberedBook
        (Metadata.resolve ⟨"", none⟩ "BookId" numberedBook.metadata) "page" = .ok text ∧
      TableOf (Metadata.resolve ⟨"", none⟩ "BookId" numberedBook.metadata).title "page"
        numberedBook.toValue table ∧
      LevelCount.run table.entries table.entries.length (.start table) = some ⟨[], levels⟩ ∧
      ReadsBack text root ∧ HeadAgrees root levels := by
  have hread : Book.ofValue numberedBook.toValue = .ok numberedBook := rfl
  obtain ⟨text, htext⟩ := numberedBook_text
  obtain ⟨table, levels, root, htable, hcount, -, -, hreads, hagrees⟩ :=
    head_agrees_with_body hread ⟨"", none⟩ "BookId" "page" htext
  exact ⟨hread, text, table, levels, root, htext, htable, hcount, hreads, hagrees⟩

end Bindery.Document.Navigation
