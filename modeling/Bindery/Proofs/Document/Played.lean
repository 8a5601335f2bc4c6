/-
# Targets are played in the order of the document

A reader of the navigation document sees targets of three kinds, and each shows where it leads and its
place in the play order.  These places are the numbers of one run of the play order over the links, in
the order in which the targets are written (`Plays`): entries of the table of contents before the entries
below them, then the pages, then the lists.  So the document plays in order (`navigation_plays_in_order`).
-/
import Bindery.Proofs.Document.ReadBack
import Bindery.Proofs.Document.Numbered
import Bindery.Proofs.PlayOrder

namespace Bindery.Document.Navigation

open Xml

variable {book : Book} {layout : Layout} {α β : Type}

/-! ## 1. What a reader sees -/

/-- The names of the elements that lead to a place in the book. -/
def playedNames : List String := ["navPoint", "pageTarget", "navTarget"]

/-- All targets in an element, in the order of the document. -/
def targetElements (root : Element) : List Element :=
  root.subtree.filter fun element => playedNames.contains element.name

/-- Where a target leads. -/
def source? (element : Element) : Option String :=
  (element.child? "content").bind (·.attribute? "src")

/-- The place of a target in the play order, as it is written. -/
def playOrder? (element : Element) : Option String :=
  element.attribute? "playOrder"

variable {name : String} {attributes : List Attribute} {children : List Element}

theorem targetElements_target (h : name ∈ playedNames) :
    targetElements (.branch name attributes children) =
      .branch name attributes children :: children.flatMap targetElements := by
  have hself : playedNames.contains (Element.branch name attributes children).name = true :=
    List.contains_iff_mem.mpr h
  rw [targetElements, Element.subtree_branch, List.filter_cons, if_pos hself, List.filter_flatMap]
  rfl

theorem targetElements_other (h : name ∉ playedNames) :
    targetElements (.branch name attributes children) = children.flatMap targetElements := by
  have hself : ¬ playedNames.contains (Element.branch name attributes children).name = true :=
    fun hname => h (List.contains_iff_mem.mp hname)
  rw [targetElements, Element.subtree_branch, List.filter_cons, if_neg hself, List.filter_flatMap]
  rfl

theorem targetElements_labels (labels : List NavLabel) :
    (labels.map labelElement).flatMap targetElements = [] := by
  rw [List.flatMap_map, List.flatMap_eq_nil_iff]
  intro label _
  rw [labelElement, targetElements_other (by decide)]
  rfl

theorem targetElements_targetChildren (target : Target) :
    (targetChildren target).flatMap targetElements = [] := by
  rw [targetChildren, List.flatMap_append, targetElements_labels]
  rfl

/-- The link of a target stands after its labels, so nothing that is called a content comes before. -/
theorem source?_target (name : String) (attributes : List Attribute) (target : Target)
    (more : List Element) :
    source? (.branch name attributes (targetChildren target ++ more)) = some target.link := by
  have hlabels : (target.labels.map labelElement).find? (·.name == "content") = none := by
    rw [List.find?_eq_none]
    intro element helement
    obtain ⟨label, -, rfl⟩ := List.mem_map.mp helement
    have hname : (labelElement label).name = "navLabel" := rfl
    rw [hname]
    decide
  have hchild : (Element.branch name attributes (targetChildren target ++ more)).child? "content" =
      some (.branch "content" [⟨"src", target.link⟩] []) := by
    rw [Element.child?, Element.children, targetChildren, List.append_assoc, List.find?_append,
      hlabels]
    rfl
  rw [source?, hchild]
  rfl

/-! ## 2. What is played -/

/-- From one numbering to another some places were linked to and their links numbered, one after the
other, and elements show these links and numbers. -/
def Plays (before after : Numbering) (places : List (Except Fault String))
    (elements : List Element) : Prop :=
  ∃ links numbers, places = links.map Except.ok ∧
    before.order.run links = (numbers, after.order) ∧
    elements.map source? = links.map some ∧
    elements.map playOrder? = numbers.map fun number => some (toString number)

theorem Plays.refl (numbering : Numbering) : Plays numbering numbering [] [] :=
  ⟨[], [], rfl, rfl, rfl, rfl⟩

theorem Plays.append {before between after : Numbering} {places others : List (Except Fault String)}
    {elements more : List Element} (h : Plays before between places elements)
    (hmore : Plays between after others more) :
    Plays before after (places ++ others) (elements ++ more) := by
  obtain ⟨links, numbers, rfl, hrun, hsources, horders⟩ := h
  obtain ⟨links', numbers', rfl, hrun', hsources', horders'⟩ := hmore
  refine ⟨links ++ links', numbers ++ numbers', ?_, ?_, ?_, ?_⟩
  · rw [List.map_append]
  · rw [PlayOrder.run_append, hrun, hrun']
  · rw [List.map_append, List.map_append, hsources, hsources']
  · rw [List.map_append, List.map_append, horders, horders']

/-- The number of a link is the one that the play order gives it. -/
theorem number_of_playNumber {link : String} {order : Nat} {before after : Numbering}
    (h : before.playNumber link = (order, after)) :
    before.order.number link = (order, after.order) := by
  cases h
  rfl

/-- **One target**: its element shows its link and the number of that link. -/
theorem plays_target {id : Counting String} {label : Label} {link : Except Fault String}
    {made : Target} {before after : Numbering} {element : Element}
    (hid : ∀ between, id before = .ok (made.id, between) → between.order = before.order)
    (h : target id label link before = .ok (made, after)) (hsource : source? element = some made.link)
    (horder : playOrder? element = some (toString made.order)) :
    Plays before after [link] [element] := by
  obtain ⟨-, hlink, between, hname, hplay⟩ := of_target_eq_ok h
  have hnumber : before.order.number made.link = (made.order, after.order) := by
    rw [← hid between hname]
    exact number_of_playNumber hplay
  refine ⟨[made.link], [made.order], by rw [hlink]; rfl, ?_, ?_, ?_⟩
  · rw [PlayOrder.run_cons, hnumber]
    rfl
  · rw [List.map_singleton, hsource]
    rfl
  · rw [List.map_singleton, horder]
    rfl

/-- Making an identifier leaves the play order alone. -/
theorem order_of_newId {stem id : String} {before after : Numbering}
    (h : newId stem before = .ok (id, after)) : after.order = before.order := by
  rw [newId, counting_modifyGet_eq_ok_iff] at h
  cases h
  rfl

/-- A walk over a list plays what its steps play, one after the other. -/
theorem plays_mapM {f : α → Counting β} (places : α → List (Except Fault String))
    (elements : β → List Element)
    (hf : ∀ item before value after, f item before = .ok (value, after) →
      Plays before after (places item) (elements value)) {items : List α} {values : List β}
    {before after : Numbering} (h : items.mapM f before = .ok (values, after)) :
    Plays before after (items.flatMap places) (values.flatMap elements) := by
  induction items generalizing values before with
  | nil =>
    rw [List.mapM_nil, counting_pure_eq_ok_iff] at h
    obtain ⟨rfl, rfl⟩ := h
    exact .refl before
  | cons item rest ih =>
    simp only [List.mapM_cons, counting_bind_eq_ok_iff, counting_pure_eq_ok_iff] at h
    obtain ⟨value, between, hvalue, others, last, hothers, rfl, rfl⟩ := h
    rw [List.flatMap_cons, List.flatMap_cons]
    exact (hf item before value between hvalue).append (ih hothers)

/-- The link to an entry of the table of contents. -/
def pointLink (layout : Layout) (point : NavPoint) : Except Fault String :=
  linkTo layout point.idref point.fragment .contents

/-- The link to a page. -/
def pageLink (layout : Layout) (page : PageTarget) : Except Fault String :=
  linkTo layout page.idref page.fragment (.page page.id)

/-- The link to a target of a list. -/
def listTargetLink (layout : Layout) (item : NavTarget) : Except Fault String :=
  linkTo layout item.idref item.fragment .navLists

mutual

/-- A tree plays its root, and then what is below. -/
theorem plays_numberTree : ∀ {tree : NavTree} {entry : Entry} {before after : Numbering},
    numberTree layout tree before = .ok (entry, after) →
      Plays before after (tree.points.map (pointLink layout)) (targetElements (entryElement entry))
  | .node point children, entry, before, after, h => by
    simp only [numberTree, counting_bind_eq_ok_iff, counting_pure_eq_ok_iff] at h
    obtain ⟨made, between, hmade, below, stop, hbelow, rfl, rfl⟩ := h
    rw [entryElement, targetElements_target (by decide), List.flatMap_append,
      targetElements_targetChildren, List.nil_append, NavTree.points, List.map_cons]
    exact (plays_target (fun _ => order_of_newId) hmade (source?_target _ _ _ _) rfl).append
      (plays_numberForest hbelow)

theorem plays_numberForest : ∀ {forest : List NavTree} {entries : List Entry}
    {before after : Numbering}, numberForest layout forest before = .ok (entries, after) →
      Plays before after ((NavTree.pointsAll forest).map (pointLink layout))
        ((entryElements entries).flatMap targetElements)
  | [], entries, before, after, h => by
    rw [numberForest, counting_pure_eq_ok_iff] at h
    obtain ⟨rfl, rfl⟩ := h
    exact .refl before
  | tree :: rest, entries, before, after, h => by
    simp only [numberForest, counting_bind_eq_ok_iff, counting_pure_eq_ok_iff] at h
    obtain ⟨entry, between, hentry, others, stop, hothers, rfl, rfl⟩ := h
    rw [entryElements, List.flatMap_cons, NavTree.pointsAll, List.map_append]
    exact (plays_numberTree hentry).append (plays_numberForest hothers)

end

theorem plays_numberPage {page : PageTarget} {made : Page} {before after : Numbering}
    (h : numberPage layout page before = .ok (made, after)) :
    Plays before after [pageLink layout page] (targetElements (pageElement made)) := by
  simp only [numberPage, counting_bind_eq_ok_iff, counting_pure_eq_ok_iff] at h
  obtain ⟨target, between, htarget, rfl, rfl⟩ := h
  rw [pageElement, targetElements_target (by decide), targetElements_targetChildren]
  refine plays_target (fun between hpure => ?_) htarget ?_ ?_
  · rw [(counting_pure_eq_ok_iff.mp hpure).2]
  · rw [← List.append_nil (targetChildren target)]
    exact source?_target _ _ _ _
  · cases page.value <;> rfl

theorem plays_numberPages {pages : Option (List PageTarget)} {made : Option (List Page)}
    {before after : Numbering}
    (h : pages.mapM (·.mapM (numberPage layout)) before = .ok (made, after)) :
    Plays before after ((pages.getD []).map (pageLink layout))
      ((pageListElement made).flatMap targetElements) := by
  rcases of_mapM_pages h with ⟨rfl, rfl, rfl⟩ | ⟨items, values, rfl, rfl, hrun⟩
  · exact .refl before
  · rw [pageListElement, Option.map_some, Option.toList_some, List.flatMap_singleton,
      targetElements_other (by decide), List.flatMap_map, Option.getD_some, List.map_eq_flatMap]
    exact plays_mapM (fun page => [pageLink layout page]) (fun page => targetElements (pageElement page))
      (fun page start made stop => plays_numberPage) hrun

theorem plays_numberList {navList : NavList} {made : TargetList} {before after : Numbering}
    (h : numberList layout navList before = .ok (made, after)) :
    Plays before after (navList.targets.map (listTargetLink layout))
      (targetElements (listElement made)) := by
  simp only [numberList, counting_bind_eq_ok_iff, counting_pure_eq_ok_iff] at h
  obtain ⟨targets, between, htargets, rfl, rfl⟩ := h
  have htarget : ∀ target : Target,
      targetElements (listTargetElement target) = [listTargetElement target] := by
    intro target
    rw [listTargetElement, targetElements_target (by decide), targetElements_targetChildren]
  rw [listElement, targetElements_other (by decide), List.flatMap_append, targetElements_labels,
    List.nil_append, List.flatMap_map, List.map_eq_flatMap]
  simp only [htarget]
  refine plays_mapM (fun item => [listTargetLink layout item]) (fun target => [listTargetElement target])
    (fun item start made stop hmade => ?_) htargets
  refine plays_target (fun _ => order_of_newId) hmade ?_ rfl
  rw [listTargetElement, ← List.append_nil (targetChildren made)]
  exact source?_target _ _ _ _

/-! ## 3. The document -/

/-- The links to all places that the document leads to: the table of contents, each entry before those
below it, the pages, the lists. -/
def allLinks (layout : Layout) (book : Book) (contents : List NavTree) :
    List (Except Fault String) :=
  (NavTree.pointsAll contents).map (pointLink layout) ++
    (book.pages.getD []).map (pageLink layout) ++
    (book.navLists.getD []).flatMap fun navList => navList.targets.map (listTargetLink layout)

/-- The targets of a document are played in order. -/
structure PlaysInOrder (links : List (Except Fault String)) (root : Element) : Prop where
  /-- Each of the places has one target, and there are no others. -/
  whole : List.Forall₂ (fun link target => ∃ href, link = .ok href ∧ source? target = some href)
    links (targetElements root)
  /-- Two targets have the same place in the play order exactly if they lead to the same place. -/
  same_iff : ∀ left ∈ targetElements root, ∀ right ∈ targetElements root,
    playOrder? left = playOrder? right ↔ source? left = source? right
  /-- At the first targets that lead to a place, the play order counts up from one. -/
  counted : ∃ count,
    firstValues [] ((targetElements root).map fun target => (source? target, playOrder? target)) =
      (List.range' 1 count).map fun number => some (toString number)

/-- What is played from the start plays in order. -/
theorem playsInOrder_of_plays {before after : Numbering} {links : List (Except Fault String)}
    {root : Element} (hstart : before.order = .start)
    (h : Plays before after links (targetElements root)) : PlaysInOrder links root := by
  obtain ⟨hrefs, numbers, rfl, hrun, hsources, horders⟩ := h
  rw [hstart] at hrun
  have hnumbers : numbers = hrefs.map after.order.place := by
    have h := PlayOrder.numbers_run .start hrefs
    rwa [hrun] at h
  have hinjective : ∀ left ∈ hrefs, ∀ right,
      after.order.place left = after.order.place right ↔ left = right := by
    intro left hleft right
    have h : (PlayOrder.start.run hrefs).2.place left = (PlayOrder.start.run hrefs).2.place right ↔
        left = right := PlayOrder.place_run_inj _ hleft
    rwa [hrun] at h
  have hshown : ∀ target ∈ targetElements root, ∃ href ∈ hrefs, source? target = some href ∧
      playOrder? target = some (toString (after.order.place href)) := by
    have hplaced : (targetElements root).map (fun target => (source? target, playOrder? target)) =
        hrefs.map fun href => (some href, some (toString (after.order.place href))) := by
      rw [← List.zip_map', hsources, horders, hnumbers, List.map_map, List.zip_map']
      rfl
    intro target htarget
    have hpair := List.mem_map_of_mem (f := fun target => (source? target, playOrder? target)) htarget
    rw [hplaced] at hpair
    obtain ⟨href, hhref, heq⟩ := List.mem_map.mp hpair
    exact ⟨href, hhref, (congrArg Prod.fst heq).symm, (congrArg Prod.snd heq).symm⟩
  constructor
  · rw [← List.forall₂_eq_eq_eq, List.forall₂_map_left_iff, List.forall₂_map_right_iff] at hsources
    rw [List.forall₂_map_left_iff]
    exact hsources.flip.imp fun href target h => ⟨href, rfl, h⟩
  · intro left hleft right hright
    obtain ⟨href, hhref, hsource, horder⟩ := hshown left hleft
    obtain ⟨other, -, hsource', horder'⟩ := hshown right hright
    rw [hsource, hsource', horder, horder', Option.some.injEq, Option.some.injEq,
      ← hinjective href hhref other]
    exact ⟨FreshName.toString_nat_injective, congrArg toString⟩
  · obtain ⟨count, hcount⟩ := PlayOrder.firstValues_run .start hrefs
    rw [hrun] at hcount
    refine ⟨count, ?_⟩
    have hpairs : (targetElements root).map (fun target => (source? target, playOrder? target)) =
        (hrefs.zip numbers).map (Prod.map some fun number => some (toString number)) := by
      rw [← List.zip_map', hsources, horders, List.zip_map]
    have hfirst := firstValues_map (fun number : Nat => some (toString number))
      (fun _ _ => Option.some.inj) PlayOrder.start.links (hrefs.zip numbers)
    rw [← hpairs, hcount] at hfirst
    exact hfirst

/-- The targets of a document: those of the table of contents, of the pages and of the lists. -/
theorem targetElements_rootOf {head : Element} (hhead : targetElements head = []) (title : String)
    (targets : Targets) : targetElements (rootOf head title targets) =
      (entryElements targets.contents).flatMap targetElements ++
        (pageListElement targets.pages).flatMap targetElements ++
        targets.lists.flatMap fun targetList => targetElements (listElement targetList) := by
  have hcontents : targetElements (.branch "navMap" [] (entryElements targets.contents)) =
      (entryElements targets.contents).flatMap targetElements := targetElements_other (by decide)
  rw [rootOf, targetElements_other (by decide), List.flatMap_append, List.flatMap_append,
    List.flatMap_map, List.flatMap_cons, List.flatMap_cons, List.flatMap_singleton, hhead, hcontents]
  rfl

/-- Every navigation document that is written plays in order. -/
theorem playsInOrder_of_element {metadata : Metadata} {firstLinear : String} {root : Element}
    (h : element layout book metadata firstLinear = .ok root) :
    PlaysInOrder (allLinks layout book (contentsOf book metadata.title firstLinear)) root := by
  obtain ⟨maxPage, targets, -, -, htargets, rfl⟩ := element_eq_ok_iff.mp h
  obtain ⟨entered, paged, after, hentries, hpages, hlists⟩ := of_targets_eq_ok htargets
  have hplays := ((plays_numberForest hentries).append (plays_numberPages hpages)).append
    (plays_mapM (fun navList : NavList => navList.targets.map (listTargetLink layout))
      (fun targetList => targetElements (listElement targetList))
      (fun navList start made stop => plays_numberList) hlists)
  have hhead : targetElements (headOf book metadata firstLinear maxPage) = [] := rfl
  rw [← targetElements_rootOf hhead metadata.title] at hplays
  exact playsInOrder_of_plays rfl hplays

/-- **The navigation document plays in order.**  Whatever a recipe links to, however often, a reader finds
one target for each place, in the order of the document; two targets have the same place in the play
order exactly if their links are equal; and at the first appearances of the different links the play
order counts 1, 2, 3 and so on, without a gap. -/
theorem navigation_plays_in_order {body : Value} (hread : Book.ofValue body = .ok book)
    (environment : Environment) (freshId firstLinear : String) {text : String}
    (htext : Navigation.text (Layout.of book) book
      (Metadata.resolve environment freshId book.metadata) firstLinear = .ok text) :
    ∃ root, ReadsBack text root ∧
      PlaysInOrder (allLinks (Layout.of book) book
        (contentsOf book (Metadata.resolve environment freshId book.metadata).title firstLinear))
        root := by
  have hbook := (Book.wellFormed_of_ofValue hread).legalParts
  obtain ⟨root, hroot, hreads⟩ :=
    Navigation.readsBack_text hbook (Metadata.legal_title hbook.metadata) htext
  exact ⟨root, hreads, playsInOrder_of_element hroot⟩

/-- A book that leads to three places of one page, and to two of them more than once. -/
def repeatingBook : Book :=
  { Validation.pageBook with
    contents := [
      .node { label := .simple "One", idref := "page" } [
        .node { label := .simple "Two", idref := "page", fragment := some "two" } [
          .node { label := .simple "Two again", idref := "page", fragment := some "two" } []]],
      .node { label := .several ⟨"Start", some "en"⟩ [⟨"Anfang", some "de"⟩], idref := "page" } []]
    pages := some [
      { label := .simple "1", id := "p1", kind := .normal, idref := "page",
        fragment := some "two" },
      { label := .simple "2", id := "p2", kind := .normal, idref := "page", fragment := some "" }]
    navLists := some [⟨.simple "Figures",
      [{ label := .simple "Three", idref := "page", fragment := some "three" }]⟩] }

theorem repeatingBook_accepted : Validation.Accepts (Layout.of repeatingBook) repeatingBook :=
  Validation.accepts_of_first rfl (by decide) rfl
    (Validation.checkPaths_eq_ok_iff.mpr (by decide +kernel))
    (Validation.checkIdentifiers_eq_ok_iff.mpr (by decide +kernel)) (by decide +kernel)
    (Validation.resolve_of_lookup (by decide +kernel)) (by simp)

theorem repeatingBook_text : ∃ text, Navigation.text (Layout.of repeatingBook) repeatingBook
    (Metadata.resolve ⟨"", none⟩ "BookId" repeatingBook.metadata) "page" = .ok text := by
  have hread : Book.ofValue repeatingBook.toValue = .ok repeatingBook := rfl
  have hbook := (Book.wellFormed_of_ofValue hread).legalParts
  have hlinear : ∀ referrer, ∃ path,
      (Layout.of repeatingBook).itemPath "page" referrer = .ok path := fun _ => ⟨_, rfl⟩
  exact exists_text repeatingBook_accepted hbook (Metadata.legal_title hbook.metadata) rfl hlinear rfl

theorem repeatingBook_plays_in_order :
    Book.ofValue repeatingBook.toValue = .ok repeatingBook ∧ ∃ text root,
      Navigation.text (Layout.of repeatingBook) repeatingBook
        (Metadata.resolve ⟨"", none⟩ "BookId" repeatingBook.metadata) "page" = .ok text ∧
      ReadsBack text root ∧
      PlaysInOrder (allLinks (Layout.of repeatingBook) repeatingBook repeatingBook.contents) root := by
  have hread : Book.ofValue repeatingBook.toValue = .ok repeatingBook := rfl
  obtain ⟨text, htext⟩ := repeatingBook_text
  obtain ⟨root, hreads, hplays⟩ := navigation_plays_in_order hread ⟨"", none⟩ "BookId" "page" htext
  exact ⟨hread, text, root, htext, hreads, hplays⟩

end Bindery.Document.Navigation
