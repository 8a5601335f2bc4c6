/-
# When the navigation document can be written

What a run of a step that counts has done is read off from what its steps have done
(`counting_bind_eq_ok_iff`).  All that the targets take over from a book is legal, and so is what is made
for them, so all that is written is legal (`legal_of_element`).  Numbering the targets never stops on its
own account, only where a link cannot be written, and in an accepted book every link can
(`exists_targets`).  The head holds the greatest page number, and a numeral can be too long to become a
number: that is the only thing that stops the navigation document of an accepted book (`element_cases`).
-/
import Bindery.Document.Navigation
import Bindery.Proofs.FreshName
import Bindery.Proofs.Layout.Legal
import Bindery.Proofs.Metadata

namespace Bindery.Document.Navigation

open Xml

variable {book : Book} {layout : Layout} {α β : Type}

/-! ## 1. Steps that count -/

theorem counting_bind_eq_ok_iff {step : Counting α} {next : α → Counting β} {before : Numbering}
    {result : β × Numbering} : (step >>= next) before = .ok result ↔
      ∃ a between, step before = .ok (a, between) ∧ next a between = .ok result := by
  have hrun : (step >>= next) before = step before >>= fun pair => next pair.1 pair.2 := rfl
  rw [hrun, bind_eq_ok_iff, Prod.exists]

theorem counting_pure_eq_ok_iff {a b : α} {before after : Numbering} :
    (pure a : Counting α) before = .ok (b, after) ↔ a = b ∧ before = after := by
  have hrun : (pure a : Counting α) before = .ok (a, before) := rfl
  rw [hrun, Except.ok.injEq, Prod.mk.injEq]

theorem counting_lift_eq_ok_iff {x : Except Fault α} {a : α} {before after : Numbering} :
    (liftM x : Counting α) before = .ok (a, after) ↔ x = .ok a ∧ before = after := by
  have hrun : (liftM x : Counting α) before = x >>= fun a => pure (a, before) := rfl
  rw [hrun, bind_eq_ok_iff]
  simp [pure_eq_ok_iff]

theorem counting_modifyGet_eq_ok_iff {f : Numbering → α × Numbering} {result : α × Numbering}
    {before : Numbering} : (modifyGet f : Counting α) before = .ok result ↔ f before = result := by
  have hrun : (modifyGet f : Counting α) before = .ok (f before) := rfl
  rw [hrun, Except.ok.injEq]

/-- A walk over a list gives a value for each item, at some count. -/
theorem forall₂_of_counting_mapM {f : α → Counting β} : ∀ {items : List α} {values : List β}
    {before after : Numbering}, items.mapM f before = .ok (values, after) →
      List.Forall₂ (fun item value => ∃ start stop, f item start = .ok (value, stop)) items values
  | [], values, before, after, h => by
    rw [List.mapM_nil, counting_pure_eq_ok_iff] at h
    rw [← h.1]
    exact .nil
  | item :: rest, values, before, after, h => by
    simp only [List.mapM_cons, counting_bind_eq_ok_iff, counting_pure_eq_ok_iff] at h
    obtain ⟨first, between, hfirst, others, last, hothers, rfl, -⟩ := h
    exact .cons ⟨before, between, hfirst⟩ (forall₂_of_counting_mapM hothers)

/-- Every value that a walk over a list gives comes from one of its items. -/
theorem exists_of_mem_counting_mapM {f : α → Counting β} {items : List α} {values : List β}
    {before after : Numbering} (h : items.mapM f before = .ok (values, after)) :
    ∀ value ∈ values, ∃ item ∈ items, ∃ start stop, f item start = .ok (value, stop) := by
  have hall := forall₂_of_counting_mapM h
  clear h
  induction hall with
  | nil => exact fun _ h => nomatch h
  | @cons item value items values hrun _ ih =>
    refine List.forall_mem_cons.mpr ⟨⟨item, List.mem_cons_self, hrun⟩, fun other hother => ?_⟩
    obtain ⟨source, hsource, hother⟩ := ih other hother
    exact ⟨source, List.mem_cons_of_mem _ hsource, hother⟩

/-- Whatever has been counted before, a step gives a value. -/
def Succeeds (step : Counting α) : Prop :=
  ∀ before, ∃ a after, step before = .ok (a, after)

theorem Succeeds.pure (a : α) : Succeeds (pure a) :=
  fun before => ⟨a, before, rfl⟩

theorem Succeeds.bind {step : Counting α} {next : α → Counting β} (h : Succeeds step)
    (hnext : ∀ a, Succeeds (next a)) : Succeeds (step >>= next) := by
  intro before
  obtain ⟨a, between, hstep⟩ := h before
  obtain ⟨b, after, hb⟩ := hnext a between
  exact ⟨b, after, counting_bind_eq_ok_iff.mpr ⟨a, between, hstep, hb⟩⟩

theorem Succeeds.lift {x : Except Fault α} (h : ∃ a, x = .ok a) :
    Succeeds (liftM x : Counting α) := by
  obtain ⟨a, rfl⟩ := h
  exact fun before => ⟨a, before, rfl⟩

theorem Succeeds.modifyGet (f : Numbering → α × Numbering) : Succeeds (modifyGet f) :=
  fun before => ⟨(f before).1, (f before).2, rfl⟩

theorem Succeeds.mapM {f : α → Counting β} : ∀ {items : List α},
    (∀ item ∈ items, Succeeds (f item)) → Succeeds (items.mapM f)
  | [], _ => by
    rw [List.mapM_nil]
    exact .pure []
  | item :: rest, h => by
    rw [List.forall_mem_cons] at h
    rw [List.mapM_cons]
    exact h.1.bind fun value => (Succeeds.mapM h.2).bind fun values => .pure (value :: values)

/-! ## 2. Targets -/

/-- What a target is made of: its labels are those of the recipe, its link was found, its identifier came
from its source, and its link was looked up in the play order. -/
theorem of_target_eq_ok {id : Counting String} {label : Label} {link : Except Fault String}
    {made : Target} {before after : Numbering} (h : target id label link before = .ok (made, after)) :
    made.labels = label.labels ∧ link = .ok made.link ∧
      ∃ between, id before = .ok (made.id, between) ∧
        between.playNumber made.link = (made.order, after) := by
  simp only [target, counting_bind_eq_ok_iff, counting_lift_eq_ok_iff, counting_pure_eq_ok_iff,
    counting_modifyGet_eq_ok_iff] at h
  obtain ⟨href, start, ⟨hlink, rfl⟩, name, between, hid, order, stop, horder, rfl, rfl⟩ := h
  exact ⟨rfl, hlink, between, hid, horder⟩

/-- A target all of whose texts are legal. -/
structure Target.Legal (target : Target) : Prop where
  id : isLegalText target.id = true
  labels : ∀ label ∈ target.labels, AllLegal (label.text :: label.lang.toList)
  link : isLegalText target.link = true

theorem legal_of_newId {stem id : String} {before after : Numbering}
    (hstem : isLegalText stem = true) (h : newId stem before = .ok (id, after)) :
    isLegalText id = true := by
  rw [newId, counting_modifyGet_eq_ok_iff] at h
  have hfresh : FreshName.fresh (stem ++ "-" ++ toString
      (((IdSupply.countUp stem before.ids.counts).lookup stem).getD 1)) before.ids.taken = id :=
    congrArg Prod.fst h
  rw [← hfresh]
  refine FreshName.legal_fresh ?_ _
  rw [isLegalText_append, isLegalText_append, hstem, isLegalText_toString_nat]
  rfl

theorem legal_of_target (hbook : book.LegalParts) {id : Counting String} {label : Label}
    {idref : String} {fragment : Option String} {referrer : Referrer} {made : Target}
    {before after : Numbering}
    (hid : ∀ name between, id before = .ok (name, between) → isLegalText name = true)
    (hlabel : AllLegal label.texts) (hfragment : AllLegal fragment.toList)
    (h : target id label (linkTo (Layout.of book) idref fragment referrer) before =
      .ok (made, after)) : made.Legal := by
  obtain ⟨hlabels, hlink, between, hname, -⟩ := of_target_eq_ok h
  refine ⟨hid _ _ hname, ?_, Layout.legal_itemLink hbook hlink hfragment⟩
  rw [hlabels]
  exact allLegal_flatMap.mp hlabel

theorem legal_labelElement {label : NavLabel} (h : AllLegal (label.text :: label.lang.toList)) :
    (labelElement label).isLegal = true := by
  obtain ⟨htext, hlang⟩ := allLegal_cons.mp h
  rw [labelElement, Element.isLegal_branch]
  refine ⟨?_, by simpa [Element.isLegal_leaf] using htext⟩
  cases hvalue : label.lang with
  | none => simp
  | some lang => simpa [hvalue] using hlang

theorem Target.Legal.children {target : Target} (h : target.Legal) :
    ∀ child ∈ targetChildren target, child.isLegal = true := by
  intro child hchild
  rcases List.mem_append.mp hchild with hchild | hchild
  · obtain ⟨label, hlabel, rfl⟩ := List.mem_map.mp hchild
    exact legal_labelElement (h.labels label hlabel)
  · rw [List.mem_singleton.mp hchild]
    simpa [Element.isLegal_branch] using h.link

theorem legal_orderAttribute (target : Target) :
    isLegalText (orderAttribute target).value = true :=
  isLegalText_toString_nat _

/-! ## 3. What is written is legal -/

/-- The texts that an entry of the table of contents takes over are legal. -/
structure LegalPoint (point : NavPoint) : Prop where
  label : AllLegal point.label.texts
  fragment : AllLegal point.fragment.toList

mutual

theorem legal_of_numberTree (hbook : book.LegalParts) : ∀ {tree : NavTree} {entry : Entry}
    {before after : Numbering}, (∀ point ∈ tree.points, LegalPoint point) →
      numberTree (Layout.of book) tree before = .ok (entry, after) →
      (entryElement entry).isLegal = true
  | .node point children, entry, before, after, hpoints, h => by
    rw [NavTree.points, List.forall_mem_cons] at hpoints
    simp only [numberTree, counting_bind_eq_ok_iff, counting_pure_eq_ok_iff] at h
    obtain ⟨made, between, hmade, below, stop, hbelow, rfl, -⟩ := h
    have hlegal := legal_of_target hbook (fun _ _ => legal_of_newId (by decide)) hpoints.1.label
      hpoints.1.fragment hmade
    have hchildren := legal_of_numberForest hbook hpoints.2 hbelow
    rw [entryElement, Element.isLegal_branch]
    simp only [List.forall_mem_cons, List.forall_mem_append, List.not_mem_nil, false_implies,
      implies_true, and_true]
    exact ⟨⟨hlegal.id, legal_orderAttribute made⟩, hlegal.children,
      Element.allLegal_iff.mp hchildren⟩

theorem legal_of_numberForest (hbook : book.LegalParts) : ∀ {forest : List NavTree}
    {entries : List Entry} {before after : Numbering},
    (∀ point ∈ NavTree.pointsAll forest, LegalPoint point) →
      numberForest (Layout.of book) forest before = .ok (entries, after) →
      Element.allLegal (entryElements entries) = true
  | [], entries, before, after, _, h => by
    rw [numberForest, counting_pure_eq_ok_iff] at h
    rw [← h.1]
    rfl
  | tree :: rest, entries, before, after, hpoints, h => by
    rw [NavTree.pointsAll, List.forall_mem_append] at hpoints
    simp only [numberForest, counting_bind_eq_ok_iff, counting_pure_eq_ok_iff] at h
    obtain ⟨entry, between, hentry, others, stop, hothers, rfl, -⟩ := h
    rw [entryElements, Element.allLegal, legal_of_numberTree hbook hpoints.1 hentry,
      legal_of_numberForest hbook hpoints.2 hothers]
    rfl

end

theorem legal_of_numberPage (hbook : book.LegalParts) {page : PageTarget}
    (hpage : AllLegal page.texts) {made : Page} {before after : Numbering}
    (h : numberPage (Layout.of book) page before = .ok (made, after)) :
    (pageElement made).isLegal = true := by
  simp only [PageTarget.texts, targetTexts, allLegal_append, allLegal_cons] at hpage
  obtain ⟨⟨hid, hvalue⟩, hlabel, -, hfragment⟩ := hpage
  simp only [numberPage, counting_bind_eq_ok_iff, counting_pure_eq_ok_iff] at h
  obtain ⟨target, between, htarget, rfl, -⟩ := h
  have hname : ∀ name between,
      (pure page.id : Counting String) before = .ok (name, between) → isLegalText name = true := by
    intro name between hpure
    rw [← (counting_pure_eq_ok_iff.mp hpure).1]
    exact hid
  have hlegal := legal_of_target hbook hname hlabel hfragment htarget
  have hkind : isLegalText page.kind.name = true := by cases page.kind <;> decide
  rw [pageElement, Element.isLegal_branch]
  refine ⟨?_, hlegal.children⟩
  simp only [List.forall_mem_append, List.forall_mem_cons, List.not_mem_nil, false_implies,
    implies_true, and_true]
  refine ⟨⟨⟨hlegal.id, hkind⟩, ?_⟩, legal_orderAttribute target⟩
  cases hsome : page.value with
  | none => simp
  | some value => simpa [hsome] using hvalue

theorem legal_of_numberList (hbook : book.LegalParts) {navList : NavList}
    (hnavList : AllLegal navList.texts) {made : TargetList} {before after : Numbering}
    (h : numberList (Layout.of book) navList before = .ok (made, after)) :
    (listElement made).isLegal = true := by
  rw [NavList.texts, allLegal_append, allLegal_flatMap] at hnavList
  simp only [numberList, counting_bind_eq_ok_iff, counting_pure_eq_ok_iff] at h
  obtain ⟨targets, between, htargets, rfl, -⟩ := h
  rw [listElement, Element.isLegal_branch]
  refine ⟨by simp, fun child hchild => ?_⟩
  rcases List.mem_append.mp hchild with hchild | hchild
  · obtain ⟨label, hmem, rfl⟩ := List.mem_map.mp hchild
    exact legal_labelElement (allLegal_flatMap.mp hnavList.1 label hmem)
  · obtain ⟨target, htarget, rfl⟩ := List.mem_map.mp hchild
    obtain ⟨item, hitem, start, stop, hrun⟩ := exists_of_mem_counting_mapM htargets target htarget
    have htexts := hnavList.2 item hitem
    rw [targetTexts, allLegal_append, allLegal_cons] at htexts
    have hlegal := legal_of_target hbook (fun _ _ => legal_of_newId (by decide)) htexts.1
      htexts.2.2 hrun
    rw [listTargetElement, Element.isLegal_branch]
    refine ⟨?_, hlegal.children⟩
    simp only [List.forall_mem_cons, List.not_mem_nil, false_implies, implies_true, and_true]
    exact ⟨hlegal.id, legal_orderAttribute target⟩

/-- All elements that are made of some targets are legal. -/
structure Targets.Legal (targets : Targets) : Prop where
  contents : ∀ element ∈ entryElements targets.contents, element.isLegal = true
  pages : ∀ element ∈ pageListElement targets.pages, element.isLegal = true
  lists : ∀ element ∈ targets.lists.map listElement, element.isLegal = true

/-- The targets of a book in the order in which they are numbered. -/
theorem of_targets_eq_ok {contents : List NavTree} {targets : Targets}
    (h : Targets.of layout book contents = .ok targets) :
    ∃ entered paged after,
      numberForest layout contents (.beside ((book.pages.getD []).map (·.id))) =
        .ok (targets.contents, entered) ∧
      book.pages.mapM (·.mapM (numberPage layout)) entered = .ok (targets.pages, paged) ∧
      (book.navLists.getD []).mapM (numberList layout) paged = .ok (targets.lists, after) := by
  obtain ⟨⟨counted, after⟩, hcount, hcounted⟩ := map_eq_ok_iff.mp h
  obtain rfl : counted = targets := hcounted
  simp only [Targets.count, counting_bind_eq_ok_iff, counting_pure_eq_ok_iff] at hcount
  obtain ⟨entries, entered, hentries, pages, paged, hpages, lists, stop, hlists, rfl, rfl⟩ := hcount
  exact ⟨entered, paged, stop, hentries, hpages, hlists⟩

/-- The pages of a recipe that has pages, in order. -/
theorem of_mapM_pages {pages : Option (List PageTarget)} {made : Option (List Page)}
    {before after : Numbering}
    (h : pages.mapM (·.mapM (numberPage layout)) before = .ok (made, after)) :
    (pages = none ∧ made = none ∧ before = after) ∨
      ∃ items values, pages = some items ∧ made = some values ∧
        items.mapM (numberPage layout) before = .ok (values, after) := by
  cases pages with
  | none =>
    rw [Option.mapM_none, counting_pure_eq_ok_iff] at h
    exact .inl ⟨rfl, h.1.symm, h.2⟩
  | some items =>
    rw [Option.mapM_some, map_eq_pure_bind] at h
    simp only [counting_bind_eq_ok_iff, counting_pure_eq_ok_iff] at h
    obtain ⟨values, between, hvalues, rfl, rfl⟩ := h
    exact .inr ⟨items, values, rfl, rfl, hvalues⟩

theorem legal_of_targets (hbook : book.LegalParts) {contents : List NavTree} {targets : Targets}
    (hcontents : ∀ point ∈ NavTree.pointsAll contents, LegalPoint point)
    (h : Targets.of (Layout.of book) book contents = .ok targets) : targets.Legal := by
  obtain ⟨entered, paged, after, hentries, hpages, hlists⟩ := of_targets_eq_ok h
  constructor
  · exact Element.allLegal_iff.mp (legal_of_numberForest hbook hcontents hentries)
  · rcases of_mapM_pages hpages with ⟨-, hnone, -⟩ | ⟨items, values, hitems, hvalues, hrun⟩
    · rw [hnone]
      exact fun _ h => nomatch h
    · rw [hvalues, pageListElement, Option.map_some, Option.toList_some, List.forall_mem_singleton,
        Element.isLegal_branch]
      refine ⟨by simp, List.forall_mem_map.mpr fun page hpage => ?_⟩
      obtain ⟨item, hitem, start, stop, hmade⟩ := exists_of_mem_counting_mapM hrun page hpage
      exact legal_of_numberPage hbook (hbook.pages item (by simpa [hitems] using hitem)) hmade
  · refine List.forall_mem_map.mpr fun targetList hlist => ?_
    obtain ⟨navList, hnavList, start, stop, hmade⟩ :=
      exists_of_mem_counting_mapM hlists targetList hlist
    exact legal_of_numberList hbook (hbook.navLists navList hnavList) hmade

/-! ## 4. Numbering never stops -/

theorem succeeds_newId (stem : String) : Succeeds (newId stem) :=
  .modifyGet _

theorem succeeds_target {id : Counting String} {label : Label} {link : Except Fault String}
    (hid : Succeeds id) (hlink : ∃ href, link = .ok href) : Succeeds (target id label link) :=
  (Succeeds.lift hlink).bind fun _ => hid.bind fun _ => (Succeeds.modifyGet _).bind fun _ => .pure _

mutual

theorem succeeds_numberTree : ∀ {tree : NavTree}, (∀ point ∈ tree.points,
    ∃ href, linkTo layout point.idref point.fragment .contents = .ok href) →
      Succeeds (numberTree layout tree)
  | .node point children, h => by
    rw [NavTree.points, List.forall_mem_cons] at h
    rw [numberTree]
    exact (succeeds_target (succeeds_newId _) h.1).bind fun _ =>
      (succeeds_numberForest h.2).bind fun _ => .pure _

theorem succeeds_numberForest : ∀ {forest : List NavTree}, (∀ point ∈ NavTree.pointsAll forest,
    ∃ href, linkTo layout point.idref point.fragment .contents = .ok href) →
      Succeeds (numberForest layout forest)
  | [], _ => by
    rw [numberForest]
    exact .pure _
  | tree :: rest, h => by
    rw [NavTree.pointsAll, List.forall_mem_append] at h
    rw [numberForest]
    exact (succeeds_numberTree h.1).bind fun _ => (succeeds_numberForest h.2).bind fun _ => .pure _

end

theorem exists_targets {contents : List NavTree}
    (hcontents : ∀ point ∈ NavTree.pointsAll contents,
      ∃ href, linkTo layout point.idref point.fragment .contents = .ok href)
    (hpages : ∀ page ∈ book.pages.getD [],
      ∃ href, linkTo layout page.idref page.fragment (.page page.id) = .ok href)
    (hlists : ∀ navList ∈ book.navLists.getD [], ∀ item ∈ navList.targets,
      ∃ href, linkTo layout item.idref item.fragment .navLists = .ok href) :
    ∃ targets, Targets.of layout book contents = .ok targets := by
  have hpageLists : Succeeds (book.pages.mapM (·.mapM (numberPage layout))) := by
    cases hsome : book.pages with
    | none => exact .pure none
    | some pages =>
      rw [hsome] at hpages
      rw [Option.mapM_some, map_eq_pure_bind]
      refine Succeeds.bind (.mapM fun page hpage => ?_) fun _ => .pure _
      exact (succeeds_target (.pure _) (hpages page hpage)).bind fun _ => .pure _
  have hcount : Succeeds (Targets.count layout book contents) := by
    refine (succeeds_numberForest hcontents).bind fun _ => hpageLists.bind fun _ =>
      Succeeds.bind (.mapM fun navList hnavList => ?_) fun _ => .pure _
    exact Succeeds.bind (.mapM fun item hitem =>
      succeeds_target (succeeds_newId _) (hlists navList hnavList item hitem)) fun _ => .pure _
  obtain ⟨targets, after, hrun⟩ := hcount (.beside ((book.pages.getD []).map (·.id)))
  exact ⟨targets, map_eq_ok_iff.mpr ⟨_, hrun, rfl⟩⟩

/-! ## 5. Page numbers -/

/-- The value of a page is a numeral of more digits than can become a number. -/
def HasLongNumeral (page : PageTarget) : Prop :=
  ∃ text digits, page.value = some text ∧ Text.numeralDigits? text = some digits ∧
    4300 < digits.length

theorem pageNumber?_cases (page : PageTarget) :
    (HasLongNumeral page ∧ pageNumber? page = .error .numeralTooLong) ∨
      (¬ HasLongNumeral page ∧ ∃ number, pageNumber? page = .ok number) := by
  unfold pageNumber?
  split
  · rename_i hnone
    refine .inr ⟨?_, none, rfl⟩
    rintro ⟨text, digits, hvalue, hdigits, -⟩
    rw [hvalue, Option.bind_some, hdigits] at hnone
    cases hnone
  · rename_i digits hsome
    obtain ⟨text, hvalue, hdigits⟩ := Option.bind_eq_some_iff.mp hsome
    split
    · rename_i hlong
      exact .inl ⟨⟨text, digits, hvalue, hdigits, hlong⟩, rfl⟩
    · rename_i hshort
      refine .inr ⟨?_, _, rfl⟩
      rintro ⟨text', digits', hvalue', hdigits', hlong⟩
      obtain rfl : text = text' := Option.some.inj (hvalue.symm.trans hvalue')
      obtain rfl : digits = digits' := Option.some.inj (hdigits.symm.trans hdigits')
      exact hshort hlong

/-- The greatest page number is found, or a numeral is too long for it. -/
theorem maxPageNumber_cases (pages : List PageTarget) :
    ((∃ page ∈ pages, HasLongNumeral page) ∧ maxPageNumber pages = .error .numeralTooLong) ∨
      ((∀ page ∈ pages, ¬ HasLongNumeral page) ∧ ∃ number, maxPageNumber pages = .ok number) := by
  cases hnumbers : pages.mapM pageNumber? with
  | error fault =>
    obtain ⟨page, hpage, hfault⟩ := exists_of_mapM_eq_error hnumbers
    rcases pageNumber?_cases page with ⟨hlong, herror⟩ | ⟨-, number, hok⟩
    · obtain rfl : fault = .numeralTooLong := Except.error.inj (hfault.symm.trans herror)
      refine .inl ⟨⟨page, hpage, hlong⟩, ?_⟩
      rw [maxPageNumber, hnumbers]
      rfl
    · rw [hok] at hfault
      cases hfault
  | ok numbers =>
    refine .inr ⟨fun page hpage hlong => ?_, (numbers.filterMap id).foldl max 0, ?_⟩
    · obtain ⟨number, -, hok⟩ := exists_of_mapM_mem hnumbers hpage
      rcases pageNumber?_cases page with ⟨-, herror⟩ | ⟨hshort, -⟩
      · rw [hok] at herror
        cases herror
      · exact hshort hlong
    · rw [maxPageNumber, hnumbers]
      rfl

/-! ## 6. The document -/

theorem legal_metaElement {name content : String} (hname : isLegalText name = true)
    (hcontent : isLegalText content = true) : (metaElement name content).isLegal = true := by
  simp [metaElement, Element.isLegal_branch, hname, hcontent]

theorem legal_headElement {identifier : String} (h : isLegalText identifier = true)
    (depth pageCount maxPage : Nat) :
    (headElement identifier depth pageCount maxPage).isLegal = true := by
  rw [headElement, Element.isLegal_branch]
  simp only [List.forall_mem_cons, List.not_mem_nil, false_implies, implies_true, and_true,
    true_and]
  exact ⟨legal_metaElement (by decide) h, legal_metaElement (by decide) (isLegalText_toString_nat _),
    legal_metaElement (by decide) (isLegalText_toString_nat _),
    legal_metaElement (by decide) (isLegalText_toString_nat _)⟩

/-- The head of a book with a greatest page number. -/
def headOf (book : Book) (metadata : Metadata) (firstLinear : String) (maxPage : Nat) : Element :=
  headElement metadata.identifier (NavTree.depthAll (contentsOf book metadata.title firstLinear))
    (book.pages.getD []).length maxPage

/-- The root of the document with some targets below a head. -/
def rootOf (head : Element) (title : String) (targets : Targets) : Element :=
  .branch "ncx" [⟨"xmlns", xmlNamespace⟩, ⟨"version", "2005-1"⟩]
    ([head, .branch "docTitle" [] [.leaf "text" [] title],
      .branch "navMap" [] (entryElements targets.contents)] ++
      pageListElement targets.pages ++ targets.lists.map listElement)

/-- **A navigation document is written** if there is a greatest page number, the head is legal and the
targets can be numbered; then all of them stand in it. -/
theorem element_eq_ok_iff {metadata : Metadata} {firstLinear : String} {root : Element} :
    element layout book metadata firstLinear = .ok root ↔
      ∃ maxPage targets, maxPageNumber (book.pages.getD []) = .ok maxPage ∧
        (headOf book metadata firstLinear maxPage).isLegal = true ∧
        Targets.of layout book (contentsOf book metadata.title firstLinear) = .ok targets ∧
        root = rootOf (headOf book metadata firstLinear maxPage) metadata.title targets := by
  simp only [element, bind_eq_ok_iff]
  constructor
  · rintro ⟨maxPage, hmax, h⟩
    split at h
    · cases h
    · rename_i hlegal
      obtain ⟨targets, htargets, h⟩ := bind_eq_ok_iff.mp h
      exact ⟨maxPage, targets, hmax, by simpa [headOf] using hlegal, htargets,
        (pure_eq_ok_iff.mp h).symm⟩
  · rintro ⟨maxPage, targets, hmax, hlegal, htargets, rfl⟩
    refine ⟨maxPage, hmax, ?_⟩
    rw [headOf] at hlegal
    rw [hlegal]
    exact bind_eq_ok_iff.mpr ⟨targets, htargets, rfl⟩

/-- The texts of the table of contents that is written are the recipe's, or the title. -/
theorem legal_contentsOf (hbook : book.LegalParts) {title firstLinear : String}
    (htitle : isLegalText title = true) :
    ∀ point ∈ NavTree.pointsAll (contentsOf book title firstLinear), LegalPoint point := by
  intro point hpoint
  unfold contentsOf at hpoint
  split at hpoint
  · have hpoint : point = { label := .simple title, idref := firstLinear } := by
      simpa [NavTree.pointsAll, NavTree.points] using hpoint
    rw [hpoint]
    exact ⟨by simpa [Label.texts, Label.labels] using htitle, by simp⟩
  · have htexts := allLegal_flatMap.mp hbook.contents point hpoint
    rw [targetTexts, allLegal_append, allLegal_cons] at htexts
    exact ⟨htexts.1, htexts.2.2⟩

/-- **A navigation document that is written is legal**, whatever its identifier is. -/
theorem legal_of_element (hbook : book.LegalParts) {metadata : Metadata} {firstLinear : String}
    (htitle : isLegalText metadata.title = true) {root : Element}
    (h : element (Layout.of book) book metadata firstLinear = .ok root) : root.isLegal = true := by
  obtain ⟨maxPage, targets, -, hhead, htargets, rfl⟩ := element_eq_ok_iff.mp h
  have hlegal := legal_of_targets hbook (legal_contentsOf hbook htitle) htargets
  have hnamespace : isLegalText xmlNamespace = true := by decide
  have hversion : isLegalText "2005-1" = true := by decide
  rw [rootOf, Element.isLegal_branch]
  simp only [List.forall_mem_cons, List.forall_mem_append, List.not_mem_nil, false_implies,
    implies_true, and_true]
  refine ⟨⟨hnamespace, hversion⟩, ⟨⟨hhead, ?_, ?_⟩, hlegal.pages⟩, hlegal.lists⟩
  · simpa [Element.isLegal_branch, Element.isLegal_leaf] using htitle
  · rw [Element.isLegal_branch]
    exact ⟨by simp, hlegal.contents⟩

section Accepted

variable (haccepts : Validation.Accepts (Layout.of book) book)

include haccepts

theorem exists_linkTo {idref : String} (fragment : Option String) {referrer : Referrer}
    (hpath : ∃ path, (Layout.of book).itemPath idref referrer = .ok path) :
    ∃ href, linkTo (Layout.of book) idref fragment referrer = .ok href :=
  Layout.exists_itemLink haccepts _ fragment hpath

/-- Every entry of the table of contents that is written can be linked to. -/
theorem exists_linkTo_contents {title firstLinear : String}
    (hlinear : ∀ referrer, ∃ path, (Layout.of book).itemPath firstLinear referrer = .ok path) :
    ∀ point ∈ NavTree.pointsAll (contentsOf book title firstLinear),
      ∃ href, linkTo (Layout.of book) point.idref point.fragment .contents = .ok href := by
  intro point hpoint
  unfold contentsOf at hpoint
  split at hpoint
  · have hpoint : point = { label := .simple title, idref := firstLinear } := by
      simpa [NavTree.pointsAll, NavTree.points] using hpoint
    rw [hpoint]
    exact exists_linkTo haccepts _ (hlinear .contents)
  · have hreference : (point.idref, Referrer.contents) ∈ Validation.references book :=
      Validation.mem_references.mpr (.inr (.inr (.inl ⟨point, hpoint, rfl⟩)))
    exact exists_linkTo haccepts _ (haccepts.exists_itemPath hreference .contents)

theorem exists_linkTo_page {page : PageTarget} (hpage : page ∈ book.pages.getD []) :
    ∃ href, linkTo (Layout.of book) page.idref page.fragment (.page page.id) = .ok href := by
  have hreference : (page.idref, Referrer.page page.id) ∈ Validation.references book :=
    Validation.mem_references.mpr (.inr (.inr (.inr (.inl ⟨page, hpage, rfl⟩))))
  exact exists_linkTo haccepts _ (haccepts.exists_itemPath hreference _)

theorem exists_linkTo_list {navList : NavList} (hnavList : navList ∈ book.navLists.getD [])
    {item : NavTarget} (hitem : item ∈ navList.targets) :
    ∃ href, linkTo (Layout.of book) item.idref item.fragment .navLists = .ok href := by
  have hreference : (item.idref, Referrer.navLists) ∈ Validation.references book :=
    Validation.mem_references.mpr
      (.inr (.inr (.inr (.inr ⟨navList, hnavList, item, hitem, rfl⟩))))
  exact exists_linkTo haccepts _ (haccepts.exists_itemPath hreference _)

/-- **The navigation document of an accepted book can be written**, and all its texts are legal,
unless a page has a numeral that is too long; then that is what stops it. -/
theorem element_cases (hbook : book.LegalParts) {metadata : Metadata} {firstLinear : String}
    (htitle : isLegalText metadata.title = true)
    (hidentifier : isLegalText metadata.identifier = true)
    (hlinear : ∀ referrer, ∃ path, (Layout.of book).itemPath firstLinear referrer = .ok path) :
    ((∃ page ∈ book.pages.getD [], HasLongNumeral page) ∧
        element (Layout.of book) book metadata firstLinear = .error .numeralTooLong) ∨
      ((∀ page ∈ book.pages.getD [], ¬ HasLongNumeral page) ∧
        ∃ root, element (Layout.of book) book metadata firstLinear = .ok root ∧
          root.isLegal = true) := by
  rcases maxPageNumber_cases (book.pages.getD []) with ⟨hlong, herror⟩ | ⟨hshort, maxPage, hmax⟩
  · refine .inl ⟨hlong, ?_⟩
    simp [element, herror, bind, Except.bind]
  · refine .inr ⟨hshort, ?_⟩
    obtain ⟨targets, htargets⟩ := exists_targets (exists_linkTo_contents haccepts hlinear)
      (fun page hpage => exists_linkTo_page haccepts hpage)
      (fun navList hnavList item hitem => exists_linkTo_list haccepts hnavList hitem)
    have hok := element_eq_ok_iff.mpr
      ⟨maxPage, targets, hmax, legal_headElement hidentifier _ _ _, htargets, rfl⟩
    exact ⟨_, hok, legal_of_element hbook htitle hok⟩

/-- The navigation document of an accepted book can be written if there is a greatest page number. -/
theorem exists_text (hbook : book.LegalParts) {metadata : Metadata} {firstLinear : String}
    (htitle : isLegalText metadata.title = true)
    (hidentifier : isLegalText metadata.identifier = true)
    (hlinear : ∀ referrer, ∃ path, (Layout.of book).itemPath firstLinear referrer = .ok path)
    {number : Nat} (hnumber : maxPageNumber (book.pages.getD []) = .ok number) :
    ∃ text, Navigation.text (Layout.of book) book metadata firstLinear = .ok text := by
  rcases element_cases haccepts hbook htitle hidentifier hlinear with
    ⟨⟨page, hpage, hlong⟩, -⟩ | ⟨-, root, hroot, -⟩
  · rcases maxPageNumber_cases (book.pages.getD []) with ⟨-, herror⟩ | ⟨hshort, -⟩
    · rw [hnumber] at herror
      cases herror
    · exact absurd hlong (hshort page hpage)
  · exact ⟨root.document, map_eq_ok_iff.mpr ⟨root, hroot, rfl⟩⟩

end Accepted
end Bindery.Document.Navigation
