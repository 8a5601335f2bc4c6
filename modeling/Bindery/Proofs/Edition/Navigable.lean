/-
# A reader finds its way through a book

The container, the package and the navigation document are written apart and lead to one another: from
the container to the package document, from its spine to the navigation document, and from there, where
the recipe has no table of contents, to where the reading order starts (`navigable_of_make`).
-/
import Bindery.Proofs.Document.Parts
import Bindery.Proofs.Edition.Identifiers
import Bindery.Proofs.Edition.Manifest

namespace Bindery.Edition

open Document Text Xml

variable {environment : Environment} {reader : Reader} {book : Book} {edition : Edition}

/-! ## 1. Entries that hold a text -/

/-- An entry of the archive holds a text, and no other entry has its name. -/
def Holds (edition : Edition) (name text : String) : Prop :=
  ∃ method, edition.entries.filter (·.name == name) = [⟨name, method, text.toUTF8⟩]

theorem holds_of_mem {planned : List String} (h : Archive.SafelyNamed planned edition.entries)
    {name text : String} (hname : '\x00' ∉ name.toList)
    (hmem : Archive.Entry.ofFile (name, text.toUTF8) ∈ edition.entries) :
    edition.Holds name text := by
  have hnodup : (edition.entries.filterMap (some ∘ Archive.Entry.name)).Nodup := by
    rw [List.filterMap_eq_map]
    exact h.names_nodup
  have hentry : Archive.Entry.ofFile (name, text.toUTF8) =
      ⟨name, .for text.toUTF8, text.toUTF8⟩ := by
    rw [Archive.Entry.ofFile, Archive.recordedName_eq hname]
  rw [hentry] at hmem
  have hkey : (some ∘ Archive.Entry.name) ⟨name, .for text.toUTF8, text.toUTF8⟩ = some name := rfl
  exact ⟨_, filter_eq_singleton hkey hnodup hmem⟩

/-- The three documents of a book are in its archive, each at its own path. -/
theorem holds_documents (hbook : book.LegalParts) (h : make environment reader book = .ok edition) :
    edition.Holds containerPath edition.container ∧
      edition.Holds (Layout.of book).packagePath edition.package ∧
      edition.Holds (Layout.of book).navigationPath edition.navigation := by
  obtain ⟨files, -, hsafe⟩ := safelyNamed_make hbook h
  obtain ⟨-, firstLinear, found, package, navigation, -, -, -, -, rfl⟩ := make_eq_ok_iff.mp h
  have hmem : ∀ document ∈ documents (Layout.of book) book package navigation,
      Archive.Entry.ofFile document ∈
        Archive.pack (found ++ documents (Layout.of book) book package navigation) := by
    intro document hdocument
    exact List.mem_cons_of_mem _ (List.mem_map_of_mem (List.mem_append_right _ hdocument))
  refine ⟨holds_of_mem hsafe (by decide) (hmem _ (by simp [documents])), ?_, ?_⟩
  · exact holds_of_mem hsafe (not_nul_of_legal (Layout.legal_packagePath hbook))
      (hmem _ (by simp [documents]))
  · exact holds_of_mem hsafe (not_nul_of_legal (Layout.legal_navigationPath hbook))
      (hmem _ (by simp [documents]))

/-! ## 2. From the package to its parts -/

section Package

variable {metadata : Metadata} {package : Element}

/-- The navigation document has one element in the package document, which leads to it. -/
theorem navigation_item (haccepts : Validation.Accepts (Layout.of book) book)
    (h : Package.element (Layout.of book) book metadata = .ok package) (hids : package.ids.Nodup) :
    ∃ item href, package.having "id" (Layout.of book).navigationId = [item] ∧ item.name = "item" ∧
      item.attribute? "media-type" = some navigationMediaType ∧ item.attribute? "href" = some href ∧
      EntryPath.follow (Layout.of book).packagePath href = (Layout.of book).navigationPath := by
  obtain ⟨manifest, spine, guide, hmanifest, -, -, rfl⟩ := Package.of_element_eq_ok h
  obtain ⟨item, items, hitem, -, rfl⟩ := Package.manifestElement_eq_ok_iff.mp hmanifest
  obtain ⟨href, hhref, hfollow⟩ := href?_navigationItem haccepts hitem
  obtain ⟨link, -, rfl⟩ := Package.navigationItem_eq_ok_iff.mp hitem
  refine ⟨_, href, Element.having_id_eq_singleton hids ?_ rfl, rfl, rfl, hhref, hfollow⟩
  refine Element.mem_subtree_of_child (List.mem_cons_of_mem _ List.mem_cons_self) ?_
  exact Element.mem_subtree_of_child List.mem_cons_self (Element.mem_subtree_self _)

/-- An item that is referred to has one element in the package document, which leads to its path. -/
theorem referenced_item (haccepts : Validation.Accepts (Layout.of book) book)
    (h : Package.element (Layout.of book) book metadata = .ok package) (hids : package.ids.Nodup)
    {idref path : String} {referrer : Referrer}
    (hpath : (Layout.of book).itemPath idref referrer = .ok path) :
    ∃ item href, package.having "id" idref = [item] ∧ item.name = "item" ∧
      item.attribute? "href" = some href ∧
      EntryPath.follow (Layout.of book).packagePath href = path := by
  obtain ⟨source, hsource, rfl, hjoin⟩ := Layout.of_itemPath_eq_ok hpath
  obtain ⟨manifest, spine, guide, hmanifest, -, -, rfl⟩ := Package.of_element_eq_ok h
  obtain ⟨navigation, items, -, hitems, rfl⟩ := Package.manifestElement_eq_ok_iff.mp hmanifest
  obtain ⟨item, hitem, hok⟩ := exists_of_mapM_mem hitems hsource
  obtain ⟨href, hhref, hfollow⟩ := href?_itemElement haccepts hsource hok
  rw [← hjoin] at hfollow
  obtain ⟨path, -, link, -, rfl⟩ := Package.itemElement_eq_ok_iff.mp hok
  refine ⟨_, href, Element.having_id_eq_singleton hids ?_ rfl, rfl, hhref, hfollow⟩
  refine Element.mem_subtree_of_child (List.mem_cons_of_mem _ List.mem_cons_self) ?_
  exact Element.mem_subtree_of_child (List.mem_cons_of_mem _ hitem) (Element.mem_subtree_self _)

end Package

/-! ## 3. Where the reading order starts -/

theorem linear_itemref (entry : Spine.Entry) :
    ((Package.itemref entry).attribute? "linear" != some "no") =
      decide (entry.linear ≠ some false) := by
  obtain ⟨idref, linear⟩ := entry
  cases linear with
  | none => rfl
  | some mark => cases mark <;> rfl

/-- The first item of the reading order that is not marked is the one of the recipe. -/
theorem find?_itemref {metadata : Metadata} {package : Element} {firstLinear : String}
    (h : Package.element (Layout.of book) book metadata = .ok package)
    (hlinear : Spine.firstLinear book = .ok firstLinear) :
    (∃ path, (Layout.of book).itemPath firstLinear .spine = .ok path) ∧
      ∃ itemref, (package.named "itemref").find? (·.attribute? "linear" != some "no") =
        some itemref ∧ itemref.attribute? "idref" = some firstLinear := by
  obtain ⟨entries, hentries, hpaths, -, hitemrefs⟩ := Package.spine_of_element h
  obtain ⟨entries', hentries', hfirst⟩ := bind_eq_ok_iff.mp hlinear
  obtain rfl : entries = entries' := Except.ok.inj (hentries.symm.trans hentries')
  split at hfirst
  · rename_i entry hentry
    cases hfirst
    refine ⟨hpaths entry (List.mem_of_find?_eq_some hentry), Package.itemref entry, ?_, rfl⟩
    rw [hitemrefs, List.find?_map]
    have hmarks : ((·.attribute? "linear" != some "no") ∘ Package.itemref) =
        fun entry : Spine.Entry => decide (entry.linear ≠ some false) := funext linear_itemref
    rw [hmarks, hentry]
    rfl
  · cases hfirst

/-- The entry that is made for a book without a table of contents leads to where the reading order
starts. -/
theorem default_entry {metadata : Metadata} {navigation : Element} {firstLinear : String}
    (haccepts : Validation.Accepts (Layout.of book) book) (hcontents : book.contents = [])
    (h : Navigation.element (Layout.of book) book metadata firstLinear = .ok navigation) :
    ∃ point src path, navigation.named "navPoint" = [point] ∧
      (point.named "content").filterMap (·.attribute? "src") = [src] ∧
      (Layout.of book).itemPath firstLinear .contents = .ok path ∧
      EntryPath.follow (Layout.of book).navigationPath src = path := by
  obtain ⟨maxPage, targets, -, -, htargets, rfl⟩ := Navigation.element_eq_ok_iff.mp h
  obtain ⟨entered, paged, after, hentries, -, -⟩ := Navigation.of_targets_eq_ok htargets
  rw [Navigation.contentsOf, hcontents] at hentries
  obtain ⟨made, hmade, hlabels, hlink⟩ := Navigation.of_numberForest_singleton hentries
  obtain ⟨path, hpath, hlink⟩ := bind_eq_ok_iff.mp hlink
  obtain ⟨href, hhref, hlink⟩ := bind_eq_ok_iff.mp hlink
  obtain rfl : href = made.link := Except.ok.inj hlink
  refine ⟨Navigation.entryElement (.node made []), made.link, path, ?_, ?_, hpath,
    follow_link haccepts.navigationPath_valid (haccepts.itemPath_valid hpath) hhref⟩
  · have hhead : (Navigation.headOf book metadata firstLinear maxPage).named "navPoint" = [] := rfl
    rw [Navigation.named_rootOf (by decide) (by decide), hhead, hmade,
      Navigation.named_entryElements_singleton]
    rfl
  · rw [Navigation.entryElement, Navigation.targetChildren, hlabels]
    rfl

/-! ## 4. The whole way -/

/-- A reader that knows how books are made finds its way through one. -/
structure Navigable (book : Book) (edition : Edition) (container package navigation : Element) :
    Prop where
  /-- The three documents are read as these elements. -/
  container_read : ReadsBack edition.container container
  package_read : ReadsBack edition.package package
  navigation_read : ReadsBack edition.navigation navigation
  container_held : edition.Holds containerPath edition.container
  /-- The container lists the package document. -/
  package_found : ∃ rootfile path,
    (container.named "rootfile").find? (·.attribute? "media-type" == some packageMediaType) =
      some rootfile ∧
    rootfile.attribute? "full-path" = some path ∧ path = (Layout.of book).packagePath ∧
    edition.Holds path edition.package
  /-- The spine names an item of the manifest that leads to the navigation document. -/
  navigation_found : ∃ spine toc item href, package.named "spine" = [spine] ∧
    spine.attribute? "toc" = some toc ∧ package.having "id" toc = [item] ∧ item.name = "item" ∧
    item.attribute? "media-type" = some navigationMediaType ∧ item.attribute? "href" = some href ∧
    EntryPath.follow (Layout.of book).packagePath href = (Layout.of book).navigationPath ∧
    edition.Holds (EntryPath.follow (Layout.of book).packagePath href) edition.navigation
  /-- Without a table of contents, the one entry leads to where the reading order starts. -/
  start_found : book.contents = [] → ∃ point src itemref idref item href,
    navigation.named "navPoint" = [point] ∧
    (point.named "content").filterMap (·.attribute? "src") = [src] ∧
    (package.named "itemref").find? (·.attribute? "linear" != some "no") = some itemref ∧
    itemref.attribute? "idref" = some idref ∧ package.having "id" idref = [item] ∧
    item.name = "item" ∧ item.attribute? "href" = some href ∧
    (Layout.of book).itemPath idref .spine =
      .ok (EntryPath.follow (Layout.of book).navigationPath src) ∧
    EntryPath.follow (Layout.of book).packagePath href =
      EntryPath.follow (Layout.of book).navigationPath src

/-- **A reader finds its way through every book that is made.** -/
theorem navigable_of_make {body : Value} (hread : Book.ofValue body = .ok book)
    (hmake : make environment reader book = .ok edition) :
    ∃ container package navigation, Navigable book edition container package navigation := by
  have hbook := (Book.wellFormed_of_ofValue hread).legalParts
  obtain ⟨hcontainerHeld, hpackageHeld, hnavigationHeld⟩ := holds_documents hbook hmake
  obtain ⟨haccepts, firstLinear, files, package, navigation, hlinear, -, hpackage, hnavigation, rfl⟩ :=
    make_eq_ok_iff.mp hmake
  obtain ⟨packageRoot, hpackageRoot, hpackageRead⟩ := Package.readsBack_text hbook hpackage
  obtain ⟨navigationRoot, hnavigationRoot, hnavigationRead⟩ :=
    Navigation.readsBack_text hbook (Metadata.legal_title hbook.metadata) hnavigation
  have hids := (nodup_package_ids haccepts hpackageRoot).of_map
  refine ⟨_, packageRoot, navigationRoot, Container.readsBack_text hbook _, hpackageRead,
    hnavigationRead, hcontainerHeld, ?_, ?_, fun hcontents => ?_⟩
  · refine ⟨Container.rootfileElement ⟨(Layout.of book).packagePath, packageMediaType⟩, _, ?_, rfl,
      rfl, hpackageHeld⟩
    rw [Container.named_element, List.find?_map]
    have htypes : ((·.attribute? "media-type" == some packageMediaType) ∘ Container.rootfileElement) =
        fun rootfile : Rootfile => rootfile.mediaType == packageMediaType := rfl
    rw [htypes, Container.find?_rootfiles]
    rfl
  · obtain ⟨entries, -, -, hspine, -⟩ := Package.spine_of_element hpackageRoot
    obtain ⟨item, href, hitem, hname, htype, hhref, hfollow⟩ :=
      navigation_item haccepts hpackageRoot hids
    refine ⟨_, _, item, href, hspine, rfl, hitem, hname, htype, hhref, hfollow, ?_⟩
    rw [hfollow]
    exact hnavigationHeld
  · obtain ⟨-, itemref, hitemref, hidref⟩ := find?_itemref hpackageRoot hlinear
    obtain ⟨point, src, path, hpoint, hsrc, hpath, hfollow⟩ :=
      default_entry haccepts hcontents hnavigationRoot
    obtain ⟨item, href, hitem, hname, hhref, hpackageFollow⟩ :=
      referenced_item haccepts hpackageRoot hids hpath
    refine ⟨point, src, itemref, firstLinear, item, href, hpoint, hsrc, hitemref, hidref, hitem,
      hname, hhref, ?_, ?_⟩
    · rw [hfollow]
      exact Layout.itemPath_referrer hpath .spine
    · rw [hpackageFollow, hfollow]

theorem pageBook_navigable : Book.ofValue Validation.pageBook.toValue = .ok Validation.pageBook ∧
    Validation.pageBook.contents = [] ∧ ∃ edition container package navigation,
      make plainEnvironment pageReader Validation.pageBook = .ok edition ∧
        Navigable Validation.pageBook edition container package navigation := by
  have hread : Book.ofValue Validation.pageBook.toValue = .ok Validation.pageBook := rfl
  obtain ⟨edition, hmake⟩ := exists_make_pageBook
  obtain ⟨container, package, navigation, hnavigable⟩ := navigable_of_make hread hmake
  exact ⟨hread, rfl, edition, container, package, navigation, hmake, hnavigable⟩

end Bindery.Edition
