/-
# The package document carries the recipe

Each element of the package document has a fixed list of attributes, some of which may be left out
(`Carries`), and the elements stand in the order of the recipe.  So a reader of the document gets back
what the recipe says: the metadata with all that their elements take, and warnings for the rest; the
items with links to where they are; the reading order; and the guide (`package_carries_recipe`).
-/
import Bindery.Proofs.Edition.Manifest
import Bindery.Proofs.Document.ReadBack
import Bindery.Proofs.Xml.Query

namespace Bindery.Document.Package

open Xml

variable {book : Book} {layout : Layout} {metadata : Metadata}

/-! ## 1. Attributes that may be left out -/

/-- The attributes that have a value, in order. -/
def valued (pairs : List (String × Option String)) : List Attribute :=
  pairs.flatMap fun pair => optionalAttribute pair.1 pair.2

/-- An element has the attributes of some names, each if it has a value, and no others. -/
structure Carries (pairs : List (String × Option String)) (element : Element) : Prop where
  values : ∀ pair ∈ pairs, element.attribute? pair.1 = pair.2
  only : ∀ attr ∈ element.attributes, attr.name ∈ pairs.map (·.1)

theorem name_of_mem_valued {pairs : List (String × Option String)} :
    ∀ attr ∈ valued pairs, attr.name ∈ pairs.map (·.1) := by
  intro attr hattr
  obtain ⟨pair, hpair, hmem⟩ := List.mem_flatMap.mp hattr
  rw [optionalAttribute, Option.mem_toList, Option.map_eq_some_iff] at hmem
  obtain ⟨value, -, rfl⟩ := hmem
  exact List.mem_map_of_mem hpair

theorem find?_optionalAttribute_self (name : String) (value : Option String) :
    (optionalAttribute name value).find? (·.name == name) = value.map (Attribute.mk name) := by
  cases value with
  | none => rfl
  | some text => simp [optionalAttribute]

theorem find?_eq_none_of_name {attributes : List Attribute} {name : String}
    (h : ∀ attr ∈ attributes, attr.name ≠ name) :
    attributes.find? (·.name == name) = none := by
  rw [List.find?_eq_none]
  intro attr hattr heq
  exact h attr hattr (beq_iff_eq.mp heq)

/-- Where no name comes twice, each attribute is found under its name. -/
theorem find?_valued {pairs : List (String × Option String)} (hnodup : (pairs.map (·.1)).Nodup) :
    ∀ pair ∈ pairs, (valued pairs).find? (·.name == pair.1) =
      pair.2.map (Attribute.mk pair.1) := by
  induction pairs with
  | nil => exact fun _ h => nomatch h
  | cons first rest ih =>
    rw [List.map_cons, List.nodup_cons] at hnodup
    intro pair hpair
    rw [valued, List.flatMap_cons, List.find?_append, ← valued]
    rcases List.mem_cons.mp hpair with rfl | hpair
    · have hrest : (valued rest).find? (·.name == pair.1) = none :=
        find?_eq_none_of_name fun attr hattr heq =>
          hnodup.1 (heq ▸ name_of_mem_valued attr hattr)
      rw [find?_optionalAttribute_self, hrest, Option.or_none]
    · have hfirst : (optionalAttribute first.1 first.2).find? (·.name == pair.1) = none := by
        refine find?_eq_none_of_name fun attr hattr heq => hnodup.1 ?_
        rw [optionalAttribute, Option.mem_toList, Option.map_eq_some_iff] at hattr
        obtain ⟨value, -, rfl⟩ := hattr
        exact List.mem_map.mpr ⟨pair, hpair, heq.symm⟩
      rw [hfirst, Option.none_or, ih hnodup.2 pair hpair]

/-- An element whose attributes are those of `pairs` carries them, if their names are different. -/
theorem carries_of_attributes (names : List String) {pairs : List (String × Option String)}
    {element : Element} (h : element.attributes = valued pairs) (hnames : pairs.map (·.1) = names)
    (hnodup : names.Nodup) : Carries pairs element := by
  constructor
  · intro pair hpair
    rw [Element.attribute?, h, find?_valued (hnames ▸ hnodup) pair hpair]
    cases pair.2 <;> rfl
  · rw [h]
    exact name_of_mem_valued

/-! ## 2. Metadata -/

/-- The keys of the attributes that an element takes besides an id. -/
def takes : DublinCore → List String
  | .identifier => ["scheme"]
  | .creator | .contributor => ["file-as", "role", "lang"]
  | .date => ["event"]
  | .title | .subject | .description | .publisher | .source | .relation | .coverage | .rights =>
    ["lang"]
  | .language | .type | .format => []

/-- What a recipe may say about a statement: the key there, the name in the document, the value. -/
def supplied (statement : Statement) : List (String × String × Option String) :=
  [("scheme", "opf:scheme", statement.scheme), ("file-as", "opf:file-as", statement.fileAs),
   ("role", "opf:role", statement.role), ("event", "opf:event", statement.event),
   ("lang", "xml:lang", statement.lang)]

/-- The attributes of a statement: its id, unless that is empty, and what its element takes. -/
def statementAttributes (statement : Statement) : List (String × Option String) :=
  ("id", statement.id.filter (· ≠ "")) :: (supplied statement).map fun (key, name, value) =>
    (name, if key ∈ takes statement.element then value else none)

/-- An element shows an item of the metadata. -/
def ShowsMetadatum : Metadatum → Element → Prop
  | .custom name content, element =>
    element.name = "opf:meta" ∧ Carries [("name", some name), ("content", some content)] element
  | .core statement, element =>
    element.name = "dc:" ++ statement.element.name ∧ element.content = statement.content ∧
      Carries (statementAttributes statement) element

/-- A key of a statement that has a value which the element does not take. -/
def LeftOut (statement : Statement) (key : String) : Prop :=
  key ∉ takes statement.element ∧ ∃ name value, (key, name, some value) ∈ supplied statement

/-- What an item of the metadata is warned of: the keys that are left out, each once, and nothing else. -/
def Warns : Metadatum → Option Warning → Prop
  | .custom _ _, warning => warning = none
  | .core statement, warning =>
    (∀ key, LeftOut statement key ↔ ∃ given, warning = some given ∧ key ∈ given.ignored) ∧
      ∀ given, warning = some given →
        given.element = statement.element ∧ given.ignored ≠ [] ∧ given.ignored.Nodup

theorem filterMap_attribute? (qualifiers : List Qualifier) :
    qualifiers.filterMap Qualifier.attribute? = valued (qualifiers.map fun qualifier =>
      (qualifier.name, if qualifier.applies then qualifier.value else none)) := by
  rw [List.filterMap_eq_flatMap_toList, valued, List.flatMap_map]
  refine List.flatMap_congr fun qualifier _ => ?_
  rw [Qualifier.attribute?, optionalAttribute]
  split <;> rfl

/-- The attributes that a statement qualifies for are those that its element takes. -/
theorem attributes_qualifiers (statement : Statement) :
    ((qualifiers statement).map fun qualifier =>
      (qualifier.name, if qualifier.applies then qualifier.value else none)) =
    (supplied statement).map fun (key, name, value) =>
      (name, if key ∈ takes statement.element then value else none) := by
  obtain ⟨element, content, id, scheme, fileAs, role, event, lang⟩ := statement
  cases element <;> rfl

/-- The keys of a statement that have a value which its element does not take, in order. -/
def leftOut (statement : Statement) : List String :=
  (supplied statement).filterMap fun (key, _, value) =>
    if key ∈ takes statement.element then none else value.map fun _ => key

theorem mem_leftOut {statement : Statement} {key : String} :
    key ∈ leftOut statement ↔ LeftOut statement key := by
  rw [leftOut, List.mem_filterMap]
  constructor
  · rintro ⟨⟨other, name, value⟩, hmem, h⟩
    simp only [Option.ite_none_left_eq_some, Option.map_eq_some_iff] at h
    obtain ⟨htakes, text, rfl, rfl⟩ := h
    exact ⟨htakes, name, text, hmem⟩
  · rintro ⟨htakes, name, value, hmem⟩
    refine ⟨_, hmem, ?_⟩
    simp [htakes]

/-- Where a choice gives an entry its key or nothing, what it gives is a part of the keys. -/
theorem filterMap_sublist_map {α β : Type} {choice : α → Option β} {key : α → β}
    (h : ∀ entry chosen, choice entry = some chosen → chosen = key entry) (entries : List α) :
    (entries.filterMap choice).Sublist (entries.map key) := by
  induction entries with
  | nil => exact .refl _
  | cons entry rest ih =>
    rw [List.filterMap_cons, List.map_cons]
    split
    · exact ih.cons _
    · rename_i chosen hchosen
      rw [h entry chosen hchosen]
      exact ih.cons_cons _

theorem nodup_leftOut (statement : Statement) : (leftOut statement).Nodup := by
  have hkeys : ((supplied statement).map (·.1)).Nodup :=
    (by decide : ["scheme", "file-as", "role", "event", "lang"].Nodup)
  refine (filterMap_sublist_map ?_ (supplied statement)).nodup hkeys
  intro entry chosen hchosen
  simp only [Option.ite_none_left_eq_some, Option.map_eq_some_iff] at hchosen
  obtain ⟨-, -, -, rfl⟩ := hchosen
  rfl

/-- **An item gets the warning that it should get**, and no other. -/
theorem warns_warning? (item : Metadatum) : Warns item (warning? item) := by
  cases item with
  | custom name content => rfl
  | core statement =>
    have hignored : (qualifiers statement).filterMap Qualifier.ignored? = leftOut statement := by
      obtain ⟨element, content, id, scheme, fileAs, role, event, lang⟩ := statement
      cases element <;> rfl
    have hmem : ∀ key, key ∈ leftOut statement ↔ LeftOut statement key := fun _ => mem_leftOut
    have hnodup := nodup_leftOut statement
    rw [warning?, hignored]
    cases hkeys : leftOut statement with
    | nil =>
      rw [hkeys] at hmem
      refine ⟨fun key => ?_, fun given h => nomatch h⟩
      rw [← hmem]
      simp
    | cons first rest =>
      rw [hkeys] at hmem hnodup
      refine ⟨fun key => ?_, fun given h => ?_⟩
      · rw [← hmem]
        simp
      · obtain rfl := Option.some.inj h
        exact ⟨rfl, List.cons_ne_nil _ _, hnodup⟩

theorem showsMetadatum_metadatumElement (item : Metadatum) :
    ShowsMetadatum item (metadatumElement item) := by
  cases item with
  | custom name content =>
    exact ⟨rfl, carries_of_attributes ["name", "content"] rfl rfl (by decide)⟩
  | core statement =>
    refine ⟨rfl, rfl, carries_of_attributes ["id", "opf:scheme", "opf:file-as", "opf:role",
      "opf:event", "xml:lang"] ?_ rfl (by decide)⟩
    rw [metadatumElement, Element.attributes, filterMap_attribute?, attributes_qualifiers]
    rfl

/-- The elements of the metadata show its items one for one. -/
theorem forall₂_metadatumElement (items : List Metadatum) :
    List.Forall₂ ShowsMetadatum items (items.map metadatumElement) := by
  rw [List.forall₂_map_right_iff, List.forall₂_same]
  exact fun item _ => showsMetadatum_metadatumElement item

/-- The warnings are those of the items, in their order. -/
def WarnsOfRest (metadata : Metadata) : Prop :=
  ∃ given : List (Option Warning), List.Forall₂ Warns metadata.items given ∧
    warnings metadata = given.filterMap id

theorem warnsOfRest (metadata : Metadata) : WarnsOfRest metadata := by
  refine ⟨metadata.items.map warning?, ?_, ?_⟩
  · rw [List.forall₂_map_right_iff, List.forall₂_same]
    exact fun item _ => warns_warning? item
  · rw [List.filterMap_map]
    rfl

/-! ## 3. Manifest, reading order and guide -/

/-- An element shows the navigation document, and leads to it. -/
def ShowsNavigation (layout : Layout) (element : Element) : Prop :=
  ∃ href, element.name = "item" ∧
    Carries [("id", some layout.navigationId), ("href", some href),
      ("media-type", some navigationMediaType)] element ∧
    EntryPath.follow layout.packagePath href = layout.navigationPath

/-- An element shows an item of the manifest, and leads to its path. -/
def ShowsItem (layout : Layout) (item : ManifestItem) (element : Element) : Prop :=
  ∃ href, element.name = "item" ∧
    Carries [("id", some item.id), ("href", some href), ("media-type", some item.mediaType),
      ("fallback", item.fallback), ("fallback-style", item.fallbackStyle),
      ("required-namespace", item.requiredNamespace),
      ("required-modules", item.requiredModules)] element ∧
    layout.itemPath item.id .manifest = .ok (EntryPath.follow layout.packagePath href)

/-- An element shows an item of the reading order, with a mark if it is not linear. -/
def ShowsEntry (idref : String) (linear : Option Bool) (element : Element) : Prop :=
  element.name = "itemref" ∧
    Carries [("idref", some idref), ("linear", if linear = some false then some "no" else none)]
      element

/-- Elements show the reading order: that of the recipe, or the first item that may stand there. -/
def ShowsOrder (book : Book) (elements : List Element) : Prop :=
  match book.spine with
  | some items =>
    List.Forall₂ (fun item element => ShowsEntry item.idref item.linear element) items elements
  | none => ∃ item element, Spine.IsFirstEligible book book.manifest item ∧
      elements = [element] ∧ ShowsEntry item.id none element

/-- An element shows a reference of the guide, with the link to its fragment. -/
def ShowsReference (layout : Layout) (reference : GuideReference) (element : Element) : Prop :=
  ∃ href, element.name = "reference" ∧
    Carries [("type", some reference.type), ("title", reference.title), ("href", some href)]
      element ∧
    layout.itemLink layout.packagePath reference.idref reference.fragment .guide = .ok href

/-- Elements show the guide, if there is one. -/
def ShowsGuide (layout : Layout) (book : Book) (elements : List Element) : Prop :=
  match book.guide with
  | none => elements = []
  | some references => ∃ element, elements = [element] ∧
      List.Forall₂ (ShowsReference layout) references element.children

theorem showsEntry_itemref (entry : Spine.Entry) :
    ShowsEntry entry.idref entry.linear (itemref entry) := by
  refine ⟨rfl, carries_of_attributes ["idref", "linear"] ?_ rfl (by decide)⟩
  rw [itemref, Element.attributes]
  split <;> rfl

/-- The elements of the reading order show it. -/
theorem showsOrder_of_entries {entries : List Spine.Entry} (h : Spine.entries book = .ok entries) :
    ShowsOrder book (entries.map itemref) := by
  unfold Spine.entries at h
  unfold ShowsOrder
  cases hspine : book.spine with
  | some items =>
    rw [hspine] at h
    obtain rfl := Except.ok.inj h
    dsimp only
    rw [List.map_map, List.forall₂_map_right_iff, List.forall₂_same]
    exact fun item _ => showsEntry_itemref ⟨item.idref, item.linear⟩
  | none =>
    rw [hspine] at h
    obtain ⟨item, hitem, rfl⟩ := map_eq_ok_iff.mp h
    exact ⟨item, _, Spine.isFirstEligible_of_eq_ok hitem, rfl, showsEntry_itemref ⟨item.id, none⟩⟩

theorem showsReference_of_eq_ok {reference : GuideReference} {element : Element}
    (h : referenceElement layout reference = .ok element) :
    ShowsReference layout reference element := by
  obtain ⟨href, hlink, rfl⟩ := referenceElement_eq_ok_iff.mp h
  refine ⟨href, rfl, carries_of_attributes ["type", "title", "href"] ?_ rfl (by decide), hlink⟩
  simp [referenceTo, Element.attributes, valued, optionalAttribute]

/-- The guide that is written shows that of the recipe. -/
theorem showsGuide_of_eq_ok {elements : List Element} (h : guideElement layout book = .ok elements) :
    ShowsGuide layout book elements := by
  unfold guideElement at h
  unfold ShowsGuide
  cases hguide : book.guide with
  | none =>
    rw [hguide] at h
    exact (Except.ok.inj h).symm
  | some references =>
    rw [hguide] at h
    obtain ⟨children, hchildren, h⟩ := bind_eq_ok_iff.mp h
    obtain rfl := pure_eq_ok_iff.mp h
    exact ⟨_, rfl, (mapM_eq_ok_iff.mp hchildren).imp fun _ _ => showsReference_of_eq_ok⟩

section Accepted

variable (haccepts : Validation.Accepts (Layout.of book) book)

include haccepts

theorem showsNavigation_of_eq_ok {element : Element}
    (h : navigationItem (Layout.of book) = .ok element) :
    ShowsNavigation (Layout.of book) element := by
  obtain ⟨href, hlink, rfl⟩ := navigationItem_eq_ok_iff.mp h
  refine ⟨href, rfl, carries_of_attributes ["id", "href", "media-type"] rfl rfl (by decide), ?_⟩
  exact Edition.follow_link haccepts.packagePath_valid haccepts.navigationPath_valid hlink

theorem showsItem_of_eq_ok {item : ManifestItem} {element : Element}
    (h : itemElement (Layout.of book) item = .ok element) :
    ShowsItem (Layout.of book) item element := by
  obtain ⟨path, hpath, href, hlink, rfl⟩ := itemElement_eq_ok_iff.mp h
  refine ⟨href, rfl, carries_of_attributes ["id", "href", "media-type", "fallback",
    "fallback-style", "required-namespace", "required-modules"] ?_ rfl (by decide), ?_⟩
  · simp [itemTo, Element.attributes, valued, optionalAttribute]
  · rw [Edition.follow_link haccepts.packagePath_valid (haccepts.itemPath_valid hpath) hlink]
    exact hpath

end Accepted

/-! ## 4. The document -/

/-- A package document carries what the recipe says of the package. -/
structure CarriesRecipe (layout : Layout) (book : Book) (metadata : Metadata) (root : Element) :
    Prop where
  metadata : ∃ element, root.childrenNamed "opf:metadata" = [element] ∧
    List.Forall₂ ShowsMetadatum metadata.items element.children
  manifest : ∃ element navigation items, root.childrenNamed "manifest" = [element] ∧
    element.children = navigation :: items ∧ ShowsNavigation layout navigation ∧
    List.Forall₂ (ShowsItem layout) book.manifest items
  spine : ∃ element, root.childrenNamed "spine" = [element] ∧ ShowsOrder book element.children
  guide : ShowsGuide layout book (root.childrenNamed "guide")

/-- The parts of a package document are found by their names. -/
theorem childrenNamed_parts {attributes : List Attribute} {head manifest spine : Element}
    {guide : List Element} (hhead : head.name = "opf:metadata") (hmanifest : manifest.name = "manifest")
    (hspine : spine.name = "spine") (hguide : ∀ element ∈ guide, element.name = "guide") :
    let root := Element.branch "package" attributes (head :: manifest :: spine :: guide)
    root.childrenNamed "opf:metadata" = [head] ∧ root.childrenNamed "manifest" = [manifest] ∧
      root.childrenNamed "spine" = [spine] ∧ root.childrenNamed "guide" = guide := by
  intro root
  have hother : ∀ name, "guide" ≠ name → guide.filter (·.name == name) = [] :=
    fun _ => Element.filter_name_eq_nil hguide
  have hown := Element.filter_name_eq_self hguide
  refine ⟨?_, ?_, ?_, ?_⟩
  all_goals
    rw [Element.childrenNamed, Element.children]
    simp only [List.filter_cons, hhead, hmanifest, hspine]
  · rw [hother _ (by decide)]
    rfl
  · rw [hother _ (by decide)]
    rfl
  · rw [hother _ (by decide)]
    rfl
  · rw [hown]
    rfl

/-- What is written for an accepted book carries the recipe. -/
theorem carriesRecipe_of_element (haccepts : Validation.Accepts (Layout.of book) book)
    {root : Element} (h : element (Layout.of book) book metadata = .ok root) :
    CarriesRecipe (Layout.of book) book metadata root := by
  obtain ⟨manifest, spine, guide, hmanifest, hspine, hguide, rfl⟩ := of_element_eq_ok h
  obtain ⟨navigation, items, hnavigation, hitems, hmanifest⟩ :=
    manifestElement_eq_ok_iff.mp hmanifest
  obtain ⟨entries, hentries, -, hspine⟩ := spineElement_eq_ok_iff.mp hspine
  have hnames : ∀ element ∈ guide, element.name = "guide" := by
    rcases of_guideElement_eq_ok hguide with rfl | ⟨references, -, rfl⟩
    · exact List.forall_mem_nil _
    · exact (List.forall_mem_singleton ..).mpr rfl
  have hshown : List.Forall₂ (ShowsItem (Layout.of book)) book.manifest items :=
    (mapM_eq_ok_iff.mp hitems).imp fun _ _ => showsItem_of_eq_ok haccepts
  obtain ⟨hheadFound, hmanifestFound, hspineFound, hguideFound⟩ := childrenNamed_parts
    (show (metadataElement metadata).name = _ from rfl) (congrArg Element.name hmanifest)
    (congrArg Element.name hspine) hnames
  constructor
  · exact ⟨_, hheadFound, forall₂_metadatumElement metadata.items⟩
  · refine ⟨_, navigation, items, hmanifestFound, ?_,
      showsNavigation_of_eq_ok haccepts hnavigation, hshown⟩
    rw [hmanifest, Element.children]
  · refine ⟨_, hspineFound, ?_⟩
    rw [hspine]
    exact showsOrder_of_entries hentries
  · rw [hguideFound]
    exact showsGuide_of_eq_ok hguide

/-- **The package document carries the recipe.**  It is written for every book that is accepted, and a
reader finds in it the metadata, the manifest, the reading order and the guide, each thing in its place
and with all that the recipe gives it; what an element of the metadata does not take is named in the
warning of its item.  An empty id of a statement counts as none. -/
theorem package_carries_recipe {body : Value} (hread : Book.ofValue body = .ok book)
    (hvalidate : Validation.validate (Layout.of book) book = .ok ()) :
    (∀ environment : Environment, environment.Legal → ∃ text,
      Package.text (Layout.of book) book (Edition.metadata environment (Layout.of book) book) =
        .ok text) ∧
    ∀ (environment : Environment) (text : String),
      Package.text (Layout.of book) book (Edition.metadata environment (Layout.of book) book) =
        .ok text →
      ∃ root, ReadsBack text root ∧
        CarriesRecipe (Layout.of book) book (Edition.metadata environment (Layout.of book) book)
          root ∧
        WarnsOfRest (Edition.metadata environment (Layout.of book) book) := by
  have haccepts := Validation.validate_eq_ok_iff.mp hvalidate
  have hbook := (Book.wellFormed_of_ofValue hread).legalParts
  constructor
  · intro environment henvironment
    obtain ⟨root, hroot, -⟩ := Edition.exists_package haccepts hbook henvironment
    exact ⟨root.document, map_eq_ok_iff.mpr ⟨root, hroot, rfl⟩⟩
  · intro environment text htext
    obtain ⟨root, hroot, hreads⟩ := Package.readsBack_text hbook htext
    exact ⟨root, hreads, carriesRecipe_of_element haccepts hroot, warnsOfRest _⟩

/-- A book that says more of its parts than a package needs, and more than its elements take. -/
def guidedBook : Book where
  metadata := some [
    .custom "cover" "drawing",
    .core { element := .title, content := "Walks", id := some "", role := some "aut",
            lang := some "en" },
    .core { element := .creator, content := "A. Walker", id := some "author",
            scheme := some "names", fileAs := some "Walker, A.", event := some "birth" }]
  manifest := [
    { source := "page.xhtml", path := "text/page.xhtml", mediaType := "application/xhtml+xml",
      id := "page" },
    { source := "map.svg", path := "map.svg", mediaType := "image/svg+xml", id := "map",
      fallback := some "page", fallbackStyle := some "page", requiredModules := some "animation" }]
  spine := some [.bare "page", .marked "map" (some false)]
  guide := some [{ type := "text", idref := "page", fragment := some "start" },
    { type := "cover", idref := "map", title := some "Map" }]

theorem guidedBook_accepted : Validation.Accepts (Layout.of guidedBook) guidedBook := by
  refine Validation.accepts_of_linear rfl (by decide) ⟨"page", rfl⟩
    (Validation.checkPaths_eq_ok_iff.mpr (by decide +kernel))
    (Validation.checkIdentifiers_eq_ok_iff.mpr (by decide +kernel)) (by decide)
    (Validation.resolve_of_lookup (by decide +kernel)) ?_
  rw [List.forall_mem_singleton, Spine.eligible,
    Spine.reaches_of_passes ⟨by decide, "page", rfl, rfl⟩ (by decide)]
  exact ⟨true, Spine.reaches_of_document (by decide)⟩

theorem guidedBook_carried : Book.ofValue guidedBook.toValue = .ok guidedBook ∧
    Validation.validate (Layout.of guidedBook) guidedBook = .ok () ∧ ∃ text root,
      Package.text (Layout.of guidedBook) guidedBook
        (Edition.metadata Edition.plainEnvironment (Layout.of guidedBook) guidedBook) = .ok text ∧
      ReadsBack text root ∧
      CarriesRecipe (Layout.of guidedBook) guidedBook
        (Edition.metadata Edition.plainEnvironment (Layout.of guidedBook) guidedBook) root := by
  have hread : Book.ofValue guidedBook.toValue = .ok guidedBook := rfl
  have hvalidate := Validation.validate_eq_ok_iff.mpr guidedBook_accepted
  obtain ⟨hwritten, hcarried⟩ := package_carries_recipe hread hvalidate
  obtain ⟨text, htext⟩ := hwritten Edition.plainEnvironment Edition.legal_plainEnvironment
  obtain ⟨root, hreads, hcarries, -⟩ := hcarried Edition.plainEnvironment text htext
  exact ⟨hread, hvalidate, text, root, htext, hreads, hcarries⟩

end Bindery.Document.Package
