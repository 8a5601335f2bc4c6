/-
# Books that are read are well-formed

Every text of a recipe is looked at when its field is read, so all texts of a book that has been read
are texts which XML allows.  The proof follows the reading: the fields first, then each part of a book,
then the book (`Book.wellFormed_of_ofValue`).
-/
import Bindery.Book.Reading
import Bindery.Book.Writing
import Bindery.Proofs.Success
import Bindery.Proofs.Xml.Legal

namespace Bindery

open Value

/-- All of some texts are texts that XML allows. -/
def AllLegal (texts : List String) : Prop := ∀ text ∈ texts, Xml.isLegalText text = true

@[simp] theorem allLegal_nil : AllLegal [] := by simp [AllLegal]

@[simp] theorem allLegal_cons {text : String} {texts : List String} :
    AllLegal (text :: texts) ↔ Xml.isLegalText text = true ∧ AllLegal texts := by
  simp [AllLegal]

@[simp] theorem allLegal_append {texts more : List String} :
    AllLegal (texts ++ more) ↔ AllLegal texts ∧ AllLegal more := by
  simp [AllLegal, or_imp, forall_and]

theorem allLegal_flatMap {α : Type} {texts : α → List String} {items : List α} :
    AllLegal (items.flatMap texts) ↔ ∀ item ∈ items, AllLegal (texts item) := by
  simp only [AllLegal, List.mem_flatMap]
  exact ⟨fun h item hitem text htext => h text ⟨item, hitem, htext⟩,
    fun h text ⟨item, hitem, htext⟩ => h item hitem text htext⟩

@[simp] theorem given_nil : given [] = [] := rfl

@[simp] theorem given_cons (text : Option String) (texts : List (Option String)) :
    given (text :: texts) = text.toList ++ given texts := by
  cases text <;> simp [given]

/-! ## 1. Fields -/

theorem legal_of_asText {place : Place} {value : Value} {text : String}
    (h : value.asText place = .ok text) : Xml.isLegalText text = true := by
  unfold asText at h
  split at h
  · rename_i s
    split at h
    · cases h
    · rename_i hnone
      cases h
      simpa [Xml.illegal?, Xml.isLegalText] using hnone
  · cases h

theorem legal_of_requiredText {fields : Fields} {place : Place} {key text : String}
    (h : fields.requiredText place key = .ok text) : Xml.isLegalText text = true := by
  unfold Fields.requiredText at h
  split at h
  · cases h
  · exact legal_of_asText h

theorem legal_of_optionalText {fields : Fields} {place : Place} {key : String}
    {text : Option String} (h : fields.optionalText place key = .ok text) :
    AllLegal text.toList := by
  unfold Fields.optionalText at h
  split at h
  · cases h
    simp
  · obtain ⟨s, hs, rfl⟩ := map_eq_ok_iff.mp h
    simpa using legal_of_asText hs

/-- What is read from the items of a list has the property that each reading ensures. -/
theorem forall_of_readItems {α β : Type} {read : Place → α → Except Fault β} {P : β → Prop}
    {place : Place} {items : List α} {values : List β}
    (hread : ∀ place item value, read place item = .ok value → P value)
    (h : readItems read place items = .ok values) : ∀ value ∈ values, P value := by
  intro value hvalue
  obtain ⟨⟨item, index⟩, -, hitem⟩ := exists_of_mem_mapM h hvalue
  exact hread _ _ _ hitem

theorem forall_of_readOptional {α β : Type} {read : Place → α → Except Fault β} {P : β → Prop}
    {key : String} {items : Option (List α)} {values : Option (List β)}
    (hread : ∀ place item value, read place item = .ok value → P value)
    (h : readOptional read key items = .ok values) : ∀ value ∈ values.getD [], P value := by
  unfold readOptional at h
  split at h
  · cases h
    simp
  · obtain ⟨list, hlist, rfl⟩ := map_eq_ok_iff.mp h
    simpa using forall_of_readItems hread hlist

/-! ## 2. Parts of a book -/

theorem Rootfile.legal_of_read {place : Place} {fields : Fields} {rootfile : Rootfile}
    (h : Rootfile.read place fields = .ok rootfile) :
    AllLegal [rootfile.path, rootfile.mediaType] := by
  simp only [Rootfile.read, bind_eq_ok_iff, pure_eq_ok_iff] at h
  obtain ⟨path, hpath, mediaType, hmediaType, rfl⟩ := h
  simp [legal_of_requiredText hpath, legal_of_requiredText hmediaType]

theorem Metadatum.legal_of_read {place : Place} {fields : Fields} {item : Metadatum}
    (h : Metadatum.read place fields = .ok item) : AllLegal item.texts := by
  unfold Metadatum.read at h
  split at h
  · simp only [bind_eq_ok_iff, pure_eq_ok_iff] at h
    obtain ⟨name, hname, content, hcontent, rfl⟩ := h
    simp [Metadatum.texts, legal_of_requiredText hname, legal_of_requiredText hcontent]
  · simp only [bind_eq_ok_iff] at h
    obtain ⟨name, -, h⟩ := h
    split at h
    · cases h
    · simp only [bind_eq_ok_iff, pure_eq_ok_iff] at h
      obtain ⟨content, hcontent, id, hid, scheme, hscheme, fileAs, hfileAs, role, hrole, event,
        hevent, lang, hlang, rfl⟩ := h
      simp [Metadatum.texts, legal_of_requiredText hcontent, legal_of_optionalText hid,
        legal_of_optionalText hscheme, legal_of_optionalText hfileAs, legal_of_optionalText hrole,
        legal_of_optionalText hevent, legal_of_optionalText hlang]

/-- A manifest item that has been read has legal texts, and its path names a file. -/
theorem ManifestItem.legal_of_read {place : Place} {fields : Fields} {item : ManifestItem}
    (h : ManifestItem.read place fields = .ok item) :
    AllLegal item.texts ∧ EntryPath.normalize item.path ≠ "" := by
  unfold ManifestItem.read at h
  simp only [bind_eq_ok_iff] at h
  obtain ⟨path, hpath, h⟩ := h
  split at h
  · cases h
  · rename_i hname
    simp only [bind_eq_ok_iff, pure_eq_ok_iff] at h
    obtain ⟨source, hsource, mediaType, hmediaType, id, hid, fallback, hfallback, style, hstyle,
      requires, hrequires, modules, hmodules, rfl⟩ := h
    refine ⟨?_, hname⟩
    simp [ManifestItem.texts, legal_of_requiredText hpath, legal_of_requiredText hsource,
      legal_of_requiredText hmediaType, legal_of_requiredText hid, legal_of_optionalText hfallback,
      legal_of_optionalText hstyle, legal_of_optionalText hrequires,
      legal_of_optionalText hmodules]

theorem ExtraFile.legal_of_read {place : Place} {fields : Fields} {file : ExtraFile}
    (h : ExtraFile.read place fields = .ok file) : AllLegal [file.source, file.path] := by
  simp only [ExtraFile.read, bind_eq_ok_iff, pure_eq_ok_iff] at h
  obtain ⟨source, hsource, path, hpath, rfl⟩ := h
  simp [legal_of_requiredText hsource, legal_of_requiredText hpath]

theorem SpineItem.legal_of_read {place : Place} {value : Value} {item : SpineItem}
    (h : SpineItem.read place value = .ok item) : AllLegal item.texts := by
  unfold SpineItem.read at h
  split at h
  · cases h
    simp [SpineItem.texts]
  · simp only [bind_eq_ok_iff, pure_eq_ok_iff] at h
    obtain ⟨fields, -, idref, hidref, linear, -, rfl⟩ := h
    simp [SpineItem.texts, legal_of_requiredText hidref]

theorem GuideReference.legal_of_read {place : Place} {fields : Fields}
    {reference : GuideReference} (h : GuideReference.read place fields = .ok reference) :
    AllLegal reference.texts := by
  simp only [GuideReference.read, bind_eq_ok_iff, pure_eq_ok_iff] at h
  obtain ⟨type, htype, idref, hidref, title, htitle, fragment, hfragment, rfl⟩ := h
  simp [GuideReference.texts, legal_of_requiredText htype, legal_of_requiredText hidref,
    legal_of_optionalText htitle, legal_of_optionalText hfragment]

theorem NavigationFile.legal_of_read {value : Value} {file : NavigationFile}
    (h : NavigationFile.read value = .ok file) : AllLegal (given [file.id, file.path]) := by
  simp only [NavigationFile.read, bind_eq_ok_iff, pure_eq_ok_iff] at h
  obtain ⟨fields, -, id, hid, path, hpath, rfl⟩ := h
  simp [legal_of_optionalText hid, legal_of_optionalText hpath]

/-! ## 3. Navigation -/

theorem NavLabel.legal_of_read {place : Place} {value : Value} {label : NavLabel}
    (h : NavLabel.read place value = .ok label) : AllLegal (label.text :: label.lang.toList) := by
  simp only [NavLabel.read, bind_eq_ok_iff, pure_eq_ok_iff] at h
  obtain ⟨fields, -, text, htext, lang, hlang, rfl⟩ := h
  simp [legal_of_requiredText htext, legal_of_optionalText hlang]

theorem Label.legal_of_read {place : Place} {fields : Fields} {label : Label}
    (h : Label.read place fields = .ok label) : AllLegal label.texts := by
  unfold Label.read at h
  split at h
  · cases h
  · obtain ⟨text, htext, rfl⟩ := map_eq_ok_iff.mp h
    simp [Label.texts, Label.labels, legal_of_requiredText htext]
  · simp only [bind_eq_ok_iff] at h
    obtain ⟨items, -, labels, hlabels, h⟩ := h
    have hall := forall_of_readItems (fun _ _ _ => NavLabel.legal_of_read) hlabels
    split at h
    · cases h
    · cases h
      exact allLegal_flatMap.mpr hall
  · cases h

theorem NavPoint.legal_of_read {place : Place} {fields : Fields} {point : NavPoint}
    (h : NavPoint.read place fields = .ok point) :
    AllLegal (targetTexts point.label point.idref point.fragment) := by
  simp only [NavPoint.read, bind_eq_ok_iff, pure_eq_ok_iff] at h
  obtain ⟨label, hlabel, idref, hidref, fragment, hfragment, rfl⟩ := h
  simp [targetTexts, Label.legal_of_read hlabel, legal_of_requiredText hidref,
    legal_of_optionalText hfragment]

namespace NavTree

theorem textsAll_node (point : NavPoint) (children rest : List NavTree) :
    textsAll (.node point children :: rest) =
      targetTexts point.label point.idref point.fragment ++ (textsAll children ++
        textsAll rest) := by
  simp [textsAll, pointsAll, points]

theorem textsAll_cons (tree : NavTree) (rest : List NavTree) :
    textsAll (tree :: rest) = textsAll [tree] ++ textsAll rest := by
  simp [textsAll, pointsAll]

mutual

theorem legal_of_read {place : Place} : ∀ {value : Value} {tree : NavTree},
    read place value = .ok tree → AllLegal (textsAll [tree])
  | .table fields, tree, h => by
    simp only [read, bind_eq_ok_iff, pure_eq_ok_iff] at h
    obtain ⟨children, hchildren, point, hpoint, rfl⟩ := h
    rw [textsAll_node]
    simp only [allLegal_append]
    exact ⟨NavPoint.legal_of_read hpoint, legal_of_readChildren hchildren, allLegal_nil⟩
  | .null, _, h | .bool _, _, h | .int _, _, h | .decimal _, _, h | .text _, _, h
  | .list _, _, h | .dateTime _, _, h | .date _, _, h | .time _, _, h => by
    simp [read, refuse] at h

theorem legal_of_readChildren {place : Place} : ∀ {fields : List (String × Value)}
    {forest : List NavTree}, readChildren place fields = .ok forest → AllLegal (textsAll forest)
  | [], _, h => by
    cases h
    exact allLegal_nil
  | (key, value) :: rest, _, h => by
    rw [readChildren] at h
    split at h
    · exact legal_of_readBelow h
    · exact legal_of_readChildren h

theorem legal_of_readBelow {place : Place} : ∀ {value : Value} {forest : List NavTree},
    readBelow place value = .ok forest → AllLegal (textsAll forest)
  | .null, _, h => by
    cases h
    exact allLegal_nil
  | .list items, _, h => by
    rw [readBelow] at h
    exact legal_of_readForest h
  | .table _, _, h | .bool _, _, h | .int _, _, h | .decimal _, _, h | .text _, _, h
  | .dateTime _, _, h | .date _, _, h | .time _, _, h => by
    simp [readBelow, refuse] at h

theorem legal_of_readForest {place : Place} {index : Nat} : ∀ {items : List Value}
    {forest : List NavTree}, readForest place index items = .ok forest →
      AllLegal (textsAll forest)
  | [], _, h => by
    cases h
    exact allLegal_nil
  | value :: rest, _, h => by
    simp only [readForest, bind_eq_ok_iff, pure_eq_ok_iff] at h
    obtain ⟨tree, htree, trees, htrees, rfl⟩ := h
    rw [textsAll_cons, allLegal_append]
    exact ⟨legal_of_read htree, legal_of_readForest htrees⟩

end

end NavTree

theorem PageTarget.legal_of_readValue {place : Place} {fields : Fields} {value : Option String}
    (h : PageTarget.readValue place fields = .ok value) : AllLegal value.toList := by
  unfold PageTarget.readValue at h
  split at h
  · cases h
    simp
  · obtain ⟨text, htext, rfl⟩ := map_eq_ok_iff.mp h
    unfold numeral at htext
    split at htext
    · cases htext
    · cases htext
      simpa using Xml.isLegalText_toString_int _
  · obtain ⟨text, htext, rfl⟩ := map_eq_ok_iff.mp h
    simpa using legal_of_asText htext
  · cases h

theorem PageTarget.legal_of_read {place : Place} {fields : Fields} {page : PageTarget}
    (h : PageTarget.read place fields = .ok page) : AllLegal page.texts := by
  simp only [PageTarget.read, bind_eq_ok_iff] at h
  obtain ⟨kindName, -, h⟩ := h
  split at h
  · cases h
  · simp only [bind_eq_ok_iff, pure_eq_ok_iff] at h
    obtain ⟨value, hvalue, label, hlabel, id, hid, idref, hidref, fragment, hfragment, rfl⟩ := h
    simp [PageTarget.texts, targetTexts, PageTarget.legal_of_readValue hvalue,
      Label.legal_of_read hlabel, legal_of_requiredText hid, legal_of_requiredText hidref,
      legal_of_optionalText hfragment]

theorem NavTarget.legal_of_read {place : Place} {value : Value} {target : NavTarget}
    (h : NavTarget.read place value = .ok target) :
    AllLegal (targetTexts target.label target.idref target.fragment) := by
  simp only [NavTarget.read, bind_eq_ok_iff, pure_eq_ok_iff] at h
  obtain ⟨fields, -, label, hlabel, idref, hidref, fragment, hfragment, rfl⟩ := h
  simp [targetTexts, Label.legal_of_read hlabel, legal_of_requiredText hidref,
    legal_of_optionalText hfragment]

theorem NavList.legal_of_read {place : Place} {fields : Fields} {navList : NavList}
    (h : NavList.read place fields = .ok navList) : AllLegal navList.texts := by
  unfold NavList.read at h
  split at h
  · cases h
  · simp only [bind_eq_ok_iff, pure_eq_ok_iff] at h
    obtain ⟨items, -, targets, htargets, label, hlabel, rfl⟩ := h
    have hall := forall_of_readItems (fun _ _ _ => NavTarget.legal_of_read) htargets
    simpa [NavList.texts, Label.legal_of_read hlabel] using allLegal_flatMap.mpr hall

/-! ## 4. The book -/

/-- The texts of each part of a book are legal. -/
structure Book.LegalParts (book : Book) : Prop where
  items : ∀ item ∈ book.manifest, AllLegal item.texts
  rootfiles : ∀ rootfile ∈ book.rootfiles.getD [], AllLegal [rootfile.path, rootfile.mediaType]
  metadata : ∀ item ∈ book.metadata.getD [], AllLegal item.texts
  spine : ∀ item ∈ book.spine.getD [], AllLegal item.texts
  guide : ∀ reference ∈ book.guide.getD [], AllLegal reference.texts
  navigationFile :
    AllLegal ((book.navigationFile.map fun file => given [file.id, file.path]).getD [])
  contents : AllLegal (NavTree.textsAll book.contents)
  pages : ∀ page ∈ book.pages.getD [], AllLegal page.texts
  navLists : ∀ navList ∈ book.navLists.getD [], AllLegal navList.texts
  extraFiles : ∀ file ∈ book.extraFiles, AllLegal [file.source, file.path]

theorem Book.legalParts_iff {book : Book} : book.LegalParts ↔ AllLegal book.texts := by
  simp only [Book.texts, allLegal_append, allLegal_flatMap]
  constructor
  · intro h
    exact ⟨⟨⟨⟨⟨⟨⟨⟨⟨h.items, h.rootfiles⟩, h.metadata⟩, h.spine⟩, h.guide⟩, h.navigationFile⟩,
      h.contents⟩, h.pages⟩, h.navLists⟩, h.extraFiles⟩
  · rintro ⟨⟨⟨⟨⟨⟨⟨⟨⟨hitems, hrootfiles⟩, hmetadata⟩, hspine⟩, hguide⟩, hnavigationFile⟩,
      hcontents⟩, hpages⟩, hnavLists⟩, hextraFiles⟩
    exact ⟨hitems, hrootfiles, hmetadata, hspine, hguide, hnavigationFile, hcontents, hpages,
      hnavLists, hextraFiles⟩

theorem Book.WellFormed.legalParts {book : Book} (h : book.WellFormed) : book.LegalParts :=
  Book.legalParts_iff.mpr h.texts_legal

/-- **A book that has been read is well-formed.** -/
theorem Book.wellFormed_of_ofValue {body : Value} {book : Book}
    (h : Book.ofValue body = .ok book) : book.WellFormed := by
  unfold Book.ofValue at h
  simp only [bind_eq_ok_iff] at h
  obtain ⟨fields, -, h⟩ := h
  split at h
  · cases h
  · simp only [bind_eq_ok_iff, pure_eq_ok_iff] at h
    obtain ⟨_, -, _, -, _, -, _, -, _, -, _, -, _, -, _, -, navigationFile, hnavigationFile, _, -,
      manifest, hmanifest, rootfiles, hrootfiles, metadata, hmetadata, spine, hspine, guide, hguide,
      contents, hcontents, pages, hpages, navLists, hnavLists, extraFiles, hextraFiles, rfl⟩ := h
    have hitems := forall_of_readItems (fun _ _ _ => ManifestItem.legal_of_read) hmanifest
    have hfile : AllLegal ((navigationFile.map fun file => given [file.id, file.path]).getD []) := by
      cases hpresent : fields.present? "ncx_meta" with
      | none =>
        rw [hpresent] at hnavigationFile
        cases hnavigationFile
        exact allLegal_nil
      | some value =>
        rw [hpresent, Option.mapM_some] at hnavigationFile
        obtain ⟨file, hfile, rfl⟩ := map_eq_ok_iff.mp hnavigationFile
        exact NavigationFile.legal_of_read hfile
    refine ⟨Book.legalParts_iff.mp ?_, fun item hitem => (hitems item hitem).2⟩
    exact {
      items := fun item hitem => (hitems item hitem).1
      rootfiles := forall_of_readOptional (fun _ _ _ => Rootfile.legal_of_read) hrootfiles
      metadata := forall_of_readOptional (fun _ _ _ => Metadatum.legal_of_read) hmetadata
      spine := forall_of_readOptional (fun _ _ _ => SpineItem.legal_of_read) hspine
      guide := forall_of_readOptional (fun _ _ _ => GuideReference.legal_of_read) hguide
      navigationFile := hfile
      contents := NavTree.legal_of_readForest hcontents
      pages := forall_of_readOptional (fun _ _ _ => PageTarget.legal_of_read) hpages
      navLists := forall_of_readOptional (fun _ _ _ => NavList.legal_of_read) hnavLists
      extraFiles := forall_of_readItems (fun _ _ _ => ExtraFile.legal_of_read) hextraFiles }

end Bindery
